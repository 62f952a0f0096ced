import TimelapseManager.Lib.Occurrence

/-!
# The forms of a value and the secret scrubber

A value may reach a report as it is, inside JSON or inside a URL.  `variants` lists these forms, and
`Scrubber.contains` looks for every form of every secret in the bytes of a text.
-/

namespace TimelapseManager.Reports

abbrev Text := List Char

abbrev Bytes := List UInt8

/-- `str.encode("utf-8")`. -/
def encodeUtf8 (text : Text) : Bytes :=
  text.flatMap String.utf8EncodeChar

/-- `'\\u{0:04x}'.format(number)`. -/
def jsonHex (number : ℕ) : Text :=
  let digits := Nat.toDigits 16 number
  ['\\', 'u'] ++ List.replicate (4 - digits.length) '0' ++ digits

/-- What `json.dumps` writes for one character of a string, with or without `ensure_ascii`. -/
def jsonChar (ensureAscii : Bool) (char : Char) : Text :=
  let number := char.toNat
  if char = '\\' then ['\\', '\\']
  else if char = '\x22' then ['\\', '\x22']
  else if number = 0x08 then ['\\', 'b']
  else if number = 0x0c then ['\\', 'f']
  else if char = '\n' then ['\\', 'n']
  else if char = '\r' then ['\\', 'r']
  else if char = '\t' then ['\\', 't']
  else if number < 0x20 then jsonHex number
  else if ensureAscii = true ∧ 0x7e < number then
    -- A character beyond the first plane is written as a surrogate pair.
    if number < 0x10000 then jsonHex number
    else
      jsonHex (0xd800 + (number - 0x10000) / 0x400) ++ jsonHex (0xdc00 + (number - 0x10000) % 0x400)
  else [char]

/-- `json.dumps(text)[1:-1]`. -/
def jsonBody (ensureAscii : Bool) (text : Text) : Text :=
  text.flatMap (jsonChar ensureAscii)

/-- The bytes `urllib.parse.quote` never encodes. -/
def alwaysSafe (byte : UInt8) : Bool :=
  let char := Char.ofNat byte.toNat
  char.isAlphanum || ['_', '.', '-', '~'].contains char

/-- What `urllib.parse.quote` and `quote_plus` write for one byte. -/
def quoteByte (plus : Bool) (byte : UInt8) : Text :=
  if alwaysSafe byte then [Char.ofNat byte.toNat]
  else if plus = true ∧ byte = 0x20 then ['+']
  else
    let digit := fun value => (Nat.digitChar value).toUpper
    ['%', digit (byte.toNat / 16), digit (byte.toNat % 16)]

/-- `urllib.parse.quote(text, safe="")`, and `quote_plus` where a space becomes a plus. -/
def quote (plus : Bool) (text : Text) : Text :=
  (encodeUtf8 text).flatMap (quoteByte plus)

/-- `_variants`. -/
def variants (secret : Text) : List Text :=
  [secret, jsonBody true secret, jsonBody false secret, quote false secret, quote true secret]

def minSecretLength : ℕ := 4

/-- What is looked for in a bundle. -/
structure Scrubber where
  needles : List Bytes

/-- `Scrubber(secrets)`; the order of the needles matters to `scrub` only. -/
def Scrubber.ofSecrets (secrets : List Text) : Scrubber where
  needles := ((secrets.flatMap variants).filter fun variant =>
    minSecretLength ≤ variant.length).map encodeUtf8

/-- `Scrubber.contains`. -/
def Scrubber.contains (scrubber : Scrubber) (data : Bytes) : Bool :=
  scrubber.needles.any fun needle => (Occurrence.find needle data).isSome

end TimelapseManager.Reports
