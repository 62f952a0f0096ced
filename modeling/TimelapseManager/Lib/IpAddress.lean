import Mathlib

/-!
# Addresses and their texts

The part of Python's `ipaddress` that decides about addresses: IPv4 and IPv6 addresses, the
networks they may lie in, and how both are read from and written to text.  A text is a list of
characters.

* `Address.ofText` is `ip_address`, `Address.text` is `str`, `Network.ofText` is `ip_network`
  without `strict`.
* The predicates `isLoopback`, `isPrivate` and so on are membership in the networks of the
  special-purpose registries.
* `Address.ofText_text`: what is written is read back, for every address.
-/

namespace TimelapseManager.IpAddress

abbrev Text := List Char

/-! ## Numbers in groups -/

/-- The value of groups, the first one the most significant. -/
def ofGroups (base : ℕ) (groups : List ℕ) : ℕ :=
  groups.foldl (fun value group => value * base + group) 0

def groups (base : ℕ) : ℕ → ℕ → List ℕ
  | 0, _ => []
  | count + 1, value => groups base count (value / base) ++ [value % base]

/-! ## IPv4 -/

def parseOctet (text : Text) : Option ℕ :=
  if text = [] then none
  else if text.all Char.isDigit = false then none
  else if 3 < text.length then none
  else if text ≠ ['0'] ∧ text.head? = some '0' then none
  else if 255 < Nat.ofDigitChars 10 text 0 then none
  else some (Nat.ofDigitChars 10 text 0)

def readV4 (text : Text) : Option ℕ :=
  if text = [] then none
  else
    let octets := text.splitOn '.'
    if octets.length ≠ 4 then none
    else (octets.mapM parseOctet).map (ofGroups 256)

def showV4 (value : ℕ) : Text :=
  ['.'].intercalate ((groups 256 4 value).map (Nat.toDigits 10))

/-! ## IPv6 -/

def hexValue (char : Char) : Option ℕ :=
  if '0' ≤ char ∧ char ≤ '9' then some (char.toNat - '0'.toNat)
  else if 'a' ≤ char ∧ char ≤ 'f' then some (char.toNat - 'a'.toNat + 10)
  else if 'A' ≤ char ∧ char ≤ 'F' then some (char.toNat - 'A'.toNat + 10)
  else none

def parseHextet (text : Text) : Option ℕ :=
  match text.mapM hexValue with
  | none => none
  | some values => if 4 < text.length ∨ text = [] then none else some (ofGroups 16 values)

/-- The inner parts that are empty. -/
def emptyParts (parts : List Text) : List ℕ :=
  parts.tail.dropLast.findIdxs (· = []) 1

/-- The hextets of the parts, with a run of zeros for a `::`. -/
def hextetsOf (parts : List Text) : Option (List ℕ) :=
  match emptyParts parts with
  | [] =>
    if parts.length ≠ 8 ∨ parts.head? = some [] ∨ parts.getLast? = some [] then none
    else parts.mapM parseHextet
  | [skip] =>
    let leading := parts.head? = some []
    let trailing := parts.getLast? = some []
    let high := if leading then skip - 1 else skip
    let low := if trailing then parts.length - skip - 2 else parts.length - skip - 1
    if leading ∧ high ≠ 0 ∨ trailing ∧ low ≠ 0 ∨ 8 ≤ high + low then none
    else
      match (parts.take high).mapM parseHextet,
          (parts.drop (parts.length - low)).mapM parseHextet with
      | some first, some last => some (first ++ List.replicate (8 - (high + low)) 0 ++ last)
      | _, _ => none
  | _ => none

def expandV4Suffix (parts : List Text) : Option (List Text) :=
  match parts.getLast? with
  | none => some parts
  | some last =>
    if '.' ∈ last then
      (readV4 last).map fun value =>
        parts.dropLast ++ [Nat.toDigits 16 (value / 65536), Nat.toDigits 16 (value % 65536)]
    else some parts

def readV6 (text : Text) : Option ℕ :=
  if text = [] then none
  else
    let parts := text.splitOn ':'
    if parts.length < 3 then none
    else
      match expandV4Suffix parts with
      | none => none
      | some parts =>
        if 9 < parts.length then none else (hextetsOf parts).map (ofGroups 65536)

structure ZeroRun where
  start : ℕ
  length : ℕ

/-- The loop of `_compress_hextets`: the longest run of zeros so far, and the run that goes up
to here. -/
def longestRun : List Text → ℕ → ZeroRun → Option ZeroRun → ZeroRun
  | [], _, best, _ => best
  | hextet :: hextets, index, best, current =>
    if hextet = ['0'] then
      let run : ZeroRun :=
        match current with
        | none => ⟨index, 1⟩
        | some run => ⟨run.start, run.length + 1⟩
      longestRun hextets (index + 1) (if best.length < run.length then run else best) (some run)
    else longestRun hextets (index + 1) best none

def compressHextets (hextets : List Text) : List Text :=
  let best := longestRun hextets 0 ⟨0, 0⟩ none
  if 1 < best.length then
    (if best.start = 0 then [[]] else []) ++ hextets.take best.start ++ [[]] ++
      hextets.drop (best.start + best.length) ++
      (if best.start + best.length = hextets.length then [[]] else [])
  else hextets

def showV6 (value : ℕ) : Text :=
  [':'].intercalate (compressHextets ((groups 65536 8 value).map (Nat.toDigits 16)))

/-! ## Addresses -/

abbrev Scope := { text : Text // text ≠ [] ∧ '%' ∉ text ∧ '/' ∉ text }

inductive Address
  | v4 (value : Fin (2 ^ 32))
  | v6 (value : Fin (2 ^ 128)) (scope : Option Scope)
  deriving DecidableEq

namespace Address

/-- So that every IPv4 value is built with one instance. -/
instance neZeroV4 : NeZero (2 ^ 32) := inferInstance

def ofTextV4 (text : Text) : Option Address :=
  if '/' ∈ text then none else (readV4 text).map fun value => .v4 (Fin.ofNat _ value)

def ofTextV6 (text : Text) : Option Address :=
  if '/' ∈ text then none
  else
    match text.dropWhile (· ≠ '%') with
    | [] => (readV6 text).map fun value => .v6 (Fin.ofNat _ value) none
    | _ :: scope =>
      if hScope : scope ≠ [] ∧ '%' ∉ scope ∧ '/' ∉ scope then
        (readV6 (text.takeWhile (· ≠ '%'))).map fun value =>
          .v6 (Fin.ofNat _ value) (some ⟨scope, hScope⟩)
      else none

def ofText (text : Text) : Option Address :=
  match ofTextV4 text with
  | some address => some address
  | none => ofTextV6 text

def text : Address → Text
  | .v4 value => showV4 value
  | .v6 value none => showV6 value
  | .v6 value (some scope) => showV6 value ++ '%' :: scope.val

end Address

/-! ## Networks -/

/-- A network: the addresses that agree with `address` in their first `prefixlen` bits. -/
structure Network where
  bits : ℕ
  address : ℕ
  prefixlen : ℕ

/-- The number of bits of an address, which tells the version. -/
def Address.bits : Address → ℕ
  | .v4 _ => 32
  | .v6 _ _ => 128

def Address.value : Address → ℕ
  | .v4 value => value
  | .v6 value _ => value

namespace Network

/-- The value with the bits after the first ones cleared: `value & netmask`. -/
def mask (bits prefixlen value : ℕ) : ℕ :=
  value / 2 ^ (bits - prefixlen) * 2 ^ (bits - prefixlen)

def contains (network : Network) (address : Address) : Bool :=
  address.bits = network.bits && mask network.bits network.prefixlen address.value = network.address

def ofOctets (a b c d prefixlen : ℕ) : Network :=
  ⟨32, ofGroups 256 [a, b, c, d], prefixlen⟩

/-- The IPv6 network of the first hextets, the others zero. -/
def ofHextets (hextets : List ℕ) (prefixlen : ℕ) : Network :=
  ⟨128, ofGroups 65536 (hextets ++ List.replicate (8 - hextets.length) 0), prefixlen⟩

/-- `_prefix_from_prefix_string`.  `int` takes at most 4300 digits. -/
def prefixlenOfDigits (bits : ℕ) (text : Text) : Option ℕ :=
  if text = [] ∨ text.all Char.isDigit = false ∨ 4300 < text.length then none
  else if bits < Nat.ofDigitChars 10 text 0 then none
  else some (Nat.ofDigitChars 10 text 0)

def trailingZeros : ℕ → ℕ → ℕ
  | 0, _ => 0
  | bits + 1, value => if value % 2 = 1 then 0 else trailingZeros bits (value / 2) + 1

def prefixlenOfMask (value : ℕ) : Option ℕ :=
  let zeros := trailingZeros 32 value
  if value / 2 ^ zeros = 2 ^ (32 - zeros) - 1 then some (32 - zeros) else none

/-- `_prefix_from_ip_string`: a netmask, or else a hostmask. -/
def prefixlenOfQuad (text : Text) : Option ℕ :=
  match readV4 text with
  | none => none
  | some value =>
    match prefixlenOfMask value with
    | some prefixlen => some prefixlen
    | none => prefixlenOfMask (2 ^ 32 - 1 - value)

def prefixlenV4 (text : Text) : Option ℕ :=
  match prefixlenOfDigits 32 text with
  | some prefixlen => some prefixlen
  | none => prefixlenOfQuad text

/-- `IPv4Network` and `IPv6Network` of a text, without `strict`: the host bits are cleared. -/
def ofTextOf (bits : ℕ) (address : Text → Option Address) (prefixlenOf : Text → Option ℕ)
    (text : Text) : Option Network :=
  match text.splitOn '/' with
  | [host] => (address host).map fun host => ⟨bits, host.value, bits⟩
  | [host, mask] =>
    match address host, prefixlenOf mask with
    | some host, some prefixlen =>
      some ⟨bits, Network.mask bits prefixlen host.value, prefixlen⟩
    | _, _ => none
  | _ => none

def ofText (text : Text) : Option Network :=
  match ofTextOf 32 Address.ofTextV4 prefixlenV4 text with
  | some network => some network
  | none => ofTextOf 128 Address.ofTextV6 (prefixlenOfDigits 128) text

end Network

/-! ## Special-purpose addresses -/

namespace Address

open Network (ofOctets ofHextets)

def inAny (address : Address) (networks : List Network) : Bool :=
  networks.any (·.contains address)

def ipv4Mapped : Address → Option Address
  | .v4 _ => none
  | .v6 value _ =>
    if value.val / 2 ^ 32 = 0xFFFF then some (.v4 (Fin.ofNat _ value.val)) else none

def isLoopback : Address → Bool
  | .v4 value => (ofOctets 127 0 0 0 8).contains (.v4 value)
  | .v6 value _ => value.val = 1

def isLinkLocal (address : Address) : Bool :=
  address.inAny [ofOctets 169 254 0 0 16, ofHextets [0xfe80] 10]

def isUnspecified (address : Address) : Bool :=
  address.value = 0

def isMulticast (address : Address) : Bool :=
  address.inAny [ofOctets 224 0 0 0 4, ofHextets [0xff00] 8]

def isReserved (address : Address) : Bool :=
  address.inAny
    [ofOctets 240 0 0 0 4, ofHextets [] 8, ofHextets [0x100] 8, ofHextets [0x200] 7,
      ofHextets [0x400] 6, ofHextets [0x800] 5, ofHextets [0x1000] 4, ofHextets [0x4000] 3,
      ofHextets [0x6000] 3, ofHextets [0x8000] 3, ofHextets [0xA000] 3, ofHextets [0xC000] 3,
      ofHextets [0xE000] 4, ofHextets [0xF000] 5, ofHextets [0xF800] 6, ofHextets [0xFE00] 9]

def privateNetworks : List Network :=
  [ofOctets 0 0 0 0 8, ofOctets 10 0 0 0 8, ofOctets 127 0 0 0 8, ofOctets 169 254 0 0 16,
    ofOctets 172 16 0 0 12, ofOctets 192 0 0 0 24, ofOctets 192 0 0 170 31,
    ofOctets 192 0 2 0 24, ofOctets 192 168 0 0 16, ofOctets 198 18 0 0 15,
    ofOctets 198 51 100 0 24, ofOctets 203 0 113 0 24, ofOctets 240 0 0 0 4,
    ofOctets 255 255 255 255 32,
    ofHextets [0, 0, 0, 0, 0, 0, 0, 1] 128, ofHextets [] 128,
    ofHextets [0, 0, 0, 0, 0, 0xffff] 96, ofHextets [0x64, 0xff9b, 1] 48, ofHextets [0x100] 64,
    ofHextets [0x2001] 23, ofHextets [0x2001, 0xdb8] 32, ofHextets [0x2002] 16,
    ofHextets [0xfc00] 7, ofHextets [0xfe80] 10]

def privateNetworksExceptions : List Network :=
  [ofOctets 192 0 0 9 32, ofOctets 192 0 0 10 32,
    ofHextets [0x2001, 1, 0, 0, 0, 0, 0, 1] 128, ofHextets [0x2001, 1, 0, 0, 0, 0, 0, 2] 128,
    ofHextets [0x2001, 3] 32, ofHextets [0x2001, 4, 0x112] 48, ofHextets [0x2001, 0x20] 28,
    ofHextets [0x2001, 0x30] 28]

/-- `is_private`: an address that carries an IPv4 address is judged by that one. -/
def isPrivate (address : Address) : Bool :=
  let judged := address.ipv4Mapped.getD address
  judged.inAny privateNetworks && !judged.inAny privateNetworksExceptions

end Address

/-! ## Groups are read back -/

section Groups

variable {base count value : ℕ}

theorem length_groups : (groups base count value).length = count := by
  induction count generalizing value with
  | zero => rfl
  | succ count hRec => rw [groups, List.length_append, hRec, List.length_singleton]

theorem lt_of_mem_groups (hBase : 0 < base) {group : ℕ} (hMem : group ∈ groups base count value) :
    group < base := by
  induction count generalizing value with
  | zero => cases hMem
  | succ count hRec =>
    rw [groups, List.mem_append, List.mem_singleton] at hMem
    cases hMem with
    | inl hMem => exact hRec hMem
    | inr hLast =>
      rw [hLast]
      exact Nat.mod_lt _ hBase

theorem ofGroups_concat (before : List ℕ) (last : ℕ) :
    ofGroups base (before ++ [last]) = ofGroups base before * base + last := by
  simp [ofGroups]

theorem ofGroups_groups (hValue : value < base ^ count) :
    ofGroups base (groups base count value) = value := by
  induction count generalizing value with
  | zero =>
    have hZero : value = 0 := by simpa using hValue
    rw [hZero]
    rfl
  | succ count hRec =>
    have hHigh : value / base < base ^ count := by
      apply Nat.div_lt_of_lt_mul
      rwa [← pow_succ']
    rw [groups, ofGroups_concat, hRec hHigh]
    exact Nat.div_add_mod' value base

end Groups

variable {values : List ℕ} {write : ℕ → Text} {char : Char} {parts hextets : List Text}
  {part : Text} {run : ZeroRun}

theorem mapM_map_eq {read : Text → Option ℕ}
    (hRead : ∀ value ∈ values, read (write value) = some value) :
    (values.map write).mapM read = some values := by
  induction values with
  | nil => rfl
  | cons value values hRec =>
    have hRest := hRec (List.forall_mem_cons.mp hRead).2
    simp [hRead value List.mem_cons_self, hRest]

theorem mapM_eq_none {α β : Type} {read : α → Option β} {items : List α} {item : α}
    (hMem : item ∈ items) (hNone : read item = none) : items.mapM read = none := by
  induction items with
  | nil => cases hMem
  | cons first items hRec =>
    rcases List.mem_cons.mp hMem with rfl | hRest
    · simp [hNone]
    · simp [hRec hRest]

theorem mem_intercalate {sep : Char} (hMem : char ∈ [sep].intercalate parts) :
    char = sep ∨ ∃ part ∈ parts, char ∈ part := by
  induction parts with
  | nil => cases hMem
  | cons part parts hRec =>
    cases parts with
    | nil =>
      rw [List.intercalate_singleton] at hMem
      exact Or.inr ⟨part, List.mem_cons_self, hMem⟩
    | cons next parts =>
      rw [List.intercalate_cons_cons, List.mem_append, List.mem_append, List.mem_singleton] at hMem
      rcases hMem with (hPart | hSep) | hRest
      · exact Or.inr ⟨part, List.mem_cons_self, hPart⟩
      · exact Or.inl hSep
      · obtain hSep | ⟨other, hOther, hChar⟩ := hRec hRest
        · exact Or.inl hSep
        · exact Or.inr ⟨other, List.mem_cons_of_mem _ hOther, hChar⟩

theorem sep_mem_intercalate {sep : Char} (hParts : 2 ≤ parts.length) :
    sep ∈ [sep].intercalate parts := by
  match parts, hParts with
  | part :: next :: parts, _ =>
    simp

/-! ## IPv4 is read back -/

theorem parseOctet_toDigits {octet : ℕ} (hOctet : octet < 256) :
    parseOctet (Nat.toDigits 10 octet) = some octet := by
  revert octet
  decide +kernel

theorem isDigit_of_parseOctet {text : Text} {octet : ℕ} (hParse : parseOctet text = some octet)
    (hMem : char ∈ text) : char.isDigit = true := by
  unfold parseOctet at hParse
  split_ifs at hParse with _ hDigits
  exact List.all_eq_true.mp (Bool.not_eq_false _ ▸ hDigits) char hMem

theorem showV4_octets (value : ℕ) (hPart : part ∈ (groups 256 4 value).map (Nat.toDigits 10))
    (hChar : char ∈ part) : char.isDigit = true := by
  obtain ⟨octet, _, rfl⟩ := List.mem_map.mp hPart
  exact Nat.isDigit_of_mem_toDigits (by decide) (by decide) hChar

theorem readV4_showV4 {value : ℕ} (hValue : value < 2 ^ 32) :
    readV4 (showV4 value) = some value := by
  have hSplit : (showV4 value).splitOn '.' = (groups 256 4 value).map (Nat.toDigits 10) := by
    apply List.splitOn_intercalate
    · intro part hPart hDot
      exact absurd (showV4_octets value hPart hDot) (by decide)
    · intro hNil
      have hLength := congrArg List.length hNil
      rw [List.length_map, length_groups] at hLength
      cases hLength
  have hNonempty : showV4 value ≠ [] := by
    intro hNil
    rw [hNil] at hSplit
    have hLength := congrArg List.length hSplit
    rw [List.length_map, length_groups] at hLength
    exact absurd hLength (by decide)
  have hRead : ((groups 256 4 value).map (Nat.toDigits 10)).mapM parseOctet =
      some (groups 256 4 value) :=
    mapM_map_eq fun octet hOctet => parseOctet_toDigits (lt_of_mem_groups (by decide) hOctet)
  unfold readV4
  simp only [hSplit, List.length_map, length_groups, hRead, if_neg hNonempty, ne_eq,
    not_true_eq_false, if_false, Option.map_some]
  rw [ofGroups_groups (by simpa using hValue)]

theorem readV4_eq_none {text : Text} (hColon : ':' ∈ text) : readV4 text = none := by
  have hJoin : ':' ∈ ['.'].intercalate (text.splitOn '.') := by
    rwa [List.intercalate_splitOn]
  obtain hDot | ⟨part, hPart, hChar⟩ := mem_intercalate hJoin
  · exact absurd hDot (by decide)
  · have hNone : parseOctet part = none := by
      cases hParse : parseOctet part with
      | none => rfl
      | some octet => exact absurd (isDigit_of_parseOctet hParse hChar) (by decide)
    unfold readV4
    simp only [mapM_eq_none hPart hNone, Option.map_none, ite_self]

/-! ## IPv6 is read back -/

theorem hexValue_digitChar {digit : ℕ} (hDigit : digit < 16) :
    hexValue digit.digitChar = some digit := by
  revert digit
  decide

theorem hexValues_toDigits (number : ℕ) :
    ∃ values, (Nat.toDigits 16 number).mapM hexValue = some values ∧
      ofGroups 16 values = number := by
  induction number using Nat.strong_induction_on with
  | _ number hRec =>
    by_cases hSmall : number < 16
    · refine ⟨[number], ?_, by simp [ofGroups]⟩
      simp [Nat.toDigits_of_lt_base hSmall, hexValue_digitChar hSmall]
    · obtain ⟨values, hValues, hNumber⟩ := hRec (number / 16) (by omega)
      refine ⟨values ++ [number % 16], ?_, ?_⟩
      · rw [Nat.toDigits_of_base_le (by decide) (by omega), List.mapM_append, hValues]
        simp [hexValue_digitChar (Nat.mod_lt number (by decide : 16 > 0))]
      · rw [ofGroups_concat, hNumber]
        exact Nat.div_add_mod' number 16

theorem parseHextet_toDigits {hextet : ℕ} (hHextet : hextet < 65536) :
    parseHextet (Nat.toDigits 16 hextet) = some hextet := by
  obtain ⟨values, hValues, hNumber⟩ := hexValues_toDigits hextet
  have hLength : (Nat.toDigits 16 hextet).length ≤ 4 :=
    (Nat.length_toDigits_le_iff (by decide) (by decide)).mpr hHextet
  have hBad : ¬(4 < (Nat.toDigits 16 hextet).length ∨ Nat.toDigits 16 hextet = []) := by
    rintro (hLong | hNil)
    · omega
    · exact Nat.toDigits_ne_nil hNil
  simp only [parseHextet, hValues, if_neg hBad, hNumber]

theorem hex_of_mem_toDigits {number : ℕ} (hMem : char ∈ Nat.toDigits 16 number) :
    (hexValue char).isSome = true := by
  obtain ⟨values, hValues, _⟩ := hexValues_toDigits number
  by_contra hNot
  rw [mapM_eq_none hMem (Option.not_isSome_iff_eq_none.mp hNot)] at hValues
  cases hValues

theorem eq_zero_of_toDigits {hextet : ℕ} (hZero : Nat.toDigits 16 hextet = ['0']) : hextet = 0 := by
  obtain ⟨values, hValues, hNumber⟩ := hexValues_toDigits hextet
  rw [hZero] at hValues
  cases hValues
  rw [← hNumber]
  rfl

/-! The run of zeros that is left out really is one. -/

/-- The list has the run: `length` zeros from position `start` on. -/
def ZeroRun.In (run : ZeroRun) (hextets : List Text) : Prop :=
  ∃ before after, hextets = before ++ List.replicate run.length ['0'] ++ after ∧
    before.length = run.start

def ZeroRun.Ends (run : ZeroRun) (hextets : List Text) : Prop :=
  ∃ before, hextets = before ++ List.replicate run.length ['0'] ∧ before.length = run.start

theorem ZeroRun.In.append (hIn : run.In hextets) (more : List Text) : run.In (hextets ++ more) := by
  obtain ⟨before, after, rfl, hStart⟩ := hIn
  exact ⟨before, after ++ more, by simp, hStart⟩

theorem ZeroRun.Ends.in (hEnds : run.Ends hextets) : run.In hextets := by
  obtain ⟨before, rfl, hStart⟩ := hEnds
  exact ⟨before, [], by simp, hStart⟩

theorem ZeroRun.Ends.grow (hEnds : run.Ends hextets) :
    ZeroRun.Ends ⟨run.start, run.length + 1⟩ (hextets ++ [['0']]) := by
  obtain ⟨before, rfl, hStart⟩ := hEnds
  exact ⟨before, by rw [List.append_assoc, List.replicate_succ'], hStart⟩

theorem longestRun_in {seen : List Text} {best : ZeroRun} {current : Option ZeroRun}
    (hBest : best.In seen) (hCurrent : ∀ run, current = some run → run.Ends seen) :
    (longestRun hextets seen.length best current).In (seen ++ hextets) := by
  induction hextets generalizing seen best current with
  | nil =>
    rw [List.append_nil]
    exact hBest
  | cons hextet hextets hRec =>
    have hSeen : seen ++ hextet :: hextets = (seen ++ [hextet]) ++ hextets := by simp
    have hLength : seen.length + 1 = (seen ++ [hextet]).length := by simp
    have hBestNext := hBest.append [hextet]
    unfold longestRun
    rw [hSeen, hLength]
    split
    next hZero =>
      subst hZero
      -- The run that ends with this zero starts here, or goes on.
      generalize hGrown : (match current with
        | none => (⟨seen.length, 1⟩ : ZeroRun)
        | some run => ⟨run.start, run.length + 1⟩) = grown
      have hEnds : grown.Ends (seen ++ [['0']]) := by
        subst hGrown
        cases current with
        | none => exact ⟨seen, rfl, rfl⟩
        | some run => exact (hCurrent run rfl).grow
      refine hRec ?_ ?_
      · split
        · exact hEnds.in
        · exact hBestNext
      · rintro run hRun
        cases hRun
        exact hEnds
    · refine hRec hBestNext ?_
      rintro run hRun
      cases hRun

theorem longestRun_start (hextets : List Text) : (longestRun hextets 0 ⟨0, 0⟩ none).In hextets := by
  have hStart : ZeroRun.In ⟨0, 0⟩ ([] : List Text) := ⟨[], [], rfl, rfl⟩
  exact longestRun_in hStart nofun

section Compress

theorem hextetsOf_skip (parts : List Text) (skip high low : ℕ) {first last : List ℕ}
    (hSkip : emptyParts parts = [skip])
    (hHigh : (if parts.head? = some [] then skip - 1 else skip) = high)
    (hLow : (if parts.getLast? = some [] then parts.length - skip - 2
      else parts.length - skip - 1) = low)
    (hLeading : parts.head? = some [] → high = 0) (hTrailing : parts.getLast? = some [] → low = 0)
    (hFew : high + low < 8) (hFirst : (parts.take high).mapM parseHextet = some first)
    (hLast : (parts.drop (parts.length - low)).mapM parseHextet = some last) :
    hextetsOf parts = some (first ++ List.replicate (8 - (high + low)) 0 ++ last) := by
  have hFine : ¬(parts.head? = some [] ∧ high ≠ 0 ∨ parts.getLast? = some [] ∧ low ≠ 0 ∨
      8 ≤ high + low) := by
    rintro (⟨hHead, hSome⟩ | ⟨hEnd, hSome⟩ | hMany)
    · exact hSome (hLeading hHead)
    · exact hSome (hTrailing hEnd)
    · omega
  unfold hextetsOf
  simp only [hSkip, hHigh, hLow, if_neg hFine, hFirst, hLast]

variable {before after : List Text} {first last : List ℕ}

/-- What stands before the `::`: the parts there, or an empty one for none. -/
theorem front_spec (hBefore : ∀ part ∈ before, part ≠ []) :
    let front := (if before = [] then [[]] else []) ++ before
    front ≠ [] ∧ (front.head? = some [] ↔ before = []) ∧ (∀ part ∈ front.tail, part ≠ []) ∧
      front.length = if before = [] then 1 else before.length := by
  cases before with
  | nil => simp
  | cons start before =>
    have hStart : start ≠ [] := hBefore start List.mem_cons_self
    have hRest : ∀ part ∈ before, part ≠ [] :=
      (List.forall_mem_cons.mp hBefore).2
    simpa [hStart] using hRest

/-- What stands after it, the other way round. -/
theorem back_spec (hAfter : ∀ part ∈ after, part ≠ []) :
    let back := after ++ (if after = [] then [[]] else [])
    back ≠ [] ∧ (back.getLast? = some [] ↔ after = []) ∧ (∀ part ∈ back.dropLast, part ≠ []) ∧
      back.length = if after = [] then 1 else after.length := by
  by_cases hNone : after = []
  · subst hNone
    simp
  · have hEnd : after.getLast? ≠ some [] := fun hEnd => hAfter [] (List.mem_of_getLast? hEnd) rfl
    have hInner : ∀ part ∈ after.dropLast, part ≠ [] :=
      fun part hPart => hAfter part (List.mem_of_mem_dropLast hPart)
    simpa [hNone, hEnd] using hInner

theorem hextetsOf_around (hBefore : ∀ part ∈ before, part ≠ [])
    (hAfter : ∀ part ∈ after, part ≠ []) (hFew : before.length + after.length < 8)
    (hFirst : before.mapM parseHextet = some first) (hLast : after.mapM parseHextet = some last) :
    hextetsOf (((if before = [] then [[]] else []) ++ before) ++
        [] :: (after ++ (if after = [] then [[]] else []))) =
      some (first ++ List.replicate (8 - (before.length + after.length)) 0 ++ last) := by
  obtain ⟨hFront, hLeading, hFrontInner, hFrontLength⟩ := front_spec hBefore
  obtain ⟨hBack, hTrailing, hBackInner, hBackLength⟩ := back_spec hAfter
  have hTake : (((if before = [] then [[]] else []) ++ before) ++
      [] :: (after ++ (if after = [] then [[]] else []))).take before.length = before := by
    by_cases hNone : before = [] <;> simp [hNone]
  have hDrop : after.length = 0 ∨ after ++ (if after = [] then [[]] else []) = after := by
    by_cases hNone : after = [] <;> simp [hNone]
  generalize (if before = [] then [[]] else []) ++ before = front at *
  generalize after ++ (if after = [] then [[]] else []) = back at *
  have hHead : (front ++ [] :: back).head? = some [] ↔ before = [] := by
    rw [List.head?_append_of_ne_nil _ hFront, hLeading]
  have hEnd : (front ++ [] :: back).getLast? = some [] ↔ after = [] := by
    rw [List.getLast?_append_of_ne_nil _ (by simp), List.getLast?_cons_of_ne_nil hBack, hTrailing]
  have hSkip : emptyParts (front ++ [] :: back) = [front.length] := by
    have hFrontNone : ∀ index, front.tail.findIdxs (· = []) index = [] := fun _ =>
      List.findIdxs_eq_nil_iff.mpr fun part hPart => decide_eq_false (hFrontInner part hPart)
    have hBackNone : ∀ index, back.dropLast.findIdxs (· = []) index = [] := fun _ =>
      List.findIdxs_eq_nil_iff.mpr fun part hPart => decide_eq_false (hBackInner part hPart)
    rw [emptyParts, List.tail_append_of_ne_nil hFront, List.dropLast_append_of_ne_nil (by simp),
      List.dropLast_cons_of_ne_nil hBack, List.findIdxs_append, hFrontNone, List.findIdxs_cons,
      hBackNone, List.length_tail, Nat.add_sub_cancel' (List.length_pos_of_ne_nil hFront)]
    rfl
  have hLength : (front ++ [] :: back).length = front.length + (back.length + 1) := by
    rw [List.length_append, List.length_cons]
  refine hextetsOf_skip _ front.length before.length after.length hSkip ?_ ?_
    (fun hSome => by rw [hHead.mp hSome]; rfl) (fun hSome => by rw [hEnd.mp hSome]; rfl) hFew
    (by rw [hTake]; exact hFirst) ?_
  · simp only [hHead, hFrontLength]
    split <;> simp_all
  · simp only [hEnd, hLength, hBackLength]
    split <;> simp_all
  · rcases hDrop with hNone | hSame
    · rw [hNone, Nat.sub_zero, List.drop_length]
      rwa [List.length_eq_zero_iff.mp hNone] at hLast
    · rw [hSame] at hLength ⊢
      have hStart : (front ++ [] :: after).length - after.length = (front ++ [[]]).length := by
        simp only [List.length_append, List.length_cons, List.length_nil]
        omega
      rw [hStart, List.append_cons front [] after, List.drop_left]
      exact hLast

theorem hextetsOf_plain {hextets : List ℕ} (hLength : parts.length = 8)
    (hParts : ∀ part ∈ parts, part ≠ []) (hRead : parts.mapM parseHextet = some hextets) :
    hextetsOf parts = some hextets := by
  have hNone : emptyParts parts = [] := List.findIdxs_eq_nil_iff.mpr fun part hPart =>
    decide_eq_false (hParts part (List.mem_of_mem_tail (List.mem_of_mem_dropLast hPart)))
  have hFine : ¬(parts.length ≠ 8 ∨ parts.head? = some [] ∨ parts.getLast? = some []) := by
    rintro (hOther | hHead | hEnd)
    · exact hOther hLength
    · exact hParts [] (List.mem_of_mem_head? hHead) rfl
    · exact hParts [] (List.mem_of_getLast? hEnd) rfl
  unfold hextetsOf
  simp only [hNone, if_neg hFine, hRead]

theorem split_zeroRun (hZero : ∀ hextet, write hextet = ['0'] → hextet = 0) {hextets : List ℕ}
    (hRun : run.In (hextets.map write)) :
    ∃ first last, hextets = first ++ List.replicate run.length 0 ++ last ∧
      first.length = run.start := by
  obtain ⟨before, after, hAll, hStart⟩ := hRun
  obtain ⟨shown, last, rfl, hShown, rfl⟩ := List.map_eq_append_iff.mp hAll
  obtain ⟨first, zeros, rfl, rfl, hZeros⟩ := List.map_eq_append_iff.mp hShown
  have hReplicate : zeros = List.replicate run.length 0 := by
    rw [List.eq_replicate_iff]
    constructor
    · have hLength := congrArg List.length hZeros
      rwa [List.length_map, List.length_replicate] at hLength
    · intro hextet hMem
      have hWritten : write hextet ∈ List.replicate run.length ['0'] := by
        rw [← hZeros]
        exact List.mem_map_of_mem hMem
      exact hZero hextet (List.eq_of_mem_replicate hWritten)
  rw [hReplicate]
  exact ⟨first, last, rfl, by rwa [List.length_map] at hStart⟩

theorem hextetsOf_compressHextets (hWrite : ∀ hextet, write hextet ≠ [])
    (hZero : ∀ hextet, write hextet = ['0'] → hextet = 0) {hextets : List ℕ}
    (hLength : hextets.length = 8)
    (hRead : ∀ hextet ∈ hextets, parseHextet (write hextet) = some hextet) :
    hextetsOf (compressHextets (hextets.map write)) = some hextets := by
  have hParts : ∀ hextets : List ℕ, ∀ part ∈ hextets.map write, part ≠ [] := by
    intro hextets part hPart
    obtain ⟨hextet, _, rfl⟩ := List.mem_map.mp hPart
    exact hWrite hextet
  have hRun := longestRun_start (hextets.map write)
  unfold compressHextets
  generalize longestRun (hextets.map write) 0 ⟨0, 0⟩ none = best at hRun ⊢
  by_cases hLong : 1 < best.length
  · simp only [if_pos hLong]
    obtain ⟨first, last, rfl, hStart⟩ := split_zeroRun hZero hRun
    have hCount : first.length + best.length + last.length = 8 := by
      simpa [Nat.add_assoc] using hLength
    have hFirst := mapM_map_eq fun hextet hMem =>
      hRead hextet (List.mem_append_left _ (List.mem_append_left _ hMem))
    have hLast := mapM_map_eq fun hextet hMem => hRead hextet (List.mem_append_right _ hMem)
    have hZeros : 8 - (first.length + last.length) = best.length := by omega
    have hTake : ((first ++ List.replicate best.length 0 ++ last).map write).take best.start =
        first.map write := by
      rw [← hStart]
      simp
    have hDrop : ((first ++ List.replicate best.length 0 ++ last).map write).drop
        (best.start + best.length) = last.map write := by
      rw [List.map_append]
      exact List.drop_left' (by simp [hStart])
    have hAtStart : best.start = 0 ↔ first = [] := by
      rw [← hStart, List.length_eq_zero_iff]
    have hAtEnd : best.start + best.length =
        ((first ++ List.replicate best.length 0 ++ last).map write).length ↔ last = [] := by
      rw [List.length_map, hLength, ← hCount, ← hStart, ← List.length_eq_zero_iff]
      omega
    simp only [hTake, hDrop, hAtStart, hAtEnd]
    rw [← hZeros]
    have hAround := hextetsOf_around (hParts first) (hParts last)
      (by rw [List.length_map, List.length_map]; omega) hFirst hLast
    simpa using hAround
  · simp only [if_neg hLong]
    exact hextetsOf_plain (by simpa using hLength) (hParts hextets) (mapM_map_eq hRead)

theorem length_compressHextets (hLength : hextets.length = 8) :
    3 ≤ (compressHextets hextets).length ∧ (compressHextets hextets).length ≤ 9 := by
  have hRun := longestRun_start hextets
  unfold compressHextets
  generalize longestRun hextets 0 ⟨0, 0⟩ none = best at hRun ⊢
  obtain ⟨before, after, hAll, hStart⟩ := hRun
  have hCount := congrArg List.length hAll
  simp only [List.length_append, List.length_replicate, hLength, hStart] at hCount
  simp only
  split
  · simp only [List.length_append, List.length_take, List.length_drop, hLength]
    split <;> split <;> simp only [List.length_nil, List.length_singleton] <;> omega
  · omega

end Compress

def partsV6 (value : ℕ) : List Text :=
  compressHextets ((groups 65536 8 value).map (Nat.toDigits 16))

theorem mem_compressHextets (hPart : part ∈ compressHextets hextets) :
    part = [] ∨ part ∈ hextets := by
  unfold compressHextets at hPart
  simp only at hPart
  split at hPart
  · simp only [List.mem_append, List.mem_ite_nil_right, List.mem_singleton] at hPart
    rcases hPart with (((⟨-, hEdge⟩ | hTake) | hEmpty) | hDrop) | ⟨-, hEdge⟩
    · exact Or.inl hEdge
    · exact Or.inr (List.mem_of_mem_take hTake)
    · exact Or.inl hEmpty
    · exact Or.inr (List.mem_of_mem_drop hDrop)
    · exact Or.inl hEdge
  · exact Or.inr hPart

theorem hex_of_mem_partsV6 {value : ℕ} (hPart : part ∈ partsV6 value) (hChar : char ∈ part) :
    (hexValue char).isSome = true := by
  obtain rfl | hMem := mem_compressHextets hPart
  · cases hChar
  · obtain ⟨hextet, _, rfl⟩ := List.mem_map.mp hMem
    exact hex_of_mem_toDigits hChar

theorem mem_showV6 {value : ℕ} (hChar : char ∈ showV6 value) :
    char = ':' ∨ (hexValue char).isSome = true := by
  obtain hColon | ⟨part, hPart, hMem⟩ := mem_intercalate hChar
  · exact Or.inl hColon
  · exact Or.inr (hex_of_mem_partsV6 hPart hMem)

theorem length_partsV6 (value : ℕ) : 3 ≤ (partsV6 value).length ∧ (partsV6 value).length ≤ 9 :=
  length_compressHextets (by rw [List.length_map, length_groups])

theorem splitOn_showV6 (value : ℕ) : (showV6 value).splitOn ':' = partsV6 value := by
  apply List.splitOn_intercalate
  · intro part hPart hColon
    exact absurd (hex_of_mem_partsV6 hPart hColon) (by decide)
  · intro hNil
    have hLength := (length_partsV6 value).1
    rw [partsV6, hNil] at hLength
    cases hLength

theorem expandV4Suffix_eq (hDot : ∀ part ∈ parts, '.' ∉ part) :
    expandV4Suffix parts = some parts := by
  unfold expandV4Suffix
  split
  · rfl
  next last hLast => rw [if_neg (hDot last (List.mem_of_getLast? hLast))]

theorem readV6_showV6 {value : ℕ} (hValue : value < 2 ^ 128) :
    readV6 (showV6 value) = some value := by
  have hSplit := splitOn_showV6 value
  obtain ⟨hMany, hFew⟩ := length_partsV6 value
  have hNonempty : showV6 value ≠ [] := by
    intro hNil
    rw [hNil] at hSplit
    rw [← hSplit] at hMany
    exact absurd hMany (by decide)
  have hSuffix : expandV4Suffix (partsV6 value) = some (partsV6 value) := by
    apply expandV4Suffix_eq
    intro part hPart hDot
    exact absurd (hex_of_mem_partsV6 hPart hDot) (by decide)
  have hHextets : hextetsOf (partsV6 value) = some (groups 65536 8 value) := by
    apply hextetsOf_compressHextets (fun _ => Nat.toDigits_ne_nil)
      (fun _ => eq_zero_of_toDigits) length_groups
    intro hextet hMem
    exact parseHextet_toDigits (lt_of_mem_groups (by decide) hMem)
  unfold readV6
  simp only [hSplit, if_neg hNonempty, if_neg (not_lt.mpr hMany), hSuffix,
    if_neg (not_lt.mpr hFew), hHextets, Option.map_some]
  rw [ofGroups_groups (by simpa using hValue)]

/-! ## Addresses are read back -/

namespace Address

theorem colon_mem_showV6 (value : ℕ) : ':' ∈ showV6 value :=
  sep_mem_intercalate (le_trans (by decide) (length_partsV6 value).1)

theorem ofTextV4_showV4 (value : Fin (2 ^ 32)) : ofTextV4 (showV4 value) = some (.v4 value) := by
  have hSlash : '/' ∉ showV4 value := by
    intro hSlash
    obtain hDot | ⟨part, hPart, hChar⟩ := mem_intercalate hSlash
    · exact absurd hDot (by decide)
    · exact absurd (showV4_octets value hPart hChar) (by decide)
  unfold ofTextV4
  rw [if_neg hSlash, readV4_showV4 value.isLt, Option.map_some, Fin.ofNat_val_eq_self]

theorem ofTextV4_showV6 (value : ℕ) (rest : Text) : ofTextV4 (showV6 value ++ rest) = none := by
  unfold ofTextV4
  rw [readV4_eq_none (List.mem_append_left _ (colon_mem_showV6 value)), Option.map_none, ite_self]

theorem not_mem_showV6 (hColon : char ≠ ':') (hHex : hexValue char = none) (value : ℕ) :
    char ∉ showV6 value := by
  intro hMem
  obtain hSame | hSome := mem_showV6 hMem
  · exact hColon hSame
  · rw [hHex] at hSome
    cases hSome

theorem before_zone (value : ℕ) : ∀ char ∈ showV6 value, decide (char ≠ '%') = true := by
  have hPercent : '%' ∉ showV6 value := not_mem_showV6 (by decide) (by decide) value
  exact fun char hChar => decide_eq_true fun hSame => hPercent (hSame ▸ hChar)

theorem ofTextV6_showV6 (value : Fin (2 ^ 128)) :
    ofTextV6 (showV6 value) = some (.v6 value none) := by
  have hSlash : '/' ∉ showV6 value := not_mem_showV6 (by decide) (by decide) value
  have hDrop : (showV6 value).dropWhile (· ≠ '%') = [] :=
    List.dropWhile_eq_nil_iff.mpr (before_zone value)
  unfold ofTextV6
  simp only [if_neg hSlash, hDrop, readV6_showV6 value.isLt, Option.map_some, Fin.ofNat_val_eq_self]

theorem ofTextV6_scoped (value : Fin (2 ^ 128)) (scope : Scope) :
    ofTextV6 (showV6 value ++ '%' :: scope.val) = some (.v6 value (some scope)) := by
  have hSlash : '/' ∉ showV6 value ++ '%' :: scope.val := by
    rw [List.mem_append, List.mem_cons]
    rintro (hValue | hZone | hScope)
    · exact not_mem_showV6 (by decide) (by decide) value hValue
    · exact absurd hZone (by decide)
    · exact scope.property.2.2 hScope
  have hDrop : (showV6 value ++ '%' :: scope.val).dropWhile (· ≠ '%') = '%' :: scope.val := by
    rw [List.dropWhile_append_of_pos (before_zone value)]
    rfl
  have hTake : (showV6 value ++ '%' :: scope.val).takeWhile (· ≠ '%') = showV6 value := by
    rw [List.takeWhile_append_of_pos (before_zone value)]
    simp
  unfold ofTextV6
  simp only [if_neg hSlash, hDrop, hTake, dif_pos scope.property, readV6_showV6 value.isLt,
    Option.map_some, Fin.ofNat_val_eq_self]

theorem ofText_text (address : Address) : ofText address.text = some address := by
  cases address with
  | v4 value =>
    unfold ofText text
    rw [ofTextV4_showV4 value]
  | v6 value scope =>
    cases scope with
    | none =>
      have hNot := ofTextV4_showV6 value []
      rw [List.append_nil] at hNot
      unfold ofText text
      simp only [hNot, ofTextV6_showV6]
    | some scope =>
      unfold ofText text
      simp only [ofTextV4_showV6, ofTextV6_scoped]

/-- The characters an address is written with, its zone apart. -/
def isPlain (char : Char) : Bool :=
  char = '.' || char = ':' || (hexValue char).isSome

theorem isPlain_of_mem_showV4 {value : ℕ} (hMem : char ∈ showV4 value) : isPlain char = true := by
  obtain rfl | ⟨part, hPart, hChar⟩ := mem_intercalate hMem
  · rfl
  · have hDigit := showV4_octets value hPart hChar
    have hRange : '0' ≤ char ∧ char ≤ '9' := by
      simpa [Char.isDigit, Char.le_def] using hDigit
    simp [isPlain, hexValue, hRange]

theorem isPlain_of_mem_showV6 {value : ℕ} (hMem : char ∈ showV6 value) : isPlain char = true := by
  obtain rfl | hHex := mem_showV6 hMem
  · rfl
  · simp [isPlain, hHex]

theorem isPlain_of_head {address : Address} (hHead : address.text.head? = some char) :
    isPlain char = true := by
  cases address with
  | v4 value => exact isPlain_of_mem_showV4 (List.mem_of_mem_head? hHead)
  | v6 value scope =>
    cases scope with
    | none => exact isPlain_of_mem_showV6 (List.mem_of_mem_head? hHead)
    | some scope =>
      have hNe : showV6 value ≠ [] := List.ne_nil_of_mem (colon_mem_showV6 value)
      rw [text, List.head?_append_of_ne_nil _ hNe] at hHead
      exact isPlain_of_mem_showV6 (List.mem_of_mem_head? hHead)

theorem isPlain_of_last {address : Address} (hLast : address.text.getLast? = some char) :
    isPlain char = true ∨
      ∃ value scope, address = .v6 value (some scope) ∧ scope.val.getLast? = some char := by
  cases address with
  | v4 value => exact Or.inl (isPlain_of_mem_showV4 (List.mem_of_getLast? hLast))
  | v6 value scope =>
    cases scope with
    | none => exact Or.inl (isPlain_of_mem_showV6 (List.mem_of_getLast? hLast))
    | some scope =>
      rw [text, List.getLast?_append_of_ne_nil _ (by simp),
        List.getLast?_cons_of_ne_nil scope.property.1] at hLast
      exact Or.inr ⟨value, scope, rfl, hLast⟩

theorem scope_last {source : Text} {value : Fin (2 ^ 128)} {scope : Scope}
    (hRead : ofText source = some (.v6 value (some scope))) :
    source.getLast? = scope.val.getLast? := by
  unfold ofText ofTextV4 at hRead
  split at hRead
  next address hV4 =>
    split at hV4
    · cases hV4
    · obtain ⟨_, _, rfl⟩ := Option.map_eq_some_iff.mp hV4
      cases hRead
  · unfold ofTextV6 at hRead
    split at hRead
    · cases hRead
    · split at hRead
      · obtain ⟨_, _, hNone⟩ := Option.map_eq_some_iff.mp hRead
        cases hNone
      next first rest hDrop =>
        split at hRead
        next hScope =>
          obtain ⟨_, _, hSame⟩ := Option.map_eq_some_iff.mp hRead
          cases hSame
          rw [← List.takeWhile_append_dropWhile (p := (· ≠ '%')) (l := source), hDrop,
            List.getLast?_append_of_ne_nil _ (by simp),
            List.getLast?_cons_of_ne_nil hScope.1]
        · cases hRead

end Address

end TimelapseManager.IpAddress
