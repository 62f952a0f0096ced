import TimelapseManager.Lib.IpAddress
import TimelapseManager.Lib.PyRe
import TimelapseManager.Reports.Redaction

/-!
# Private patterns that need no list of names

The part of the verifier that does not depend on what the install knows: e-mail, MAC and IP
addresses, home directories, host names, URL hosts and credentials, `dc=` runs and absolute paths.
Each pattern is written as the source has it, under `re.IGNORECASE`; `leftover` is the search for
the first one that is not on an allow-list.
-/

namespace TimelapseManager.Reports

open Regexes PyRe PyText IpAddress

/-- The groups of the leftovers pattern: the kinds of private patterns, and two parts of URLs. -/
inductive LeftoverGroup
  | email
  | urlcreds
  | ui
  | urlhost
  | h
  | homedir
  | pathtail
  | pathsub
  | patheol
  | abspath
  | dc
  | machost
  | mac
  | ipv6
  | ipv4
  | privhost
  deriving DecidableEq

abbrev Pattern := Regex LeftoverGroup

namespace Pattern

variable (data : CharData)

/-- A class of the listed characters. -/
def among (items : List Item) : Char → Bool :=
  Class.accepts data true ⟨false, items⟩

/-- A class of all other characters. -/
def except (items : List Item) : Char → Bool :=
  Class.accepts data true ⟨true, items⟩

/-- A literal text. -/
def literal (text : String) : Pattern :=
  .concat (text.toList.map (ignoring data))

/-- `[A-Za-z]`, `[A-Za-z0-9]` and `[0-9A-Fa-f]`. -/
def letters : List Item := [.range 'A' 'Z', .range 'a' 'z']

def alphanumerics : List Item := letters ++ [.range '0' '9']

def hexdigits : List Item := [.range '0' '9', .range 'A' 'F', .range 'a' 'f']

/-- `[\s"'<>]`. -/
def tokenEnds : List Item := [.space, .lit '\x22', .lit '\x27', .lit '<', .lit '>']

/-- The marks of blanked placeholders. -/
def marks : List Item := [.lit '\x00', .lit '\x01', .lit '\x02']

/-- `_EMAIL`. -/
def email : Pattern :=
  .concat
    [.behind false (among data [.word, .lit '.', .lit '%', .lit '+', .lit '-']),
      .times 1 (some 256) (.one (among data [.word, .lit '.', .lit '%', .lit '+', .lit '-'])),
      literal data "@",
      .one (except data [.notWord, .lit '_']),
      .times 0 (some 62) (.one (among data [.word, .lit '-'])),
      .times 0 (some 8) (.seq (literal data ".")
        (.times 1 (some 63) (.one (among data [.word, .lit '-'])))),
      literal data ".",
      .times 2 (some 24) (.one (except data [.notWord, .digit, .lit '_'])),
      .ahead false (.one (among data [.word, .lit '-']))]

/-- `\b[A-Za-z][A-Za-z0-9+.-]{0,15}://`. -/
def scheme : Pattern :=
  .concat
    [.boundary (isWord data),
      .one (among data letters),
      .times 0 (some 15) (.one (among data (alphanumerics ++ [.lit '+', .lit '.', .lit '-']))),
      literal data "://"]

def urlcreds : Pattern :=
  .concat
    [scheme data,
      .capture .ui (.times 0 (some 512) (.one (except data tokenEnds))),
      literal data "@"]

def urlhost : Pattern :=
  .seq (scheme data) (.capture .h (.alt
    (.concat
      [literal data "[",
        .times 0 (some 64) (.one (except data [.lit ']', .space])),
        literal data "]"])
    (.times 1 (some 253) (.one (among data
      (alphanumerics ++ [.lit '.', .lit '_', .lit '%', .lit '~', .lit '-']))))))

/-- A literal text inside `(?-i:…)`. -/
def verbatim (text : String) : Pattern :=
  .concat (text.toList.map fun char => .one fun other => other = char)

/-- `_HOMEDIR`. -/
def homedir : Pattern :=
  .concat
    [.behind false (among data [.word, .lit '.', .lit '-']),
      verbatim "/",
      .oneOf (verbatim "home") [verbatim "Users", verbatim "var/home"],
      verbatim "/",
      .plus (.one (except data ([.lit '/'] ++ tokenEnds ++ [.lit ':', .lit '\\'] ++ marks)))]

/-- `_PUNC`, `_SEPC` and `_SEG`: the characters of a path segment and between its words. -/
def puncItems : List Item :=
  [.lit '&', .lit '(', .lit ')', .lit ',', .lit '=', .lit '#', .lit '?']

def punc : Pattern := .one (among data puncItems)

def sepc : Pattern := .one (among data (.lit ' ' :: puncItems))

def seg : Pattern :=
  .one (except data ([.lit '/'] ++ tokenEnds ++ [.lit ':', .lit ';', .lit '[', .lit ']',
    .lit '\x7b', .lit '\x7d', .lit '|', .lit '\\', .lit '\x60', .lit '*'] ++ puncItems ++ marks))

/-- A word of a segment after the first: ` HTTP/` ends a path. -/
def nextWord : Pattern :=
  .concat [.ahead false (literal data " HTTP/"), .times 1 (some 3) (sepc data), .plus (seg data)]

/-- `_WORDS`. -/
def words : Pattern := .star (nextWord data)

/-- `_MID_SEG`. -/
def midSeg : Pattern :=
  .concat
    [.times 0 (some 3) (punc data), .plus (seg data), words data, .times 0 (some 3) (punc data),
      literal data "/"]

/-- `_ABS_PATH`. -/
def absPath : Pattern :=
  .concat
    [.behind false (among data ([.word, .lit '.', .lit '~', .lit '-'] ++ marks)),
      literal data "/",
      .ahead true (.alt (seg data) (punc data)),
      .star (midSeg data),
      .star (seg data)]

/-- A path tail after a path placeholder. -/
def pathtail : Pattern :=
  .concat
    [.one (among data [.lit '\x01', .lit '\x02']),
      .alt
        (.seq (.plus (nextWord data)) (.times 0 (some 3) (punc data)))
        (.times 1 (some 3) (punc data)),
      literal data "/"]

def pathsub : Pattern := literal data "\x02/"

/-- A word between a path and the end of its line. -/
def patheol : Pattern :=
  .concat
    [.one (among data [.lit '\x01', .lit '\x02']),
      .times 0 (some 512) (.alt (literal data "/") (seg data)),
      literal data " ",
      .plus (.one (except data (tokenEnds ++ [.lit '/']))),
      .star (.one (among data [.lit ' ', .lit '\t', .lit '\r'])),
      .lineEnd]

/-- `_DC_VALUE`. -/
def dcValue : Pattern :=
  .plus (.one (except data
    ([.lit ',', .lit '=', .lit '+', .lit ';'] ++ tokenEnds ++ [.lit '\\'] ++ marks)))

def dc : Pattern :=
  .concat
    [.behind false (among data [.word, .lit '-']),
      literal data "dc",
      .star (.one (among data [.space])),
      literal data "=",
      .star (.one (among data [.space])),
      dcValue data]

/-- `_MAC_HOST`. -/
def macHost : Pattern :=
  .concat
    [.behind false (among data [.word, .lit '.', .lit '-']),
      .one (among data letters),
      .times 0 (some 62) (.one (among data alphanumerics)),
      literal data "-",
      .times 12 (some 12) (.one (among data hexdigits)),
      .ahead false (.one (among data [.word, .lit '-']))]

/-- `_MAC`: with colons or dashes, dotted, and bare. -/
def mac : Pattern :=
  .oneOf
    (.concat
      [.behind false (among data (hexdigits ++ [.lit ':', .lit '-'])),
        .times 5 (some 5) (.seq (.times 2 (some 2) (.one (among data hexdigits)))
          (.one (among data [.lit ':', .lit '-']))),
        .times 2 (some 2) (.one (among data hexdigits)),
        .ahead false (.one (among data [.word, .lit ':', .lit '-']))])
    [.concat
      [.behind false (among data (hexdigits ++ [.lit '.'])),
        .times 4 (some 4) (.one (among data hexdigits)),
        literal data ".",
        .times 4 (some 4) (.one (among data hexdigits)),
        literal data ".",
        .times 4 (some 4) (.one (among data hexdigits)),
        .ahead false (.one (among data (hexdigits ++ [.lit '.'])))],
    .concat
      [.behind false (among data (hexdigits ++ [.lit '-'])),
        .times 12 (some 12) (.one (among data hexdigits)),
        .ahead false (.one (among data (hexdigits ++ [.lit '-'])))]]

/-- `\d{1,3}`. -/
def octet : Pattern := .times 1 (some 3) (.one (among data [.digit]))

/-- `_IPV6`. -/
def ipv6 : Pattern :=
  .concat
    [.behind false (among data [.word, .lit ':', .lit '.']),
      .times 2 (some 7) (.seq (.times 0 (some 4) (.one (among data hexdigits))) (literal data ":")),
      .alt
        (.seq (octet data) (.times 3 (some 3) (.seq (literal data ".") (octet data))))
        (.times 0 (some 4) (.one (among data hexdigits))),
      .opt (.seq (literal data "%")
        (.times 1 (some 32) (.one (among data [.word, .lit '.', .lit '-'])))),
      .ahead false (.one (among data [.word, .lit ':']))]

/-- `_IPV4`. -/
def ipv4 : Pattern :=
  .concat
    [.behind false (among data [.range '0' '9', .lit '.']),
      .times 3 (some 3) (.seq (octet data) (literal data ".")),
      octet data,
      .ahead false (.alt (.one (among data [.range '0' '9']))
        (.seq (literal data ".") (.one (among data [.digit]))))]

/-- `_PRIVATE_TLD_HOST`. -/
def privateTldHost : Pattern :=
  .concat
    [.behind false (among data [.word, .lit '.', .lit '-']),
      .times 1 (some 16) (.seq
        (.times 1 (some 63) (.one (among data (alphanumerics ++ [.lit '-'])))) (literal data ".")),
      .oneOf (literal data "lan") (["local", "localdomain", "home", "internal", "intranet", "corp",
        "home.arpa"].map (literal data)),
      .ahead false (.one (among data [.word, .lit '.', .lit '-']))]

/-- `self._leftovers`. -/
def leftovers : Pattern :=
  .oneOf (.capture .email (email data))
    [.capture .urlcreds (urlcreds data), .capture .urlhost (urlhost data),
      .capture .homedir (homedir data), .capture .pathtail (pathtail data),
      .capture .pathsub (pathsub data), .capture .patheol (patheol data),
      .capture .abspath (absPath data), .capture .dc (dc data), .capture .machost (macHost data),
      .capture .mac (mac data), .capture .ipv6 (ipv6 data), .capture .ipv4 (ipv4 data),
      .capture .privhost (privateTldHost data)]

/-- `_ROUTE_SEGMENT`. -/
def routeSegment : Pattern :=
  let digits := fun count => Regex.times count (some count) (.one fun char => data.isDecimal char)
  .alt (.plus (.one fun char => data.isDecimal char))
    (.concat
      [verbatim "TLM-", digits 8, verbatim "-", .alt (digits 4) (.seq (verbatim "CLI") (digits 6))])

end Pattern

/-! ## The allow-lists -/

/-- `_is_mac_like`. -/
def isMacLike (text : Text) : Bool :=
  if text.contains ':' || text.contains '-' then true
  else
    let hexdigits := text.filter fun char => char ≠ '.'
    hexdigits.any Char.isDigit && hexdigits.any Char.isAlpha

/-- `ipaddress.ip_address(value.strip("[]").split("%", 1)[0])`. -/
def addressOf (value : Text) : Option Address :=
  Address.ofText ((stripBy (fun char => char = '[' || char = ']') value).takeWhile (· ≠ '%'))

/-- `_is_ip`. -/
def isIp (value : Text) : Bool :=
  (addressOf value).isSome

/-- `_is_public_ip`. -/
def isPublicIp (value : Text) : Bool :=
  (addressOf value).any fun address => address.isLoopback || address.isUnspecified

/-- `_PUBLIC_HOSTS`. -/
def publicHosts : List String := ["localhost", "localhost.localdomain", "ip6-localhost"]

/-- `SYSTEM_PATH_PREFIXES`. -/
def systemPathPrefixes : List String :=
  ["/usr/bin/", "/usr/sbin/", "/usr/lib/", "/usr/lib64/", "/usr/libexec/", "/usr/share/", "/bin/",
    "/sbin/", "/lib/", "/lib64/", "/opt/timelapse-manager/", "/proc/self/"]

/-- `APP_ROUTE_ROOTS`. -/
def appRouteRoots : List String :=
  ["about", "account", "alerts", "api", "audit", "cameras", "dashboard", "docs", "drawers",
    "events", "first-run", "frames", "healthz", "login", "logout", "notification-settings",
    "openapi.json", "partials", "projects", "redoc", "renders", "report", "settings", "static",
    "users"]

/-- `ROUTE_SEGMENTS`. -/
def routeSegments : List String :=
  ["add-form", "admin-read", "alerts", "archive", "archive-confirm", "audit", "batch", "bulk",
    "camera-credentials", "cameras", "cancel", "capture", "capture-status", "card", "clear",
    "clear-all", "clone", "combo-check", "confirm-cancel", "count", "create-issue", "debug",
    "delete", "delete-confirm", "detect-protocol", "disable", "discover", "download", "drawer",
    "edit", "edit-form", "enable", "exclude", "export", "fetch-certificate", "form", "frames",
    "geolocation", "image", "import", "include", "ldap", "list", "log-level", "materialize",
    "metadata", "metrics", "milestones", "new", "new-project", "new-user", "oauth2-redirect",
    "offset", "password", "pause", "permanent-delete", "pin", "preferences", "preflight",
    "projects", "ptz-presets", "query", "range", "render-activity", "renders", "report",
    "reports", "resend", "reset-password", "restore", "resume", "revoke-sessions", "ribbon",
    "runners", "settings", "since", "soft-delete", "solar-preview", "ssrf", "start", "status",
    "stop", "stream", "stream-profiles", "suggested-fps", "summary", "system", "table", "tasks",
    "test-connection", "theme", "threads", "thumbnail", "timezone", "tls", "unpin", "upload",
    "v1", "validate"]

/-- A text is one of a list of literals. -/
def isOneOf (text : Text) (literals : List String) : Bool :=
  literals.any fun literal => literal.toList = text

/-- `text.partition(sep)`, without the separator. -/
def partition (sep : Char) (text : Text) : Text × Text :=
  (text.takeWhile (· ≠ sep), (text.dropWhile (· ≠ sep)).drop 1)

/-- `_is_route_shape`. -/
def isRouteShape (data : CharData) (path : Text) : Bool :=
  let (route, query) := partition '?' path
  let (route, fragment) := partition '#' route
  if query.contains '/' || fragment.contains '/' || (partition '#' path).2.contains '/' then false
  else
    match (stripBy (· = '/') route).splitOn '/' with
    | [] => false
    | root :: segments =>
      isOneOf root appRouteRoots && segments.all fun segment =>
          isOneOf segment routeSegments || (Pattern.routeSegment data).fullmatch segment

/-- `_is_allowed_path`. -/
def isAllowedPath (data : CharData) (path : Text) : Bool :=
  if (path.splitOn '/').any fun segment => isOneOf segment [".", ".."] then false
  else if isOneOf path ["/dev/null"] ||
      systemPathPrefixes.any fun start => start.toList.isPrefixOf path then true
  else isRouteShape data path

/-- A match of the leftovers pattern is not private after all. -/
def isHarmless (data : CharData) (group : LeftoverGroup) (found : Match LeftoverGroup) : Bool :=
  match group with
  | .ipv4 | .ipv6 =>
    let address := found.text.takeWhile (· ≠ '%')
    !isIp address || isPublicIp address
  | .mac => !isMacLike found.text
  | .urlcreds => (found.group .ui).any fun ui => isOneOf ui ["«anonymized»", "***"]
  | .urlhost =>
    let host := stripBy (fun char => char = '[' || char = ']') ((found.group .h).getD [])
    isOneOf (data.casefoldText host) publicHosts || isPublicIp host
  | .abspath => isAllowedPath data found.text
  | _ => false

/-- `_leftover`: the kind of the first private pattern.  The group that ends last names it. -/
def leftover (data : CharData) (text : Text) : Option LeftoverGroup :=
  ((Pattern.leftovers data).finditer text).findSome? fun found =>
    found.groups.head?.bind fun captured =>
      if isHarmless data captured.1 found then none else some captured.1

end TimelapseManager.Reports
