import TimelapseManager.Security.Ssrf

/-!
# Forwarded requests

Who a request comes from when proxies relay it: `resolve_effective_client`, which names the client
for the login throttle, and `peer_allowed`, which decides whether a bearer token is taken.  Both
walk `X-Forwarded-For` from the right past the hops that are trusted proxies; the first takes the
hops of the first header line only, the second those of all lines.

`relayed` is what the header lines are after a chain of proxies, each of which has added its peer
to the last line or in a line of its own.
-/

namespace TimelapseManager.Security.Forwarded

open IpAddress (Text Address Network)
open PyText (strip)

/-! ## The shared parsing -/

/-- `parse_networks`: what is malformed is dropped. -/
def parseNetworks (entries : List Text) : List Network :=
  entries.filterMap Network.ofText

/-- `parse_address` of a text. -/
def parseAddress (value : Text) : Option Address :=
  if value = [] then none else (Address.ofText value).map Ssrf.normalise

/-- A request as it reaches the application: the host of its TCP peer, if there is one, its header
lines, the names in lower case, and the scheme of its URL. -/
structure Request where
  client : Option Text
  headers : List (Text × Text)
  scheme : Text
  deriving DecidableEq

variable (request : Request)

/-- `Headers.getlist`. -/
def Request.getlist (name : Text) : List Text :=
  (request.headers.filter fun header => header.1 = name).map Prod.snd

/-- `Headers.get`: the value of the first line of the name. -/
def Request.get (name : Text) : Option Text :=
  (request.headers.find? fun header => header.1 = name).map Prod.snd

/-- `name in headers`. -/
def Request.contains (name : Text) : Bool :=
  request.headers.any fun header => header.1 = name

def xForwardedFor : Text := "x-forwarded-for".toList

def xForwardedProto : Text := "x-forwarded-proto".toList

inductive Scheme
  | http
  | https
  deriving DecidableEq

/-- The scheme a value of `X-Forwarded-Proto` asserts: its left-most entry. -/
def schemeOf (value : Text) : Scheme :=
  if (strip ((value.splitOn ',').headD [])).map Char.toLower = "https".toList then .https
  else .http

/-- `"https" if request.url.scheme == "https" else "http"`. -/
def Request.urlScheme : Scheme :=
  if request.scheme = "https".toList then .https else .http

/-! ## The effective client -/

/-- The address of an untrusted hop; a malformed hop is none. -/
def untrustedHop (trusted : List Network) (hop : Text) : Option Text :=
  match parseAddress (strip hop) with
  | none => none
  | some address => if address.inAny trusted then none else some address.text

/-- `_leftmost_untrusted_hop`. -/
def leftmostUntrustedHop (trusted : List Network) : Option Text :=
  match request.get xForwardedFor with
  | none => none
  | some forwarded =>
    if forwarded = [] then none
    else (forwarded.splitOn ',').reverse.findSome? (untrustedHop trusted)

/-- `_forwarded_scheme`. -/
def forwardedScheme : Option Scheme :=
  match request.get xForwardedProto with
  | none => none
  | some forwarded => if forwarded = [] then none else some (schemeOf forwarded)

/-- `value or default` of a text that may be missing. -/
def orElse (value : Option Text) (default : Text) : Text :=
  match value with
  | none => default
  | some text => if text = [] then default else text

/-- `resolve_effective_client`. -/
def resolveEffectiveClient (trustedProxies : List Text) (request : Request) : Text × Scheme :=
  let peerIp := orElse request.client "unknown".toList
  let trusted := parseNetworks trustedProxies
  match request.client.bind parseAddress with
  | none => (peerIp, request.urlScheme)
  | some peerAddress =>
    if trusted = [] ∨ peerAddress.inAny trusted = false then (peerIp, request.urlScheme)
    else
      (orElse (leftmostUntrustedHop request trusted) peerIp,
        (forwardedScheme request).getD request.urlScheme)

/-! ## The peer policy -/

/-- `_FORWARDED_HEADERS`. -/
def forwardedHeaders : List Text := [xForwardedFor, xForwardedProto, "forwarded".toList]

/-- The hops of all lines, trimmed. -/
def hopsOf (lines : List Text) : List Text :=
  lines.flatMap fun line => (line.splitOn ',').map strip

/-- The walk of `_forwarded_client`, over the hops from the right. -/
def walk (trusted : List Network) : List Text → Option Address
  | [] => none
  | hop :: rest =>
    match parseAddress hop with
    | none => none
    | some address => if address.inAny trusted then walk trusted rest else some address

/-- `_forwarded_client`. -/
def forwardedClient (trusted : List Network) : Option Address :=
  walk trusted (hopsOf (request.getlist xForwardedFor)).reverse

/-- `_forwarded_proto`. -/
def forwardedProto : Scheme :=
  match request.getlist xForwardedProto with
  | [value] => schemeOf value
  | _ => .http

/-- `peer_allowed`. -/
def peerAllowed (allowedClients trustedProxies : List Text) (requireHttps : Bool)
    (request : Request) : Bool :=
  match request.client.bind parseAddress with
  | none => false
  | some peer =>
    let allowed := parseNetworks allowedClients
    let trusted := parseNetworks trustedProxies
    let forwarded := forwardedHeaders.any request.contains
    if forwarded && peer.inAny trusted then
      match forwardedClient request trusted with
      | none => false
      | some client =>
        if client.isLoopback && !peer.isLoopback then false
        else client.inAny allowed && (forwardedProto request = .https || !requireHttps)
    else if forwarded && peer.isLoopback then false
    else if peer.inAny allowed = false then false
    else if peer.isLoopback || !requireHttps then true
    else request.scheme = "https".toList

/-! ## Chains of proxies -/

/-- A host at one end of a connection: what its address is written as, in one hop of a header, and
the address that is read from it. -/
structure Peer where
  host : Text
  address : Address
  parses : parseAddress host = some address
  noComma : ',' ∉ host
  trimmed : strip host = host

/-- How a proxy adds its peer: to the last line of the header, behind a comma and blanks, or in a
line of its own. -/
inductive Form
  | extend (blanks : ℕ)
  | newLine
  deriving DecidableEq

/-- The last line extended; without a line there is a first one. -/
def extendLast (blanks : ℕ) (host : Text) : List Text → List Text
  | [] => [host]
  | [line] => [line ++ ',' :: (List.replicate blanks ' ' ++ host)]
  | line :: next :: rest => line :: extendLast blanks host (next :: rest)

/-- The lines of the header after a proxy has added its peer. -/
def Form.add (form : Form) (lines : List Text) (host : Text) : List Text :=
  match form with
  | .extend blanks => extendLast blanks host lines
  | .newLine => lines ++ [host]

/-- A chain of proxies from the first one on, each with the way it adds its peer. -/
abbrev Chain := List (Form × Peer)

/-- The header lines at the end of the chain, and the peer there. -/
def relayed (lines : List Text) (peer : Peer) : Chain → List Text × Peer
  | [] => (lines, peer)
  | (form, proxy) :: rest => relayed (form.add lines peer.host) proxy rest

/-- The request has come from a peer that sent these lines through the chain. -/
structure Relays (request : Request) (lines : List Text) (first : Peer) (chain : Chain) :
    Prop where
  client : request.client = some (relayed lines first chain).2.host
  forwarded : request.getlist xForwardedFor = (relayed lines first chain).1

/-- Every proxy of the chain is a trusted one. -/
def Chain.Trusted (chain : Chain) (trusted : List Network) : Prop :=
  ∀ hop ∈ chain, hop.2.address.inAny trusted = true

/-- The first proxy writes its peer in the first line: the peer sent no line, or one that the proxy
extends. -/
def Lands (count : ℕ) : Chain → Prop
  | [] => True
  | (form, _) :: _ => count = 0 ∨ count = 1 ∧ form ≠ .newLine

instance (count : ℕ) (chain : Chain) : Decidable (Lands count chain) := by
  cases chain with
  | nil => exact isTrue trivial
  | cons hop rest =>
    unfold Lands
    infer_instance

/-! ## What is read back from the lines -/

variable {address : Address} {text hop : Text} {form : Form} {proxy first : Peer}
  {rest chain : Chain} {trusted : List Network} {lines trustedProxies : List Text}
  {request : Request}

theorem parseAddress_text {value : Text} (hParse : parseAddress value = some address) :
    parseAddress address.text = some address := by
  unfold parseAddress at hParse ⊢
  obtain ⟨-, hRead⟩ := Option.ite_none_left_eq_some.mp hParse
  obtain ⟨source, -, rfl⟩ := Option.map_eq_some_iff.mp hRead
  have hNe : (Ssrf.normalise source).text ≠ [] := by
    intro hNil
    have hNone := Address.ofText_text (Ssrf.normalise source)
    rw [hNil] at hNone
    cases hNone
  rw [if_neg hNe, Address.ofText_text, Option.map_some, Ssrf.normalise_idem]

theorem Peer.host_ne_nil (peer : Peer) : peer.host ≠ [] := by
  intro hNil
  have hParse := peer.parses
  rw [hNil] at hParse
  cases hParse

theorem splitOn_eq_singleton (hComma : ',' ∉ text) : text.splitOn ',' = [text] := by
  refine List.splitOnP_eq_singleton ?_
  intro char hMem
  rw [beq_eq_false_iff_ne]
  rintro rfl
  exact hComma hMem

theorem strip_blanks (hTrimmed : strip text = text) (blanks : ℕ) :
    strip (List.replicate blanks ' ' ++ text) = text := by
  have hDrop : (List.replicate blanks ' ' ++ text).dropWhile PyText.isSpace =
      text.dropWhile PyText.isSpace := by
    induction blanks with
    | zero => rfl
    | succ blanks ih =>
      rw [List.replicate_succ, List.cons_append, List.dropWhile_cons_of_pos (by decide), ih]
  unfold strip PyText.stripBy at hTrimmed ⊢
  rw [hDrop, hTrimmed]

theorem splitOn_extend (line : Text) (blanks : ℕ) (peer : Peer) :
    (line ++ ',' :: (List.replicate blanks ' ' ++ peer.host)).splitOn ',' =
      line.splitOn ',' ++ [List.replicate blanks ' ' ++ peer.host] := by
  have hComma : ',' ∉ List.replicate blanks ' ' ++ peer.host := by
    rw [List.mem_append, not_or]
    refine ⟨?_, peer.noComma⟩
    intro hMem
    cases List.eq_of_mem_replicate hMem
  have hSplit := splitOn_eq_singleton hComma
  rw [← hSplit]
  exact List.splitOnP_append_cons _ _ (beq_self_eq_true ',')

theorem hopsOf_append (first second : List Text) :
    hopsOf (first ++ second) = hopsOf first ++ hopsOf second :=
  List.flatMap_append

theorem hopsOf_host (peer : Peer) : hopsOf [peer.host] = [peer.host] := by
  simp only [hopsOf, List.flatMap_cons, List.flatMap_nil, List.append_nil,
    splitOn_eq_singleton peer.noComma, List.map_cons, List.map_nil, peer.trimmed]

theorem hopsOf_extendLast (blanks : ℕ) (peer : Peer) (lines : List Text) :
    hopsOf (extendLast blanks peer.host lines) = hopsOf lines ++ [peer.host] := by
  induction lines with
  | nil => exact hopsOf_host peer
  | cons line rest ih =>
    cases rest with
    | nil =>
      simp only [extendLast, hopsOf, List.flatMap_cons, List.flatMap_nil, List.append_nil,
        splitOn_extend, List.map_append, List.map_cons, List.map_nil,
        strip_blanks peer.trimmed]
    | cons next rest =>
      have hStep : extendLast blanks peer.host (line :: next :: rest) =
          [line] ++ extendLast blanks peer.host (next :: rest) := rfl
      rw [hStep, hopsOf_append, ih, ← List.append_assoc, ← hopsOf_append]
      rfl

theorem hopsOf_add (form : Form) (peer : Peer) (lines : List Text) :
    hopsOf (form.add lines peer.host) = hopsOf lines ++ [peer.host] := by
  cases form with
  | extend blanks => exact hopsOf_extendLast blanks peer lines
  | newLine =>
    show hopsOf (lines ++ [peer.host]) = hopsOf lines ++ [peer.host]
    rw [hopsOf_append, hopsOf_host]

theorem Chain.Trusted.relayed (hTrusted : Chain.Trusted ((form, proxy) :: rest) trusted)
    (lines : List Text) (first : Peer) :
    (relayed lines first ((form, proxy) :: rest)).2.address.inAny trusted = true ∧
      ∃ proxies : List Peer, (∀ peer ∈ proxies, peer.address.inAny trusted = true) ∧
        hopsOf (relayed lines first ((form, proxy) :: rest)).1 =
          hopsOf lines ++ first.host :: proxies.map Peer.host := by
  obtain ⟨hProxy, hRest⟩ := List.forall_mem_cons.mp hTrusted
  induction rest generalizing lines first form proxy with
  | nil => exact ⟨hProxy, [], nofun, hopsOf_add form first lines⟩
  | cons hop rest ih =>
    obtain ⟨hHop, hLater⟩ := List.forall_mem_cons.mp hRest
    obtain ⟨hLast, proxies, hProxies, hHops⟩ :=
      ih hRest (form.add lines first.host) proxy hHop hLater
    refine ⟨hLast, proxy :: proxies, List.forall_mem_cons.mpr ⟨hProxy, hProxies⟩, ?_⟩
    rw [Forwarded.relayed, hHops, hopsOf_add, List.append_assoc]
    rfl

/-! ## The walk over the hops -/

/-- A hop that the walk goes past. -/
def TrustedHop (trusted : List Network) (hop : Text) : Prop :=
  ∃ address, parseAddress hop = some address ∧ address.inAny trusted = true

theorem walk_append {hops : List Text} (hTrusted : ∀ hop ∈ hops, TrustedHop trusted hop)
    (rest : List Text) : walk trusted (hops ++ rest) = walk trusted rest := by
  induction hops with
  | nil => rfl
  | cons hop hops ih =>
    obtain ⟨address, hParse, hIn⟩ := hTrusted hop List.mem_cons_self
    rw [List.cons_append, walk, hParse]
    dsimp only
    rw [if_pos hIn]
    exact ih (List.forall_mem_cons.mp hTrusted).2

theorem walk_stops (hHop : ¬TrustedHop trusted hop) (right left other : List Text) :
    walk trusted (right ++ hop :: left) = walk trusted (right ++ hop :: other) := by
  induction right with
  | nil =>
    rw [List.nil_append, List.nil_append, walk, walk]
    cases hParse : parseAddress hop with
    | none => rfl
    | some address =>
      have hOut : ¬address.inAny trusted = true := fun hIn => hHop ⟨address, hParse, hIn⟩
      dsimp only
      rw [if_neg hOut, if_neg hOut]
  | cons next right ih =>
    rw [List.cons_append, List.cons_append, walk, walk, ih]

theorem walk_relayed (hTrusted : Chain.Trusted ((form, proxy) :: rest) trusted)
    (hFirst : first.address.inAny trusted = false) :
    walk trusted (hopsOf (relayed lines first ((form, proxy) :: rest)).1).reverse =
      some first.address := by
  obtain ⟨-, proxies, hProxies, hHops⟩ := hTrusted.relayed lines first
  rw [hHops, List.reverse_append, List.reverse_cons, List.append_assoc]
  rw [walk_append]
  · rw [List.singleton_append, walk, first.parses]
    dsimp only
    rw [if_neg (by rw [hFirst]; decide)]
  · intro hop hMem
    obtain ⟨peer, hPeer, rfl⟩ := List.mem_map.mp (List.mem_reverse.mp hMem)
    exact ⟨peer.address, peer.parses, hProxies peer hPeer⟩

/-! ## The first line -/

theorem get_eq_head? (request : Request) (name : Text) :
    request.get name = (request.getlist name).head? := by
  unfold Request.get Request.getlist
  rw [List.head?_map, List.head?_filter]

/-- The first line of a header ends with a hop that the untrusted hop of the line is read from,
followed by trusted hops. -/
structure EndsWith (trusted : List Network) (address : Address) (lines : List Text) : Prop where
  hops : ∃ line before hop after, lines.head? = some line ∧
    line.splitOn ',' = before ++ hop :: after ∧ parseAddress (strip hop) = some address ∧
    ∀ other ∈ after, TrustedHop trusted (strip other)

theorem EndsWith.add (hEnds : EndsWith trusted address lines) (form : Form) {peer : Peer}
    (hPeer : peer.address.inAny trusted = true) :
    EndsWith trusted address (form.add lines peer.host) := by
  obtain ⟨line, before, hop, after, hHead, hSplit, hParse, hAfter⟩ := hEnds.hops
  obtain ⟨rest, rfl⟩ := List.head?_eq_some_iff.mp hHead
  have hKept : ∀ others, others.head? = some line → EndsWith trusted address others :=
    fun others hOthers => ⟨line, before, hop, after, hOthers, hSplit, hParse, hAfter⟩
  cases form with
  | newLine => exact hKept _ rfl
  | extend blanks =>
    cases rest with
    | cons next rest => exact hKept _ rfl
    | nil =>
      refine ⟨_, before, hop, after ++ [List.replicate blanks ' ' ++ peer.host], rfl, ?_,
        hParse, ?_⟩
      · rw [splitOn_extend, hSplit, List.append_assoc]
        rfl
      · refine List.forall_mem_append.mpr ⟨hAfter, List.forall_mem_singleton.mpr ?_⟩
        rw [strip_blanks peer.trimmed]
        exact ⟨peer.address, peer.parses, hPeer⟩

theorem EndsWith.relayed (hEnds : EndsWith trusted address lines) {peer : Peer}
    (hPeer : peer.address.inAny trusted = true) (hChain : chain.Trusted trusted) :
    EndsWith trusted address (relayed lines peer chain).1 := by
  induction chain generalizing lines peer with
  | nil => exact hEnds
  | cons hop rest ih =>
    obtain ⟨form, proxy⟩ := hop
    exact ih (hEnds.add form hPeer) (hChain (form, proxy) List.mem_cons_self)
      (List.forall_mem_cons.mp hChain).2

theorem endsWith_of_lands (trusted : List Network)
    (hLands : Lands lines.length ((form, proxy) :: rest)) (first : Peer) :
    EndsWith trusted first.address (form.add lines first.host) := by
  have hAlone : EndsWith trusted first.address [first.host] := by
    refine ⟨first.host, [], first.host, [], rfl, splitOn_eq_singleton first.noComma, ?_, nofun⟩
    rw [first.trimmed]
    exact first.parses
  rcases hLands with hNone | ⟨hLength, hForm⟩
  · obtain rfl := List.length_eq_zero_iff.mp hNone
    cases form with
    | newLine | extend => exact hAlone
  · obtain ⟨line, rfl⟩ := List.length_eq_one_iff.mp hLength
    cases form with
    | newLine => exact absurd rfl hForm
    | extend blanks =>
      refine ⟨_, line.splitOn ',', List.replicate blanks ' ' ++ first.host, [], rfl, ?_, ?_,
        nofun⟩
      · exact splitOn_extend line blanks first
      · rw [strip_blanks first.trimmed]
        exact first.parses

theorem leftmostUntrustedHop_of_endsWith
    (hEnds : EndsWith trusted address (request.getlist xForwardedFor))
    (hOut : address.inAny trusted = false) :
    leftmostUntrustedHop request trusted = some address.text := by
  obtain ⟨line, before, hop, after, hHead, hSplit, hParse, hAfter⟩ := hEnds.hops
  have hFound : untrustedHop trusted hop = some address.text := by
    unfold untrustedHop
    rw [hParse]
    dsimp only
    rw [if_neg (by rw [hOut]; decide)]
  have hPast : after.reverse.findSome? (untrustedHop trusted) = none := by
    rw [List.findSome?_eq_none_iff]
    intro other hMem
    obtain ⟨trustedAddress, hTrusted, hIn⟩ := hAfter other (List.mem_reverse.mp hMem)
    unfold untrustedHop
    rw [hTrusted]
    dsimp only
    rw [if_pos hIn]
  have hLine : line ≠ [] := by
    rintro rfl
    -- An empty line is one empty hop, which is no address.
    rw [List.splitOn_nil] at hSplit
    have hMem : hop ∈ [([] : Text)] := by rw [hSplit]; simp
    rw [List.mem_singleton.mp hMem] at hParse
    cases hParse
  unfold leftmostUntrustedHop
  rw [get_eq_head?, hHead]
  dsimp only
  rw [if_neg hLine, hSplit, List.reverse_append, List.reverse_cons, List.findSome?_append,
    List.findSome?_append, hPast]
  simp [hFound]

/-! ## The results -/

theorem orElse_some (hText : text ≠ []) (default : Text) : orElse (some text) default = text := by
  exact if_neg hText

/-- What the effective client of a relayed request is written as: the host of a direct peer, and
the text of the address of a peer behind proxies. -/
def Peer.attributed (peer : Peer) : Chain → Text
  | [] => peer.host
  | _ :: _ => peer.address.text

theorem resolveEffectiveClient_of_lands (hRelays : Relays request lines first chain)
    (hTrusted : chain.Trusted (parseNetworks trustedProxies))
    (hFirst : first.address.inAny (parseNetworks trustedProxies) = false)
    (hLands : Lands lines.length chain) :
    (resolveEffectiveClient trustedProxies request).1 = first.attributed chain := by
  have hClient := hRelays.client
  have hLines := hRelays.forwarded
  unfold resolveEffectiveClient
  cases chain with
  | nil =>
    have hClient : request.client = some first.host := hClient
    rw [hClient, Option.bind_some, first.parses]
    dsimp only
    rw [if_pos (Or.inr hFirst)]
    exact orElse_some first.host_ne_nil _
  | cons hop rest =>
    obtain ⟨form, proxy⟩ := hop
    have hProxy : proxy.address.inAny (parseNetworks trustedProxies) = true :=
      hTrusted (form, proxy) List.mem_cons_self
    have hEnds : EndsWith (parseNetworks trustedProxies) first.address
        (request.getlist xForwardedFor) := by
      rw [hLines]
      exact (endsWith_of_lands _ hLands first).relayed hProxy (List.forall_mem_cons.mp hTrusted).2
    have hFound := leftmostUntrustedHop_of_endsWith hEnds hFirst
    have hPeer := (Chain.Trusted.relayed hTrusted lines first).1
    have hSome : parseNetworks trustedProxies ≠ [] := by
      intro hNil
      rw [hNil] at hProxy
      cases hProxy
    rw [hClient, Option.bind_some, Peer.parses]
    dsimp only
    rw [if_neg, hFound]
    · refine orElse_some ?_ _
      intro hNil
      have hParse := parseAddress_text first.parses
      rw [hNil] at hParse
      cases hParse
    · rintro (hNil | hOut)
      · exact hSome hNil
      · rw [hPeer] at hOut
        cases hOut

/-! ### A first line of the client's own -/

theorem head?_add (hLong : 2 ≤ lines.length) (form : Form) (host : Text) :
    (form.add lines host).head? = lines.head? ∧ 2 ≤ (form.add lines host).length := by
  match lines, hLong with
  | line :: next :: rest, _ =>
    cases form with
    | newLine => simp [Form.add]
    | extend blanks =>
      refine ⟨rfl, ?_⟩
      cases rest with
      | nil | cons => simp [Form.add, extendLast]

/-- With two lines the first one stays as it is. -/
theorem head?_relayed (hLong : 2 ≤ lines.length) (peer : Peer) (chain : Chain) :
    (relayed lines peer chain).1.head? = lines.head? := by
  induction chain generalizing lines peer with
  | nil => rfl
  | cons hop rest ih =>
    obtain ⟨hHead, hStill⟩ := head?_add hLong hop.1 peer.host
    rw [relayed, ih hStill, hHead]

/-- Lines without anything in them, one of which stays the first. -/
theorem head?_relayed_empty {count : ℕ} (hLands : ¬ Lands count ((form, proxy) :: rest))
    (first : Peer) :
    (relayed (List.replicate count []) first ((form, proxy) :: rest)).1.head? = some [] := by
  obtain ⟨hSome, hTwo⟩ := not_or.mp hLands
  by_cases hOne : count = 1
  · obtain rfl : form = .newLine := not_not.mp fun hForm => hTwo ⟨hOne, hForm⟩
    subst hOne
    have hTwoLines : 2 ≤ [[], first.host].length := le_rfl
    exact head?_relayed hTwoLines proxy rest
  · obtain ⟨more, rfl⟩ : ∃ more, count = more + 1 := ⟨count - 1, by omega⟩
    exact head?_relayed (by simp; omega) first _

/-- A request that a peer has sent with these lines through the chain. -/
def relayedRequest (lines : List Text) (first : Peer) (chain : Chain) : Request where
  client := some (relayed lines first chain).2.host
  headers := (relayed lines first chain).1.map fun line => (xForwardedFor, line)
  scheme := "http".toList

theorem relays_relayedRequest (lines : List Text) (first : Peer) (chain : Chain) :
    Relays (relayedRequest lines first chain) lines first chain := by
  refine ⟨rfl, ?_⟩
  simp [relayedRequest, Request.getlist, List.filter_map, Function.comp_def]

/-- Behind an empty first line the client is taken for the last proxy. -/
theorem resolveEffectiveClient_of_empty (hRelays : Relays request lines first chain)
    (hEmpty : (relayed lines first chain).1.head? = some []) :
    (resolveEffectiveClient trustedProxies request).1 = (relayed lines first chain).2.host := by
  have hNone : leftmostUntrustedHop request (parseNetworks trustedProxies) = none := by
    unfold leftmostUntrustedHop
    rw [get_eq_head?, hRelays.forwarded, hEmpty]
    rfl
  have hHost := orElse_some (relayed lines first chain).2.host_ne_nil "unknown".toList
  unfold resolveEffectiveClient
  rw [hRelays.client, Option.bind_some, Peer.parses]
  dsimp only
  rw [hNone, hHost]
  split <;> rfl

/-- For every chain of trusted proxies behind which the first peer is not trusted, the effective
client has the address of that peer whatever lines it sends, so many of them, exactly if the first
proxy adds it to the first line; two such requests have the same effective client. -/
theorem effective_client_of_landed {trustedProxies : List Text} {first : Peer} {chain : Chain}
    (hTrusted : chain.Trusted (parseNetworks trustedProxies))
    (hFirst : first.address.inAny (parseNetworks trustedProxies) = false) :
    (∀ count, (∀ lines request, lines.length = count → Relays request lines first chain →
        parseAddress (resolveEffectiveClient trustedProxies request).1 = some first.address) ↔
      Lands count chain) ∧
    ∀ lines request otherLines other, Relays request lines first chain → Lands lines.length chain →
      Relays other otherLines first chain → Lands otherLines.length chain →
        (resolveEffectiveClient trustedProxies request).1 =
          (resolveEffectiveClient trustedProxies other).1 := by
  constructor
  · intro count
    constructor
    · intro hAll
      by_contra hLands
      cases chain with
      | nil => exact hLands trivial
      | cons hop rest =>
        have hRelays := relays_relayedRequest (List.replicate count []) first (hop :: rest)
        have hEffective := hAll _ _ List.length_replicate hRelays
        rw [resolveEffectiveClient_of_empty hRelays (head?_relayed_empty hLands first),
          Peer.parses] at hEffective
        have hLast := (Chain.Trusted.relayed hTrusted (List.replicate count []) first).1
        rw [Option.some.inj hEffective, hFirst] at hLast
        cases hLast
    · rintro hLands lines request rfl hRelays
      rw [resolveEffectiveClient_of_lands hRelays hTrusted hFirst hLands]
      cases chain with
      | nil => exact first.parses
      | cons hop rest => exact parseAddress_text first.parses
  · intro lines request otherLines other hRelays hLands hOther hOtherLands
    rw [resolveEffectiveClient_of_lands hRelays hTrusted hFirst hLands,
      resolveEffectiveClient_of_lands hOther hTrusted hFirst hOtherLands]

/-- A client on the internet. -/
def outsider : Peer where
  host := "203.0.113.9".toList
  address := .v4 ⟨3405803785, by decide⟩
  parses := by decide +kernel
  noComma := by decide
  trimmed := by decide

/-- A proxy on the local network. -/
def localProxy : Peer where
  host := "10.0.0.1".toList
  address := .v4 ⟨167772161, by decide⟩
  parses := by decide +kernel
  noComma := by decide
  trimmed := by decide

def localNetworks : List Text := ["10.0.0.0/8".toList]

/-- The line a client sends to be taken for another one. -/
def spoofedLine : Text := "198.51.100.7".toList

/-- The local proxy extends the line of the client: the line changes nothing. -/
theorem effective_client_behind_extending_proxy :
    let chain : Chain := [(.extend 1, localProxy)]
    let spoofed := relayedRequest [spoofedLine] outsider chain
    let honest := relayedRequest [] outsider chain
    parseAddress (resolveEffectiveClient localNetworks spoofed).1 = some outsider.address ∧
      (resolveEffectiveClient localNetworks spoofed).1 =
        (resolveEffectiveClient localNetworks honest).1 := by
  intro chain spoofed honest
  have hTrusted : chain.Trusted (parseNetworks localNetworks) := by
    intro hop hMem
    rw [List.mem_singleton.mp hMem]
    decide +kernel
  have hSpoofed := relays_relayedRequest [spoofedLine] outsider chain
  have hHonest := relays_relayedRequest [] outsider chain
  have hOutsider : outsider.address.inAny (parseNetworks localNetworks) = false := by
    decide +kernel
  have hResult := effective_client_of_landed hTrusted hOutsider
  exact ⟨(hResult.1 1).mpr (by decide) _ _ rfl hSpoofed,
    hResult.2 _ _ _ _ hSpoofed (by decide) hHonest (by decide)⟩

/-- The local proxy adds its peer in a line of its own: the client is taken for the one whose
address it has sent, and without that line for itself. -/
theorem effective_client_spoofed_by_first_line :
    let chain : Chain := [(.newLine, localProxy)]
    let spoofed := relayedRequest [spoofedLine] outsider chain
    let honest := relayedRequest [] outsider chain
    localProxy.address.inAny (parseNetworks localNetworks) = true ∧
      outsider.address.inAny (parseNetworks localNetworks) = false ∧
      Relays spoofed [spoofedLine] outsider chain ∧ Relays honest [] outsider chain ∧
      (resolveEffectiveClient localNetworks spoofed).1 = spoofedLine ∧
      (resolveEffectiveClient localNetworks honest).1 = outsider.host := by
  exact ⟨by decide +kernel, by decide +kernel, relays_relayedRequest _ _ _,
    relays_relayedRequest _ _ _, by decide +kernel, by decide +kernel⟩

/-! ### The verdict on a token -/

theorem forwarded_of_hop (hHop : hop ∈ hopsOf (request.getlist xForwardedFor)) :
    forwardedHeaders.any request.contains = true := by
  obtain ⟨line, hLine, -⟩ := List.mem_flatMap.mp hHop
  obtain ⟨header, hHeader, -⟩ := List.mem_map.mp hLine
  have hLines : request.contains xForwardedFor = true :=
    List.any_eq_true.mpr ⟨header, List.mem_filter.mp hHeader⟩
  exact List.any_eq_true.mpr ⟨xForwardedFor, List.mem_cons_self, hLines⟩

/-- Two requests that are equal but in the lines of `X-Forwarded-For`. -/
structure SameElsewhere (request other : Request) : Prop where
  client : request.client = other.client
  scheme : request.scheme = other.scheme
  headers : ∀ name, name ≠ xForwardedFor → request.getlist name = other.getlist name

theorem peerAllowed_of_same_right {other : Request} (hSame : SameElsewhere request other)
    {left otherLeft right : List Text} (hHop : ¬TrustedHop (parseNetworks trustedProxies) hop)
    (hHops : hopsOf (request.getlist xForwardedFor) = left ++ hop :: right)
    (hOther : hopsOf (other.getlist xForwardedFor) = otherLeft ++ hop :: right)
    (allowedClients : List Text) (requireHttps : Bool) :
    peerAllowed allowedClients trustedProxies requireHttps request =
      peerAllowed allowedClients trustedProxies requireHttps other := by
  have hProto : forwardedProto request = forwardedProto other := by
    unfold forwardedProto
    rw [hSame.headers xForwardedProto (by decide)]
  have hForwarded : forwardedHeaders.any request.contains =
      forwardedHeaders.any other.contains := by
    have hOne : hop ∈ hopsOf (request.getlist xForwardedFor) := by
      rw [hHops]
      simp
    have hTwo : hop ∈ hopsOf (other.getlist xForwardedFor) := by
      rw [hOther]
      simp
    rw [forwarded_of_hop hOne, forwarded_of_hop hTwo]
  have hFound : forwardedClient request (parseNetworks trustedProxies) =
      forwardedClient other (parseNetworks trustedProxies) := by
    unfold forwardedClient
    rw [hHops, hOther]
    simp only [List.reverse_append, List.reverse_cons, List.append_assoc, List.singleton_append]
    exact walk_stops hHop _ _ _
  unfold peerAllowed
  simp only [hSame.client, hSame.scheme, hForwarded, hFound, hProto]

theorem peerAllowed_relayed (hRelays : Relays request lines first chain)
    (hTrusted : chain.Trusted (parseNetworks trustedProxies))
    (hFirst : first.address.inAny (parseNetworks trustedProxies) = false) (requireHttps : Bool) :
    ∃ otherwise : Bool, ∀ allowedClients : List Text,
      peerAllowed allowedClients trustedProxies requireHttps request =
        (first.address.inAny (parseNetworks allowedClients) && otherwise) := by
  have hClient := hRelays.client
  cases chain with
  | nil =>
    -- The first peer is the direct one, and whatever it forwards is not read.
    have hClient : request.client = some first.host := hClient
    refine ⟨!(forwardedHeaders.any request.contains && first.address.isLoopback) &&
      (first.address.isLoopback || !requireHttps || request.scheme = "https".toList), ?_⟩
    intro allowedClients
    unfold peerAllowed
    rw [hClient, Option.bind_some, first.parses]
    simp only [hFirst, Bool.and_false]
    cases forwardedHeaders.any request.contains <;> cases first.address.isLoopback <;>
      cases first.address.inAny (parseNetworks allowedClients) <;> cases requireHttps <;> simp
  | cons hop rest =>
    obtain ⟨form, proxy⟩ := hop
    have hFound : forwardedClient request (parseNetworks trustedProxies) = some first.address := by
      unfold forwardedClient
      rw [hRelays.forwarded]
      exact walk_relayed hTrusted hFirst
    obtain ⟨hPeer, proxies, -, hHops⟩ := Chain.Trusted.relayed hTrusted lines first
    have hForwarded : forwardedHeaders.any request.contains = true := by
      have hMem : first.host ∈ hopsOf (request.getlist xForwardedFor) := by
        rw [hRelays.forwarded, hHops]
        simp
      exact forwarded_of_hop hMem
    refine ⟨!(first.address.isLoopback &&
        !(relayed lines first ((form, proxy) :: rest)).2.address.isLoopback) &&
      (forwardedProto request = .https || !requireHttps), ?_⟩
    intro allowedClients
    unfold peerAllowed
    rw [hClient, Option.bind_some, Peer.parses]
    simp only [hForwarded, hPeer, hFound, Bool.and_self, if_true]
    cases first.address.isLoopback <;>
      cases (relayed lines first ((form, proxy) :: rest)).2.address.isLoopback <;> simp

/-- The verdict on a token is a matter of the right-most untrusted hop: the hops to its left change
nothing, and a request that trusted proxies relay is judged by the address of the first untrusted
peer, which must be in the allow-list, and not by what else the list says of the proxies. -/
theorem peer_allowed_by_first_untrusted (allowedClients trustedProxies : List Text)
    (requireHttps : Bool) :
    (∀ (request other : Request) (left otherLeft right : List Text) (hop : Text),
      SameElsewhere request other → ¬TrustedHop (parseNetworks trustedProxies) hop →
      hopsOf (request.getlist xForwardedFor) = left ++ hop :: right →
      hopsOf (other.getlist xForwardedFor) = otherLeft ++ hop :: right →
      peerAllowed allowedClients trustedProxies requireHttps request =
        peerAllowed allowedClients trustedProxies requireHttps other) ∧
    (∀ (first : Peer) (chain : Chain) (lines : List Text) (request : Request),
      Relays request lines first chain → chain.Trusted (parseNetworks trustedProxies) →
      first.address.inAny (parseNetworks trustedProxies) = false →
      (peerAllowed allowedClients trustedProxies requireHttps request = true →
        first.address.inAny (parseNetworks allowedClients) = true) ∧
      ∀ otherClients : List Text,
        first.address.inAny (parseNetworks otherClients) =
          first.address.inAny (parseNetworks allowedClients) →
        peerAllowed otherClients trustedProxies requireHttps request =
          peerAllowed allowedClients trustedProxies requireHttps request) := by
  constructor
  · intro request other left otherLeft right hop hSame hHop hHops hOther
    exact peerAllowed_of_same_right hSame hHop hHops hOther allowedClients requireHttps
  · intro first chain lines request hRelays hTrusted hFirst
    obtain ⟨otherwise, hVerdict⟩ := peerAllowed_relayed hRelays hTrusted hFirst requireHttps
    constructor
    · intro hAccepted
      rw [hVerdict, Bool.and_eq_true] at hAccepted
      exact hAccepted.1
    · intro otherClients hAgree
      rw [hVerdict, hVerdict, hAgree]

/-- A spoofed hop in front of the outsider's: refused with it and without it, although the
allow-list holds the spoofed address and the proxy's; accepted where it holds the outsider's. -/
theorem peer_allowed_refuses_spoofed_hop :
    let chain : Chain := [(.newLine, localProxy)]
    let spoofed := relayedRequest [spoofedLine] outsider chain
    let honest := relayedRequest [] outsider chain
    let allowed := [spoofedLine, localProxy.host]
    peerAllowed allowed localNetworks false spoofed = false ∧
      peerAllowed allowed localNetworks false spoofed =
        peerAllowed allowed localNetworks false honest ∧
      peerAllowed [outsider.host] localNetworks false spoofed = true ∧
      outsider.address.inAny (parseNetworks [outsider.host]) = true := by
  intro chain spoofed honest allowed
  have hResult := peer_allowed_by_first_untrusted allowed localNetworks false
  have hTrusted : chain.Trusted (parseNetworks localNetworks) := by
    intro hop hMem
    rw [List.mem_singleton.mp hMem]
    decide +kernel
  have hOut : outsider.address.inAny (parseNetworks localNetworks) = false := by decide +kernel
  have hHop : ¬TrustedHop (parseNetworks localNetworks) outsider.host := by
    rintro ⟨address, hParse, hIn⟩
    rw [outsider.parses] at hParse
    cases hParse
    rw [hOut] at hIn
    cases hIn
  have hRelays := relays_relayedRequest [spoofedLine] outsider chain
  have hAccepted : peerAllowed [outsider.host] localNetworks false spoofed = true := by
    decide +kernel
  refine ⟨?_, ?_, hAccepted, ?_⟩
  · cases hVerdict : peerAllowed allowed localNetworks false spoofed with
    | false => rfl
    | true =>
      have hIn := (hResult.2 outsider chain [spoofedLine] spoofed hRelays hTrusted hOut).1 hVerdict
      revert hIn
      decide +kernel
  · refine hResult.1 spoofed honest [spoofedLine] [] [] outsider.host ⟨rfl, rfl, ?_⟩ hHop
      (by decide +kernel) (by decide +kernel)
    intro name hName
    have hNe : ¬xForwardedFor = name := fun hEq => hName hEq.symm
    simp [spoofed, honest, relayedRequest, Request.getlist, relayed, Form.add, chain, hNe]
  · exact ((peer_allowed_by_first_untrusted [outsider.host] localNetworks false).2 outsider chain
      [spoofedLine] spoofed hRelays hTrusted hOut).1 hAccepted

end TimelapseManager.Security.Forwarded
