import TimelapseManager.Lib.IpAddress
import TimelapseManager.Lib.PyText

/-!
# The outbound-request guard

The address checks of `ssrf.py`: the two tiers of `assert_address_allowed`, the validation of
a whole DNS answer and the key under which an allowed answer is cached.

* `assertAddressAllowed_text`: an address that passed still passes as the text it is handed
  on as.
* `assertAddressAllowed_of_cacheKey`: callers that share a cache key get the same verdicts.
-/

namespace TimelapseManager.Security.Ssrf

open IpAddress (Text Address Network)
open IpAddress.Network (ofOctets ofHextets)
open PyText (strip stripBy)

/-- `SsrfError`, with the target it names. -/
inductive SsrfError
  | notAnAddress (text : Text)
  | cloudMetadata (address : Address)
  | alwaysBlocked (address : Address)
  | loopbackLinkLocalUnspecified (address : Address)
  | multicast (address : Address)
  | reserved (address : Address)
  | notInAllowedSubnet (address : Address)
  | privateSpace (address : Address)
  | noAddress (host : Text)
  | unresolved (host : Text)

/-- The policy a caller passes: `allow_private` and `allowed_private_subnets`. -/
structure Policy where
  allowPrivate : Bool
  subnets : List Text
  deriving DecidableEq

/-- `_ALWAYS_DENIED`. -/
def alwaysDenied : List Network :=
  [ofOctets 127 0 0 0 8, ofHextets [0, 0, 0, 0, 0, 0, 0, 1] 128, ofOctets 169 254 0 0 16,
    ofHextets [0xfe80] 10, ofOctets 0 0 0 0 8, ofHextets [] 128]

/-- `_CLOUD_METADATA_V4`. -/
def cloudMetadataV4 : Address :=
  .v4 (Fin.ofNat _ (IpAddress.ofGroups 256 [169, 254, 169, 254]))

/-- `_PRIVATE_RANGES`. -/
def privateRanges : List Network :=
  [ofOctets 10 0 0 0 8, ofOctets 172 16 0 0 12, ofOctets 192 168 0 0 16, ofOctets 100 64 0 0 10,
    ofHextets [0xfc00] 7]

/-- `_normalise`: an address that carries an IPv4 address is that address. -/
def normalise (address : Address) : Address :=
  address.ipv4Mapped.getD address

/-- `_parse_allowed_subnets`: what is malformed is skipped. -/
def parseAllowedSubnets (subnets : List Text) : List Network :=
  subnets.filterMap fun entry => Network.ofText (strip entry)

/-- What `assert_address_allowed` decides about a parsed address. -/
def checkAddress (policy : Policy) (address : Address) : Except SsrfError Address :=
  if address = cloudMetadataV4 then .error (.cloudMetadata address)
  else if address.inAny alwaysDenied then .error (.alwaysBlocked address)
  else if address.isLoopback || address.isLinkLocal || address.isUnspecified then
    .error (.loopbackLinkLocalUnspecified address)
  else if address.isMulticast then .error (.multicast address)
  else if address.isReserved then .error (.reserved address)
  else if address.inAny privateRanges || address.isPrivate then
    if policy.allowPrivate then
      if address.inAny (parseAllowedSubnets policy.subnets) then .ok address
      else .error (.notInAllowedSubnet address)
    else .error (.privateSpace address)
  else .ok address

/-- `assert_address_allowed`. -/
def assertAddressAllowed (policy : Policy) (text : Text) : Except SsrfError Address :=
  match Address.ofText (strip text) with
  | none => .error (.notAnAddress text)
  | some address => checkAddress policy (normalise address)

/-- The text passes the guard. -/
def Allowed (policy : Policy) (text : Text) : Prop :=
  ∃ address, assertAddressAllowed policy text = .ok address

/-- Every text is validated; the first denial is raised. -/
def assertAllAllowed (policy : Policy) : List Text → Except SsrfError (List Address)
  | [] => .ok []
  | text :: texts =>
    match assertAddressAllowed policy text with
    | .error denial => .error denial
    | .ok address =>
      match assertAllAllowed policy texts with
      | .error denial => .error denial
      | .ok addresses => .ok (address :: addresses)

/-- `_resolve_and_validate`.  `answer` is what `getaddrinfo` gives for the host, where it is
asked: nothing for a failure. -/
def resolveAndValidate (policy : Policy) (host : Text) (answer : Option (List Text)) :
    Except SsrfError (List Address) :=
  match Address.ofText (strip host) with
  | some _ => assertAllAllowed policy [host]
  | none =>
    match answer with
    | none => .error (.unresolved host)
    | some [] => .error (.noAddress host)
    | some infos => assertAllAllowed policy infos.eraseDups

/-- `_literal_ip`. -/
def literalIp (host : Text) : Option Text :=
  (Address.ofText (stripBy (fun char => char = '[' || char = ']') (strip host))).map Address.text

/-- `_CacheKey`. -/
structure CacheKey where
  host : Text
  allowPrivate : Bool
  subnets : List Text
  deriving DecidableEq

/-- `_cache_key`, with `str.lower` as a parameter: nothing here depends on how it maps. -/
def cacheKey (lower : Text → Text) (host : Text) (policy : Policy) : CacheKey where
  host := (lower host).rdropWhile (· = '.')
  allowPrivate := policy.allowPrivate
  subnets := (policy.subnets.map strip).eraseDups.insertionSort (· ≤ ·)

/-- `address_inside_subnets` of `pinned_http.py`. -/
def addressInsideSubnets (text : Text) (subnets : List Text) : Bool :=
  match Address.ofText text with
  | none => false
  | some address => (normalise address).inAny (parseAllowedSubnets subnets)

/-! ## The verdict on what is handed on -/

variable {address : Address} {policy : Policy} {source : Text}

theorem ipv4Mapped_eq_some {mapped : Address} (hMapped : address.ipv4Mapped = some mapped) :
    ∃ value, mapped = .v4 value := by
  cases address with
  | v4 value => cases hMapped
  | v6 value scope =>
    change (if value.val / 2 ^ 32 = 0xFFFF then some (Address.v4 (Fin.ofNat _ value.val))
      else none) = some mapped at hMapped
    split at hMapped
    · exact ⟨_, (Option.some.inj hMapped).symm⟩
    · cases hMapped

theorem normalise_idem (address : Address) : normalise (normalise address) = normalise address := by
  unfold normalise
  cases hMapped : address.ipv4Mapped with
  | none => rw [Option.getD_none, hMapped, Option.getD_none]
  | some mapped =>
    obtain ⟨value, rfl⟩ := ipv4Mapped_eq_some hMapped
    rfl

theorem checkAddress_ok {passed : Address} (hOk : checkAddress policy address = .ok passed) :
    passed = address := by
  unfold checkAddress at hOk
  split_ifs at hOk <;> cases hOk <;> rfl

theorem isSpace_eq_false {char : Char} (hPlain : Address.isPlain char = true) :
    PyText.isSpace char = false := by
  by_contra hSpace
  rw [Bool.not_eq_false, PyText.isSpace, List.contains_iff_mem] at hSpace
  -- Each of the few blanks is none of the characters of an address.
  have hBlanks : ∀ code ∈ PyText.spaces, Address.isPlain (Char.ofNat code) = false := by decide
  have hNot := hBlanks _ hSpace
  rw [Char.ofNat_toNat, hPlain] at hNot
  cases hNot

theorem strip_text_normalise (hRead : Address.ofText (strip source) = some address) :
    strip (normalise address).text = (normalise address).text := by
  apply PyText.stripBy_eq_self
  · intro char hHead
    exact isSpace_eq_false (Address.isPlain_of_head hHead)
  · intro char hLast
    obtain hPlain | ⟨value, scope, hSame, hScope⟩ := Address.isPlain_of_last hLast
    · exact isSpace_eq_false hPlain
    -- Only an address that is kept as it is has a scope.
    unfold normalise at hSame
    cases hMapped : address.ipv4Mapped with rw [hMapped] at hSame
    | none =>
      rw [← Address.scope_last (hRead.trans (congrArg some hSame))] at hScope
      exact PyText.stripBy_last hScope
    | some mapped =>
      obtain ⟨_, rfl⟩ := ipv4Mapped_eq_some hMapped
      cases hSame

theorem assertAddressAllowed_text (hOk : assertAddressAllowed policy source = .ok address) :
    assertAddressAllowed policy address.text = .ok address := by
  unfold assertAddressAllowed at hOk
  split at hOk
  · cases hOk
  next read hRead =>
    have hSame := checkAddress_ok hOk
    unfold assertAddressAllowed
    rw [hSame, strip_text_normalise hRead, Address.ofText_text]
    simp only [normalise_idem]
    rw [hOk, hSame]

theorem assertAllAllowed_text {texts : List Text} {addresses : List Address}
    (hOk : assertAllAllowed policy texts = .ok addresses) :
    ∀ text ∈ addresses.map Address.text, Allowed policy text := by
  induction texts generalizing addresses with
  | nil =>
    cases hOk
    intro text hMem
    cases hMem
  | cons first texts hRec =>
    unfold assertAllAllowed at hOk
    split at hOk
    · cases hOk
    next address hFirst =>
      split at hOk
      · cases hOk
      next rest hRest =>
        cases hOk
        intro text hMem
        rw [List.map_cons, List.mem_cons] at hMem
        cases hMem with
        | inl hSame => exact ⟨address, by rw [hSame]; exact assertAddressAllowed_text hFirst⟩
        | inr hMem => exact hRec hRest text hMem

theorem resolveAndValidate_text {host : Text} {answer : Option (List Text)}
    {addresses : List Address} (hOk : resolveAndValidate policy host answer = .ok addresses) :
    ∀ text ∈ addresses.map Address.text, Allowed policy text := by
  unfold resolveAndValidate at hOk
  split at hOk
  · exact assertAllAllowed_text hOk
  · split at hOk
    · cases hOk
    · cases hOk
    · exact assertAllAllowed_text hOk

/-! ## The verdict under a shared cache key -/

theorem inAny_parseAllowedSubnets {first second : List Text}
    (hSame : ∀ entry, entry ∈ first.map strip ↔ entry ∈ second.map strip) (address : Address) :
    address.inAny (parseAllowedSubnets first) = address.inAny (parseAllowedSubnets second) := by
  have hIn : ∀ subnets : List Text, address.inAny (parseAllowedSubnets subnets) = true ↔
      ∃ entry ∈ subnets.map strip, ∃ network,
        Network.ofText entry = some network ∧ network.contains address = true := by
    intro subnets
    unfold Address.inAny parseAllowedSubnets
    rw [List.any_eq_true]
    constructor
    · rintro ⟨network, hMem, hContains⟩
      obtain ⟨entry, hEntry, hNetwork⟩ := List.mem_filterMap.mp hMem
      exact ⟨strip entry, List.mem_map_of_mem hEntry, network, hNetwork, hContains⟩
    · rintro ⟨_, hMem, network, hNetwork, hContains⟩
      obtain ⟨entry, hEntry, rfl⟩ := List.mem_map.mp hMem
      exact ⟨network, List.mem_filterMap.mpr ⟨entry, hEntry, hNetwork⟩, hContains⟩
  rw [Bool.eq_iff_iff, hIn, hIn]
  simp only [hSame]

theorem mem_cacheKey_subnets (lower : Text → Text) (host : Text) {entry : Text} :
    entry ∈ (cacheKey lower host policy).subnets ↔ entry ∈ policy.subnets.map strip := by
  unfold cacheKey
  rw [List.mem_insertionSort, List.mem_eraseDups]

theorem assertAddressAllowed_of_cacheKey {lower : Text → Text} {firstHost secondHost : Text}
    {first second : Policy}
    (hKey : cacheKey lower firstHost first = cacheKey lower secondHost second)
    (text : Text) : assertAddressAllowed first text = assertAddressAllowed second text := by
  have hPrivate : first.allowPrivate = second.allowPrivate := congrArg CacheKey.allowPrivate hKey
  have hSubnets : ∀ entry, entry ∈ first.subnets.map strip ↔ entry ∈ second.subnets.map strip := by
    intro entry
    rw [← mem_cacheKey_subnets lower firstHost, hKey, mem_cacheKey_subnets]
  unfold assertAddressAllowed
  split
  · rfl
  · unfold checkAddress
    rw [hPrivate, inAny_parseAllowedSubnets hSubnets]

end TimelapseManager.Security.Ssrf
