import Mathlib.Logic.Function.Basic
import Stoa.Lib.Runs
import Stoa.Lib.Text

/-! `not_downgraded_iff`: no delivery goes through that a known policy forbids, exactly if each such
delivery finds an enforced entry under the very spelling of the domain and no newer policy. -/
namespace Stoa.Smtp

/-- `str::to_ascii_lowercase`, which `Char.toLower` is for a character. -/
def lowercase (s : String) : String := String.ofList (s.toList.map Char.toLower)

inductive MtaStsMode
  | none
  | testing
  | enforce
  deriving DecidableEq, Repr

structure MtaStsPolicy where
  mode : MtaStsMode
  mxPatterns : List String
  maxAge : Nat
  deriving DecidableEq, Repr

/-- The text before and after the first colon with a space. -/
def splitField : List Char → Option (List Char × List Char)
  | [] => .none
  | ':' :: ' ' :: rest => some ([], rest)
  | c :: rest => (splitField rest).map fun (key, value) => (c :: key, value)

def policyLines (body : String) : List String :=
  let lines := (body.toList.splitOn '\n').map fun line =>
    String.ofList (line.reverse.dropWhile (· == '\r')).reverse
  lines.filter fun line => Text.trim line ≠ ""

structure PolicyFields where
  mode : Option MtaStsMode
  mxPatterns : List String
  maxAge : Option Nat

def parseMode (value : String) : Except String MtaStsMode :=
  if value = "none" then .ok .none
  else if value = "testing" then .ok .testing
  else if value = "enforce" then .ok .enforce
  else .error ("unknown mode value: " ++ value)

def readField (fields : PolicyFields) (line : String) : Except String PolicyFields :=
  match splitField line.toList with
  | .none => .ok fields
  | some (key, value) =>
    let key := Text.trim (String.ofList key)
    let value := Text.trim (String.ofList value)
    if key = "mode" then
      if fields.mode.isSome then .error "duplicate 'mode' field"
      else (parseMode value).map fun mode => { fields with mode := some mode }
    else if key = "mx" then
      if value = "*." then .error "invalid mx pattern: '*.' requires a non-empty suffix"
      else .ok { fields with mxPatterns := fields.mxPatterns ++ [value] }
    else if key = "max_age" then
      if fields.maxAge.isSome then .error "duplicate 'max_age' field"
      else match (Text.parseU64 value).filter (· < 2 ^ 32) with
        | .none => .error ("max_age is not a valid u32: " ++ value)
        | some maxAge =>
          if 31557600 < maxAge then
            .error ("max_age " ++ toString maxAge ++ " exceeds maximum 31557600")
          else .ok { fields with maxAge := some maxAge }
    else .ok fields

def parseMtaStsPolicy (body : String) (maxBodyBytes : Nat) : Except String MtaStsPolicy := do
  if maxBodyBytes < Text.len body then .error "policy body too large"
  match policyLines body with
  | [] => .error "first line must be 'version: STSv1'"
  | first :: rest =>
    if first ≠ "version: STSv1" then .error "first line must be 'version: STSv1'"
    let fields ← rest.foldlM readField ⟨.none, [], .none⟩
    match fields.mode with
    | .none => .error "missing 'mode' field"
    | some mode =>
      if mode ≠ .none ∧ fields.mxPatterns = [] then
        .error "at least one 'mx' field is required for enforce/testing mode"
      match fields.maxAge with
      | .none => .error "missing 'max_age' field"
      | some maxAge => .ok ⟨mode, fields.mxPatterns, maxAge⟩

/-- `str::strip_suffix`. -/
def stripEnd (tail s : List Char) : Option (List Char) :=
  if tail <:+ s then some (s.take (s.length - tail.length)) else .none

def mxMatchesPattern (mxHostname pattern : String) : Bool :=
  let mx := (lowercase mxHostname).toList
  match (lowercase pattern).toList with
  | '*' :: '.' :: base =>
    match (stripEnd base mx).bind (stripEnd ['.']) with
    | some label => !label.isEmpty && !label.contains '.'
    | .none => false
  | pat => mx == pat

def checkMxAgainstPolicy (mx : String) (patterns : List String) : Bool :=
  patterns.any (mxMatchesPattern mx)

inductive PeerTlsStatus
  | connected
  | plain
  deriving DecidableEq, Repr

def seconds (n : Nat) : Nat := n * 1000000000

def idCheckInterval : Nat := seconds 60

structure CachedStsEntry where
  policyId : String
  mode : MtaStsMode
  mxPatterns : List String
  lastIdCheck : Nat
  validUntil : Nat

abbrev StsCache := String → Option CachedStsEntry

/-- A delivery to a domain, with the time and what DNS and the policy server answer: the
identifier of the policy if there is one, and the body of the policy. -/
structure StsDelivery where
  rcptDomain : String
  peerHost : String
  peerTls : PeerTlsStatus
  now : Nat
  dns : Except String (Option String)
  https : Except String String
  /-- The time after the answers. -/
  later : Nat

/-- The result of a check, the cache after it, and the policy that was fetched if one was. -/
structure StsOutcome where
  result : Except String Unit
  cache : StsCache
  fetched : Option MtaStsPolicy

section Enforce

variable (maxBodyBytes : Nat) (delivery : StsDelivery)

def loadFreshPolicy (policyId : String) (cache : StsCache) : Option MtaStsPolicy × StsCache :=
  match delivery.https with
  | .error _ => (.none, cache)
  | .ok body => match parseMtaStsPolicy body maxBodyBytes with
    | .error _ => (.none, cache)
    | .ok policy =>
      let entry : CachedStsEntry := ⟨policyId, policy.mode, policy.mxPatterns, delivery.later,
        delivery.later + seconds (max policy.maxAge 60)⟩
      (some policy, Function.update cache delivery.rcptDomain (some entry))

def applyPolicy (mode : MtaStsMode) (mxPatterns : List String) : Except String Unit :=
  match mode with
  | .none | .testing => .ok ()
  | .enforce =>
    if delivery.peerTls = .plain then
      .error ("MTA-STS enforce: TLS required for " ++ delivery.rcptDomain ++ " but relay is plaintext")
    else if !checkMxAgainstPolicy delivery.peerHost mxPatterns then
      .error ("MTA-STS enforce: peer host " ++ delivery.peerHost ++ " does not match MX policy for " ++
        delivery.rcptDomain)
    else .ok ()

/-- Fetch a policy and apply it; a failure does not block the delivery. -/
def enforceFresh (policyId : String) (cache : StsCache) : StsOutcome :=
  match loadFreshPolicy maxBodyBytes delivery policyId cache with
  | (some policy, cache) => ⟨applyPolicy delivery policy.mode policy.mxPatterns, cache, some policy⟩
  | (.none, cache) => ⟨.ok (), cache, .none⟩

def retainValid (now : Nat) (cache : StsCache) : StsCache :=
  fun domain => (cache domain).filter fun entry => now < entry.validUntil

def enforceForDelivery (cache : StsCache) : StsOutcome :=
  let cache := retainValid delivery.now cache
  match cache delivery.rcptDomain with
  | some entry =>
    if idCheckInterval ≤ delivery.now - entry.lastIdCheck then
      let checked := Function.update cache delivery.rcptDomain
        (some { entry with lastIdCheck := delivery.later })
      match delivery.dns with
      | .ok (some policyId) =>
        if policyId ≠ entry.policyId then
          -- The policy has rotated: the entry is dropped before the new one is there.
          enforceFresh maxBodyBytes delivery policyId (Function.update cache delivery.rcptDomain .none)
        else ⟨applyPolicy delivery entry.mode entry.mxPatterns, checked, .none⟩
      | _ => ⟨applyPolicy delivery entry.mode entry.mxPatterns, checked, .none⟩
    else ⟨applyPolicy delivery entry.mode entry.mxPatterns, cache, .none⟩
  | .none =>
    match delivery.dns with
    | .ok (some policyId) => enforceFresh maxBodyBytes delivery policyId cache
    | _ => ⟨.ok (), cache, .none⟩

end Enforce

open Function CachedStsEntry

/-- The cache, and for each domain the latest policy that was fetched, with the time. -/
structure StsState where
  cache : StsCache
  latest : String → Option (MtaStsPolicy × Nat)

def StsState.start : StsState := ⟨fun _ => none, fun _ => none⟩

section Histories

variable (maxBodyBytes : Nat)

/-- One delivery; a policy is known for the domain in any spelling. -/
def stsStep (delivery : StsDelivery) (s : StsState) : Except String Unit × StsState :=
  let outcome := enforceForDelivery maxBodyBytes delivery s.cache
  let latest := match outcome.fetched with
    | some policy => Function.update s.latest (lowercase delivery.rcptDomain) (some (policy, delivery.later))
    | none => s.latest
  (outcome.result, ⟨outcome.cache, latest⟩)

def PeerFails (delivery : StsDelivery) (mxPatterns : List String) : Prop :=
  delivery.peerTls = .plain ∨ checkMxAgainstPolicy delivery.peerHost mxPatterns = false

/-- The delivery is forbidden by the latest policy of the domain, which has not expired. -/
def Forbidden (delivery : StsDelivery) (s : StsState) : Prop :=
  ∃ policy fetchedAt, s.latest (lowercase delivery.rcptDomain) = some (policy, fetchedAt) ∧
    policy.mode = .enforce ∧ delivery.now < fetchedAt + seconds policy.maxAge ∧
    PeerFails delivery policy.mxPatterns

/-- A delivery that is forbidden is refused, unless a newer policy is fetched. -/
def NotDowngraded (delivery : StsDelivery) (s : StsState) : Prop :=
  Forbidden delivery s → (enforceForDelivery maxBodyBytes delivery s.cache).fetched = none →
    (enforceForDelivery maxBodyBytes delivery s.cache).result ≠ .ok ()

def PolicyServed (delivery : StsDelivery) : Prop :=
  ∃ body policy, delivery.https = .ok body ∧ parseMtaStsPolicy body maxBodyBytes = .ok policy

def announced (delivery : StsDelivery) (cache : StsCache) : Option String :=
  match retainValid delivery.now cache delivery.rcptDomain, delivery.dns with
  | some entry, .ok (some policyId) =>
    if idCheckInterval ≤ delivery.now - entry.lastIdCheck ∧ policyId ≠ entry.policyId then some policyId
    else none
  | none, .ok (some policyId) => some policyId
  | _, _ => none

/-- A forbidden delivery meets a new policy, or an entry under this spelling that forbids it. -/
def Guarded (delivery : StsDelivery) (s : StsState) : Prop :=
  Forbidden delivery s →
    (announced delivery s.cache ≠ none ∧ PolicyServed maxBodyBytes delivery) ∨
    (announced delivery s.cache = none ∧ ∃ entry, s.cache delivery.rcptDomain = some entry ∧
      delivery.now < entry.validUntil ∧ entry.mode = .enforce ∧ PeerFails delivery entry.mxPatterns)

end Histories

variable {maxBodyBytes : Nat} {delivery : StsDelivery}

theorem retainValid_eq_some {now : Nat} {cache : StsCache} {domain : String} {entry : CachedStsEntry} :
    retainValid now cache domain = some entry ↔ cache domain = some entry ∧ now < entry.validUntil := by
  simp [retainValid, Option.filter_eq_some_iff]

theorem applyPolicy_ne_ok {mode : MtaStsMode} {mxPatterns : List String} :
    applyPolicy delivery mode mxPatterns ≠ .ok () ↔ mode = .enforce ∧ PeerFails delivery mxPatterns := by
  cases mode with
  | none => simp [applyPolicy]
  | testing => simp [applyPolicy]
  | enforce =>
    by_cases plain : delivery.peerTls = .plain
    · simp [applyPolicy, PeerFails, plain]
    · by_cases host : checkMxAgainstPolicy delivery.peerHost mxPatterns = true
      · simp [applyPolicy, PeerFails, plain, host]
      · simp [applyPolicy, PeerFails, plain, host]

theorem enforceFresh_cases (policyId : String) (cache : StsCache) : ¬ PolicyServed maxBodyBytes delivery ∧
        enforceFresh maxBodyBytes delivery policyId cache = ⟨.ok (), cache, none⟩ ∨
      PolicyServed maxBodyBytes delivery ∧ ∃ policy : MtaStsPolicy,
        enforceFresh maxBodyBytes delivery policyId cache =
          ⟨applyPolicy delivery policy.mode policy.mxPatterns,
            update cache delivery.rcptDomain (some ⟨policyId, policy.mode, policy.mxPatterns,
              delivery.later, delivery.later + seconds (max policy.maxAge 60)⟩), some policy⟩ := by
  unfold enforceFresh loadFreshPolicy PolicyServed
  cases https : delivery.https with
  | error e => exact Or.inl ⟨by simp, rfl⟩
  | ok body =>
    cases parsed : parseMtaStsPolicy body maxBodyBytes with
    | error e => exact Or.inl ⟨by simp [parsed], by simp only [parsed]⟩
    | ok policy => exact Or.inr ⟨⟨body, policy, rfl, parsed⟩, policy, by simp only [parsed]⟩

theorem enforceForDelivery_of_announced {cache : StsCache} {policyId : String}
    (new : announced delivery cache = some policyId) :
    ∃ rest, (∀ domain, domain ≠ delivery.rcptDomain → rest domain = retainValid delivery.now cache domain) ∧
      enforceForDelivery maxBodyBytes delivery cache = enforceFresh maxBodyBytes delivery policyId rest := by
  unfold announced at new
  unfold enforceForDelivery
  dsimp only
  split at new
  · next entry id cached dns =>
    split at new
    · next rotated =>
      cases new
      refine ⟨update (retainValid delivery.now cache) delivery.rcptDomain none, ?_, ?_⟩
      · exact fun domain other => update_of_ne other ..
      · rw [cached]
        dsimp only
        rw [if_pos rotated.1, dns]
        dsimp only
        rw [if_pos rotated.2]
    · cases new
  · next id missing dns =>
    cases new
    refine ⟨retainValid delivery.now cache, fun _ _ => rfl, ?_⟩
    rw [missing, dns]
  · cases new

def CachedStsEntry.content (entry : CachedStsEntry) : MtaStsMode × List String × Nat :=
  (entry.mode, entry.mxPatterns, entry.validUntil)

theorem enforceForDelivery_of_not_announced {cache : StsCache} (old : announced delivery cache = none) :
    ∃ rest : StsCache, (∀ domain, (rest domain).map content =
        (retainValid delivery.now cache domain).map content) ∧
      enforceForDelivery maxBodyBytes delivery cache =
        ⟨match retainValid delivery.now cache delivery.rcptDomain with
          | some entry => applyPolicy delivery entry.mode entry.mxPatterns
          | none => .ok (), rest, none⟩ := by
  unfold announced at old
  unfold enforceForDelivery
  dsimp only
  cases cached : retainValid delivery.now cache delivery.rcptDomain with
  | none =>
    refine ⟨retainValid delivery.now cache, fun _ => rfl, ?_⟩
    rcases dns : delivery.dns with e | _ | id
    · rfl
    · rfl
    · simp [cached, dns] at old
  | some entry =>
    have checked : ∀ domain, (update (retainValid delivery.now cache) delivery.rcptDomain
        (some { entry with lastIdCheck := delivery.later }) domain).map content =
        (retainValid delivery.now cache domain).map content := by
      intro domain
      by_cases same : domain = delivery.rcptDomain
      · rw [same, update_self, cached]
        rfl
      · rw [update_of_ne same]
    dsimp only
    split
    · next due =>
      rcases dns : delivery.dns with e | _ | id
      · exact ⟨_, checked, rfl⟩
      · exact ⟨_, checked, rfl⟩
      · have same : id = entry.policyId := by simpa [cached, dns, due] using old
        refine ⟨_, checked, ?_⟩
        simp [same]
    · exact ⟨_, fun _ => rfl, rfl⟩

theorem notDowngraded_iff_guarded (s : StsState) :
    NotDowngraded maxBodyBytes delivery s ↔ Guarded maxBodyBytes delivery s := by
  refine imp_congr_right fun _ => ?_
  cases new : announced delivery s.cache with
  | some policyId =>
    obtain ⟨rest, -, fresh⟩ := @enforceForDelivery_of_announced maxBodyBytes delivery s.cache policyId new
    rcases enforceFresh_cases policyId rest with ⟨unserved, outcome⟩ | ⟨served, policy, outcome⟩
    · -- The old policy is gone and there is no new one: everything passes.
      rw [fresh, outcome]
      simp [unserved]
    · rw [fresh, outcome]
      simp [served]
  | none =>
    obtain ⟨rest, -, applied⟩ := @enforceForDelivery_of_not_announced maxBodyBytes delivery s.cache new
    rw [applied]
    cases cached : retainValid delivery.now s.cache delivery.rcptDomain with
    | none =>
      have absent : ∀ entry, s.cache delivery.rcptDomain = some entry → ¬ delivery.now < entry.validUntil := by
        intro entry present valid
        rw [retainValid_eq_some.mpr ⟨present, valid⟩] at cached
        cases cached
      simp only [ne_eq, not_true_eq_false, false_and, true_and, false_or, imp_false]
      exact iff_of_false not_false fun ⟨entry, present, valid, _⟩ => absent entry present valid
    | some entry =>
      obtain ⟨present, valid⟩ := retainValid_eq_some.mp cached
      have refused := @applyPolicy_ne_ok delivery entry.mode entry.mxPatterns
      simp [present, valid, refused]

namespace Sample

def stsPolicy : MtaStsPolicy := ⟨.enforce, ["a"], 86400⟩

def stsBody : String := "version: STSv1\nmode: enforce\nmx: a\nmax_age: 86400\n"

/-- The policy of `x` is fetched, and the mail goes to its host over TLS. -/
def stsFirst : StsDelivery :=
  ⟨"x", "a", .connected, 0, .ok (some "1"), .ok stsBody, 0⟩

def stsAttacked : StsDelivery :=
  ⟨"x", "b", .plain, seconds 60, .ok (some "2"), .error "timeout", seconds 60⟩

theorem stsBody_parsed : parseMtaStsPolicy stsBody 65536 = .ok stsPolicy := by decide

theorem stsStep_stsFirst : (stsStep 65536 stsFirst .start).2 =
    ⟨update (fun _ => none) "x" (some ⟨"1", .enforce, ["a"], 0, 0 + seconds (max 86400 60)⟩),
      update (fun _ => none) "x" (some (stsPolicy, 0))⟩ := by
  simp [stsStep, enforceForDelivery, retainValid, StsState.start, stsFirst, enforceFresh,
    loadFreshPolicy, stsBody_parsed, stsPolicy, show lowercase "x" = "x" by decide]
  rfl

theorem enforceForDelivery_stsAttacked :
    (enforceForDelivery 65536 stsAttacked (stsStep 65536 stsFirst .start).2.cache).result = .ok () ∧
      (enforceForDelivery 65536 stsAttacked (stsStep 65536 stsFirst .start).2.cache).fetched = none := by
  rw [stsStep_stsFirst]
  simp [enforceForDelivery, retainValid, stsAttacked, enforceFresh, loadFreshPolicy, idCheckInterval,
    seconds, Option.filter]

end Sample

end Stoa.Smtp
