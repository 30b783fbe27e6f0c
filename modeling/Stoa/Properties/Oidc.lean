import Mathlib.Data.Rat.Floor
import Mathlib.Data.String.Basic
import Stoa.Lib.Checks
import Stoa.Lib.Runs

/-!
- `bound_iff`: an accepted token is bound to the provider and the service exactly if its claims
  have the types that are compared.
- `follows_iff`: every token that the published keys accept is accepted exactly if no call finds
  other keys in the cache that are candidates for its token and reject it.
-/
namespace Stoa.Oidc

open Option

/-- A JSON value as it is read; a number that is no 64-bit integer is a float. -/
inductive ClaimValue
  | str (s : String)
  | int (n : Int)
  | float (value : Rat)
  /-- An array of strings. -/
  | strings (items : List String)
  | other

abbrev Claims := String → Option ClaimValue

namespace ClaimValue

/-- `Value::as_str`. -/
def asStr : ClaimValue → Option String
  | str s => some s
  | _ => none

/-- `Value::as_i64`: floats and large integers are none. -/
def asI64 : ClaimValue → Option Int
  | int n => if -2 ^ 63 ≤ n ∧ n < 2 ^ 63 then some n else none
  | _ => none

def number : ClaimValue → Option Rat
  | int n => some n
  | float value => some value
  | _ => none

/-- A time in seconds as the library reads it; a fraction is rounded. -/
def seconds : ClaimValue → Option Int
  | int n => if 0 ≤ n then some n else none
  | float value => if 0 ≤ value ∧ value < 2 ^ 64 then some (value + 1 / 2).floor else none
  | _ => none

def names : ClaimValue → Option (List String)
  | str s => some [s]
  | strings items => some items
  | _ => none

end ClaimValue

inductive Algorithm
  | rs256
  | rs384
  | rs512
  | ps256
  | ps384
  | ps512
  | es256
  | es384
  deriving DecidableEq

structure Validation where
  algorithm : Algorithm
  audience : Option (List String)
  issuer : Option (List String)
  validateExp : Bool
  requiredSpecClaims : List String
  leeway : Int

def Validation.new (algorithm : Algorithm) : Validation := ⟨algorithm, none, none, true, ["exp"], 60⟩

def Present (claims : Claims) (name : String) : Bool :=
  match name with
  | "exp" | "nbf" => ((claims name).bind ClaimValue.seconds).isSome
  | "sub" => ((claims name).bind ClaimValue.asStr).isSome
  | "iss" | "aud" => ((claims name).bind ClaimValue.names).isSome
  | _ => true

def NamesOne (claim : Option ClaimValue) (expected : Option (List String)) : Bool :=
  match claim.bind ClaimValue.names, expected with
  | some given, some expected => given.any expected.contains
  | _, _ => true

def validateClaims (now : Int) (v : Validation) (claims : Claims) : Except String Unit :=
  match v.requiredSpecClaims.find? fun name => !Present claims name with
  | some name => .error ("Missing required claim: " ++ name)
  | none =>
    if v.validateExp && ((claims "exp").bind ClaimValue.seconds).any fun exp => exp < now - v.leeway then
      .error "ExpiredSignature"
    else if !NamesOne (claims "iss") v.issuer then .error "InvalidIssuer"
    else if !NamesOne (claims "aud") v.audience then .error "InvalidAudience"
    else .ok ()

/-- The library that reads tokens, with keys `K`. -/
structure JwtLib (K : Type) where
  /-- The key that the header of a token asks for. -/
  decodeHeader : String → Except String (Option String)
  fromRsaComponents : String → String → Except String K
  fromEcComponents : String → String → Except String K
  payload : String → Option Claims
  /-- The claims of a token whose signature is good. -/
  verify : String → K → Algorithm → Except String Claims
  verify_payload : ∀ token key algorithm claims, verify token key algorithm = .ok claims →
    payload token = some claims

def JwtLib.decode {K : Type} (lib : JwtLib K) (now : Int) (token : String) (key : K) (v : Validation) :
    Except String Claims := do
  let claims ← lib.verify token key v.algorithm
  validateClaims now v claims
  return claims

structure Jwk where
  kid : Option String
  kty : String
  keyUse : Option String
  alg : Option String
  rsaN : Option String
  rsaE : Option String
  ecCrv : Option String
  ecX : Option String
  ecY : Option String

inductive OidcError
  | allProvidersFailed (reasons : String)
  | config (reason : String)
  | invalidToken (reason : String)
  | invalidKey (reason : String)
  | keyNotFound
  | missingClaim (claim : String)
  | unsupportedKeyType (kty : String)
  | unsupportedAlgorithm (alg : String)
  | http (reason : String)

def OidcError.toString : OidcError → String
  | allProvidersFailed s => "OIDC: " ++ s
  | config s => "OIDC config: " ++ s
  | invalidToken s => "OIDC invalid token: " ++ s
  | invalidKey s => "OIDC invalid key: " ++ s
  | keyNotFound => "OIDC key not found in JWKS"
  | missingClaim s => "OIDC missing claim '" ++ s ++ "'"
  | unsupportedKeyType s => "OIDC unsupported key type '" ++ s ++ "' (only RSA and EC supported)"
  | unsupportedAlgorithm s => "OIDC unsupported algorithm '" ++ s ++ "'"
  | http s => "OIDC HTTP error: " ++ s

section

variable {K : Type} (lib : JwtLib K)

def rsaAlgorithm : Option String → Except OidcError Algorithm
  | none | some "RS256" => .ok .rs256
  | some "RS384" => .ok .rs384
  | some "RS512" => .ok .rs512
  | some "PS256" => .ok .ps256
  | some "PS384" => .ok .ps384
  | some "PS512" => .ok .ps512
  | some other => .error (.unsupportedAlgorithm other)

def ecAlgorithm (jwk : Jwk) : Except OidcError Algorithm :=
  match jwk.alg with
  | some "ES256" => .ok .es256
  | some "ES384" => .ok .es384
  | some other => .error (.unsupportedAlgorithm other)
  | none =>
    match jwk.ecCrv with
    | some "P-256" => .ok .es256
    | some "P-384" => .ok .es384
    | some other => .error (.unsupportedAlgorithm
        ("EC curve '" ++ other ++ "' (no alg field; ES512/P-521 not supported)"))
    | none => .error (.invalidKey
        "EC JWK has no 'alg' and no 'crv' field; cannot determine algorithm")

def component (kind name : String) : Option String → Except OidcError String
  | some text => .ok text
  | none => .error (.invalidKey (kind ++ " JWK missing '" ++ name ++ "'"))

def decodingKeyAndAlg (jwk : Jwk) : Except OidcError (K × Algorithm) := do
  if jwk.kty = "RSA" then
    let n ← component "RSA" "n" jwk.rsaN
    let e ← component "RSA" "e" jwk.rsaE
    let key ← (lib.fromRsaComponents n e).mapError OidcError.invalidKey
    let alg ← rsaAlgorithm jwk.alg
    return (key, alg)
  else if jwk.kty = "EC" then
    let x ← component "EC" "x" jwk.ecX
    let y ← component "EC" "y" jwk.ecY
    let key ← (lib.fromEcComponents x y).mapError OidcError.invalidKey
    let alg ← ecAlgorithm jwk
    return (key, alg)
  else throw (.unsupportedKeyType jwk.kty)

structure OidcProviderConfig where
  issuer : String
  audience : String
  usernameClaim : String

def validationFor (config : OidcProviderConfig) (alg : Algorithm) : Validation :=
  { Validation.new alg with
    audience := some [config.audience]
    issuer := some [config.issuer]
    validateExp := true
    requiredSpecClaims := ["exp"] }

def nbfLeewaySecs : Int := 60

/-- Only a `nbf` that is an integer is looked at. -/
def checkNbf (now : Int) (claims : Claims) : Except OidcError Unit :=
  match (claims "nbf").bind ClaimValue.asI64 with
  | some nbf =>
    if now + nbfLeewaySecs < nbf then
      .error (.invalidToken ("token not yet valid: nbf=" ++ nbf.repr ++ " now=" ++ now.repr))
    else .ok ()
  | none => .ok ()

def username (config : OidcProviderConfig) (claims : Claims) : Except OidcError String :=
  match (claims config.usernameClaim).bind ClaimValue.asStr <|>
      (claims "sub").bind ClaimValue.asStr with
  | some name => .ok name
  | none => .error (.missingClaim config.usernameClaim)

def tryKey (config : OidcProviderConfig) (now : Int) (token : String) (jwk : Jwk) :
    Except OidcError String := do
  let (key, alg) ← decodingKeyAndAlg lib jwk
  let claims ← (lib.decode now token key (validationFor config alg)).mapError OidcError.invalidToken
  checkNbf now claims
  username config claims

def candidates (kid : Option String) (keys : List Jwk) : List Jwk :=
  keys.filter fun k => kid.all (fun kid => k.kid = some kid) && k.keyUse.getD "sig" = "sig"

/-- The first key under which the token is good decides; otherwise the last error is returned. -/
def tryKeys (config : OidcProviderConfig) (now : Int) (token : String) :
    List Jwk → OidcError → Except OidcError String
  | [], last => .error last
  | jwk :: keys, _ =>
    match tryKey lib config now token jwk with
    | .ok name => .ok name
    | .error e => tryKeys config now token keys e

def validateWithKeys (config : OidcProviderConfig) (now : Int) (token : String) (keys : List Jwk) :
    Except OidcError String := do
  let kid ← (lib.decodeHeader token).mapError OidcError.invalidToken
  tryKeys lib config now token (candidates kid keys) .keyNotFound

abbrev KeyCache := Option (List Jwk × Nat)

def jwksTtl : Nat := 3600

/-- The keys that are kept, unless they are too old or fresh ones are wanted. -/
def getKeys (now : Nat) (fetch : Except OidcError (List Jwk)) (force : Bool) (cache : KeyCache) :
    Except OidcError (List Jwk) × KeyCache :=
  let fresh := match fetch with
    | .ok keys => (.ok keys, some (keys, now))
    | .error e => (.error e, cache)
  match cache with
  | some (keys, fetchedAt) => if !force && now - fetchedAt < jwksTtl then (.ok keys, cache) else fresh
  | none => fresh

def validateJwt (config : OidcProviderConfig) (now : Nat) (fetch : Bool → Except OidcError (List Jwk))
    (token : String) (cache : KeyCache) : Except OidcError String × KeyCache :=
  match getKeys now (fetch false) false cache with
  | (.error e, cache) => (.error e, cache)
  | (.ok keys, cache) =>
    match validateWithKeys lib config now token keys with
    | .error .keyNotFound =>
      -- The key may be new.
      match getKeys now (fetch true) true cache with
      | (.error e, cache) => (.error e, cache)
      | (.ok keys, cache) => (validateWithKeys lib config now token keys, cache)
    | result => (result, cache)

structure Provider where
  config : OidcProviderConfig
  cache : KeyCache

/-- What a provider publishes, if it can be fetched; it may differ from one fetch to the next. -/
abbrev Published := OidcProviderConfig → Bool → Except OidcError (List Jwk)

def tryProviders (now : Nat) (published : Published) (token : String) :
    List Provider → List String → Except OidcError String × List Provider
  | [], errors => (.error (.allProvidersFailed
      ("all providers rejected the token: [" ++ String.intercalate "; " errors ++ "]")), [])
  | p :: ps, errors =>
    match validateJwt lib p.config now (published p.config) token p.cache with
    | (.ok name, cache) => (.ok name, { p with cache } :: ps)
    | (.error e, cache) =>
      let (result, ps) := tryProviders now published token ps (errors ++ [e.toString])
      (result, { p with cache } :: ps)

def storeValidateJwt (now : Nat) (published : Published) (token : String) (providers : List Provider) :
    Except OidcError String × List Provider :=
  if providers.isEmpty then (.error (.config "no OIDC providers configured"), providers)
  else tryProviders lib now published token providers []

end

variable {K : Type} {lib : JwtLib K}

structure Checked (config : OidcProviderConfig) (now : Int) (claims : Claims) : Prop where
  expires : ∃ v s, claims "exp" = some v ∧ v.seconds = some s ∧ now - 60 ≤ s
  issuer : NamesOne (claims "iss") (some [config.issuer])
  audience : NamesOne (claims "aud") (some [config.audience])
  notBefore : ∀ nbf, (claims "nbf").bind ClaimValue.asI64 = some nbf → nbf ≤ now + 60

theorem validateClaims_validationFor {config : OidcProviderConfig} {alg : Algorithm} {now : Int}
    {claims : Claims} (valid : validateClaims now (validationFor config alg) claims = .ok ()) :
    (∃ v s, claims "exp" = some v ∧ v.seconds = some s ∧ now - 60 ≤ s) ∧
      NamesOne (claims "iss") (some [config.issuer]) ∧ NamesOne (claims "aud") (some [config.audience]) := by
  simp only [validateClaims, validationFor, Validation.new] at valid
  split at valid
  · cases valid
  · next required =>
    have present : Present claims "exp" = true := by simpa using required
    simp only [Present] at present
    obtain ⟨s, read⟩ := isSome_iff_exists.mp present
    obtain ⟨v, given, seconds⟩ := bind_eq_some_iff.mp read
    simp only [read, any_some, Bool.true_and] at valid
    split at valid
    · cases valid
    · next live =>
      have inTime : now - 60 ≤ s := Int.not_lt.mp fun early => live (decide_eq_true early)
      cases issuer : NamesOne (claims "iss") (some [config.issuer]) with
      | false => simp [issuer] at valid
      | true =>
        cases audience : NamesOne (claims "aud") (some [config.audience]) with
        | false => simp [issuer, audience] at valid
        | true => exact ⟨⟨v, s, given, seconds, inTime⟩, rfl, rfl⟩

theorem checkNbf_ok {now : Int} {claims : Claims} (ok : checkNbf now claims = .ok ()) (nbf : Int)
    (read : (claims "nbf").bind ClaimValue.asI64 = some nbf) : nbf ≤ now + 60 := by
  simp only [checkNbf, read] at ok
  split at ok
  · cases ok
  · next soon => simpa [nbfLeewaySecs] using soon

theorem tryKey_ok {config : OidcProviderConfig} {now : Int} {token name : String} {jwk : Jwk}
    (ok : tryKey lib config now token jwk = .ok name) :
    ∃ claims, lib.payload token = some claims ∧ Checked config now claims := by
  obtain ⟨⟨key, alg⟩, -, decoded⟩ := bind_eq_ok ok
  obtain ⟨claims, decode, rest⟩ := bind_eq_ok decoded
  obtain ⟨⟨⟩, nbf, -⟩ := bind_eq_ok rest
  obtain ⟨claims', verified, validated⟩ := bind_eq_ok (mapError_eq_ok.mp decode)
  obtain ⟨⟨⟩, valid, same⟩ := bind_eq_ok validated
  cases same
  obtain ⟨expires, issuer, audience⟩ := validateClaims_validationFor valid
  exact ⟨claims, lib.verify_payload _ _ _ _ verified, expires, issuer, audience, checkNbf_ok nbf⟩

theorem tryKeys_cases (config : OidcProviderConfig) (now : Int) (token : String) (keys : List Jwk)
    (last : OidcError) : (∃ jwk ∈ keys, ∃ name, tryKey lib config now token jwk = .ok name ∧
        tryKeys lib config now token keys last = .ok name) ∨
      ∃ e, tryKeys lib config now token keys last = .error e ∧
        (keys = [] ∧ e = last ∨ ∃ jwk ∈ keys, tryKey lib config now token jwk = .error e) := by
  induction keys generalizing last with
  | nil => exact .inr ⟨last, rfl, .inl ⟨rfl, rfl⟩⟩
  | cons jwk keys ih =>
    rw [tryKeys]
    cases tried : tryKey lib config now token jwk with
    | ok name => exact .inl ⟨jwk, List.mem_cons_self, name, tried, rfl⟩
    | error e =>
      rcases ih e with ⟨other, listed, name, ok, result⟩ | ⟨e', result, ⟨rfl, rfl⟩ | ⟨other, listed, failed⟩⟩
      · exact .inl ⟨other, List.mem_cons_of_mem _ listed, name, ok, result⟩
      · exact .inr ⟨e', result, .inr ⟨jwk, List.mem_cons_self, tried⟩⟩
      · exact .inr ⟨e', result, .inr ⟨other, List.mem_cons_of_mem _ listed, failed⟩⟩

theorem validateWithKeys_ok {config : OidcProviderConfig} {now : Int} {token name : String}
    {keys : List Jwk} (ok : validateWithKeys lib config now token keys = .ok name) :
    ∃ claims, lib.payload token = some claims ∧ Checked config now claims := by
  obtain ⟨kid, -, tried⟩ := bind_eq_ok ok
  rcases tryKeys_cases config now token (candidates kid keys) .keyNotFound with
    ⟨jwk, -, name', accepted, -⟩ | ⟨e, failed, -⟩
  · exact tryKey_ok accepted
  · rw [failed] at tried
    cases tried

theorem validateJwt_ok {config : OidcProviderConfig} {now : Nat}
    {fetch : Bool → Except OidcError (List Jwk)} {token name : String} {cache : KeyCache}
    (ok : (validateJwt lib config now fetch token cache).1 = .ok name) :
    ∃ claims, lib.payload token = some claims ∧ Checked config now claims := by
  simp only [validateJwt] at ok
  split at ok
  · cases ok
  · split at ok
    · split at ok
      · cases ok
      · exact validateWithKeys_ok ok
    · next keys _ _ _ _ _ => exact validateWithKeys_ok ok

structure Bound (config : OidcProviderConfig) (now : Int) (claims : Claims) : Prop where
  issuer : claims "iss" = some (.str config.issuer)
  audience : ∃ v given, claims "aud" = some v ∧ v.names = some given ∧ config.audience ∈ given
  expires : ∃ v s, claims "exp" = some v ∧ v.seconds = some s ∧ now - 60 ≤ s
  notBefore : ∀ v q, claims "nbf" = some v → v.number = some q → q ≤ now + 60

/-- The claims are of the types that are compared; a `nbf` that is not may not be in the future. -/
structure Shaped (now : Int) (claims : Claims) : Prop where
  issuer : ∃ s, claims "iss" = some (.str s)
  audience : ∃ v given, claims "aud" = some v ∧ v.names = some given
  notBefore : ∀ v q, claims "nbf" = some v → v.number = some q → v.asI64 = none → q ≤ now + 60

theorem names_one {claim : Option ClaimValue} {expected : String} {v : ClaimValue} {given : List String}
    (one : NamesOne claim (some [expected])) (present : claim = some v) (named : v.names = some given) :
    expected ∈ given := by
  subst present
  simpa [NamesOne, named] using one

theorem Checked.binds_iff {config : OidcProviderConfig} {now : Int} {claims : Claims}
    (checked : Checked config now claims) : Bound config now claims ↔ Shaped now claims := by
  constructor
  · intro bound
    obtain ⟨v, given, present, named, -⟩ := bound.audience
    exact ⟨⟨_, bound.issuer⟩, ⟨v, given, present, named⟩, fun v q nbf number _ => bound.notBefore v q nbf number⟩
  · intro shaped
    obtain ⟨iss, issued⟩ := shaped.issuer
    obtain ⟨aud, given, present, named⟩ := shaped.audience
    obtain rfl : config.issuer = iss := by simpa using names_one checked.issuer issued rfl
    refine ⟨issued, ⟨aud, given, present, named, names_one checked.audience present named⟩,
      checked.expires, fun v q nbf number => ?_⟩
    cases read : v.asI64 with
    | none => exact shaped.notBefore v q nbf number read
    | some n =>
      -- An integer is compared as it is.
      have early := checked.notBefore n (by rw [nbf, bind_some, read])
      cases v with
      | int m =>
        simp only [ClaimValue.asI64, ite_none_right_eq_some, some.injEq] at read
        cases number
        rw [read.2]
        exact_mod_cast early
      | _ => cases read

def Accepting (lib : JwtLib K) (now : Nat) (published : Published) (token : String)
    (providers : List Provider) (p : Provider) : Prop :=
  ∃ before after, providers = before ++ p :: after ∧
    (∀ q ∈ before, ∀ name, (validateJwt lib q.config now (published q.config) token q.cache).1 ≠ .ok name) ∧
    ∃ name, (validateJwt lib p.config now (published p.config) token p.cache).1 = .ok name

theorem tryProviders_ok {now : Nat} {published : Published} {token name : String}
    {providers : List Provider} {errors : List String}
    (ok : (tryProviders lib now published token providers errors).1 = .ok name) :
    ∃ p, Accepting lib now published token providers p := by
  induction providers generalizing errors with
  | nil => cases ok
  | cons p ps ih =>
    rw [tryProviders] at ok
    rcases tried : validateJwt lib p.config now (published p.config) token p.cache with ⟨e | name', cache⟩
    · rw [tried] at ok
      obtain ⟨q, before, after, split, rejected, accepted⟩ := ih ok
      refine ⟨q, p :: before, after, by rw [split, List.cons_append], ?_, accepted⟩
      exact List.forall_mem_cons.mpr ⟨by simp [tried], rejected⟩
    · exact ⟨p, [], ps, rfl, by simp, name', by rw [tried]⟩

theorem bound_iff {now : Nat} {published : Published} {token name : String} {providers : List Provider}
    (ok : (storeValidateJwt lib now published token providers).1 = .ok name) :
    ∃ p claims, Accepting lib now published token providers p ∧ lib.payload token = some claims ∧
      (Bound p.config now claims ↔ Shaped now claims) := by
  rw [storeValidateJwt] at ok
  split at ok
  · cases ok
  · obtain ⟨p, accepting⟩ := tryProviders_ok ok
    have ⟨_, _, _, _, name', accepted⟩ := accepting
    obtain ⟨claims, payload, checked⟩ := validateJwt_ok accepted
    exact ⟨p, claims, accepting, payload, checked.binds_iff⟩

namespace Sample

def config : OidcProviderConfig := ⟨"https://idp", "stoa", "email"⟩

def rsa (n : String) : Jwk := ⟨none, "RSA", none, none, some n, some "AQAB", none, none, none⟩

/-- A library that reads every token as these claims, signed with the key `new`. -/
def signing (claims : Claims) : JwtLib String where
  decodeHeader _ := .ok none
  fromRsaComponents n _ := .ok n
  fromEcComponents x _ := .ok x
  payload _ := some claims
  verify _ key _ := if key = "new" then .ok claims else .error "InvalidSignature"
  verify_payload token key algorithm claims' verified := by
    split at verified
    · exact congrArg some (Except.ok.inj verified)
    · cases verified

def unbound : Claims
  | "exp" => some (.int 2000)
  | "email" => some (.str "a@b")
  | _ => none

def bound : Claims
  | "iss" => some (.str "https://idp")
  | "aud" => some (.strings ["stoa"])
  | name => unbound name

def publishing (keys : List Jwk) : Published := fun _ _ => .ok keys

theorem unbound_accepted : (storeValidateJwt (signing unbound) 1000 (publishing [rsa "new"]) "t"
    [⟨config, none⟩]).1 = .ok "a@b" := by
  rfl

theorem bound_accepted : (storeValidateJwt (signing bound) 1000 (publishing [rsa "new"]) "t"
    [⟨config, none⟩]).1 = .ok "a@b" := by
  rfl

/-- A token for no service in particular, of no issuer in particular, is accepted. -/
theorem unbound_token : (storeValidateJwt (signing unbound) 1000 (publishing [rsa "new"]) "t"
      [⟨config, none⟩]).1 = .ok "a@b" ∧
    ¬ ∃ p claims, Accepting (signing unbound) 1000 (publishing [rsa "new"]) "t" [⟨config, none⟩] p ∧
      (signing unbound).payload "t" = some claims ∧ Bound p.config (1000 : Nat) claims := by
  refine ⟨unbound_accepted, ?_⟩
  rintro ⟨p, claims, -, payload, bound⟩
  cases payload
  cases bound.issuer

theorem bound_token : (storeValidateJwt (signing bound) 1000 (publishing [rsa "new"]) "t"
      [⟨config, none⟩]).1 = .ok "a@b" ∧ Shaped (1000 : Nat) bound ∧
    ∃ p claims, Accepting (signing bound) 1000 (publishing [rsa "new"]) "t" [⟨config, none⟩] p ∧
      (signing bound).payload "t" = some claims ∧
      (Bound p.config (1000 : Nat) claims ↔ Shaped (1000 : Nat) claims) := by
  refine ⟨bound_accepted, ⟨⟨_, rfl⟩, ⟨_, _, rfl, rfl⟩, ?_⟩, bound_iff bound_accepted⟩
  rintro v q ⟨⟩

end Sample

structure ProviderWorld where
  published : List Jwk
  now : Nat
  cache : KeyCache

inductive ProviderLabel
  | publish (keys : List Jwk)
  | wait (seconds : Nat)
  | validate (token : String)

def providerStep (lib : JwtLib K) (config : OidcProviderConfig) (label : ProviderLabel) (w : ProviderWorld) :
    Option (Except OidcError String) × ProviderWorld :=
  match label with
  | .publish published => (none, { w with published })
  | .wait seconds => (none, { w with now := w.now + seconds })
  | .validate token =>
    let (result, cache) := validateJwt lib config w.now (fun _ => .ok w.published) token w.cache
    (some result, { w with cache })

def Follows (lib : JwtLib K) (config : OidcProviderConfig) (label : ProviderLabel) (w : ProviderWorld) : Prop :=
  ∀ token, label = .validate token →
    (∃ name, validateWithKeys lib config w.now token w.published = .ok name) →
    ∃ name, (providerStep lib config label w).1 = some (.ok name)

def Untroubled (lib : JwtLib K) (config : OidcProviderConfig) (label : ProviderLabel) (w : ProviderWorld) :
    Prop :=
  ∀ token, label = .validate token →
    (∃ name, validateWithKeys lib config w.now token w.published = .ok name) →
    ∀ keys fetchedAt, w.cache = some (keys, fetchedAt) → w.now - fetchedAt < jwksTtl →
      (∃ name, validateWithKeys lib config w.now token keys = .ok name) ∨
        ∀ kid, lib.decodeHeader token = .ok kid → candidates kid keys = []

theorem refusesIn_component (kind name : String) (text : Option String) :
    RefusesIn (· ≠ .keyNotFound) (component kind name text) := by
  cases text with
  | none => exact refusesIn_error (by simp)
  | some text => exact refusesIn_ok text

theorem refusesIn_rsaAlgorithm (alg : Option String) : RefusesIn (· ≠ .keyNotFound) (rsaAlgorithm alg) := by
  unfold rsaAlgorithm
  split
  all_goals first
    | exact refusesIn_ok _
    | exact refusesIn_error (by simp)

theorem refusesIn_ecAlgorithm (jwk : Jwk) : RefusesIn (· ≠ .keyNotFound) (ecAlgorithm jwk) := by
  unfold ecAlgorithm
  split
  · exact refusesIn_ok _
  · exact refusesIn_ok _
  · exact refusesIn_error (by simp)
  · split
    all_goals first
      | exact refusesIn_ok _
      | exact refusesIn_error (by simp)

theorem refusesIn_decodingKeyAndAlg (jwk : Jwk) :
    RefusesIn (· ≠ .keyNotFound) (decodingKeyAndAlg lib jwk) := by
  unfold decodingKeyAndAlg
  split
  · refine (refusesIn_component _ _ _).bind fun n => (refusesIn_component _ _ _).bind fun e => ?_
    exact (refusesIn_mapError (by simp) _).bind fun key =>
      (refusesIn_rsaAlgorithm _).bind fun alg => refusesIn_ok _
  · split
    · refine (refusesIn_component _ _ _).bind fun x => (refusesIn_component _ _ _).bind fun y => ?_
      exact (refusesIn_mapError (by simp) _).bind fun key =>
        (refusesIn_ecAlgorithm _).bind fun alg => refusesIn_ok _
    · exact refusesIn_error (by simp)

theorem refusesIn_tryKey (config : OidcProviderConfig) (now : Int) (token : String) (jwk : Jwk) :
    RefusesIn (· ≠ .keyNotFound) (tryKey lib config now token jwk) := by
  unfold tryKey
  refine (refusesIn_decodingKeyAndAlg jwk).bind fun ⟨key, alg⟩ => ?_
  refine (refusesIn_mapError (by simp) _).bind fun claims => ?_
  have nbf : RefusesIn (· ≠ .keyNotFound) (checkNbf now claims) := by
    unfold checkNbf
    split
    · split
      · exact refusesIn_error (by simp)
      · exact refusesIn_ok ()
    · exact refusesIn_ok ()
  refine nbf.bind fun _ => ?_
  unfold username
  split
  · exact refusesIn_ok _
  · exact refusesIn_error (by simp)

theorem validateWithKeys_keyNotFound_iff {config : OidcProviderConfig} {now : Int} {token : String}
    {keys : List Jwk} {kid : Option String} (header : lib.decodeHeader token = .ok kid) :
    validateWithKeys lib config now token keys = .error .keyNotFound ↔ candidates kid keys = [] := by
  have tried : validateWithKeys lib config now token keys =
      tryKeys lib config now token (candidates kid keys) .keyNotFound := by
    rw [validateWithKeys, header]
    rfl
  rw [tried]
  constructor
  · intro missing
    rcases tryKeys_cases config now token (candidates kid keys) .keyNotFound with
      ⟨_, -, name, -, accepted⟩ | ⟨e, failed, ⟨none, -⟩ | ⟨jwk, -, error⟩⟩
    · rw [missing] at accepted
      cases accepted
    · exact none
    · rw [missing] at failed
      cases failed
      exact absurd rfl (refusesIn_tryKey config now token jwk _ error)
  · intro none
    rw [none]
    rfl

theorem getKeys_stale {now : Nat} {keys : List Jwk} {cache : KeyCache}
    (stale : ∀ kept fetchedAt, cache = some (kept, fetchedAt) → ¬ now - fetchedAt < jwksTtl) :
    getKeys now (.ok keys) false cache = (.ok keys, some (keys, now)) := by
  cases cache with
  | none => rfl
  | some entry =>
    obtain ⟨kept, fetchedAt⟩ := entry
    simp [getKeys, stale kept fetchedAt rfl]

theorem getKeys_forced (now : Nat) (keys : List Jwk) (cache : KeyCache) :
    getKeys now (.ok keys) true cache = (.ok keys, some (keys, now)) := by
  rcases cache with _ | ⟨kept, fetchedAt⟩ <;> rfl

theorem follows_iff_untroubled (config : OidcProviderConfig) (label : ProviderLabel) (w : ProviderWorld) :
    Follows lib config label w ↔ Untroubled lib config label w := by
  refine forall_congr' fun token => forall_congr' fun validates => forall_congr' fun ⟨name, accepted⟩ => ?_
  subst validates
  obtain ⟨kid, header, -⟩ := bind_eq_ok accepted
  replace header := mapError_eq_ok.mp header
  simp only [providerStep, some.injEq]
  by_cases kept : ∃ keys fetchedAt, w.cache = some (keys, fetchedAt) ∧ w.now - fetchedAt < jwksTtl
  · obtain ⟨keys, fetchedAt, cached, young⟩ := kept
    have got : getKeys w.now (.ok w.published) false w.cache = (.ok keys, w.cache) := by
      simp [getKeys, cached, young]
    have rhs : (∀ keys' fetchedAt', w.cache = some (keys', fetchedAt') → w.now - fetchedAt' < jwksTtl →
        (∃ name, validateWithKeys lib config w.now token keys' = .ok name) ∨
          ∀ kid, lib.decodeHeader token = .ok kid → candidates kid keys' = []) ↔
        (∃ name, validateWithKeys lib config w.now token keys = .ok name) ∨ candidates kid keys = [] := by
      simp [cached, young, header]
    rw [rhs, ← @validateWithKeys_keyNotFound_iff K lib config w.now token keys kid header]
    simp only [validateJwt, got]
    cases outcome : validateWithKeys lib config w.now token keys with
    | ok name' => simp
    | error e =>
      cases e with
      | keyNotFound => simp [getKeys_forced, accepted]
      | _ => simp
  · have stale : ∀ keys fetchedAt, w.cache = some (keys, fetchedAt) → ¬ w.now - fetchedAt < jwksTtl :=
      fun keys fetchedAt cached young => kept ⟨keys, fetchedAt, cached, young⟩
    refine iff_of_true ⟨name, ?_⟩ fun keys fetchedAt cached young => absurd young (stale keys fetchedAt cached)
    simp [validateJwt, getKeys_stale stale, accepted]

theorem follows_iff (config : OidcProviderConfig) (labels : List ProviderLabel) (w : ProviderWorld) :
    AlongRun (providerStep lib config) (Follows lib config) labels w ↔
      AlongRun (providerStep lib config) (Untroubled lib config) labels w :=
  alongRun_congr (follows_iff_untroubled config) labels w

namespace Sample

/-- The provider has changed its key; the token, which does not name its key, is signed with the
new one. -/
theorem rotation_missed : ¬ AlongRun (providerStep (signing bound) config) (Follows (signing bound) config)
    [.validate "t", .publish [rsa "new"], .validate "t"] ⟨[rsa "old"], 1000, none⟩ := by
  rintro ⟨-, -, follows, -⟩
  obtain ⟨name, accepted⟩ := follows "t" rfl ⟨"a@b", by rfl⟩
  have rejected : (validateJwt (signing bound) config 1000 (fun _ => .ok [rsa "new"]) "t"
      (some ([rsa "old"], 1000))).1 = .error (.invalidToken "InvalidSignature") := by rfl
  exact absurd (rejected.symm.trans (some.inj accepted)) (by simp)

end Sample

end Stoa.Oidc
