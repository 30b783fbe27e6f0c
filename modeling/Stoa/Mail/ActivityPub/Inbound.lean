import Mathlib.Data.List.AList
import Stoa.Core.MsgIdMap
import Stoa.Lib.Base64
import Stoa.Lib.Checks
import Stoa.Lib.Words

/-! An inbound note becomes an article: its fields are put into headers, without line breaks, and
its content is stripped of HTML. -/
namespace Stoa.ActivityPub

def isNameChar (c : Char) : Bool :=
  c.isDigit || c.isLower || "!#$%&'*+-.^_`|~".toList.contains c

/-- The headers of a request, as `http::HeaderMap`. -/
structure HeaderMap where
  entries : List (Chars × Bytes)
  named : entries.all (fun entry => entry.1.all isNameChar) = true

/-- The bytes that `HeaderValue::to_str` accepts. -/
def isVisible (b : UInt8) : Bool := (32 ≤ b && b < 127) || b == 9

def toStr (value : Bytes) : Option Chars :=
  if value.all isVisible then some (value.map fun b => Char.ofNat b.toNat) else none

namespace HeaderMap

/-- The first value under a name; names are compared without case. -/
def get (headers : HeaderMap) (name : Chars) : Option Bytes :=
  (headers.entries.find? fun entry => entry.1 == name.toLower).map Prod.snd

def str (headers : HeaderMap) (name : Chars) : Option Chars := (headers.get name).bind toStr

end HeaderMap

def splitSigParams (inQuotes : Bool) (part : Chars) : Chars → List Chars
  | [] => [part]
  | c :: rest =>
    if c = '"' then splitSigParams (!inQuotes) (part ++ [c]) rest
    else if c = ',' ∧ inQuotes = false then part :: splitSigParams inQuotes [] rest
    else splitSigParams inQuotes (part ++ [c]) rest

def parseSigParam (header : Chars) (name : String) : Option Chars :=
  (splitSigParams false [] header).findSome? fun token =>
    ((Chars.trim token).dropPrefix? (name ++ "=").toList).map (Chars.trimMatches (· == '"'))

def requestTarget : Chars := "(request-target)".toList

def hostName : Chars := "host".toList

def dateName : Chars := "date".toList

def digestName : Chars := "digest".toList

def signatureName : Chars := "signature".toList

def defaultSignedHeaders : Chars := "(request-target) host date".toList

/-- The `headers=` parameter. -/
def signedHeadersSpec (sigHeader : Chars) : Chars :=
  (parseSigParam sigHeader "headers").getD defaultSignedHeaders

def enforceMinimumSignedHeaders (spec method : Chars) : Except String Unit := do
  [requestTarget, hostName, dateName].forM fun required =>
    refuseIf (required ∉ spec.words)
      ("Signature headers= list missing required component: " ++ String.ofList required)
  let method := method.map Char.toUpper
  refuseIf ((method = "POST".toList ∨ method = "PUT".toList) ∧ digestName ∉ spec.words)
    "Signature headers= list missing required 'digest' for body-carrying request"

/-- An `http` or `https` URL after its scheme. -/
def withoutScheme (url : Chars) : Option Chars :=
  (url.dropPrefix? "https://".toList).or (url.dropPrefix? "http://".toList)

/-- What stands before the path, the query and the fragment. -/
def authorityOf (rest : Chars) : Chars :=
  rest.takeWhile fun c => c != '/' && c != '?' && c != '#'

/-- The host of an `http` or `https` URL. -/
def extractHost (url : Chars) : Option Chars :=
  (withoutScheme url).bind fun rest =>
    if (authorityOf rest).isEmpty then none else some (authorityOf rest).toLower

def validateKeyidDomain (keyId actorUrl : Chars) : Except String Unit :=
  match extractHost keyId, extractHost actorUrl with
  | none, _ => .error ("keyId has no parseable host: " ++ String.ofList keyId)
  | some _, none => .error ("actor_url has no parseable host: " ++ String.ofList actorUrl)
  | some keyHost, some actorHost =>
    refuseIf (keyHost ≠ actorHost) ("keyId host (" ++ String.ofList keyHost ++
      ") does not match actor_url host (" ++ String.ofList actorHost ++
      "); cross-domain key substitution rejected")

/-- The value of the `Digest` header for a body. -/
def digestValue (body : Bytes) : Chars :=
  "SHA-256=".toList ++ (Base64.standard.encode (Sha256.digest body).toBytes).toList

def signedValue (method path : Chars) (headers : HeaderMap) (body : Bytes) (name : Chars) : Chars :=
  if name = requestTarget then method.toLower ++ ' ' :: path
  else if name = digestName then digestValue body
  else (headers.str name).getD []

def signedLine (method path : Chars) (headers : HeaderMap) (body : Bytes) (name : Chars) : Chars :=
  name ++ ':' :: ' ' :: signedValue method path headers body name

/-- A line is refused only for a `Digest` header that is missing or wrong. -/
def signedPart (method path : Chars) (headers : HeaderMap) (body : Bytes) (name : Chars) :
    Except String Chars :=
  if name = digestName then
    match headers.str name with
    | none => .error "Digest header required by Signature but absent"
    | some provided =>
      if provided ≠ digestValue body then
        .error ("Digest mismatch: provided=" ++ String.ofList provided ++ ", computed=" ++
          String.ofList (digestValue body))
      else .ok (signedLine method path headers body name)
  else .ok (signedLine method path headers body name)

def buildSignedString (method path : Chars) (headers : HeaderMap) (body : Bytes) (spec : Chars) :
    Except String Chars := do
  let parts ← spec.words.mapM (signedPart method path headers body)
  return List.intercalate ['\n'] parts

/-- The RSA library: PKCS#1 keys, PKCS#1 v1.5 signatures over SHA-256. -/
structure Rsa where
  PublicKey : Type
  Signature : Type
  fromPkcs1Pem : Chars → Except String PublicKey
  tryFrom : Bytes → Except String Signature
  verify : PublicKey → Bytes → Signature → Except String Unit

inductive HttpAnswer
  | failed (message : String)
  | response (status : Nat) (contentLength : Option Nat) (body : Except String Bytes)

/-- `StatusCode::is_success`. -/
def isSuccess (status : Nat) : Bool := 200 ≤ status && status < 300

def actorFetchMaxBytes : Nat := 64 * 1024

def readActor (json : JsonLib) : HttpAnswer → Except String Json
  | .failed e => .error ("failed to fetch actor: " ++ e)
  | .response status contentLength body => do
    refuseIf (isSuccess status = false) ("actor fetch returned " ++ status.repr)
    refuseIf (actorFetchMaxBytes < contentLength.getD 0)
      "actor document too large (Content-Length exceeds 65536 bytes)"
    let buf ← body.mapError fun e => "error reading actor response body: " ++ e
    refuseIf (actorFetchMaxBytes < buf.length)
      "actor document body exceeded 65536 bytes; aborting fetch"
    (json.fromSlice buf).mapError fun e => "failed to parse actor JSON: " ++ e

def fetchPublicKey (json : JsonLib) (get : Chars → HttpAnswer) (keyId actorUrl : Chars) :
    Except String Chars := do
  let actor ← readActor json (get actorUrl)
  let docId ← okOr (actor.get "id").asStr "fetched actor document has no 'id' field"
  (validateKeyidDomain keyId docId).mapError fun e =>
    "fetched actor document id domain mismatch: " ++ e
  okOr ((actor.get "publicKey").get "publicKeyPem").asStr "actor has no publicKey.publicKeyPem"

abbrev PubKeyCache := AList fun _ : Chars => Chars × Nat

def pubKeyCacheTtlMs : Nat := 300 * 1000

def cachedPem (cache : PubKeyCache) (nowMs : Nat) (keyId : Chars) : Option Chars :=
  match cache.lookup keyId with
  | some (pem, fetchedAt) => if nowMs - fetchedAt < pubKeyCacheTtlMs then some pem else none
  | none => none

structure Web where
  nowMs : Nat
  get : Chars → HttpAnswer

def publicKeyPem (json : JsonLib) (web : Web) (keyId actorUrl : Chars) :
    Prog PubKeyCache String Chars :=
  Prog.ofExec fun cache => match cachedPem cache web.nowMs keyId with
    | some pem => (.ok pem, cache)
    | none => match fetchPublicKey json web.get keyId actorUrl with
      | .ok fresh => (.ok fresh, cache.insert keyId (fresh, web.nowMs))
      | .error e => (.error e, cache)

def verifyRsaSha256 (rsa : Rsa) (pem signedString sigB64 : Chars) : Except String Unit := do
  let sigBytes ← okOr (Base64.standard.decode (String.ofList sigB64)) "invalid base64 in signature"
  let key ← (rsa.fromPkcs1Pem pem).mapError fun e => "invalid public key: " ++ e
  let sig ← (rsa.tryFrom sigBytes).mapError fun e => "invalid signature bytes: " ++ e
  (rsa.verify key signedString.asBytes sig).mapError fun e =>
    "signature verification failed: " ++ e

/-- What the verifier reads from a request before it looks for the key. -/
structure SignedRequest where
  keyId : Chars
  actorUrl : Chars
  signedString : Chars
  sigB64 : Chars

def readSignature (method path : Chars) (headers : HeaderMap) (body : Bytes) :
    Except String SignedRequest := do
  let sigHeader ← okOr (headers.str signatureName) "missing Signature header"
  let keyId ← okOr (parseSigParam sigHeader "keyId") "Signature header missing keyId"
  let spec := signedHeadersSpec sigHeader
  enforceMinimumSignedHeaders spec method
  let sigB64 ← okOr (parseSigParam sigHeader "signature") "Signature header missing signature"
  let signedString ← buildSignedString method path headers body spec
  let actorUrl := keyId.takeWhile (· != '#')
  validateKeyidDomain keyId actorUrl
  return ⟨keyId, actorUrl, signedString, sigB64⟩

def verifyHttpSignature (rsa : Rsa) (json : JsonLib) (web : Web) (method path : Chars)
    (headers : HeaderMap) (body : Bytes) : Prog PubKeyCache String Chars := do
  let request ← Prog.ofExcept (readSignature method path headers body)
  let pem ← publicKeyPem json web request.keyId request.actorUrl
  Prog.ofExcept (verifyRsaSha256 rsa pem request.signedString request.sigB64)
  return request.actorUrl

variable {method : Chars}

theorem enforceMinimumSignedHeaders_eq_ok {spec : Chars} :
    enforceMinimumSignedHeaders spec method = .ok () ↔
      requestTarget ∈ spec.words ∧ hostName ∈ spec.words ∧ dateName ∈ spec.words ∧
      ((method.map Char.toUpper = "POST".toList ∨ method.map Char.toUpper = "PUT".toList) →
        digestName ∈ spec.words) := by
  unfold enforceMinimumSignedHeaders
  rw [andThen_eq_ok, forM_eq_ok, refuseIf_eq_ok]
  simp only [refuseIf_eq_ok, List.forall_mem_cons, not_not, not_and, and_assoc, List.not_mem_nil,
    false_implies, implies_true, true_and]

variable {path : Chars} {headers : HeaderMap} {body : Bytes}

theorem signedPart_eq_ok {name line : Chars} : signedPart method path headers body name = .ok line ↔
      (name = digestName → headers.str digestName = some (digestValue body)) ∧
      signedLine method path headers body name = line := by
  unfold signedPart
  by_cases isDigest : name = digestName
  · subst isDigest
    cases provided : headers.str digestName with
    | none => simp
    | some value => by_cases right : value = digestValue body <;> simp [right]
  · simp [isDigest]

theorem buildSignedString_eq_ok {spec signed : Chars} :
    buildSignedString method path headers body spec = .ok signed ↔
      (digestName ∈ spec.words → headers.str digestName = some (digestValue body)) ∧
      List.intercalate ['\n'] (spec.words.map (signedLine method path headers body)) = signed := by
  have parts : ∀ lines, spec.words.mapM (signedPart method path headers body) = .ok lines ↔
      (digestName ∈ spec.words → headers.str digestName = some (digestValue body)) ∧
      spec.words.map (signedLine method path headers body) = lines := by
    intro lines
    rw [mapM_eq_ok]
    generalize spec.words = names
    induction names generalizing lines with
    | nil => cases lines <;> simp
    | cons name names ih =>
      cases lines with
      | nil => simp
      | cons line lines =>
        simp only [List.map_cons, List.cons.injEq, signedPart_eq_ok, ih, List.mem_cons]
        constructor
        · rintro ⟨⟨here, rfl⟩, later, rfl⟩
          exact ⟨fun mem => mem.elim (fun same => here same.symm) later, rfl, rfl⟩
        · rintro ⟨digest, rfl, rfl⟩
          exact ⟨⟨fun same => digest (.inl same.symm), rfl⟩, fun mem => digest (.inr mem), rfl⟩
  unfold buildSignedString
  rw [bind_eq_ok_iff]
  constructor
  · rintro ⟨lines, built, joined⟩
    obtain ⟨digest, rfl⟩ := (parts lines).mp built
    exact ⟨digest, Except.ok.inj joined⟩
  · rintro ⟨digest, rfl⟩
    exact ⟨_, (parts _).mpr ⟨digest, rfl⟩, rfl⟩

theorem verifyRsaSha256_eq_ok {rsa : Rsa} {pem signed sigB64 : Chars} :
    verifyRsaSha256 rsa pem signed sigB64 = .ok () ↔
      ∃ sigBytes key sig, Base64.standard.decode (String.ofList sigB64) = some sigBytes ∧
        rsa.fromPkcs1Pem pem = .ok key ∧ rsa.tryFrom sigBytes = .ok sig ∧
        rsa.verify key signed.asBytes sig = .ok () := by
  simp only [verifyRsaSha256, bind_eq_ok_iff, okOr_eq_ok, mapError_eq_ok]
  constructor
  · rintro ⟨sigBytes, decoded, key, keyed, sig, read, checked⟩
    exact ⟨sigBytes, key, sig, decoded, keyed, read, checked⟩
  · rintro ⟨sigBytes, key, sig, decoded, keyed, read, checked⟩
    exact ⟨sigBytes, decoded, key, keyed, sig, read, checked⟩

structure Reads (method path : Chars) (headers : HeaderMap) (body : Bytes) (sigHeader : Chars)
    (request : SignedRequest) : Prop where
  header : headers.str signatureName = some sigHeader
  keyId : parseSigParam sigHeader "keyId" = some request.keyId
  sigB64 : parseSigParam sigHeader "signature" = some request.sigB64
  minimum : enforceMinimumSignedHeaders (signedHeadersSpec sigHeader) method = .ok ()
  signed : buildSignedString method path headers body (signedHeadersSpec sigHeader) =
    .ok request.signedString
  actorUrl : request.actorUrl = request.keyId.takeWhile (· != '#')
  domain : validateKeyidDomain request.keyId request.actorUrl = .ok ()

theorem readSignature_eq_ok {request : SignedRequest} :
    readSignature method path headers body = .ok request ↔
      ∃ sigHeader, Reads method path headers body sigHeader request := by
  simp only [readSignature, bind_eq_ok_iff, okOr_eq_ok]
  constructor
  · rintro ⟨sigHeader, header, keyId, hasKey, ⟨⟩, minimum, sigB64, hasSig, signed, built, ⟨⟩, domain,
      made⟩
    cases made
    exact ⟨sigHeader, header, hasKey, hasSig, minimum, built, rfl, domain⟩
  · rintro ⟨sigHeader, header, hasKey, hasSig, minimum, built, actorUrl, domain⟩
    rw [actorUrl] at domain
    refine ⟨sigHeader, header, _, hasKey, (), minimum, _, hasSig, _, built, (), domain, ?_⟩
    rw [← actorUrl]
    rfl

theorem verifyHttpSignature_eq_ok {rsa : Rsa} {json : JsonLib} {web : Web}
    {cache : PubKeyCache} {actor : Chars} :
    ((verifyHttpSignature rsa json web method path headers body).exec cache).1 = .ok actor ↔
      ∃ request pem, readSignature method path headers body = .ok request ∧
        ((publicKeyPem json web request.keyId request.actorUrl).exec cache).1 = .ok pem ∧
        verifyRsaSha256 rsa pem request.signedString request.sigB64 = .ok () ∧
        actor = request.actorUrl := by
  unfold verifyHttpSignature
  rw [Prog.exec_bind, Prog.exec_ofExcept]
  rcases readSignature method path headers body with e | request
  · simp
  simp only [Prog.exec_bind, Prog.exec_ofExcept, Except.ok.injEq, exists_and_left, exists_eq_left']
  rcases (publicKeyPem json web request.keyId request.actorUrl).exec cache with ⟨e | pem, cache'⟩
  · simp
  simp only [Except.ok.injEq, exists_eq_left']
  rcases verifyRsaSha256 rsa pem request.signedString request.sigB64 with e | ⟨⟩
  · simp
  · simp [eq_comm]

structure ReceivedRow where
  activityId : Chars
  receivedAt : Nat
  deriving DecidableEq

abbrev ReceivedActivityStore := AnyPool (Table ReceivedRow ReceivedRow.activityId)

namespace ReceivedActivityStore

def Has (store : ReceivedActivityStore) (activityId : Chars) : Prop :=
  activityId ∈ store.tables.rows.map ReceivedRow.activityId

instance (store : ReceivedActivityStore) (activityId : Chars) : Decidable (store.Has activityId) :=
  inferInstanceAs (Decidable (activityId ∈ store.tables.rows.map ReceivedRow.activityId))

def recordIfNew (nowSecs : Nat) (activityId : Chars) : Prog ReceivedActivityStore String Bool :=
  AnyPool.transaction fun rows => match rows.insert ⟨activityId, nowSecs⟩ with
    | some rows' => (true, rows')
    | none => (false, rows)

theorem insert_eq_none_iff (store : ReceivedActivityStore) (nowSecs : Nat) (activityId : Chars) :
    store.tables.insert ⟨activityId, nowSecs⟩ = none ↔ store.Has activityId := by
  rw [Table.insert_eq_none_iff]
  simp [Has, eq_comm]

theorem exec_recordIfNew (nowSecs : Nat) (activityId : Chars) (store : ReceivedActivityStore) :
    ((recordIfNew nowSecs activityId).exec store).1 = match store.fault with
      | some message => .error message
      | none => .ok (decide (¬ store.Has activityId)) := by
  rw [recordIfNew, AnyPool.exec_transaction]
  cases store.fault with
  | some message => rfl
  | none =>
    by_cases recorded : store.Has activityId
    · simp [(insert_eq_none_iff store nowSecs activityId).mpr recorded, recorded]
    · have fresh := mt (insert_eq_none_iff store nowSecs activityId).mp recorded
      obtain ⟨rows, inserted⟩ := Option.ne_none_iff_exists'.mp fresh
      simp [inserted, recorded]

end ReceivedActivityStore

/-- The clock and the random number generator, when a note is converted. -/
structure NoteReadings where
  uuid : Chars
  utcNow : Chars

def hexVal (b : UInt8) : Option UInt8 :=
  if 0x30 ≤ b && b ≤ 0x39 then some (b - 0x30)
  else if 0x61 ≤ b && b ≤ 0x66 then some (b - 0x61 + 10)
  else if 0x41 ≤ b && b ≤ 0x46 then some (b - 0x41 + 10)
  else none

/-- Decode `%XX`; what is no such sequence stays as it is. -/
def percentDecodeBytes : Bytes → Bytes
  | [] => []
  | [a] => [a]
  | [a, b] => [a, b]
  | a :: b :: c :: rest =>
    match a == 0x25, hexVal b, hexVal c with
    | true, some hi, some lo => (hi <<< 4 ||| lo) :: percentDecodeBytes rest
    | _, _, _ => a :: percentDecodeBytes (b :: c :: rest)

def percentDecode (s : Chars) : Chars :=
  (Text.fromUtf8Lossy (percentDecodeBytes s.asBytes)).toList

def decodeMsgidFromUrl (url baseUrl groupName : Chars) : Chars :=
  match url.dropPrefix?
      (baseUrl ++ "/ap/groups/".toList ++ groupName ++ "/articles/".toList) with
  | some encoded => percentDecode encoded
  | none => '<' :: url ++ ['>']

def unknownSender : Chars := "unknown@activitypub.invalid".toList

/-- `user@host` for the URL of an actor. -/
def attributedToEmail (url : Chars) : Chars :=
  let rest := (withoutScheme url).getD url
  if '/' ∉ rest then "unknown@".toList ++ rest
  else
    let host := rest.takeWhile (· != '/')
    let path := rest.dropWhile (· != '/')
    if host.isEmpty then unknownSender
    else
      let localPart := ((path.splitOn '/').filter (! ·.isEmpty)).getLast?.getD "unknown".toList
      localPart ++ '@' :: host

def blockTags : List String :=
  ["p", "div", "br", "h1", "h2", "h3", "h4", "h5", "h6", "li", "ul", "ol", "blockquote", "pre",
    "hr", "tr", "td", "th"]

/-- The name of a tag, of which `tagBuf` is the text between the angle brackets. -/
def tagName (tagBuf : Chars) : Chars :=
  Chars.toLower ((((tagBuf.dropWhile (· == '/')).splitOnP Text.isAsciiSpace).filter
    (! ·.isEmpty)).head?.getD [])

/-- The text outside of tags, with a line feed for each tag of a block. `tagBuf` is what has
been read of the tag, if any. -/
def stripTags (tagBuf : Option Chars) : Chars → Chars
  | [] => []
  | '<' :: rest => stripTags (some []) rest
  | '>' :: rest =>
    if tagName (tagBuf.getD []) ∈ blockTags.map String.toList then '\n' :: stripTags none rest
    else stripTags none rest
  | c :: rest => match tagBuf with
    | some tag => stripTags (some (tag ++ [c])) rest
    | none => c :: stripTags none rest

def entities : List (String × String) :=
  [("&amp;", "&"), ("&lt;", "<"), ("&gt;", ">"), ("&quot;", "\""), ("&#39;", "'"), ("&nbsp;", " ")]

def stripHtml (html : Chars) : Chars :=
  entities.foldl (fun out entity => Chars.replace entity.1.toList entity.2.toList out)
    (stripTags none html)

def withoutLineBreaks (cs : Chars) : Chars := Chars.replaceAny ['\r', '\n'] [] cs

def noteMessageId (uuid noteId : Chars) : Chars :=
  if noteId.isEmpty then '<' :: uuid ++ "@activitypub.invalid>".toList
  else
    let bare := Chars.trimStartMatches "http://".toList noteId.length
      (Chars.trimStartMatches "https://".toList noteId.length noteId)
    let sanitized := Chars.replaceAny ['<', '>', ' ', '\n', '\r'] ['_']
      (Chars.replaceAny ['/'] ['-'] bare)
    "<ap.".toList ++ sanitized ++ ['>']

def textField (v : Json) (name : String) : Chars := (v.get name).asStr.getD []

def noteContent (note : Json) : Chars :=
  ((note.get "content").asStr.or ((note.get "contentMap").asObject.bind fun fields =>
    fields.head?.bind fun field => field.2.asStr)).getD []

def headerLine (name : String) (value : Chars) : Chars :=
  name.toList ++ ':' :: ' ' :: value ++ "\r\n".toList

def noteToArticle (readings : NoteReadings) (note : Json) (groupName baseUrl : Chars) :
    Chars × List Chars × Bytes :=
  let sender := ((note.get "attributedTo").asStr.map attributedToEmail).getD unknownSender
  let subject := ((note.get "summary").asStr.or (note.get "name").asStr).getD
    "(no subject)".toList
  let published := textField note "published"
  let inReplyTo := (note.get "inReplyTo").asStr.map fun url =>
    decodeMsgidFromUrl url baseUrl groupName
  let messageId := noteMessageId readings.uuid (textField note "id")
  let date := if published.isEmpty then readings.utcNow else withoutLineBreaks published
  let article := headerLine "From" (withoutLineBreaks sender) ++
    headerLine "Newsgroups" (withoutLineBreaks groupName) ++
    headerLine "Subject" (withoutLineBreaks subject) ++
    headerLine "Message-ID" messageId ++
    headerLine "Date" date ++
    ((inReplyTo.map fun irt => headerLine "In-Reply-To" (withoutLineBreaks irt)).getD []) ++
    "X-ActivityPub: inbound\r\n".toList ++ "\r\n".toList ++ stripHtml (noteContent note)
  (messageId, [groupName], article.asBytes)

end Stoa.ActivityPub
