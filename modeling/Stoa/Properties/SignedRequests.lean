import Stoa.Mail.ActivityPub.Inbox

/-! A signature holds for one request only, exactly as far as the two requests list the same names;
and a delivery is accepted exactly if it carries the digest of its body in a header. -/
namespace Stoa.ActivityPub

open Chars List Base64

def extractHostPath (url : Chars) : Chars × Chars :=
  let rest := (withoutScheme url).getD url
  if '/' ∈ rest then (rest.takeWhile (· != '/'), rest.dropWhile (· != '/')) else (rest, ['/'])

/-- The key of an actor; `sign` is the private half. -/
structure RsaActorKey (rsa : Rsa) where
  keyId : Chars
  publicKey : rsa.PublicKey
  sign : Bytes → Bytes

def postSignedString (host path date : Chars) (body : Bytes) : Chars :=
  "(request-target): post ".toList ++ path ++ "\nhost: ".toList ++ host ++ "\ndate: ".toList ++
    date ++ "\ndigest: ".toList ++ digestValue body

section
variable {rsa : Rsa}

/-- The `Signature` header of a POST request. -/
def RsaActorKey.signPost (key : RsaActorKey rsa) (host path date : Chars) (body : Bytes) : Chars :=
  let sigBytes := key.sign (postSignedString host path date body).asBytes
  "keyId=\"".toList ++ key.keyId ++ "\",algorithm=\"rsa-sha256\",headers=\"".toList ++
    "(request-target) host date digest".toList ++ "\",signature=\"".toList ++
    (Base64.standard.encode sigBytes).toList ++ ['"']

def isValueByte (b : UInt8) : Bool := (32 ≤ b && b != 127) || b == 9

structure Delivery where
  path : Chars
  headers : HeaderMap
  body : Bytes

def deliveryHeaders (key : Option (RsaActorKey rsa)) (body : Bytes) (host path date : Chars) :
    HeaderMap where
  entries := ("content-type".toList, Chars.asBytes "application/activity+json".toList) ::
    (dateName, date.asBytes) :: (hostName, host.asBytes) ::
    (key.map fun key => (signatureName, (key.signPost host path date body).asBytes)).toList
  named := by cases key <;> rfl

/-- The request to the inbox of a follower; none is sent with a value that is no header value. -/
def deliverOne (key : Option (RsaActorKey rsa)) (body : Bytes) (inboxUrl date : Chars) :
    Option Delivery :=
  let (host, path) := extractHostPath inboxUrl
  let headers := deliveryHeaders key body host path date
  if headers.entries.all fun entry => entry.2.all isValueByte then some ⟨path, headers, body⟩
  else none
end

theorem lf_notMem_toStr {value : Bytes} {text : Chars} (read : toStr value = some text) : '\n' ∉ text := by
  unfold toStr at read
  split at read
  · next visible =>
    cases read
    intro mem
    obtain ⟨b, inValue, lf⟩ := mem_map.mp mem
    have clean := all_eq_true.mp visible b inValue
    -- The byte of a line feed is not visible.
    have : b = 10 := by
      have code := congrArg Char.toNat lf
      rw [Text.toNat_ofNat_of_valid (.inl (by have := b.toNat_lt; omega))] at code
      exact UInt8.toNat_inj.mp code
    subst this
    revert clean
    decide
  · cases read

theorem lf_notMem_str (headers : HeaderMap) (name : Chars) : '\n' ∉ (headers.str name).getD [] := by
  cases read : headers.str name with
  | none => simp
  | some text =>
    obtain ⟨value, -, shown⟩ := Option.bind_eq_some_iff.mp read
    exact lf_notMem_toStr shown

theorem lf_notMem_digestValue (body : Bytes) : '\n' ∉ digestValue body := by
  intro mem
  rcases mem_append.mp mem with label | code
  · revert label
    decide
  · rcases standard.mem_encode code with symbol | pad
    · revert symbol
      decide
    · cases pad

def post : Chars := "post".toList

theorem count_signedValue (path : Chars) (headers : HeaderMap) (body : Bytes) (name : Chars) :
    (signedValue post path headers body name).count '\n' =
      if name = requestTarget then path.count '\n' else 0 := by
  unfold signedValue
  split
  · rw [count_append, count_cons_of_ne (by decide)]
    have : (toLower post).count '\n' = 0 := by decide
    omega
  · split
    · exact count_eq_zero.mpr (lf_notMem_digestValue body)
    · exact count_eq_zero.mpr (lf_notMem_str headers name)

theorem count_signedLine {path name spec : Chars} (headers : HeaderMap) (body : Bytes)
    (listed : name ∈ spec.words) : (signedLine post path headers body name).count '\n' =
      if name = requestTarget then path.count '\n' else 0 := by
  have clean : name.count '\n' = 0 :=
    count_eq_zero.mpr (notMem_of_mem_words listed (by decide))
  rw [signedLine, count_append, clean, count_cons_of_ne (by decide),
    count_cons_of_ne (by decide), count_signedValue]
  omega

/-- As many line feeds as the path has, for each time the target is listed, and one before
each line. -/
theorem count_lines (path : Chars) (headers : HeaderMap) (body : Bytes) (spec : Chars) :
    (marked '\n' (spec.words.map (signedLine post path headers body))).count '\n' =
      spec.words.count requestTarget * path.count '\n' + spec.words.length := by
  have each : ∀ names ⊆ spec.words,
      (marked '\n' (names.map (signedLine post path headers body))).count '\n' =
        names.count requestTarget * path.count '\n' + names.length := by
    intro names listed
    induction names with
    | nil => simp
    | cons name names ih =>
      rw [cons_subset] at listed
      rw [map_cons, marked_cons, count_cons_self, count_append, ih listed.2,
        count_signedLine headers body listed.1, length_cons]
      by_cases target : name = requestTarget
      · subst target
        rw [if_pos rfl, count_cons_self]
        ring
      · rw [if_neg target, count_cons_of_ne target]
        ring
  exact each _ (List.Subset.refl _)

theorem names_eq_of_marked {path spec spec' : Chars} {headers headers' : HeaderMap}
    {body body' : Bytes} {names names' : List Chars} (listed : names ⊆ spec.words)
    (listed' : names' ⊆ spec'.words) (same : marked '\n' (names.map (signedLine post path headers body)) =
      marked '\n' (names'.map (signedLine post path headers' body'))) : names = names' := by
  induction names generalizing names' with
  | nil => cases names' with
    | nil => rfl
    | cons name' names' => simp at same
  | cons name names ih => cases names' with
    | nil => simp at same
    | cons name' names' =>
      rw [cons_subset] at listed listed'
      simp only [map_cons, marked_cons, cons.injEq, true_and, signedLine,
        append_assoc, cons_append] at same
      -- The name is what stands before the first space.
      have spaces : ∀ {spec name : Chars}, name ∈ spec.words → (name ++ [':']).count ' ' = 0 := by
        intro spec name member
        have clean : name.count ' ' = 0 :=
          count_eq_zero.mpr (notMem_of_mem_words member (by decide))
        rw [count_append, clean]
        decide
      have cut := append_eq_of_count (a := name ++ [':']) (b := name' ++ [':']) (x := ' ')
        (by simpa using same) ((spaces listed.1).trans (spaces listed'.1).symm) (by simp [Ends])
        (by simp [Ends])
      obtain rfl : name = name' := append_cancel_right cut.1
      have rest := (cons.inj cut.2).2
      -- What follows is the same line, or a line without line feeds.
      have counts := (count_signedValue path headers body name).trans
        (count_signedValue path headers' body' name).symm
      have later := append_eq_of_count rest counts (ends_marked _ _) (ends_marked _ _)
      rw [ih listed.2 listed'.2 later.2]

theorem lines_eq_of_marked {path path' spec spec' : Chars} {headers headers' : HeaderMap}
    {body body' : Bytes} (names : spec.words = spec'.words) (target : requestTarget ∈ spec.words)
    (same : marked '\n' (spec.words.map (signedLine post path headers body)) =
      marked '\n' (spec'.words.map (signedLine post path' headers' body'))) :
    spec.words.map (signedLine post path headers body) =
      spec'.words.map (signedLine post path' headers' body') := by
  have feeds : path.count '\n' = path'.count '\n' := by
    have total := congrArg (count '\n') same
    rw [count_lines, count_lines, ← names] at total
    have often : 0 < spec.words.count requestTarget := count_pos_iff.mpr target
    exact Nat.eq_of_mul_eq_mul_left often (by omega)
  apply marked_injective _ same
  rw [← names, map_map, map_map]
  apply map_congr_left
  intro name listed
  rw [Function.comp_apply, Function.comp_apply, count_signedLine headers body listed,
    count_signedLine headers' body' listed, feeds]

def readInbox (r : InboxRequest) : Except String SignedRequest :=
  readSignature post (inboxPath r.groupName) r.headers r.body

structure VerifiedUnder (rsa : Rsa) (json : JsonLib) (web : Web) (cache : PubKeyCache)
    (r : InboxRequest) (key : rsa.PublicKey) (sigBytes : Bytes) : Prop where
  accepted : ∃ actor, ((verifyHttpSignature rsa json web post (inboxPath r.groupName) r.headers
    r.body).exec cache).1 = .ok actor
  under : ∃ request pem, readInbox r = .ok request ∧
    ((publicKeyPem json web request.keyId request.actorUrl).exec cache).1 = .ok pem ∧
    rsa.fromPkcs1Pem pem = .ok key ∧
    Base64.standard.decode (String.ofList request.sigB64) = some sigBytes

def signedNames (r : InboxRequest) : List Chars :=
  ((r.headers.str signatureName).map fun sigHeader => (signedHeadersSpec sigHeader).words).getD []

def readHeader (r : InboxRequest) (name : Chars) : Chars := (r.headers.str name).getD []

theorem VerifiedUnder.signed {rsa : Rsa} {json : JsonLib} {web : Web} {cache : PubKeyCache}
    {r : InboxRequest} {key : rsa.PublicKey} {sigBytes : Bytes}
    (verified : VerifiedUnder rsa json web cache r key sigBytes) :
    ∃ (spec : Chars) (sig : rsa.Signature), signedNames r = spec.words ∧ requestTarget ∈ spec.words ∧
      hostName ∈ spec.words ∧ dateName ∈ spec.words ∧ digestName ∈ spec.words ∧
      rsa.tryFrom sigBytes = .ok sig ∧ rsa.verify key (asBytes (intercalate ['\n'] (spec.words.map
        (signedLine post (inboxPath r.groupName) r.headers r.body)))) sig = .ok () := by
  obtain ⟨actor, accepted⟩ := verified.accepted
  obtain ⟨request, pem, read, keyed, checked, -⟩ := verifyHttpSignature_eq_ok.mp accepted
  obtain ⟨request', pem', read', keyed', isKey, bytes⟩ := verified.under
  obtain rfl : request = request' := Except.ok.inj (read.symm.trans read')
  obtain rfl : pem = pem' := Except.ok.inj (keyed.symm.trans keyed')
  obtain ⟨sigHeader, reads⟩ := readSignature_eq_ok.mp read
  obtain ⟨target, host, date, digest⟩ := enforceMinimumSignedHeaders_eq_ok.mp reads.minimum
  obtain ⟨-, lines⟩ := buildSignedString_eq_ok.mp reads.signed
  obtain ⟨decoded, key', sig, decodes, isKey', trySig, verifies⟩ := verifyRsaSha256_eq_ok.mp checked
  obtain rfl : decoded = sigBytes := Option.some.inj (decodes.symm.trans bytes)
  obtain rfl : key' = key := Except.ok.inj (isKey'.symm.trans isKey)
  refine ⟨signedHeadersSpec sigHeader, sig, ?_, target, host, date, digest (.inl (by decide)),
    trySig, lines ▸ verifies⟩
  rw [signedNames, reads.header]
  rfl

theorem inboxPath_injective : Function.Injective inboxPath := by
  intro group group' same
  exact append_cancel_left (append_cancel_right same)

theorem digestValue_injective {body body' : Bytes}
    (noCollision : Sha256.digest body = Sha256.digest body' → body = body')
    (same : digestValue body = digestValue body') : body = body' := by
  have codes := congrArg String.ofList (append_cancel_left same)
  rw [String.ofList_toList, String.ofList_toList] at codes
  have bytes := congrArg standard.decode codes
  rw [decode_encode, decode_encode, Option.some.injEq] at bytes
  exact noCollision (FixedBytes.toBytes_injective bytes)

/-- A signature covers group, host, date and body of one request only, exactly if the
requests that carry it list the same names in the same order. -/
theorem signature_covers_one_request_iff {rsa : Rsa} {json : JsonLib} {web₁ web₂ : Web}
    {cache₁ cache₂ : PubKeyCache} {r₁ r₂ : InboxRequest} {key : rsa.PublicKey} {sigBytes : Bytes}
    (first : VerifiedUnder rsa json web₁ cache₁ r₁ key sigBytes)
    (second : VerifiedUnder rsa json web₂ cache₂ r₂ key sigBytes)
    (oneMessage : ∀ sig m m', rsa.tryFrom sigBytes = .ok sig → rsa.verify key m sig = .ok () →
      rsa.verify key m' sig = .ok () → m = m')
    (noCollision : Sha256.digest r₁.body = Sha256.digest r₂.body → r₁.body = r₂.body) :
    (r₁.groupName = r₂.groupName ∧ readHeader r₁ hostName = readHeader r₂ hostName ∧
      readHeader r₁ dateName = readHeader r₂ dateName ∧ r₁.body = r₂.body) ↔
      signedNames r₁ = signedNames r₂ := by
  obtain ⟨spec₁, sig, names₁, target, host, date, digest, isSig, verifies₁⟩ := first.signed
  obtain ⟨spec₂, sig', names₂, target₂, -, -, -, isSig', verifies₂⟩ := second.signed
  obtain rfl : sig = sig' := Except.ok.inj (isSig.symm.trans isSig')
  have joined := asBytes_injective (oneMessage sig _ _ isSig verifies₁ verifies₂)
  have nonempty : ∀ {spec : Chars} {line : Chars → Chars}, requestTarget ∈ spec.words →
      spec.words.map line ≠ [] := by
    intro spec line mem none
    rw [map_eq_nil_iff] at none
    rw [none] at mem
    cases mem
  have same := marked_eq_of_intercalate (nonempty target) (nonempty target₂) joined
  rw [names₁, names₂]
  constructor
  · rintro ⟨group, -⟩
    rw [group] at same
    exact names_eq_of_marked (List.Subset.refl _) (List.Subset.refl _) same
  · intro names
    have lines := lines_eq_of_marked names target same
    rw [← names, map_inj_left] at lines
    -- Lines of the same name are the same, so what they say of it is.
    have values : ∀ name ∈ spec₁.words,
        signedValue post (inboxPath r₁.groupName) r₁.headers r₁.body name =
          signedValue post (inboxPath r₂.groupName) r₂.headers r₂.body name := by
      intro name listed
      have line := append_cancel_left (lines name listed)
      exact (cons.inj (cons.inj line).2).2
    refine ⟨?_, values hostName host, values dateName date, ?_⟩
    · have path := append_cancel_left (values requestTarget target)
      exact inboxPath_injective (cons.inj path).2
    · exact digestValue_injective noCollision (values digestName digest)

def isVisibleChar (c : Char) : Bool := (32 ≤ c.toNat && c.toNat < 127) || c == '\t'

theorem utf8EncodeChar_of_visible {c : Char} (visible : isVisibleChar c = true) :
    String.utf8EncodeChar c = [UInt8.ofNat c.toNat] := by
  have small : c.toNat ≤ 127 := by
    simp only [isVisibleChar, Bool.or_eq_true, Bool.and_eq_true, decide_eq_true_eq, beq_iff_eq]
      at visible
    rcases visible with ⟨-, below⟩ | rfl
    · omega
    · decide
  simp only [String.utf8EncodeChar, Char.toNat_val, if_pos small]

theorem isVisible_ofNat {c : Char} (visible : isVisibleChar c = true) :
    isVisible (UInt8.ofNat c.toNat) = true ∧ Char.ofNat (UInt8.ofNat c.toNat).toNat = c := by
  simp only [isVisibleChar, Bool.or_eq_true, Bool.and_eq_true, decide_eq_true_eq, beq_iff_eq]
    at visible
  rcases visible with ⟨above, below⟩ | rfl
  · have same : (UInt8.ofNat c.toNat).toNat = c.toNat := Text.toNat_ofNat_of_lt (by omega)
    refine ⟨?_, by rw [same, Char.ofNat_toNat]⟩
    simp only [isVisible, Bool.or_eq_true, Bool.and_eq_true, decide_eq_true_eq, UInt8.le_iff_toNat_le,
      UInt8.lt_iff_toNat_lt, same]
    exact .inl ⟨above, below⟩
  · decide

theorem asBytes_of_visible {cs : Chars} (visible : ∀ c ∈ cs, isVisibleChar c = true) :
    cs.asBytes = cs.map fun c => UInt8.ofNat c.toNat := by
  induction cs with
  | nil => rfl
  | cons c cs ih =>
    rw [forall_mem_cons] at visible
    have rest := ih visible.2
    rw [asBytes] at rest ⊢
    rw [flatMap_cons, utf8EncodeChar_of_visible visible.1, rest]
    rfl

theorem isVisible_asBytes {cs : Chars} (visible : ∀ c ∈ cs, isVisibleChar c = true) :
    cs.asBytes.all isVisible = true := by
  rw [asBytes_of_visible visible, all_map, all_eq_true]
  exact fun c mem => (isVisible_ofNat (visible c mem)).1

theorem toStr_asBytes {cs : Chars} (visible : ∀ c ∈ cs, isVisibleChar c = true) :
    toStr cs.asBytes = some cs := by
  have back : cs.asBytes.map (fun b => Char.ofNat b.toNat) = cs := by
    rw [asBytes_of_visible visible, map_map]
    exact (map_congr_left fun c mem => (isVisible_ofNat (visible c mem)).2).trans (map_id cs)
  rw [toStr, if_pos (isVisible_asBytes visible), back]

theorem str_of_get {headers : HeaderMap} {name text : Chars}
    (got : headers.get name = some text.asBytes) (visible : ∀ c ∈ text, isVisibleChar c = true) :
    headers.str name = some text := by
  rw [HeaderMap.str, got, Option.bind_some, toStr_asBytes visible]

def renderParam (param : Chars × Chars) : Chars := param.1 ++ '=' :: '"' :: param.2 ++ ['"']

def renderParams (params : List (Chars × Chars)) : Chars :=
  List.intercalate [','] (params.map renderParam)

/-- Names are words without separators, and values are without quotes. -/
structure PlainParam (param : Chars × Chars) : Prop where
  name : ∀ c ∈ param.1, c ≠ '"' ∧ c ≠ ',' ∧ c ≠ '=' ∧ Text.isWhitespace c = false
  value : '"' ∉ param.2

theorem splitSigParams_append {inQuotes : Bool} {part text : Chars} (rest : Chars)
    (plain : ∀ c ∈ text, c ≠ '"' ∧ (c = ',' → inQuotes = true)) :
    splitSigParams inQuotes part (text ++ rest) = splitSigParams inQuotes (part ++ text) rest := by
  induction text generalizing part with
  | nil => simp
  | cons c text ih =>
    rw [forall_mem_cons] at plain
    have inside : ¬(c = ',' ∧ inQuotes = false) := by
      rintro ⟨comma, outside⟩
      rw [plain.1.2 comma] at outside
      cases outside
    rw [cons_append, splitSigParams, if_neg plain.1.1, if_neg inside, ih plain.2]
    simp

variable {param : Chars × Chars}

theorem splitSigParams_renderParam (plain : PlainParam param) (part rest : Chars) :
    splitSigParams false part (renderParam param ++ rest) =
      splitSigParams false (part ++ renderParam param) rest := by
  have quote (q : Bool) (part rest : Chars) : splitSigParams q part ('"' :: rest) =
      splitSigParams (!q) (part ++ ['"']) rest := by
    rw [splitSigParams, if_pos rfl]
  have shape : renderParam param ++ rest =
      (param.1 ++ ['=']) ++ ('"' :: (param.2 ++ ('"' :: rest))) := by
    simp [renderParam]
  rw [shape, splitSigParams_append, quote, Bool.not_false, splitSigParams_append, quote,
    Bool.not_true]
  · simp [renderParam]
  · exact fun c mem => ⟨fun same => plain.value (same ▸ mem), fun _ => rfl⟩
  · intro c mem
    rcases mem_append.mp mem with inName | last
    · exact ⟨(plain.name c inName).1, fun comma => absurd comma (plain.name c inName).2.1⟩
    · rw [mem_singleton] at last
      subst last
      exact ⟨by decide, by decide⟩

theorem splitSigParams_renderParams {params : List (Chars × Chars)}
    (plain : ∀ p ∈ param :: params, PlainParam p) :
    splitSigParams false [] (renderParams (param :: params)) = (param :: params).map renderParam := by
  induction params generalizing param with
  | nil =>
    have := splitSigParams_renderParam (plain param mem_cons_self) [] []
    rw [append_nil, nil_append] at this
    rw [renderParams, map_singleton, intercalate_singleton, this]
    rfl
  | cons next params ih =>
    rw [forall_mem_cons] at plain
    rw [renderParams, map_cons, map_cons, intercalate_cons_cons, append_assoc,
      splitSigParams_renderParam plain.1, singleton_append, splitSigParams,
      if_neg (by decide), if_pos ⟨rfl, rfl⟩, nil_append, ← map_cons, ← renderParams,
      ih plain.2, map_cons]

theorem trim_renderParam (plain : PlainParam param) : trim (renderParam param) = renderParam param := by
  apply trimMatches_eq_self
  · intro c start
    rcases name : param.1 with _ | ⟨d, more⟩
    · simp only [renderParam, name, nil_append, cons_append, head?_cons,
        Option.mem_some_iff] at start
      subst start
      decide
    · simp only [renderParam, name, cons_append, head?_cons, Option.mem_some_iff] at start
      subst start
      exact (plain.name d (by rw [name]; exact mem_cons_self)).2.2.2
  · intro c last
    simp only [renderParam, getLast?_append, getLast?_singleton, Option.some_or,
      Option.mem_some_iff] at last
    subst last
    decide

theorem dropPrefix_renderParam (plain : PlainParam param) {name : String} (word : '=' ∉ name.toList) :
    (renderParam param).dropPrefix? (name ++ "=").toList =
      if name.toList = param.1 then some ('"' :: param.2 ++ ['"']) else none := by
  have key : (name ++ "=").toList = name.toList ++ ['='] := by simp
  have noEq : '=' ∉ param.1 := fun mem => (plain.name '=' mem).2.2.1 rfl
  rw [key]
  split
  · next same =>
    rw [dropPrefix?_eq_some_iff]
    refine ⟨name.toList ++ ['='], ?_, by simp⟩
    simp [renderParam, same]
  · next other =>
    rw [Option.eq_none_iff_forall_ne_some]
    intro rest found
    obtain ⟨start, text, same⟩ := dropPrefix?_eq_some_iff.mp found
    rw [beq_iff_eq] at same
    subst same
    have cut := append_eq_of_count (x := '=') (a := param.1) (b := name.toList)
      (by simpa [renderParam] using text)
      ((count_eq_zero.mpr noEq).trans (count_eq_zero.mpr word).symm) (by simp [Ends])
      (by simp [Ends])
    exact other cut.1.symm

theorem parseSigParam_renderParams {params : List (Chars × Chars)}
    (plain : ∀ p ∈ param :: params, PlainParam p) {name : String} (word : '=' ∉ name.toList) :
    parseSigParam (renderParams (param :: params)) name = (param :: params).lookup name.toList := by
  rw [parseSigParam, splitSigParams_renderParams plain]
  generalize param :: params = all at plain
  induction all with
  | nil => rfl
  | cons p all ih =>
    rw [forall_mem_cons] at plain
    rw [map_cons, findSome?_cons, trim_renderParam plain.1,
      dropPrefix_renderParam plain.1 word, lookup_cons]
    by_cases same : name.toList = p.1
    · rw [if_pos same, Option.map_some, trimMatches_quoted plain.1.value]
      simp [same]
    · rw [if_neg same, Option.map_none, ih plain.2, beq_eq_false_iff_ne.mpr same]

def Accepts (rsa : Rsa) (json : JsonLib) (web : Web) (cache : PubKeyCache) (path : Chars)
    (headers : HeaderMap) (body : Bytes) : Prop :=
  ∃ actor, ((verifyHttpSignature rsa json web post path headers body).exec cache).1 = .ok actor

/-- The headers with a `Digest` header. -/
def HeaderMap.withDigest (headers : HeaderMap) (value : Bytes) : HeaderMap where
  entries := (digestName, value) :: headers.entries
  named := by rw [all_cons, headers.named]; rfl

theorem str_withDigest (headers : HeaderMap) (value : Bytes) :
    (headers.withDigest value).str digestName = toStr value := by
  have here : (headers.withDigest value).get digestName = some value := rfl
  rw [HeaderMap.str, here, Option.bind_some]

theorem str_withDigest_of_ne {headers : HeaderMap} {value : Bytes} {name : Chars}
    (other : digestName ≠ name.toLower) : (headers.withDigest value).str name = headers.str name := by
  simp [HeaderMap.str, HeaderMap.get, HeaderMap.withDigest, find?_cons_of_neg, other]

theorem digest_of_accepts {rsa : Rsa} {json : JsonLib} {web : Web} {cache : PubKeyCache}
    {path : Chars} {headers : HeaderMap} {body : Bytes}
    (accepts : Accepts rsa json web cache path headers body) :
    headers.str digestName = some (digestValue body) := by
  obtain ⟨actor, accepted⟩ := accepts
  obtain ⟨request, pem, read, -⟩ := verifyHttpSignature_eq_ok.mp accepted
  obtain ⟨sigHeader, reads⟩ := readSignature_eq_ok.mp read
  obtain ⟨-, -, -, digest⟩ := enforceMinimumSignedHeaders_eq_ok.mp reads.minimum
  exact (buildSignedString_eq_ok.mp reads.signed).1 (digest (.inl (by decide)))

theorem asBytes_of_toStr {value : Bytes} {text : Chars} (read : toStr value = some text) :
    text.asBytes = value := by
  unfold toStr at read
  split at read
  · next visible =>
    cases read
    rw [all_eq_true] at visible
    induction value with
    | nil => rfl
    | cons b value ih =>
      rw [forall_mem_cons] at visible
      have small : b.toNat ≤ 127 := by
        have shown := visible.1
        simp only [isVisible, Bool.or_eq_true, Bool.and_eq_true, decide_eq_true_eq, beq_iff_eq,
          UInt8.lt_iff_toNat_lt] at shown
        rcases shown with ⟨-, below⟩ | rfl
        · exact below.le
        · decide
      have code : (Char.ofNat b.toNat).toNat = b.toNat :=
        Text.toNat_ofNat_of_valid (.inl (by omega))
      have rest := ih visible.2
      rw [asBytes] at rest ⊢
      rw [map_cons, flatMap_cons, rest]
      simp only [String.utf8EncodeChar, Char.toNat_val, code, if_pos small, UInt8.ofNat_toNat]
      rfl
  · cases read

theorem extractHost_takeWhile {url host : Chars} (found : extractHost url = some host) :
    extractHost (url.takeWhile (· != '#')) = some host := by
  obtain ⟨rest, scheme, named⟩ := Option.bind_eq_some_iff.mp found
  have inner : authorityOf (rest.takeWhile (· != '#')) = authorityOf rest := by
    rw [authorityOf, authorityOf, takeWhile_takeWhile]
    congr 1
    funext c
    rw [Bool.eq_iff_iff]
    simp
  have outer : withoutScheme (url.takeWhile (· != '#')) = some (rest.takeWhile (· != '#')) := by
    rcases Option.or_eq_some_iff.mp scheme with secure | ⟨-, plain⟩
    · obtain ⟨start, rfl, same⟩ := dropPrefix?_eq_some_iff.mp secure
      rw [beq_iff_eq] at same
      subst same
      simp [withoutScheme, dropPrefix?]
    · obtain ⟨start, rfl, same⟩ := dropPrefix?_eq_some_iff.mp plain
      rw [beq_iff_eq] at same
      subst same
      simp [withoutScheme, dropPrefix?]
  rw [extractHost, outer, Option.bind_some, inner]
  exact named

/-- What the names of a key and of a host have to be like: an `http` or `https` URL without
quotes, and visible characters. -/
structure PlainDelivery {rsa : Rsa} (key : RsaActorKey rsa) (host date : Chars) : Prop where
  keyIdVisible : ∀ c ∈ key.keyId, isVisibleChar c = true
  keyIdPlain : '"' ∉ key.keyId
  keyIdUrl : (extractHost key.keyId).isSome = true
  hostVisible : ∀ c ∈ host, isVisibleChar c = true
  dateVisible : ∀ c ∈ date, isVisibleChar c = true

def sigParams (keyId spec sigB64 : Chars) : List (Chars × Chars) :=
  [("keyId".toList, keyId), ("algorithm".toList, "rsa-sha256".toList), ("headers".toList, spec),
    ("signature".toList, sigB64)]

def postSpec : Chars := "(request-target) host date digest".toList

theorem signPost_eq {rsa : Rsa} (key : RsaActorKey rsa) (host path date : Chars) (body : Bytes) :
    key.signPost host path date body = renderParams (sigParams key.keyId postSpec
      (standard.encode (key.sign (postSignedString host path date body).asBytes)).toList) := by
  have first : "keyId=\"".toList = "keyId".toList ++ ['=', '"'] := by decide
  have second : "\",algorithm=\"rsa-sha256\",headers=\"".toList =
      ['"', ','] ++ "algorithm".toList ++ ['=', '"'] ++ "rsa-sha256".toList ++ ['"', ','] ++
        "headers".toList ++ ['=', '"'] := by decide
  have third : "\",signature=\"".toList = ['"', ','] ++ "signature".toList ++ ['=', '"'] := by decide
  unfold RsaActorKey.signPost renderParams sigParams postSpec
  simp only [first, second, third, renderParam, map_cons, map_nil,
    intercalate_cons_cons, intercalate_singleton, append_assoc, cons_append,
    nil_append]

theorem isVisibleChar_of_mem_encode {b : Bytes} {c : Char}
    (mem : c ∈ (standard.encode b).toList) : isVisibleChar c = true ∧ c ≠ '"' := by
  have symbols : Base64.standard.symbols.all (fun c => isVisibleChar c && c != '"') = true := by
    decide
  rcases standard.mem_encode mem with symbol | rfl
  · simpa using all_eq_true.mp symbols c symbol
  · decide

theorem plain_sigParams {keyId spec sigB64 : Chars} (keyPlain : '"' ∉ keyId) (specPlain : '"' ∉ spec)
    (sigPlain : '"' ∉ sigB64) : ∀ p ∈ sigParams keyId spec sigB64, PlainParam p := by
  have word : ∀ cs : Chars, cs.all (fun c => c != '"' && c != ',' && c != '=' &&
      !Text.isWhitespace c) = true →
      ∀ c ∈ cs, c ≠ '"' ∧ c ≠ ',' ∧ c ≠ '=' ∧ Text.isWhitespace c = false := by
    intro cs all c mem
    simpa [and_assoc] using all_eq_true.mp all c mem
  simp only [sigParams, forall_mem_cons, not_mem_nil, false_implies, implies_true, and_true]
  refine ⟨⟨word "keyId".toList (by decide), keyPlain⟩, ⟨word "algorithm".toList (by decide), ?_⟩,
    ⟨word "headers".toList (by decide), specPlain⟩, ⟨word "signature".toList (by decide), sigPlain⟩⟩
  decide

theorem visible_renderParams {params : List (Chars × Chars)}
    (visible : ∀ p ∈ params, (∀ c ∈ p.1, isVisibleChar c = true) ∧ ∀ c ∈ p.2, isVisibleChar c = true) :
    ∀ c ∈ renderParams params, isVisibleChar c = true := by
  have one : ∀ p ∈ params, ∀ c ∈ renderParam p, isVisibleChar c = true := by
    intro p listed c mem
    simp only [renderParam, mem_append, mem_cons, not_mem_nil, or_false] at mem
    rcases mem with (inName | rfl | rfl | inValue) | rfl
    · exact (visible p listed).1 c inName
    · decide
    · decide
    · exact (visible p listed).2 c inValue
    · decide
  intro c mem
  unfold renderParams at mem
  induction params with
  | nil => cases mem
  | cons p params ih =>
    rw [forall_mem_cons] at visible one
    rcases params with _ | ⟨q, params⟩
    · exact one.1 c (by simpa using mem)
    · rw [map_cons, map_cons, intercalate_cons_cons, append_assoc,
        mem_append, singleton_append, mem_cons] at mem
      rcases mem with here | rfl | later
      · exact one.1 c here
      · decide
      · exact ih visible.2 one.2 later

theorem visible_sigParams {keyId spec sigB64 : Chars} (keyVisible : ∀ c ∈ keyId, isVisibleChar c = true)
    (specVisible : ∀ c ∈ spec, isVisibleChar c = true) (sigVisible : ∀ c ∈ sigB64, isVisibleChar c = true) :
    ∀ c ∈ renderParams (sigParams keyId spec sigB64), isVisibleChar c = true := by
  have text : ∀ cs : Chars, cs.all isVisibleChar = true → ∀ c ∈ cs, isVisibleChar c = true :=
    fun cs all => all_eq_true.mp all
  apply visible_renderParams
  simp only [sigParams, forall_mem_cons, not_mem_nil, false_implies, implies_true, and_true]
  exact ⟨⟨text "keyId".toList (by decide), keyVisible⟩,
    ⟨text "algorithm".toList (by decide), text "rsa-sha256".toList (by decide)⟩,
    ⟨text "headers".toList (by decide), specVisible⟩, ⟨text "signature".toList (by decide), sigVisible⟩⟩

theorem visible_digestValue (body : Bytes) : ∀ c ∈ digestValue body, isVisibleChar c = true := by
  intro c mem
  rcases mem_append.mp mem with label | code
  · have all : "SHA-256=".toList.all isVisibleChar = true := by decide
    exact all_eq_true.mp all c label
  · exact (isVisibleChar_of_mem_encode code).1

theorem reads_sigParams {path keyId keyHost spec sigB64 : Chars} {headers : HeaderMap} {body : Bytes}
    (plain : ∀ p ∈ sigParams keyId spec sigB64, PlainParam p) (hasHost : extractHost keyId = some keyHost)
    (sigRead : headers.str signatureName = some (renderParams (sigParams keyId spec sigB64)))
    (minimum : enforceMinimumSignedHeaders spec post = .ok ())
    (digestRead : headers.str digestName = some (digestValue body)) :
    Reads post path headers body (renderParams (sigParams keyId spec sigB64))
      ⟨keyId, keyId.takeWhile (· != '#'),
        intercalate ['\n'] (spec.words.map (signedLine post path headers body)), sigB64⟩ := by
  have listed : signedHeadersSpec (renderParams (sigParams keyId spec sigB64)) = spec := by
    have read : parseSigParam (renderParams (sigParams keyId spec sigB64)) "headers" = some spec :=
      (parseSigParam_renderParams plain (by decide)).trans rfl
    rw [signedHeadersSpec, read, Option.getD_some]
  refine ⟨sigRead, (parseSigParam_renderParams plain (by decide)).trans rfl,
    (parseSigParam_renderParams plain (by decide)).trans rfl, ?_, ?_, rfl, ?_⟩
  · rw [listed]
    exact minimum
  · rw [listed, buildSignedString_eq_ok]
    exact ⟨fun _ => digestRead, rfl⟩
  · simp only [validateKeyidDomain, hasHost, extractHost_takeWhile hasHost]
    simp

theorem words_postSpec : postSpec.words = [requestTarget, hostName, dateName, digestName] := by
  decide

theorem signedLines_eq {host path date : Chars} {headers : HeaderMap} {body : Bytes}
    (hostRead : headers.str hostName = some host) (dateRead : headers.str dateName = some date) :
    intercalate ['\n'] ([requestTarget, hostName, dateName, digestName].map
      (signedLine post path headers body)) = postSignedString host path date body := by
  have target : "(request-target): post ".toList =
      requestTarget ++ [':', ' '] ++ toLower post ++ [' '] := by decide
  have second : "\nhost: ".toList = '\n' :: hostName ++ [':', ' '] := by decide
  have third : "\ndate: ".toList = '\n' :: dateName ++ [':', ' '] := by decide
  have fourth : "\ndigest: ".toList = '\n' :: digestName ++ [':', ' '] := by decide
  have names : hostName ≠ requestTarget ∧ hostName ≠ digestName ∧ dateName ≠ requestTarget ∧
      dateName ≠ digestName ∧ digestName ≠ requestTarget := by decide
  unfold postSignedString
  simp only [target, second, third, fourth, signedLine, signedValue, map_cons, map_nil,
    intercalate_cons_cons, intercalate_singleton, append_assoc, cons_append,
    nil_append, if_pos, if_neg names.1, if_neg names.2.1, if_neg names.2.2.1,
    if_neg names.2.2.2.1, if_neg names.2.2.2.2, hostRead, dateRead, Option.getD_some]

theorem postSpec_visible : ∀ c ∈ postSpec, isVisibleChar c = true ∧ c ≠ '"' := by
  have all : postSpec.all (fun c => isVisibleChar c && c != '"') = true := by decide
  simpa only [all_eq_true, Bool.and_eq_true, bne_iff_ne] using all

section Plain

variable {rsa : Rsa} {key : RsaActorKey rsa} {host date : Chars}

theorem visible_signPost (plain : PlainDelivery key host date) (path : Chars) (body : Bytes) :
    ∀ c ∈ key.signPost host path date body, isVisibleChar c = true := by
  rw [signPost_eq]
  exact visible_sigParams plain.keyIdVisible (fun c mem => (postSpec_visible c mem).1)
    fun c mem => (isVisibleChar_of_mem_encode mem).1

theorem isValueByte_asBytes {cs : Chars} (visible : ∀ c ∈ cs, isVisibleChar c = true) :
    cs.asBytes.all isValueByte = true := by
  refine all_eq_true.mpr fun b mem => ?_
  have shown := all_eq_true.mp (isVisible_asBytes visible) b mem
  simp only [isVisible, isValueByte, Bool.or_eq_true, Bool.and_eq_true, bne_iff_ne,
    decide_eq_true_eq] at shown ⊢
  exact shown.imp_left fun ⟨above, below⟩ => ⟨above, UInt8.ne_of_lt below⟩

theorem deliverOne_plain {inboxUrl path : Chars} (split : extractHostPath inboxUrl = (host, path))
    (plain : PlainDelivery key host date) (body : Bytes) : deliverOne (some key) body inboxUrl date =
      some ⟨path, deliveryHeaders (some key) body host path date, body⟩ := by
  have kind : (Chars.asBytes "application/activity+json".toList).all isValueByte = true :=
    isValueByte_asBytes (all_eq_true.mp (by decide))
  unfold deliverOne
  rw [split]
  refine if_pos ?_
  simp only [deliveryHeaders, Option.map_some, Option.toList_some, all_cons, all_nil, kind,
    isValueByte_asBytes plain.dateVisible, isValueByte_asBytes plain.hostVisible,
    isValueByte_asBytes (visible_signPost plain path body), Bool.and_self]

end Plain

/-- A delivery is never accepted as it is sent: the verifier wants a `Digest` header. Given
one, the delivery is accepted exactly with the digest of its body. -/
theorem delivery_accepted_iff_digest {rsa : Rsa} {key : RsaActorKey rsa} {body : Bytes}
    {inboxUrl date : Chars} {delivery : Delivery} (json : JsonLib) (web : Web) (cache : PubKeyCache)
    (sent : deliverOne (some key) body inboxUrl date = some delivery) :
    ¬ Accepts rsa json web cache delivery.path delivery.headers delivery.body ∧
    (PlainDelivery key (extractHostPath inboxUrl).1 date →
      (∃ pem, ((publicKeyPem json web key.keyId (key.keyId.takeWhile (· != '#'))).exec cache).1 =
        .ok pem ∧ rsa.fromPkcs1Pem pem = .ok key.publicKey) →
      (∃ sig, rsa.tryFrom (key.sign (postSignedString (extractHostPath inboxUrl).1 delivery.path date
          body).asBytes) = .ok sig ∧
        rsa.verify key.publicKey (postSignedString (extractHostPath inboxUrl).1 delivery.path date
          body).asBytes sig = .ok ()) →
      ∀ value, Accepts rsa json web cache delivery.path (delivery.headers.withDigest value)
        delivery.body ↔ value = (digestValue body).asBytes) := by
  unfold deliverOne at sent
  rcases split : extractHostPath inboxUrl with ⟨host, path⟩
  simp only [split] at sent ⊢
  split at sent
  swap
  · cases sent
  cases sent
  constructor
  · intro accepts
    have digest := digest_of_accepts accepts
    have absent : (deliveryHeaders (some key) body host path date).get digestName = none := rfl
    rw [HeaderMap.str, absent] at digest
    cases digest
  rintro plain ⟨pem, served, keyed⟩ ⟨sig, isSig, verifies⟩ value
  constructor
  · intro accepts
    have digest := digest_of_accepts accepts
    rw [str_withDigest] at digest
    exact (asBytes_of_toStr digest).symm
  rintro rfl
  obtain ⟨keyHost, hasHost⟩ := Option.isSome_iff_exists.mp plain.keyIdUrl
  set headers := (deliveryHeaders (some key) body host path date).withDigest
    (digestValue body).asBytes with isHeaders
  -- What the verifier reads from the headers.
  have hostRead : headers.str hostName = some host :=
    (str_withDigest_of_ne (by decide)).trans (toStr_asBytes plain.hostVisible)
  have dateRead : headers.str dateName = some date :=
    (str_withDigest_of_ne (by decide)).trans (toStr_asBytes plain.dateVisible)
  have digestRead : headers.str digestName = some (digestValue body) :=
    (str_withDigest _ _).trans (toStr_asBytes (visible_digestValue body))
  obtain ⟨sigB64, isB64⟩ : ∃ sigB64, sigB64 = (standard.encode (key.sign
    (postSignedString host path date body).asBytes)).toList := ⟨_, rfl⟩
  have sigChars : ∀ {c}, c ∈ sigB64 → c ≠ '"' := by
    rw [isB64]
    exact fun mem => (isVisibleChar_of_mem_encode mem).2
  have params := plain_sigParams plain.keyIdPlain (fun mem => (postSpec_visible _ mem).2 rfl)
    (fun mem => sigChars mem rfl)
  have sigRead : headers.str signatureName =
      some (renderParams (sigParams key.keyId postSpec sigB64)) := by
    rw [isB64, ← signPost_eq key host path date body]
    exact (str_withDigest_of_ne (by decide)).trans (toStr_asBytes (visible_signPost plain path body))
  have reads := @reads_sigParams path _ _ _ _ headers body params hasHost sigRead
    (by rw [enforceMinimumSignedHeaders_eq_ok, words_postSpec]; simp) digestRead
  rw [words_postSpec, signedLines_eq hostRead dateRead] at reads
  refine ⟨_, verifyHttpSignature_eq_ok.mpr ⟨_, pem, readSignature_eq_ok.mpr ⟨_, reads⟩, served, ?_,
    rfl⟩⟩
  refine verifyRsaSha256_eq_ok.mpr ⟨_, key.publicKey, sig, ?_, keyed, isSig, verifies⟩
  rw [isB64, String.ofList_toList, decode_encode]

/-! A signature that fits two requests. The second has a group name with a line feed, and
does not list the header that this line feed makes room for. -/

namespace Sample

def pem : Chars :=
  "-----BEGIN RSA PUBLIC KEY-----\n".toList ++
    "MEgCQQDoH2hCjjKGBTZhKG5wqsYzEmE5".toList ++ "9ULKqnO1sAjVjDNE7/KZpiztwECCgPE9\n".toList ++
    "lS2tjy8kpQmbCMRTMrAg2vjpe7GNAgMBAAE=\n".toList ++ "-----END RSA PUBLIC KEY-----\n".toList

def publicKey : Nat × Nat :=
  (0xe81f68428e3286053661286e70aac633126139f542caaa73b5b008d58c3344eff299a62cedc0408280f13d952dad8f2f24a5099b08c45332b020daf8e97bb18d,
    65537)

def rsa (message sigBytes : Bytes) : Rsa where
  PublicKey := Nat × Nat
  Signature := Bytes
  fromPkcs1Pem text := if text = pem then .ok publicKey else .error "PEM"
  tryFrom bytes := .ok bytes
  verify key m sig :=
    if key = publicKey ∧ m = message ∧ sig = sigBytes then .ok () else .error "verification error"

theorem verify_eq_ok {message sigBytes m sig : Bytes} {key : Nat × Nat} :
    (rsa message sigBytes).verify key m sig = .ok () ↔ key = publicKey ∧ m = message ∧ sig = sigBytes := by
  simp [rsa]

theorem fromPkcs1Pem_pem (message sigBytes : Bytes) :
    (rsa message sigBytes).fromPkcs1Pem pem = .ok publicKey := by
  simp only [rsa, if_true]

def json : JsonLib := ⟨fun _ => .error "expected value", fun _ => []⟩

def web : Web := ⟨1000, fun _ => .failed "unreachable"⟩

def keyId : Chars := "https://s.example/a#k".toList

def cache : PubKeyCache := AList.singleton keyId (pem, 0)

def body : Bytes := [0x7b, 0x7d]

def sigBytes : Bytes :=
  [28, 145, 227, 146, 100, 86, 251, 87, 95, 170, 225, 82, 92, 154, 65, 73, 237, 77, 178, 206, 197, 82,
    158, 237, 133, 128, 207, 89, 143, 53, 238, 171, 150, 247, 153, 15, 156, 156, 187, 165, 176, 60,
    28, 236, 128, 9, 38, 177, 140, 130, 244, 167, 172, 169, 162, 122, 231, 205, 239, 2, 80, 179, 1,
    199]

def headers (body sigBytes : Bytes) (spec : Chars) (more : List (Chars × Bytes))
    (named : more.all (fun entry => entry.1.all isNameChar) = true) : HeaderMap where
  entries := (hostName, Chars.asBytes "h.example".toList) ::
    (dateName, Chars.asBytes "Thu, 01 Jan 2026 00:00:00 GMT".toList) ::
    (digestName, (digestValue body).asBytes) ::
    (signatureName, (renderParams (sigParams keyId spec
      (Base64.standard.encode sigBytes).toList)).asBytes) :: more
  named := named

def signedText (r : InboxRequest) (spec : Chars) : Chars :=
  List.intercalate ['\n'] (spec.words.map (signedLine post (inboxPath r.groupName) r.headers r.body))

section Accepted

variable {group spec : Chars} {body sigBytes message : Bytes} {more : List (Chars × Bytes)}
  {named : more.all (fun entry => entry.1.all isNameChar) = true} {reader : JsonLib}
  (plain : spec.all (fun c => isVisibleChar c && c != '"') = true)
  (minimum : enforceMinimumSignedHeaders spec post = .ok ())

include plain minimum in
theorem read_headers : readSignature post (inboxPath group) (headers body sigBytes spec more named)
    body = .ok ⟨keyId, keyId.takeWhile (· != '#'),
      signedText ⟨group, headers body sigBytes spec more named, body⟩ spec,
      (standard.encode sigBytes).toList⟩ := by
  have keyPlain : keyId.all (fun c => isVisibleChar c && c != '"') = true := by decide
  simp only [all_eq_true, Bool.and_eq_true, bne_iff_ne] at plain keyPlain
  have host : extractHost keyId = some "s.example".toList := by decide
  have sigRead := @str_of_get (headers body sigBytes spec more named) signatureName _ rfl
    (visible_sigParams (fun c mem => (keyPlain c mem).1) (fun c mem => (plain c mem).1)
      fun c mem => (isVisibleChar_of_mem_encode mem).1)
  exact readSignature_eq_ok.mpr ⟨_, reads_sigParams (plain_sigParams
    (fun mem => (keyPlain _ mem).2 rfl) (fun mem => (plain _ mem).2 rfl)
    fun mem => (isVisibleChar_of_mem_encode mem).2 rfl) host sigRead minimum
    (str_of_get rfl (visible_digestValue body))⟩

theorem served_key (actorUrl : Chars) :
    ((publicKeyPem reader web keyId actorUrl).exec cache).1 = .ok pem := by
  have found : cache.lookup keyId = some (pem, 0) := dlookup_cons_eq _ _ _
  have cached : cachedPem cache web.nowMs keyId = some pem := by
    simp only [cachedPem, found]
    exact if_pos (by decide)
  simp only [publicKeyPem, Prog.exec_ofExec, cached]

include plain minimum in
theorem verify_headers
    (text : (signedText ⟨group, headers body sigBytes spec more named, body⟩ spec).asBytes = message) :
    ((verifyHttpSignature (rsa message sigBytes) reader web post (inboxPath group)
      (headers body sigBytes spec more named) body).exec cache).1 =
        .ok (keyId.takeWhile (· != '#')) := by
  refine verifyHttpSignature_eq_ok.mpr ⟨_, pem, read_headers plain minimum, served_key _, ?_, rfl⟩
  refine verifyRsaSha256_eq_ok.mpr ⟨sigBytes, _, _, ?_, fromPkcs1Pem_pem _ _, rfl,
    verify_eq_ok.mpr ⟨rfl, text, rfl⟩⟩
  rw [String.ofList_toList, decode_encode]

include plain minimum in
theorem verifiedUnder
    (text : (signedText ⟨group, headers body sigBytes spec more named, body⟩ spec).asBytes = message) :
    VerifiedUnder (rsa message sigBytes) json web cache
      ⟨group, headers body sigBytes spec more named, body⟩ publicKey sigBytes := by
  refine ⟨⟨_, verify_headers plain minimum text⟩,
    ⟨_, pem, read_headers plain minimum, served_key _, fromPkcs1Pem_pem _ _, ?_⟩⟩
  rw [String.ofList_toList, decode_encode]

end Accepted

def longSpec : Chars := "(request-target) x host date digest".toList

/-- The request that was signed; it lists a header `x`. -/
def signed : InboxRequest :=
  ⟨"a".toList, headers body sigBytes longSpec [("x".toList, Chars.asBytes "y/inbox".toList)] rfl, body⟩

def repeated : InboxRequest :=
  ⟨"a".toList, headers body sigBytes longSpec [("x".toList, Chars.asBytes "y/inbox".toList),
    ("accept".toList, Chars.asBytes "*/*".toList)] rfl, body⟩

theorem named_nil : ([] : List (Chars × Bytes)).all (fun entry => entry.1.all isNameChar) = true := rfl

/-- Another group, whose name brings the line of `x` with it. -/
def moved : InboxRequest :=
  ⟨"a/inbox\nx: y".toList, headers body sigBytes postSpec [] named_nil, body⟩

def message : Bytes := (signedText signed longSpec).asBytes

theorem longSpec_plain : longSpec.all (fun c => isVisibleChar c && c != '"') = true := by
  decide

theorem longSpec_minimum : enforceMinimumSignedHeaders longSpec post = .ok () := by
  decide

theorem postSpec_plain : postSpec.all (fun c => isVisibleChar c && c != '"') = true := by
  decide

theorem postSpec_minimum : enforceMinimumSignedHeaders postSpec post = .ok () := by
  decide

theorem verified_signed : VerifiedUnder (rsa message sigBytes) json web cache signed publicKey sigBytes :=
  verifiedUnder longSpec_plain longSpec_minimum rfl

theorem words_longSpec :
    longSpec.words = [requestTarget, "x".toList, hostName, dateName, digestName] := by
  decide

theorem text_repeated : signedText repeated longSpec = signedText signed longSpec := by
  simp only [signedText, words_longSpec, map_cons, map_nil]
  rfl

theorem verified_repeated :
    VerifiedUnder (rsa message sigBytes) json web cache repeated publicKey sigBytes :=
  verifiedUnder longSpec_plain longSpec_minimum (congrArg asBytes text_repeated)

theorem signedLine_headers {group group' spec spec' : Chars} {more more' : List (Chars × Bytes)}
    {named : more.all (fun entry => entry.1.all isNameChar) = true}
    {named' : more'.all (fun entry => entry.1.all isNameChar) = true} {body sigBytes : Bytes}
    {name : Chars} (listed : name ∈ [hostName, dateName, digestName]) :
    signedLine post (inboxPath group) (headers body sigBytes spec more named) body name =
      signedLine post (inboxPath group') (headers body sigBytes spec' more' named') body name := by
  have other : name ≠ requestTarget := by
    rintro rfl
    revert listed
    decide
  simp only [signedLine, signedValue, if_neg other]
  simp only [mem_cons, not_mem_nil, or_false] at listed
  rcases listed with rfl | rfl | rfl
  · rfl
  · rfl
  · simp only [if_true]

theorem text_moved : signedText moved postSpec = signedText signed longSpec := by
  -- The group name ends the line of the target and brings the line of `x`.
  have target : signedLine post (inboxPath moved.groupName) moved.headers moved.body requestTarget =
      signedLine post (inboxPath signed.groupName) signed.headers signed.body requestTarget ++
        '\n' :: signedLine post (inboxPath signed.groupName) signed.headers signed.body "x".toList := by
    decide
  have others : ∀ {name}, name ∈ [hostName, dateName, digestName] →
      signedLine post (inboxPath moved.groupName) moved.headers moved.body name =
        signedLine post (inboxPath signed.groupName) signed.headers signed.body name :=
    signedLine_headers
  simp only [signedText, words_longSpec, words_postSpec, map_cons, map_nil,
    intercalate_cons_cons, intercalate_singleton, target, append_assoc,
    cons_append, nil_append]
  simp only [others (.head _), others (.tail _ (.head _)), others (.tail _ (.tail _ (.head _)))]

/-- The signature of a request for one group is accepted for another group. -/
theorem signature_moves : VerifiedUnder (rsa message sigBytes) json web cache signed publicKey sigBytes ∧
      VerifiedUnder (rsa message sigBytes) json web cache moved publicKey sigBytes ∧
      signed.groupName ≠ moved.groupName :=
  ⟨verified_signed, verifiedUnder postSpec_plain postSpec_minimum (congrArg asBytes text_moved),
    by decide⟩

/-- Requests with the same list of names agree on what is signed. -/
theorem repeated_request_agrees :
    signedNames signed = signedNames repeated ∧ signed.groupName = repeated.groupName ∧
      readHeader signed hostName = readHeader repeated hostName ∧
      readHeader signed dateName = readHeader repeated dateName ∧ signed.body = repeated.body := by
  have agree := signature_covers_one_request_iff verified_signed verified_repeated
    (fun sig m m' _ first second =>
      (verify_eq_ok.mp first).2.1.trans (verify_eq_ok.mp second).2.1.symm) fun _ => rfl
  have names : signedNames signed = signedNames repeated := rfl
  exact ⟨names, agree.mpr names⟩

end Sample

namespace Sample

def deliverySig : Bytes :=
  [1, 3, 143, 54, 42, 114, 73, 247, 115, 30, 73, 16, 242, 190, 199, 163, 178, 151, 99, 17, 122, 254,
    169, 255, 206, 138, 35, 222, 153, 10, 220, 249, 169, 65, 47, 152, 59, 93, 39, 6, 120, 111, 62, 51,
    46, 221, 51, 130, 4, 45, 106, 194, 225, 226, 131, 80, 106, 244, 133, 120, 41, 16, 181, 46]

def inboxUrl : Chars := "https://h.example/ap/groups/a/inbox".toList

def date : Chars := "Thu, 01 Jan 2026 00:00:00 GMT".toList

def deliveredText : Chars :=
  postSignedString "h.example".toList "/ap/groups/a/inbox".toList date body

def signer : RsaActorKey (rsa deliveredText.asBytes deliverySig) where
  keyId := keyId
  publicKey := publicKey
  sign m := if m = deliveredText.asBytes then deliverySig else []

def delivery : Delivery :=
  ⟨"/ap/groups/a/inbox".toList, deliveryHeaders (some signer) body "h.example".toList
    "/ap/groups/a/inbox".toList date, body⟩

theorem split_inboxUrl : extractHostPath inboxUrl =
    ("h.example".toList, "/ap/groups/a/inbox".toList) := by
  decide

theorem plain_delivery : PlainDelivery signer "h.example".toList date := by
  have key : keyId.all (fun c => isVisibleChar c && c != '"') = true := by decide
  have host : "h.example".toList.all isVisibleChar = true := by decide
  have date : date.all isVisibleChar = true := by decide
  simp only [all_eq_true, Bool.and_eq_true, bne_iff_ne] at key host date
  exact ⟨fun c mem => (key c mem).1, fun mem => (key _ mem).2 rfl, by decide, host, date⟩

theorem delivered : deliverOne (some signer) body inboxUrl date = some delivery :=
  deliverOne_plain split_inboxUrl plain_delivery body

theorem signer_served : ∃ pem, ((publicKeyPem json web signer.keyId
    (signer.keyId.takeWhile (· != '#'))).exec cache).1 = .ok pem ∧
      (rsa deliveredText.asBytes deliverySig).fromPkcs1Pem pem = .ok signer.publicKey :=
  ⟨pem, served_key _, fromPkcs1Pem_pem _ _⟩

theorem signer_signs : ∃ sig,
    (rsa deliveredText.asBytes deliverySig).tryFrom (signer.sign deliveredText.asBytes) = .ok sig ∧
      (rsa deliveredText.asBytes deliverySig).verify signer.publicKey deliveredText.asBytes sig =
        .ok () := by
  have signs : signer.sign deliveredText.asBytes = deliverySig := by simp only [signer, if_true]
  exact ⟨deliverySig, congrArg Except.ok signs, verify_eq_ok.mpr ⟨rfl, rfl, rfl⟩⟩

/-- A delivery to a group inbox, under a key that is served, is refused. -/
theorem delivery_refused : deliverOne (some signer) body inboxUrl date = some delivery ∧
      delivery.path = inboxPath "a".toList ∧
      (∃ pem, ((publicKeyPem json web signer.keyId (signer.keyId.takeWhile (· != '#'))).exec
        cache).1 = .ok pem ∧
        (rsa deliveredText.asBytes deliverySig).fromPkcs1Pem pem = .ok signer.publicKey) ∧
      (∃ sig, (rsa deliveredText.asBytes deliverySig).tryFrom (signer.sign deliveredText.asBytes) =
        .ok sig ∧ (rsa deliveredText.asBytes deliverySig).verify signer.publicKey
          deliveredText.asBytes sig = .ok ()) ∧
      ¬ Accepts (rsa deliveredText.asBytes deliverySig) json web cache delivery.path delivery.headers
        delivery.body := by
  refine ⟨delivered, by decide, signer_served, signer_signs, ?_⟩
  intro accepts
  cases digest_of_accepts accepts

/-- With a `Digest` header the same delivery is accepted. -/
theorem delivery_accepted_with_digest :
    ¬ Accepts (rsa deliveredText.asBytes deliverySig) json web cache delivery.path delivery.headers
      delivery.body ∧ Accepts (rsa deliveredText.asBytes deliverySig) json web cache delivery.path
      (delivery.headers.withDigest (digestValue body).asBytes) delivery.body := by
  have both := delivery_accepted_iff_digest json web cache delivered
  rw [split_inboxUrl] at both
  exact ⟨both.1, (both.2 plain_delivery signer_served signer_signs _).mpr rfl⟩

end Sample

end Stoa.ActivityPub
