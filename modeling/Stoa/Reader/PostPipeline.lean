import Mathlib.Data.List.AList
import Stoa.Reader.Sign

/-! What happens to an article between the client's final dot and the answer: headers are rewritten
and checked, the article is signed, stored as blocks, mapped from its Message-ID and appended to the
logs of its groups. -/
namespace Stoa.Post

open Function List Text Prog Prog.ErrorsIn Response

inductive IpfsWriteError
  | notReachable (message : String)
  | writeFailed (message : String)
  | readFailed (message : String)
  | notFound (message : String)
  deriving DecidableEq, Repr

namespace IpfsWriteError

def toString : IpfsWriteError → String
  | notReachable message => "IPFS node not reachable: " ++ message
  | writeFailed message => "IPFS write failed: " ++ message
  | readFailed message => "IPFS read failed: " ++ message
  | notFound message => "IPFS block not found: " ++ message

/-- The `Debug` text. -/
def debug : IpfsWriteError → String
  | notReachable message => "NotReachable(" ++ MsgIdMap.debugStr message ++ ")"
  | writeFailed message => "WriteFailed(" ++ MsgIdMap.debugStr message ++ ")"
  | readFailed message => "ReadFailed(" ++ MsgIdMap.debugStr message ++ ")"
  | notFound message => "NotFound(" ++ MsgIdMap.debugStr message ++ ")"

end IpfsWriteError

/-- A block store with state `I`. -/
class IpfsBlockStore (I : Type) where
  putBlock : Cid → Bytes → Prog I IpfsWriteError Unit
  getRaw : Cid → Prog I IpfsWriteError Bytes
  /-- The block stored under a CID. -/
  block : I → Cid → Option Bytes
  /-- The next reads do not fail. -/
  Readable : I → Prop
  putBlock_ok : ∀ cid data s s', (putBlock cid data).exec s = (.ok (), s') →
    block s' = Function.update (block s) cid (some data)
  getRaw_ok : ∀ cid data s, Readable s → block s cid = some data →
    ∃ s', (getRaw cid).exec s = (.ok data, s') ∧ Readable s' ∧ block s' = block s

export IpfsBlockStore (putBlock getRaw block)

structure MemIpfsStore where
  blocks : AList fun _ : Bytes => Bytes
  faults : List (Option IpfsWriteError)

namespace MemIpfsStore

def new : MemIpfsStore := ⟨∅, []⟩

def putBlock (cid : Cid) (data : Bytes) : Prog MemIpfsStore IpfsWriteError Unit :=
  Prog.ofExec fun s => match s.faults with
    | some e :: rest => (.error e, { s with faults := rest })
    | none :: rest => (.ok (), ⟨s.blocks.insert cid.toBytes data, rest⟩)
    | [] => (.ok (), ⟨s.blocks.insert cid.toBytes data, []⟩)

def getRaw (cid : Cid) : Prog MemIpfsStore IpfsWriteError Bytes :=
  Prog.ofExec fun s => match s.blocks.lookup cid.toBytes with
    | some data => (.ok data, s)
    | none => (.error (.notFound cid.toString), s)

theorem lookup_insert (blocks : AList fun _ : Bytes => Bytes) (cid : Cid) (data : Bytes) :
    (fun c : Cid => (blocks.insert cid.toBytes data).lookup c.toBytes) =
      Function.update (fun c : Cid => blocks.lookup c.toBytes) cid (some data) := by
  funext c
  by_cases same : c = cid
  · subst same
    simp [AList.lookup_insert]
  · have differ : c.toBytes ≠ cid.toBytes := fun h => same (Cid.toBytes_injective h)
    simp [update_of_ne same, AList.lookup_insert_ne differ]

instance : IpfsBlockStore MemIpfsStore where
  putBlock := putBlock
  getRaw := getRaw
  block s cid := s.blocks.lookup cid.toBytes
  Readable _ := True
  putBlock_ok cid data s s' run := by
    rw [putBlock, Prog.exec_ofExec] at run
    split at run
    · cases run
    · cases run
      exact lookup_insert _ _ _
    · cases run
      exact lookup_insert _ _ _
  getRaw_ok cid data s _ stored := by
    refine ⟨s, ?_, trivial, rfl⟩
    rw [getRaw, Prog.exec_ofExec, stored]

end MemIpfsStore

section Blocks

variable {I : Type} [IpfsBlockStore I]

def putBlocks : List (Cid × Bytes) → Prog I IpfsWriteError Unit
  | [] => pure ()
  | (cid, data) :: rest => do
    putBlock cid data
    putBlocks rest

def NoCollision (blocks : List (Cid × Bytes)) : Prop :=
  ∀ b ∈ blocks, ∀ b' ∈ blocks, b.1 = b'.1 → b.2 = b'.2

instance (blocks : List (Cid × Bytes)) : Decidable (NoCollision blocks) :=
  inferInstanceAs (Decidable (∀ b ∈ blocks, ∀ b' ∈ blocks, b.1 = b'.1 → b.2 = b'.2))

variable {blocks : List (Cid × Bytes)}

theorem putBlocks_keeps {s s' : I} {cid : Cid} {data : Bytes}
    (run : (putBlocks blocks).exec s = (.ok (), s')) (stored : block s cid = some data)
    (free : ∀ b ∈ blocks, b.1 = cid → b.2 = data) : block s' cid = some data := by
  induction blocks generalizing s with
  | nil =>
    cases run
    exact stored
  | cons b rest ih =>
    obtain ⟨⟨⟩, mid, first, later⟩ := Prog.of_exec_bind_ok run
    rw [forall_mem_cons] at free
    refine ih later ?_ free.2
    rw [IpfsBlockStore.putBlock_ok _ _ _ _ first]
    by_cases same : cid = b.1
    · rw [same, update_self, free.1 same.symm]
    · rw [update_of_ne same, stored]

theorem putBlocks_stores {s s' : I}
    (run : (putBlocks blocks).exec s = (.ok (), s')) (free : NoCollision blocks) :
    ∀ b ∈ blocks, block s' b.1 = some b.2 := by
  induction blocks generalizing s with
  | nil => exact nofun
  | cons b rest ih =>
    obtain ⟨⟨⟩, mid, first, later⟩ := Prog.of_exec_bind_ok run
    have freeRest : NoCollision rest := fun x hx y hy =>
      free x (mem_cons_of_mem b hx) y (mem_cons_of_mem b hy)
    rw [forall_mem_cons]
    refine ⟨putBlocks_keeps later ?_ fun x hx same => ?_, ih later freeRest⟩
    · rw [IpfsBlockStore.putBlock_ok _ _ _ _ first, update_self]
    · exact free x (mem_cons_of_mem b hx) b mem_cons_self same

theorem putBlocks_only {s s' : I} {cid : Cid} {data : Bytes}
    (run : (putBlocks blocks).exec s = (.ok (), s')) (stored : block s' cid = some data) :
    block s cid = some data ∨ (cid, data) ∈ blocks := by
  induction blocks generalizing s with
  | nil =>
    cases run
    exact .inl stored
  | cons b rest ih =>
    obtain ⟨⟨⟩, mid, first, later⟩ := Prog.of_exec_bind_ok run
    rcases ih later with old | new
    · rw [IpfsBlockStore.putBlock_ok _ _ _ _ first] at old
      by_cases same : cid = b.1
      · rw [same, update_self, Option.some.injEq] at old
        exact .inr (mem_cons.mpr (.inl (Prod.ext same old.symm)))
      · rw [update_of_ne same] at old
        exact .inl old
    · exact .inr (mem_cons_of_mem b new)

theorem putBlocks_mem {s : MemIpfsStore} (faultless : s.faults = []) :
    ∃ s', (putBlocks blocks).exec s = (.ok (), s') ∧ s'.faults = [] := by
  induction blocks generalizing s with
  | nil => exact ⟨s, rfl, faultless⟩
  | cons b rest ih =>
    rcases s with ⟨stored, faults⟩
    obtain rfl : faults = [] := faultless
    obtain ⟨s', later, still⟩ := @ih ⟨stored.insert b.1.toBytes b.2, []⟩ rfl
    exact ⟨s', (Prog.exec_bind_ok _ rfl).trans later, still⟩

end Blocks

structure ServerConfig where
  signingKey : SigningKey
  pathHostname : String
  mailComplaintsTo : Option String
  maxClockSkewSecs : Option UInt64

structure ServerStores (S I : Type) where
  reader : Reader S
  msgidMap : MsgIdMap
  ipfsStore : I
  clock : HlcClock

structure Readings where
  messageIdSeed : MessageIdSeed
  injectionDateSecs : Int
  validateSecs : Int
  hlcMs : UInt64

structure PostRequest where
  articleBytes : Bytes
  maxArticleBytes : Nat
  isDrainSession : Bool
  clientIp : String
  authenticatedUser : Option String

structure PostAuditMeta where
  messageId : String
  newsgroups : String
  cid : String
  deriving DecidableEq

namespace ServerStores

variable {S I ε α : Type}

def onReader (x : Prog (Reader S) ε α) : Prog (ServerStores S I) ε α :=
  x.zoom reader fun reader t => { t with reader }

def onMsgidMap (x : Prog MsgIdMap ε α) : Prog (ServerStores S I) ε α :=
  x.zoom msgidMap fun msgidMap t => { t with msgidMap }

def onIpfsStore (x : Prog I ε α) : Prog (ServerStores S I) ε α :=
  x.zoom ipfsStore fun ipfsStore t => { t with ipfsStore }

def onClock (x : Prog HlcClock ε α) : Prog (ServerStores S I) ε α :=
  x.zoom clock fun clock t => { t with clock }

end ServerStores

open ServerStores

structure Libraries where
  ed : Ed25519
  mail : Mailparse
  ipld : IpldLib

variable (lib : Libraries) (config : ServerConfig) (readings : Readings)

/-- Only drain sessions are believed about the source of an article. -/
def injectionSource (request : PostRequest) : InjectionSource :=
  if request.isDrainSession then (extractInjectionSource request.articleBytes).1 else .nntpPost

def sanitize (articleBytes : Bytes) : Bytes :=
  stripServerSynthesizedHeaders (extractInjectionSource articleBytes).2

def rewriteHeaders (request : PostRequest) : Bytes :=
  let articleBytes := sanitize request.articleBytes
  let articleBytes := prependPathHeader articleBytes config.pathHostname
  let articleBytes := injectMessageId articleBytes readings.messageIdSeed config.pathHostname
  let articleBytes := injectInjectionInfo articleBytes request.clientIp request.authenticatedUser
    config.mailComplaintsTo
  injectInjectionDate lib.mail.dateparse articleBytes config.maxClockSkewSecs
    readings.injectionDateSecs

/-- Check the headers, and read Message-ID and newsgroups from them. -/
def checkPost (request : PostRequest) : Except Response (String × List GroupName) := do
  let articleBytes := rewriteHeaders lib config readings request
  completePost lib.mail readings.validateSecs articleBytes request.maxArticleBytes
  extractPostMetadata lib.mail articleBytes

def checkDuplicateMsgid (messageId : String) : Prog MsgIdMap Response Unit := do
  let found ← (MsgIdMap.lookupByMsgid messageId).mapError fun _ =>
    Response.new 500 "Internal error: storage lookup failed"
  match found with
  | some _ => throw (Response.new 441 "Duplicate article: Message-ID already known")
  | none => pure ()

variable {S I : Type} [LogStorage S] [IpfsBlockStore I]

def recheckMsgid (messageId : String) : Prog MsgIdMap Response Unit := do
  let found ← (MsgIdMap.lookupByMsgid messageId).mapError fun e =>
    Response.new 500 ("Internal error: storage lookup failed: " ++ e.toString)
  match found with
  | some _ => throw (Response.new 441 "Duplicate article: Message-ID already known")
  | none => pure ()

def buildSigned (signedBytes : Bytes) (messageId : String) (newsgroups : List String)
    (hlcTimestamp : UInt64) (operatorSignature : Bytes) : Except BuildError BuiltArticle :=
  buildArticle lib.mail lib.ipld (splitHeaderBody signedBytes).1 (splitHeaderBody signedBytes).2
    messageId newsgroups hlcTimestamp operatorSignature

def writeIpldArticleToIpfs (articleBytes : Bytes) (messageId : String) (newsgroups : List String)
    (hlcTimestamp : UInt64) (operatorSignature : Bytes) :
    Prog (ServerStores S I) Response Cid := do
  onMsgidMap (recheckMsgid messageId)
  let built ← Prog.ofExcept ((buildSigned lib articleBytes messageId newsgroups hlcTimestamp
    operatorSignature).mapError fun e =>
      Response.new 441 ("Posting failed: IPLD build error: " ++ e.toString))
  onIpfsStore ((putBlocks built.blocks).mapError fun e =>
    Response.new 441 ("Posting failed: IPFS write error: " ++ e.toString))
  onMsgidMap ((MsgIdMap.insert messageId built.rootCid).mapError fun e =>
    Response.new 441 ("Posting failed: storage error: " ++ e.toString))
  return built.rootCid

def sendTimestamps (nowMs : UInt64) : List GroupName → HlcClock → List UInt64 × HlcClock
  | [], clock => ([], clock)
  | _ :: groups, clock =>
    let (timestamp, clock) := clock.send nowMs
    let (rest, clock) := sendTimestamps nowMs groups clock
    (timestamp.wallMs :: rest, clock)

def runPost (request : PostRequest) : Prog (ServerStores S I) Response PostAuditMeta := do
  let (messageId, newsgroups) ← Prog.ofExcept (checkPost lib config readings request)
  onMsgidMap (checkDuplicateMsgid messageId)
  let (signedBytes, sigBytes) := signArticle lib.ed config.signingKey
    (rewriteHeaders lib config readings request)
  let hlcTimestamps ← onClock (Prog.ofExec fun clock =>
    let (timestamps, clock) := sendTimestamps readings.hlcMs newsgroups clock
    (.ok timestamps, clock))
  let primaryHlc := hlcTimestamps.head?.getD readings.hlcMs
  let cid ← writeIpldArticleToIpfs lib signedBytes messageId (newsgroups.map GroupName.asStr)
    primaryHlc sigBytes
  let _ ← onReader (appendToGroups lib.ed hlcTimestamps cid config.signingKey newsgroups
    (injectionSource request))
  return ⟨messageId, String.intercalate "," (newsgroups.map GroupName.asStr), cid.toString⟩

def runPostPipeline (request : PostRequest) (stores : ServerStores S I) :
    (Response × Option PostAuditMeta) × ServerStores S I :=
  match (runPost lib config readings request).exec stores with
  | (.ok audit, stores) => ((Response.new 240 "Article received OK", some audit), stores)
  | (.error response, stores) => ((response, none), stores)

/-- The article as the client would get it: header block, empty line, body block. -/
def fetchArticleWireBytes (rootCid : Cid) : Prog I String Bytes := do
  let rootBytes ← (getRaw rootCid).mapError fun e =>
    "IPFS fetch root block " ++ rootCid.toString ++ ": " ++ e.debug
  let root ← Prog.ofExcept ((decodeRoot lib.ipld rootBytes).mapError fun e =>
    "DAG-CBOR decode ArticleRootNode from " ++ rootCid.toString ++ ": " ++ e)
  let headerBytes ← (getRaw root.headerCid).mapError fun e =>
    "IPFS fetch header block " ++ root.headerCid.toString ++ ": " ++ e.debug
  let bodyBytes ← (getRaw root.bodyCid).mapError fun e =>
    "IPFS fetch body block " ++ root.bodyCid.toString ++ ": " ++ e.debug
  return headerBytes ++ blankLine ++ bodyBytes

def Refusal (response : Response) : Prop := response.code = 441 ∨ response.code = 500

theorem refusal_441 (text : String) : Refusal (new 441 text) := .inl rfl

theorem refusal_500 (text : String) : Refusal (new 500 text) := .inr rfl

theorem validatePostHeaders_refuses (mail : Mailparse) (nowSecs : Int) (headerBytes : Bytes) :
    RefusesIn Refusal (validatePostHeaders mail nowSecs headerBytes) := by
  have lengths : RefusesIn Refusal (checkLineLengths headerBytes) :=
    refusesIn_forM (fun _ => refusesIn_refuseIf (refusal_441 _)) _
  have parsed : RefusesIn Refusal (parseHeaderMap mail headerBytes) := by
    unfold parseHeaderMap
    split
    · exact refusesIn_error (refusal_441 _)
    · exact refusesIn_ok _
  refine lengths.bind fun _ => parsed.bind fun headers => ?_
  have mandatory : RefusesIn Refusal (checkMandatoryHeaders headers) :=
    refusesIn_forM (fun _ => refusesIn_refuseIf (refusal_441 _)) _
  have newsgroups : RefusesIn Refusal (checkNewsgroups headers) :=
    RefusesIn.bind (refusesIn_refuseIf (refusal_441 _)) fun _ =>
      refusesIn_forM (fun _ => refusesIn_forM (fun _ => refusesIn_refuseIf (refusal_441 _)) _) _
  have date : RefusesIn Refusal (checkDate mail nowSecs headers) := by
    unfold checkDate
    split
    · exact refusesIn_error (refusal_441 _)
    · split
      · exact refusesIn_error (refusal_441 _)
      · exact refusesIn_refuseIf (refusal_441 _)
  have messageId : RefusesIn Refusal (checkMessageId headers) := by
    unfold checkMessageId
    split
    · exact refusesIn_error (refusal_441 _)
    · exact refusesIn_refuseIf (refusal_441 _)
  exact mandatory.bind fun _ => newsgroups.bind fun _ => date.bind fun _ => messageId

theorem extractPostMetadata_refuses (mail : Mailparse) (articleBytes : Bytes) :
    RefusesIn Refusal (extractPostMetadata mail articleBytes) := by
  unfold extractPostMetadata
  dsimp only
  split
  · exact refusesIn_error (refusal_441 _)
  · split
    · exact refusesIn_error (refusal_441 _)
    · exact refusesIn_error (refusal_441 _)
    · refine RefusesIn.bind (refusesIn_mapM (fun _ => refusesIn_mapError
        (fun _ => refusal_441 _) _) _) fun newsgroups => ?_
      split
      · exact refusesIn_error (refusal_441 _)
      · exact refusesIn_ok _

theorem checkPost_refuses (request : PostRequest) :
    RefusesIn Refusal (checkPost lib config readings request) := by
  refine RefusesIn.bind ?_ fun _ => extractPostMetadata_refuses _ _
  exact RefusesIn.bind (refusesIn_refuseIf (refusal_441 _)) fun _ =>
    validatePostHeaders_refuses _ _ _

theorem refuseKnown_refuses (messageId : String) {f : StorageError → Response}
    (fails : ∀ e, Refusal (f e)) (text : String) :
    Prog.ErrorsIn Refusal ((MsgIdMap.lookupByMsgid messageId).mapError f >>= fun found =>
      match found with
      | some _ => throw (new 441 text)
      | none => pure ()) := by
  refine bind (errorsIn_mapError fails _) fun found => ?_
  cases found with
  | none => exact errorsIn_pure _
  | some cid => exact errorsIn_throw (refusal_441 _)

theorem checkDuplicateMsgid_refuses (messageId : String) :
    Prog.ErrorsIn Refusal (checkDuplicateMsgid messageId) :=
  refuseKnown_refuses messageId (fun _ => refusal_500 _) _

theorem recheckMsgid_refuses (messageId : String) : Prog.ErrorsIn Refusal (recheckMsgid messageId) :=
  refuseKnown_refuses messageId (fun _ => refusal_500 _) _

theorem appendPost_refuses (ed : Ed25519) (signingKey : SigningKey) (hlcTs : UInt64)
    (articleCid : Cid) (group : GroupName) :
    Prog.ErrorsIn Refusal (appendPost ed signingKey hlcTs articleCid group : Prog S _ _) := by
  refine bind (errorsIn_mapError (fun _ => refusal_441 _) _) fun tips => ?_
  dsimp only
  split
  · exact errorsIn_throw (refusal_441 _)
  · exact bind (errorsIn_mapError (fun _ => refusal_441 _) _)
      fun _ => errorsIn_pure _

theorem appendToEach_refuses (ed : Ed25519) (articleCid : Cid) (signingKey : SigningKey)
    (source : InjectionSource) (groups : List (GroupName × UInt64)) : Prog.ErrorsIn Refusal
      (appendToEach ed articleCid signingKey source groups : Prog (Reader S) _ _) := by
  induction groups with
  | nil => exact errorsIn_pure _
  | cons first rest ih =>
    have appended : Prog.ErrorsIn Refusal
        (appendIfPeerable ed articleCid signingKey source first.1 first.2 : Prog (Reader S) _ _) := by
      unfold appendIfPeerable
      split
      · exact (appendPost_refuses ed signingKey first.2 articleCid first.1).zoom
      · exact errorsIn_pure _
    refine appended.bind fun _ => bind ?_ fun number =>
      ih.bind fun _ => errorsIn_pure _
    exact (errorsIn_mapError (fun _ => refusal_441 _) _).zoom

theorem appendToGroups_refuses (ed : Ed25519) (hlcTimestamps : List UInt64) (articleCid : Cid)
    (signingKey : SigningKey) (newsgroups : List GroupName) (source : InjectionSource) :
    Prog.ErrorsIn Refusal (appendToGroups ed hlcTimestamps articleCid signingKey newsgroups source :
      Prog (Reader S) _ _) := by
  unfold appendToGroups
  split
  · exact errorsIn_throw (refusal_500 _)
  · exact (appendToEach_refuses ed articleCid signingKey source _).bind
      fun _ => errorsIn_pure _

omit [LogStorage S] in
theorem writeIpldArticleToIpfs_refuses (articleBytes : Bytes) (messageId : String)
    (newsgroups : List String) (hlcTimestamp : UInt64) (operatorSignature : Bytes) :
    Prog.ErrorsIn Refusal (writeIpldArticleToIpfs lib articleBytes messageId newsgroups
      hlcTimestamp operatorSignature : Prog (ServerStores S I) _ _) := by
  refine (recheckMsgid_refuses messageId).zoom.bind fun _ => bind ?_ fun built => ?_
  · exact errorsIn_ofExcept (refusesIn_mapError (fun _ => refusal_441 _) _)
  · exact (errorsIn_mapError (fun _ => refusal_441 _) _).zoom.bind fun _ =>
      (errorsIn_mapError (fun _ => refusal_441 _) _).zoom.bind fun _ => errorsIn_pure _

theorem runPost_refuses (request : PostRequest) : Prog.ErrorsIn Refusal
      (runPost lib config readings request : Prog (ServerStores S I) _ _) := by
  refine bind (errorsIn_ofExcept (checkPost_refuses lib config readings request))
    fun checked => ?_
  have clock : Prog.ErrorsIn Refusal (Prog.ofExec fun clock : HlcClock =>
      let (timestamps, clock) := sendTimestamps readings.hlcMs checked.2 clock
      (.ok timestamps, clock)) := by
    rintro s e s' run
    cases run
  refine (checkDuplicateMsgid_refuses checked.1).zoom.bind fun _ => clock.zoom.bind fun timestamps => ?_
  refine (writeIpldArticleToIpfs_refuses lib _ _ _ _ _).bind fun cid => ?_
  exact (appendToGroups_refuses lib.ed _ _ _ _ _).zoom.bind fun _ => errorsIn_pure _

variable {stores : ServerStores S I}

theorem runPostPipeline_accepted {request : PostRequest} :
    (runPostPipeline lib config readings request stores).1.1.code = 240 ↔
      ∃ audit, ((runPost lib config readings request).exec stores).1 = .ok audit := by
  unfold runPostPipeline
  rcases run : (runPost lib config readings request).exec stores with ⟨response | audit, stores'⟩
  · have refused : Refusal response := runPost_refuses lib config readings request _ _ _ run
    refine iff_of_false (fun accepted => ?_) nofun
    rcases refused with code | code
    · exact absurd (code.symm.trans accepted) (by decide)
    · exact absurd (code.symm.trans accepted) (by decide)
  · exact iff_of_true rfl ⟨audit, rfl⟩

def plannedArticle (request : PostRequest) (clock : HlcClock) (messageId : String)
    (newsgroups : List GroupName) : Except BuildError BuiltArticle :=
  let signed := signArticle lib.ed config.signingKey (rewriteHeaders lib config readings request)
  buildSigned lib signed.1 messageId (newsgroups.map GroupName.asStr)
    ((sendTimestamps readings.hlcMs newsgroups clock).1.head?.getD readings.hlcMs) signed.2

def appendPlanned (request : PostRequest) (clock : HlcClock) (newsgroups : List GroupName)
    (rootCid : Cid) : Prog (Reader S) Response AppendResult :=
  appendToGroups lib.ed (sendTimestamps readings.hlcMs newsgroups clock).1 rootCid
    config.signingKey newsgroups (injectionSource request)

def mapMsgid (messageId : String) (rootCid : Cid) : Prog MsgIdMap Response Unit := do
  checkDuplicateMsgid messageId
  recheckMsgid messageId
  (MsgIdMap.insert messageId rootCid).mapError fun e =>
    Response.new 441 ("Posting failed: storage error: " ++ e.toString)

/-- The post gets as far as recording its Message-ID: the headers are accepted, the article
is built, and neither the Message-ID map nor the block store fails. What is left then is the
append, which starts from the logs and numbers as they were. -/
structure Recorded (request : PostRequest) (before : ServerStores S I) (map' : MsgIdMap) (store' : I)
    (messageId : String) (newsgroups : List GroupName) (built : BuiltArticle) : Prop where
  checked : checkPost lib config readings request = .ok (messageId, newsgroups)
  planned : plannedArticle lib config readings request before.clock messageId newsgroups = .ok built
  mapped : (mapMsgid messageId built.rootCid).exec before.msgidMap = (.ok (), map')
  written : (putBlocks built.blocks).exec before.ipfsStore = (.ok (), store')

/-- A look-up that refuses what it finds passes only a Message-ID that is not known; `f` is how
errors of the map are answered. -/
theorem refuseKnown_outcome (messageId : String) (f : StorageError → Response) (duplicate : Response)
    (map : MsgIdMap) :
    Prog.Satisfies ((MsgIdMap.lookupByMsgid messageId).mapError f >>= fun found => match found with
      | some _ => throw duplicate
      | none => pure ()) map fun r map' =>
        map'.tables = map.tables ∧ (r = .ok () → ¬ map.Known messageId) := by
  have lookup := satisfies_mapError (Q := fun r map' => map'.tables = map.tables ∧
      (r = .ok none → ¬ map.Known messageId)) (f := f)
    (MsgIdMap.lookupByMsgid_outcome messageId map)
    (fun found map' h => ⟨h.1, fun none => h.2 (by rw [Except.ok.inj none])⟩)
    (fun _ _ h => ⟨h.1, by rintro ⟨⟩⟩)
  refine satisfies_bind lookup ?_ fun e map' h => ⟨h.1, by rintro ⟨⟩⟩
  rintro found map' ⟨same, none⟩
  cases found with
  | none => exact satisfies_pure ⟨same, fun _ => none rfl⟩
  | some cid => exact satisfies_throw ⟨same, by rintro ⟨⟩⟩

theorem checkDuplicateMsgid_outcome (messageId : String) (map : MsgIdMap) :
    Prog.Satisfies (checkDuplicateMsgid messageId) map fun r map' =>
      map'.tables = map.tables ∧ (r = .ok () → ¬ map.Known messageId) :=
  refuseKnown_outcome messageId _ _ map

theorem recheckMsgid_outcome (messageId : String) (map : MsgIdMap) :
    Prog.Satisfies (recheckMsgid messageId) map fun r map' =>
      map'.tables = map.tables ∧ (r = .ok () → ¬ map.Known messageId) :=
  refuseKnown_outcome messageId _ _ map

theorem insertMsgid_outcome (messageId : String) (cid : Cid) (f : StorageError → Response)
    (map : MsgIdMap) :
    Prog.Satisfies ((MsgIdMap.insert messageId cid).mapError f) map fun r map' => match r with
      | .ok () => ⟨messageId, cid.toBytes⟩ ∈ map'.tables.rows
      | .error _ => ∀ id, map'.Known id → map.Known id := by
  refine satisfies_mapError (MsgIdMap.insert_outcome messageId cid map)
    (fun _ map' h => h.recorded rfl) fun e map' h id now => ?_
  rcases h.others id now with old | rfl
  · exact old
  · exact h.failed e rfl now

variable {messageId : String}

theorem mapMsgid_ok {cid : Cid} {map map' : MsgIdMap}
    (mapped : (mapMsgid messageId cid).exec map = (.ok (), map')) :
    ¬ map.Known messageId ∧ ⟨messageId, cid.toBytes⟩ ∈ map'.tables.rows := by
  obtain ⟨⟨⟩, map1, checked, later⟩ := of_exec_bind_ok mapped
  obtain ⟨⟨⟩, map2, rechecked, inserted⟩ := of_exec_bind_ok later
  exact ⟨((checkDuplicateMsgid_outcome messageId map).of_exec checked).2 rfl,
    (insertMsgid_outcome messageId cid _ map2).of_exec inserted⟩

theorem MsgIdMap.known_of_tables {map map' : MsgIdMap} (same : map'.tables = map.tables)
    (id : String) (known : map'.Known id) : map.Known id := by
  rwa [MsgIdMap.Known, same] at known

/-- The outcome of a post: it stops and makes nothing known, or its Message-ID is recorded
and the answer is that of the append. -/
def Outcome (request : PostRequest) (stores : ServerStores S I) (r : Except Response PostAuditMeta)
    (stores' : ServerStores S I) : Prop :=
  (∃ e, r = .error e ∧ ∀ id, stores'.msgidMap.Known id → stores.msgidMap.Known id) ∨
  ∃ messageId newsgroups built, Recorded lib config readings request stores stores'.msgidMap
      stores'.ipfsStore messageId newsgroups built ∧
    (∀ audit, r = .ok audit → audit.messageId = messageId) ∧
    ((∃ audit, r = .ok audit) ↔ ∃ result, ((appendPlanned lib config readings request stores.clock
      newsgroups built.rootCid).exec stores.reader).1 = .ok result)

omit [LogStorage S] in
/-- Storing an article: it fails and makes nothing known, or all blocks are written and the
Message-ID is mapped to the root. -/
theorem writeIpldArticleToIpfs_outcome (articleBytes : Bytes) (messageId : String)
    (newsgroups : List String) (hlcTimestamp : UInt64) (operatorSignature : Bytes)
    (stores : ServerStores S I) :
    Prog.Satisfies (writeIpldArticleToIpfs lib articleBytes messageId newsgroups hlcTimestamp
      operatorSignature) stores fun r stores' =>
        stores'.reader = stores.reader ∧ match r with
        | .error _ => ∀ id, stores'.msgidMap.Known id → stores.msgidMap.Known id
        | .ok cid => ∃ built map', buildSigned lib articleBytes messageId newsgroups hlcTimestamp
            operatorSignature = .ok built ∧ cid = built.rootCid ∧
            (putBlocks built.blocks).exec stores.ipfsStore = (.ok (), stores'.ipfsStore) ∧
            (recheckMsgid messageId).exec stores.msgidMap = (.ok (), map') ∧
            ((MsgIdMap.insert messageId built.rootCid).mapError fun e => new 441
              ("Posting failed: storage error: " ++ e.toString)).exec map' =
                (.ok (), stores'.msgidMap) := by
  -- Each step works on one of the stores, so its outcome is that of the step on it alone.
  refine satisfies_bind (R := fun r stores' => ∃ map',
    (recheckMsgid messageId).exec stores.msgidMap = (r, map') ∧
      stores' = { stores with msgidMap := map' }) ⟨_, rfl, rfl⟩ ?_ ?_
  · rintro ⟨⟩ _ ⟨map', rechecked, rfl⟩
    have same := ((recheckMsgid_outcome messageId stores.msgidMap).of_exec rechecked).1
    refine satisfies_bind (R := fun r stores' => stores' = { stores with msgidMap := map' } ∧
      ∀ built, r = .ok built → buildSigned lib articleBytes messageId newsgroups hlcTimestamp
        operatorSignature = .ok built) ⟨rfl, fun built => mapError_eq_ok.mp⟩ ?_ ?_
    · rintro built _ ⟨rfl, build⟩
      refine satisfies_bind (R := fun r stores' => ∃ store',
        stores' = { stores with msgidMap := map', ipfsStore := store' } ∧
          (r = .ok () → (putBlocks built.blocks).exec stores.ipfsStore = (.ok (), store'))) ?_ ?_ ?_
      · refine ⟨_, rfl, fun returned => ?_⟩
        exact of_exec_mapError_ok (Prod.ext returned rfl)
      · rintro ⟨⟩ _ ⟨store', rfl, wrote⟩
        refine satisfies_bind (R := fun r stores' => ∃ map'',
          ((MsgIdMap.insert messageId built.rootCid).mapError fun e => new 441
            ("Posting failed: storage error: " ++ e.toString)).exec map' = (r, map'') ∧
          stores' = { stores with msgidMap := map'', ipfsStore := store' }) ⟨_, rfl, rfl⟩ ?_ ?_
        · rintro ⟨⟩ _ ⟨map'', inserted, rfl⟩
          exact satisfies_pure ⟨rfl, built, map', build built rfl, rfl, wrote rfl, rechecked,
            inserted⟩
        · rintro e _ ⟨map'', failed, rfl⟩
          have nothing := (insertMsgid_outcome messageId built.rootCid _ map').of_exec failed
          exact ⟨rfl, fun id now => MsgIdMap.known_of_tables same id (nothing id now)⟩
      · rintro e _ ⟨store', rfl, -⟩
        exact ⟨rfl, MsgIdMap.known_of_tables same⟩
    · rintro e _ ⟨rfl, -⟩
      exact ⟨rfl, MsgIdMap.known_of_tables same⟩
  · rintro e _ ⟨map', refused, rfl⟩
    exact ⟨rfl, MsgIdMap.known_of_tables
      ((recheckMsgid_outcome messageId stores.msgidMap).of_exec refused).1⟩

theorem runPost_outcome (request : PostRequest) (stores : ServerStores S I) :
    Prog.Satisfies (runPost lib config readings request) stores
      (Outcome lib config readings request stores) := by
  refine satisfies_bind (R := fun r stores' => stores = stores' ∧
    r = checkPost lib config readings request) ⟨rfl, rfl⟩ ?_ ?_
  · rintro ⟨messageId, newsgroups⟩ _ ⟨rfl, checked⟩
    refine satisfies_bind (R := fun r stores' => ∃ map',
      (checkDuplicateMsgid messageId).exec stores.msgidMap = (r, map') ∧
        stores' = { stores with msgidMap := map' }) ⟨_, rfl, rfl⟩ ?_ ?_
    · rintro ⟨⟩ _ ⟨map', unknown, rfl⟩
      have same := ((checkDuplicateMsgid_outcome messageId stores.msgidMap).of_exec unknown).1
      refine satisfies_bind (R := fun r stores' =>
        stores' = { stores with msgidMap := map', clock := (sendTimestamps readings.hlcMs newsgroups
          stores.clock).2 } ∧
        r = .ok (sendTimestamps readings.hlcMs newsgroups stores.clock).1) ⟨rfl, rfl⟩ ?_ nofun
      rintro timestamps _ ⟨rfl, sent⟩
      cases sent
      refine satisfies_bind (writeIpldArticleToIpfs_outcome lib _ messageId _ _ _ _) ?_ ?_
      · rintro cid stores' ⟨reader, built, map'', planned, rfl, written, rechecked, inserted⟩
        have mapped : (mapMsgid messageId built.rootCid).exec stores.msgidMap =
            (.ok (), stores'.msgidMap) :=
          (exec_bind_ok _ unknown).trans ((exec_bind_ok _ rechecked).trans inserted)
        have recorded : Recorded lib config readings request stores stores'.msgidMap
            stores'.ipfsStore messageId newsgroups built := ⟨checked.symm, planned, mapped, written⟩
        refine satisfies_bind (R := fun r after => ∃ reader',
          after = { stores' with reader := reader' } ∧
          r = ((appendPlanned lib config readings request stores.clock newsgroups
            built.rootCid).exec stores.reader).1) ⟨_, rfl, by rw [← reader]; rfl⟩ ?_ ?_
        · rintro result _ ⟨reader', rfl, appended⟩
          refine .inr ⟨messageId, newsgroups, built, recorded, ?_,
            iff_of_true ⟨_, rfl⟩ ⟨result, appended.symm⟩⟩
          rintro audit ⟨⟩
          rfl
        · rintro e _ ⟨reader', rfl, failed⟩
          refine .inr ⟨messageId, newsgroups, built, recorded, nofun, iff_of_false nofun ?_⟩
          rintro ⟨result, appended⟩
          cases failed.trans appended
      · rintro e stores' ⟨-, nothing⟩
        exact .inl ⟨e, rfl, fun id now => MsgIdMap.known_of_tables same id (nothing id now)⟩
    · rintro e _ ⟨map', refused, rfl⟩
      exact .inl ⟨e, rfl, MsgIdMap.known_of_tables
        ((checkDuplicateMsgid_outcome messageId stores.msgidMap).of_exec refused).1⟩
  · rintro e _ ⟨rfl, -⟩
    exact .inl ⟨e, rfl, fun _ => id⟩

theorem length_sendTimestamps (nowMs : UInt64) (newsgroups : List GroupName) (clock : HlcClock) :
    (sendTimestamps nowMs newsgroups clock).1.length = newsgroups.length := by
  induction newsgroups generalizing clock with
  | nil => rfl
  | cons group rest ih => simp [sendTimestamps, ih]

omit [LogStorage S] in
theorem writeIpldArticleToIpfs_returns {articleBytes : Bytes}
    {newsgroups : List String} {hlcTimestamp : UInt64} {operatorSignature : Bytes}
    {built : BuiltArticle} {map1 map2 : MsgIdMap} {store' : I}
    (rechecked : (recheckMsgid messageId).exec stores.msgidMap = (.ok (), map1))
    (planned : buildSigned lib articleBytes messageId newsgroups hlcTimestamp operatorSignature =
      .ok built) (written : (putBlocks built.blocks).exec stores.ipfsStore = (.ok (), store'))
    (inserted : ((MsgIdMap.insert messageId built.rootCid).mapError fun e => new 441
      ("Posting failed: storage error: " ++ e.toString)).exec map1 = (.ok (), map2)) :
    (writeIpldArticleToIpfs lib articleBytes messageId newsgroups hlcTimestamp
      operatorSignature).exec stores =
        (.ok built.rootCid, { stores with msgidMap := map2, ipfsStore := store' }) := by
  have first : (onMsgidMap (recheckMsgid messageId)).exec stores =
      (.ok (), { stores with msgidMap := map1 }) := by
    rw [onMsgidMap, exec_zoom, rechecked]
  rw [writeIpldArticleToIpfs, exec_bind_ok _ first]
  simp only [exec_bind, exec_ofExcept, planned, Except.mapError, onIpfsStore, onMsgidMap,
    exec_zoom, exec_mapError_ok _ written, inserted, exec_pure]

theorem runPost_recorded {request : PostRequest} {map' : MsgIdMap}
    {store' : I} {newsgroups : List GroupName} {built : BuiltArticle}
    (recorded : Recorded lib config readings request stores map' store' messageId newsgroups built)
    {r : Except Response AppendResult} {reader' : Reader S}
    (appended : (appendPlanned lib config readings request stores.clock newsgroups
      built.rootCid).exec stores.reader = (r, reader')) :
    (runPost lib config readings request).exec stores =
      (r.map fun _ => ⟨messageId, String.intercalate "," (newsgroups.map GroupName.asStr),
        built.rootCid.toString⟩,
      ⟨reader', map', store', (sendTimestamps readings.hlcMs newsgroups stores.clock).2⟩) := by
  obtain ⟨⟨⟩, map1, unknown, later⟩ := of_exec_bind_ok recorded.mapped
  obtain ⟨⟨⟩, map2, rechecked, inserted⟩ := of_exec_bind_ok later
  have passed : (Prog.ofExcept (checkPost lib config readings request) :
      Prog (ServerStores S I) Response _).exec stores = (.ok (messageId, newsgroups), stores) := by
    rw [exec_ofExcept, recorded.checked]
  have isNew : (onMsgidMap (checkDuplicateMsgid messageId)).exec stores =
      (.ok (), { stores with msgidMap := map1 }) := by
    rw [onMsgidMap, exec_zoom, unknown]
  have stamped : (onClock (Prog.ofExec fun clock =>
      (.ok (sendTimestamps readings.hlcMs newsgroups clock).1,
        (sendTimestamps readings.hlcMs newsgroups clock).2)) :
      Prog (ServerStores S I) Response (List UInt64)).exec { stores with msgidMap := map1 } =
        (.ok (sendTimestamps readings.hlcMs newsgroups stores.clock).1,
          { stores with
            msgidMap := map1
            clock := (sendTimestamps readings.hlcMs newsgroups stores.clock).2 }) := rfl
  have stored := @writeIpldArticleToIpfs_returns lib S I _
    { stores with
      msgidMap := map1
      clock := (sendTimestamps readings.hlcMs newsgroups stores.clock).2 }
    _ _ _ _ _ built map2 map' store' rechecked recorded.planned recorded.written inserted
  have reached : (onReader (appendPlanned lib config readings request stores.clock newsgroups
      built.rootCid)).exec ⟨stores.reader, map', store',
        (sendTimestamps readings.hlcMs newsgroups stores.clock).2⟩ =
      (r, ⟨reader', map', store', (sendTimestamps readings.hlcMs newsgroups stores.clock).2⟩) := by
    rw [onReader, exec_zoom, appended]
  rw [runPost, exec_bind_ok _ passed]
  dsimp only
  rw [exec_bind_ok _ isNew, exec_bind_ok _ stamped, exec_bind_ok _ stored]
  cases r with
  | error e => exact exec_bind_error _ reached
  | ok result => exact exec_bind_ok _ reached

omit [LogStorage S] in
theorem recorded_of_faultless {request : PostRequest}
    {newsgroups : List GroupName} {built : BuiltArticle} {store' : I}
    (checked : checkPost lib config readings request = .ok (messageId, newsgroups))
    (fresh : ¬ stores.msgidMap.Known messageId) (faultless : stores.msgidMap.faults = [])
    (planned : plannedArticle lib config readings request stores.clock messageId newsgroups =
      .ok built) (written : (putBlocks built.blocks).exec stores.ipfsStore = (.ok (), store')) :
    ∃ map', Recorded lib config readings request stores map' store' messageId newsgroups built ∧
      map'.faults = [] := by
  have lookup := MsgIdMap.lookupByMsgid_fresh faultless fresh
  obtain ⟨map', inserted, still⟩ := MsgIdMap.insert_fresh built.rootCid faultless fresh
  refine ⟨map', ⟨checked, planned, ?_, written⟩, still⟩
  simp [mapMsgid, checkDuplicateMsgid, recheckMsgid, exec_bind, exec_mapError, lookup,
    inserted]

theorem runPost_duplicate {request : PostRequest} {newsgroups : List GroupName} {cid : Cid}
    (checked : checkPost lib config readings request = .ok (messageId, newsgroups))
    (faultless : stores.msgidMap.faults = [])
    (row : ⟨messageId, cid.toBytes⟩ ∈ stores.msgidMap.tables.rows) :
    (runPost lib config readings request).exec stores =
      (.error (new 441 "Duplicate article: Message-ID already known"), stores) := by
  have lookup := MsgIdMap.lookupByMsgid_known faultless row
  have passed : (Prog.ofExcept (checkPost lib config readings request) :
      Prog (ServerStores S I) Response _).exec stores = (.ok (messageId, newsgroups), stores) := by
    rw [exec_ofExcept, checked]
  have refused : (onMsgidMap (checkDuplicateMsgid messageId)).exec stores =
      (.error (new 441 "Duplicate article: Message-ID already known"), stores) := by
    simp [onMsgidMap, checkDuplicateMsgid, exec_bind, exec_mapError, lookup]
  rw [runPost, exec_bind_ok _ passed]
  exact exec_bind_error _ refused

end Stoa.Post
