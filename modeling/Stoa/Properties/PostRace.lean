import Stoa.Core.GroupLog.RecordedStorage
import Stoa.Lib.Steps
import Stoa.Properties.PostRetry

/-! Whatever the schedule, at most one of several posts with one Message-ID is accepted and each
group log gets at most one entry, if no two stored articles are the same and none names a group
twice. -/
namespace Stoa.Post

open ServerStores Stepwise List RecordedLogStorage ExceptT Threads

variable {ed : Ed25519} {S I : Type}

section Log

variable [LogStorage S]

def collectParentsSteps : List Cid → List LogEntryId → Stepwise S AppendError (List LogEntryId)
  | [], parentIds => pure parentIds
  | parentCid :: rest, parentIds =>
    match LogEntryId.ofCid parentCid with
    | none => throw (.missingParent ("parent CID " ++ parentCid.toString ++
        " has a non-32-byte digest (length " ++ toString parentCid.hash.digest.length ++ ")"))
    | some parentId => do
      let present ← .atom ((LogStorage.hasEntry parentId).mapError AppendError.storage)
      if present then collectParentsSteps rest (parentIds ++ [parentId])
      else throw (.missingParent parentCid.toString)

def appendSteps (group : GroupName) (verified : VerifiedEntry ed) :
    Stepwise S AppendError LogEntryId := do
  let entry := verified.intoInner
  let entryId := computeEntryId entry
  let present ← .atom ((LogStorage.hasEntry entryId).mapError AppendError.storage)
  if present then
    return entryId
  else
    let parentIds ← collectParentsSteps entry.parentCids []
    match ← .atom (Prog.attempt
        (LogStorage.insertEntryAndAdvanceTips entryId entry group parentIds entryId)) with
    | .ok () => return entryId
    | .error (.duplicateEntry _) => return entryId
    | .error error => throw (.storage error)

def appendPostSteps (ed : Ed25519) (signingKey : SigningKey) (hlcTs : UInt64) (articleCid : Cid)
    (group : GroupName) : Stepwise S Response Unit := do
  let currentTips ← .atom ((LogStorage.listTips group).mapError fun e =>
    Response.new 441 ("storage error listing tips: " ++ e.toString))
  let entry := postEntry ed signingKey hlcTs articleCid currentTips
  match verifySignature ed entry (ed.verifyingKey signingKey) with
  | .error e => throw (Response.new 441 ("log entry self-check failed: " ++ e.toString))
  | .ok verified =>
    let _ ← (appendSteps group verified).mapError fun e =>
      Response.new 441 ("log append failed for " ++ group.asStr ++ ": " ++ e.toString)

def appendIfPeerableSteps (ed : Ed25519) (articleCid : Cid) (signingKey : SigningKey)
    (source : InjectionSource) (group : GroupName) (hlcTs : UInt64) :
    Stepwise (Reader S) Response Unit :=
  if source.isPeerable then
    (appendPostSteps ed signingKey hlcTs articleCid group).zoom Reader.logStorage
      fun logStorage t => { t with logStorage }
  else pure ()

def appendToEachSteps (ed : Ed25519) (articleCid : Cid) (signingKey : SigningKey)
    (source : InjectionSource) :
    List (GroupName × UInt64) → Stepwise (Reader S) Response (List (String × Nat))
  | [] => pure []
  | (group, hlcTs) :: rest => do
    appendIfPeerableSteps ed articleCid signingKey source group hlcTs
    let articleNumber ← .atom (Reader.onArticleNumbers
      ((ArticleNumberStore.assignNumber group.asStr articleCid).mapError fun e =>
        Response.new 441 ("article number assignment failed: " ++ e)))
    let later ← appendToEachSteps ed articleCid signingKey source rest
    return (group.asStr, articleNumber) :: later

def appendToGroupsSteps (ed : Ed25519) (hlcTimestamps : List UInt64) (articleCid : Cid)
    (signingKey : SigningKey) (newsgroups : List GroupName) (source : InjectionSource) :
    Stepwise (Reader S) Response AppendResult := do
  if hlcTimestamps.length ≠ newsgroups.length then
    throw (Response.new 500 ("Internal error: hlc_timestamps length " ++
      toString hlcTimestamps.length ++ " != newsgroups length " ++ toString newsgroups.length))
  else
    let assignments ← appendToEachSteps ed articleCid signingKey source
      (newsgroups.zip hlcTimestamps)
    return ⟨assignments⟩

end Log

section Post

variable (lib : Libraries) (config : ServerConfig) (readings : Readings)
variable [LogStorage S] [IpfsBlockStore I]

def putBlocksSteps : List (Cid × Bytes) → Stepwise I IpfsWriteError Unit
  | [] => pure ()
  | (cid, data) :: rest => do
    .atom (putBlock cid data)
    putBlocksSteps rest

def admitSteps (request : PostRequest) :
    Stepwise (ServerStores S I) Response ((String × List GroupName) × List UInt64) := do
  let (messageId, newsgroups) ← .ofExcept (checkPost lib config readings request)
  .atom (onMsgidMap (checkDuplicateMsgid messageId))
  let hlcTimestamps ← .atom (onClock (Prog.ofExec fun clock =>
    let (timestamps, clock) := sendTimestamps readings.hlcMs newsgroups clock
    (.ok timestamps, clock)))
  .atom (onMsgidMap (recheckMsgid messageId))
  return ((messageId, newsgroups), hlcTimestamps)

def finishSteps (request : PostRequest) (admitted : (String × List GroupName) × List UInt64) :
    Stepwise (ServerStores S I) Response PostAuditMeta := do
  let ((messageId, newsgroups), hlcTimestamps) := admitted
  let (signedBytes, sigBytes) := signArticle lib.ed config.signingKey
    (rewriteHeaders lib config readings request)
  let built ← .ofExcept ((buildSigned lib signedBytes messageId (newsgroups.map GroupName.asStr)
    (hlcTimestamps.head?.getD readings.hlcMs) sigBytes).mapError fun e =>
      Response.new 441 ("Posting failed: IPLD build error: " ++ e.toString))
  ((putBlocksSteps built.blocks).mapError fun e =>
    Response.new 441 ("Posting failed: IPFS write error: " ++ e.toString)).zoom
      ServerStores.ipfsStore fun ipfsStore t => { t with ipfsStore }
  .atom (onMsgidMap ((MsgIdMap.insert messageId built.rootCid).mapError fun e =>
    Response.new 441 ("Posting failed: storage error: " ++ e.toString)))
  let _ ← (appendToGroupsSteps lib.ed hlcTimestamps built.rootCid config.signingKey newsgroups
    (injectionSource request)).zoom ServerStores.reader fun reader t => { t with reader }
  return ⟨messageId, String.intercalate "," (newsgroups.map GroupName.asStr),
    built.rootCid.toString⟩

def postSteps (request : PostRequest) : Stepwise (ServerStores S I) Response PostAuditMeta :=
  admitSteps lib config readings request >>= finishSteps lib config readings request

end Post

section Refinement

open Stepwise

theorem lens_logStorage : Steps.Lens (Reader.logStorage (S := S))
    fun logStorage t => { t with logStorage } := ⟨fun _ _ => rfl, fun _ => rfl, fun _ _ _ => rfl⟩

theorem lens_reader : Steps.Lens (ServerStores.reader (S := S) (I := I))
    fun reader t => { t with reader } := ⟨fun _ _ => rfl, fun _ => rfl, fun _ _ _ => rfl⟩

theorem lens_ipfsStore : Steps.Lens (ServerStores.ipfsStore (S := S) (I := I))
    fun ipfsStore t => { t with ipfsStore } := ⟨fun _ _ => rfl, fun _ => rfl, fun _ _ _ => rfl⟩

variable [LogStorage S]

theorem collectParentsSteps_refines (cids : List Cid) (parentIds : List LogEntryId) :
    Refines (collectParentsSteps cids parentIds : Stepwise S _ _) (collectParents cids parentIds) := by
  induction cids generalizing parentIds with
  | nil => exact refines_pure _
  | cons parentCid rest ih =>
    unfold collectParentsSteps collectParents
    cases LogEntryId.ofCid parentCid with
    | none => exact refines_throw _
    | some parentId =>
      refine (refines_atom _).bind fun present => ?_
      split
      · exact ih _
      · exact refines_throw _

theorem appendSteps_refines (group : GroupName) (verified : VerifiedEntry ed) :
    Refines (appendSteps group verified : Stepwise S _ _) (append group verified) := by
  refine (refines_atom _).bind fun present => ?_
  split
  · exact refines_pure _
  · refine (collectParentsSteps_refines _ _).bind fun parentIds =>
      (refines_atom _).bind fun outcome => ?_
    rcases outcome with error | ⟨⟩
    · cases error with
      | duplicateEntry id => exact refines_pure _
      | _ => exact refines_throw _
    · exact refines_pure _

theorem appendPostSteps_refines (signingKey : SigningKey) (hlcTs : UInt64) (articleCid : Cid)
    (group : GroupName) : Refines (appendPostSteps ed signingKey hlcTs articleCid group : Stepwise S _ _)
      (appendPost ed signingKey hlcTs articleCid group) := by
  refine (refines_atom _).bind fun currentTips => ?_
  dsimp only
  cases verifySignature ed (postEntry ed signingKey hlcTs articleCid currentTips)
      (ed.verifyingKey signingKey) with
  | error e => exact refines_throw _
  | ok verified => exact ((appendSteps_refines _ _).mapError _).bind fun _ => refines_pure _

theorem appendToEachSteps_refines (articleCid : Cid) (signingKey : SigningKey)
    (source : InjectionSource) (groups : List (GroupName × UInt64)) :
    Refines (appendToEachSteps ed articleCid signingKey source groups : Stepwise (Reader S) _ _)
      (appendToEach ed articleCid signingKey source groups) := by
  induction groups with
  | nil => exact refines_pure _
  | cons first rest ih =>
    refine Refines.bind ?_ fun _ => (refines_atom _).bind fun _ => ih.bind fun _ => refines_pure _
    unfold appendIfPeerableSteps appendIfPeerable
    split
    · exact (appendPostSteps_refines _ _ _ _).zoom lens_logStorage
    · exact refines_pure _

theorem appendToGroupsSteps_refines (hlcTimestamps : List UInt64) (articleCid : Cid)
    (signingKey : SigningKey) (newsgroups : List GroupName) (source : InjectionSource) :
    Refines (appendToGroupsSteps ed hlcTimestamps articleCid signingKey newsgroups source :
        Stepwise (Reader S) _ _)
      (appendToGroups ed hlcTimestamps articleCid signingKey newsgroups source) := by
  unfold appendToGroupsSteps appendToGroups
  split
  · exact refines_throw _
  · exact (appendToEachSteps_refines _ _ _ _).bind fun _ => refines_pure _

variable [IpfsBlockStore I] (lib : Libraries) (config : ServerConfig) (readings : Readings)

omit [LogStorage S] in
theorem putBlocksSteps_refines (blocks : List (Cid × Bytes)) :
    Refines (putBlocksSteps blocks : Stepwise I _ _) (putBlocks blocks) := by
  induction blocks with
  | nil => exact refines_pure _
  | cons first rest ih => exact (refines_atom _).bind fun _ => ih

/-- A post that nobody interrupts is the post pipeline. -/
theorem postSteps_refines (request : PostRequest) :
    Refines (postSteps lib config readings request : Stepwise (ServerStores S I) _ _)
      (runPost lib config readings request) := by
  unfold postSteps admitSteps finishSteps runPost writeIpldArticleToIpfs
  simp only [bind_assoc, pure_bind]
  refine (refines_ofExcept _).bind fun headers => (refines_atom _).bind fun _ =>
    (refines_atom _).bind fun hlcTimestamps => (refines_atom _).bind fun _ =>
      (refines_ofExcept _).bind fun built => ?_
  refine (((putBlocksSteps_refines _).mapError _).zoom lens_ipfsStore).bind fun _ =>
    (refines_atom _).bind fun _ => ?_
  exact ((appendToGroupsSteps_refines _ _ _ _ _).zoom lens_reader).bind fun _ => refines_pure _

end Refinement

structure Call where
  request : PostRequest
  readings : Readings

section General

variable (lib : Libraries) (config : ServerConfig)

def answerOf : Except Response PostAuditMeta → Response
  | .ok _ => Response.new 240 "Article received OK"
  | .error response => response

section Posting

variable {S I : Type}

def recorded (stores : ServerStores S I) : ServerStores (RecordedLogStorage S) I :=
  { stores with reader := ⟨⟨stores.reader.logStorage, []⟩, stores.reader.articleNumbers⟩ }

variable [LogStorage S] [IpfsBlockStore I]

def Call.steps (call : Call) :
    Steps (ServerStores (RecordedLogStorage S) I) (Except Response PostAuditMeta) :=
  ExceptT.run (postSteps lib config call.readings call.request)

def posting (calls : List Call) (stores : ServerStores S I) :
    Threads (ServerStores (RecordedLogStorage S) I) (Except Response PostAuditMeta) :=
  ⟨recorded stores, calls.map (Call.steps lib config)⟩

end Posting

def AtMostOnce {S I : Type}
    (c : Threads (ServerStores (RecordedLogStorage S) I) (Except Response PostAuditMeta)) : Prop :=
  (∀ i j r r', c.Returned i r → c.Returned j r' → (answerOf r).code = 240 →
    (answerOf r').code = 240 → i = j) ∧
  ∀ group, (c.state.reader.logStorage.appends.map AppendRecord.group).count group ≤ 1

def Call.parts (call : Call) : Bytes × Bytes :=
  splitHeaderBody (signArticle lib.ed config.signingKey
    (rewriteHeaders lib config call.readings call.request)).1

/-- The article that a post builds if it is stamped with `hlcTimestamp`. -/
def Call.build (call : Call) (messageId : String) (newsgroups : List GroupName)
    (hlcTimestamp : UInt64) : Except BuildError BuiltArticle :=
  let signed := signArticle lib.ed config.signingKey
    (rewriteHeaders lib config call.readings call.request)
  buildSigned lib signed.1 messageId (newsgroups.map GroupName.asStr) hlcTimestamp signed.2

/-- `built` is an article that the post may store. -/
def Call.MayBuild (call : Call) (messageId : String) (built : BuiltArticle) : Prop :=
  ∃ newsgroups hlcTimestamp, checkPost lib config call.readings call.request =
    .ok (messageId, newsgroups) ∧ call.build lib config messageId newsgroups hlcTimestamp = .ok built

def NoCollisions (built built' : BuiltArticle) : Prop :=
  ∀ b ∈ built.blocks, ∀ b' ∈ built'.blocks, Sha256.digest b.2 = Sha256.digest b'.2 → b.2 = b'.2

section Safety

variable {lib config} {calls : List Call} {messageId : String}

/-- Articles with the same root have the same header and body. -/
theorem parts_eq_of_rootCid {a b : Call} {built built' : BuiltArticle}
    (first : a.MayBuild lib config messageId built) (second : b.MayBuild lib config messageId built')
    (noCollisions : NoCollisions built built') (same : built.rootCid = built'.rootCid) :
    a.parts lib config = b.parts lib config := by
  obtain ⟨_, _, -, build⟩ := first
  obtain ⟨_, _, -, build'⟩ := second
  have parts := buildArticle_ok build
  have parts' := buildArticle_ok build'
  obtain ⟨root, encoded, rootCid, stored⟩ := parts.root
  obtain ⟨root', encoded', rootCid', stored'⟩ := parts'.root
  -- From the root block to the root node, and from there to its two blocks.
  have sameRoot : root = root' := by
    rw [rootCid, rootCid', dagCborCid, dagCborCid, Cid.newV1_sha256_inj] at same
    exact noCollisions _ stored _ stored' same.2
  have sameNode : built.rootNode = built'.rootNode := by
    have decoded := lib.ipld.rootFromSlice_rootToVec _ _ encoded
    rw [sameRoot, lib.ipld.rootFromSlice_rootToVec _ _ encoded'] at decoded
    exact (Except.ok.inj decoded).symm
  have sameHeader := parts.header.symm.trans ((congrArg _ sameNode).trans parts'.header)
  have sameBody := parts.body.symm.trans ((congrArg _ sameNode).trans parts'.body)
  rw [rawBlock, rawBlock, Cid.newV1_sha256_inj] at sameHeader sameBody
  exact Prod.ext (noCollisions _ parts.headerBlock _ parts'.headerBlock sameHeader.2)
    (noCollisions _ parts.bodyBlock _ parts'.bodyBlock sameBody.2)

variable (lib config calls messageId) in
/-- The Message-ID is mapped to an article that call `i` may store. -/
def Owns {S I : Type} (i : Nat) (stores : ServerStores S I) : Prop :=
  ∃ call built, calls[i]? = some call ∧ call.MayBuild lib config messageId built ∧
    ⟨messageId, built.rootCid.toBytes⟩ ∈ stores.msgidMap.tables.rows

structure Different (lib : Libraries) (config : ServerConfig) (messageId : String) (a b : Call) :
    Prop where
  parts : a.parts lib config ≠ b.parts lib config
  noCollisions : ∀ built built', a.MayBuild lib config messageId built →
    b.MayBuild lib config messageId built' → NoCollisions built built'

theorem owns_sole {S I : Type} (different : calls.Pairwise (Different lib config messageId))
    (i j : Nat) (stores : ServerStores S I) (first : Owns lib config calls messageId i stores)
    (second : Owns lib config calls messageId j stores) : i = j := by
  obtain ⟨a, built, here, mayBuild, row⟩ := first
  obtain ⟨b, built', there, mayBuild', row'⟩ := second
  have sameRoot : built.rootCid = built'.rootCid := by
    have sameRow := inj_on_of_nodup_map stores.msgidMap.tables.unique row row' rfl
    exact Cid.toBytes_injective (congrArg MsgIdRow.cid sameRow)
  obtain ⟨bound, rfl⟩ := List.getElem?_eq_some_iff.mp here
  obtain ⟨bound', rfl⟩ := List.getElem?_eq_some_iff.mp there
  have apart := pairwise_iff_getElem.mp different
  rcases lt_trichotomy i j with less | same | more
  · have d := apart i j bound bound' less
    exact absurd (parts_eq_of_rootCid mayBuild mayBuild' (d.noCollisions _ _ mayBuild mayBuild')
      sameRoot) d.parts
  · exact same
  · have d := apart j i bound' bound more
    exact absurd (parts_eq_of_rootCid mayBuild' mayBuild (d.noCollisions _ _ mayBuild' mayBuild)
      sameRoot.symm) d.parts

end Safety

section Steps

variable {S I : Type} {ed : Ed25519}

def appendedTo (s : RecordedLogStorage S) : List GroupName := s.appends.map AppendRecord.group

theorem appendedTo_unrecorded {ε α : Type} (x : Prog S StorageError α) (f : StorageError → ε)
    (s : RecordedLogStorage S) :
    appendedTo (((unrecorded x).mapError f).exec s).2 = appendedTo s := by
  rw [Prog.exec_mapError, unrecorded, Prog.exec_zoom]
  rcases x.exec s.inner with ⟨e | a, inner⟩ <;> rfl

variable [LogStorage S]

theorem collectParentsSteps_emits (cids : List Cid) (parentIds : List LogEntryId) :
    (run (collectParentsSteps cids parentIds :
      Stepwise (RecordedLogStorage S) _ _)).Emits appendedTo 0 := by
  induction cids generalizing parentIds with
  | nil => trivial
  | cons parentCid rest ih =>
    unfold collectParentsSteps
    cases LogEntryId.ofCid parentCid with
    | none => trivial
    | some parentId =>
      refine emits_bind_silent (emits_atom fun s => appendedTo_unrecorded _ _ s) fun present => ?_
      cases present with
      | true => exact ih _
      | false => trivial

theorem appendSteps_emits (group : GroupName) (verified : VerifiedEntry ed) :
    (run (appendSteps group verified :
      Stepwise (RecordedLogStorage S) _ _)).Emits appendedTo {group} := by
  refine emits_bind_silent (emits_atom fun s => appendedTo_unrecorded _ _ s) fun present => ?_
  cases present with
  | true => trivial
  | false =>
    refine emits_bind_silent (collectParentsSteps_emits _ _) fun parentIds => ?_
    refine emits_bind_last (emits_atom_one fun s => ?_) fun outcome => ?_
    · -- The record grows by this group exactly if the entry is inserted.
      rw [Prog.exec_attempt]
      change appendedTo ((insertEntryAndAdvanceTips _ _ _ _ _).exec s).2 = _ ∨
        appendedTo ((insertEntryAndAdvanceTips _ _ _ _ _).exec s).2 = _
      rw [insertEntryAndAdvanceTips, Prog.exec_ofExec]
      split
      · exact .inr (by simp [appendedTo])
      · exact .inl rfl
    · rcases outcome with error | ⟨⟩
      · cases error <;> trivial
      · trivial

theorem appendPostSteps_emits (signingKey : SigningKey) (hlcTs : UInt64) (articleCid : Cid)
    (group : GroupName) : (run (appendPostSteps ed signingKey hlcTs articleCid group :
      Stepwise (RecordedLogStorage S) _ _)).Emits appendedTo {group} := by
  refine emits_bind_silent (emits_atom fun s => appendedTo_unrecorded _ _ s) fun currentTips => ?_
  dsimp only
  cases verifySignature ed (postEntry ed signingKey hlcTs articleCid currentTips)
      (ed.verifyingKey signingKey) with
  | error e => trivial
  | ok verified =>
    exact emits_bind_last (emits_mapError _ (appendSteps_emits group verified)) fun _ => trivial

theorem appendToEachSteps_emits (articleCid : Cid) (signingKey : SigningKey)
    (source : InjectionSource) (groups : List (GroupName × UInt64)) :
    (run (appendToEachSteps ed articleCid signingKey source groups :
      Stepwise (Reader (RecordedLogStorage S)) _ _)).Emits
        (fun reader => appendedTo reader.logStorage) (groups.map Prod.fst : List GroupName) := by
  induction groups with
  | nil => trivial
  | cons first rest ih =>
    have log : (run (appendIfPeerableSteps ed articleCid signingKey source first.1 first.2 :
        Stepwise (Reader (RecordedLogStorage S)) _ _)).Emits
          (fun reader => appendedTo reader.logStorage) {first.1} := by
      unfold appendIfPeerableSteps
      split
      · exact Steps.Emits.zoom (fun _ _ => rfl)
          (appendPostSteps_emits signingKey first.2 articleCid first.1)
      · trivial
    rw [map_cons, ← Multiset.cons_coe, ← Multiset.singleton_add]
    refine emits_bind log fun _ => emits_bind_silent (emits_atom fun s => ?_) fun _ =>
      emits_bind_last ih fun _ => trivial
    rw [Reader.onArticleNumbers, Prog.exec_zoom]

theorem appendToGroupsSteps_emits (hlcTimestamps : List UInt64) (articleCid : Cid)
    (signingKey : SigningKey) (newsgroups : List GroupName) (source : InjectionSource) :
    (run (appendToGroupsSteps ed hlcTimestamps articleCid signingKey newsgroups source :
      Stepwise (Reader (RecordedLogStorage S)) _ _)).Emits
        (fun reader => appendedTo reader.logStorage) newsgroups := by
  unfold appendToGroupsSteps
  split
  · trivial
  · next lengths =>
    have named : (newsgroups.zip hlcTimestamps).map Prod.fst = newsgroups :=
      map_fst_zip (Nat.le_of_eq (not_not.mp lengths).symm)
    have each := @appendToEachSteps_emits S ed _ articleCid signingKey source
      (newsgroups.zip hlcTimestamps)
    rw [named] at each
    exact emits_bind_last each fun _ => trivial

def KeepsRows (s s' : ServerStores S I) : Prop :=
  ∀ row ∈ s.msgidMap.tables.rows, row ∈ s'.msgidMap.tables.rows

omit [LogStorage S] in
theorem keepsRows_of_tables {x : Prog MsgIdMap Response Unit}
    (same : ∀ map, (x.exec map).2.tables = map.tables) (s : ServerStores S I) :
    KeepsRows s ((onMsgidMap x).exec s).2 := by
  intro row present
  rw [onMsgidMap, Prog.exec_zoom]
  exact (same s.msgidMap).symm ▸ present

omit [LogStorage S] in
theorem keepsRows_insert (messageId : String) (cid : Cid) (f : StorageError → Response)
    (s : ServerStores S I) :
    KeepsRows s ((onMsgidMap ((MsgIdMap.insert messageId cid).mapError f)).exec s).2 := by
  intro row present
  rw [onMsgidMap, Prog.exec_zoom, Prog.exec_mapError]
  rcases MsgIdMap.insert_cases messageId cid s.msgidMap with
    ⟨-, e, map', run, same⟩ | ⟨-, map', run, tables⟩
  · rw [run]
    exact same.symm ▸ present
  · rw [run]
    dsimp only
    rw [tables, Table.rows_insertOrIgnore]
    split
    · exact present
    · exact mem_append_left _ present

variable [IpfsBlockStore I] (lib : Libraries) (config : ServerConfig)

theorem postSteps_keepsRows (readings : Readings) (request : PostRequest) :
    (run (postSteps lib config readings request :
      Stepwise (ServerStores S I) _ _)).Always KeepsRows := by
  refine always_bind (always_bind trivial fun headers => ?_) fun admitted => ?_
  · refine always_bind (always_atom (keepsRows_of_tables fun map =>
      (checkDuplicateMsgid_outcome headers.1 map).1)) fun _ => ?_
    refine always_bind (always_atom fun s row present => present) fun hlcTimestamps => ?_
    exact always_bind (always_atom (keepsRows_of_tables fun map =>
      (recheckMsgid_outcome headers.1 map).1)) fun _ => trivial
  · refine always_bind trivial fun built => ?_
    refine always_bind (Steps.always_zoom (fun _ _ _ present => present) _) fun _ => ?_
    refine always_bind (always_atom (keepsRows_insert admitted.1.1 built.rootCid _)) fun _ => ?_
    exact always_bind (Steps.always_zoom (fun _ _ _ present => present) _) fun _ => trivial

def Refused (r : Except Response PostAuditMeta) : Prop := (answerOf r).code ≠ 240

theorem refused_of_refusal {response : Response} (refusal : Refusal response) :
    Refused (.error response) := by
  intro accepted
  rcases refusal with code | code
  · exact absurd (code.symm.trans accepted) (by decide)
  · exact absurd (code.symm.trans accepted) (by decide)

/-- A post appends and is accepted only after its own article is in the Message-ID map. -/
theorem steps_guarded {calls : List Call} {messageId : String} {i : Nat} {call : Call}
    (here : calls[i]? = some call) {newsgroups : List GroupName}
    (checked : ∀ id groups, checkPost lib config call.readings call.request = .ok (id, groups) →
      id = messageId ∧ groups = newsgroups) : (call.steps lib config :
      Steps (ServerStores (RecordedLogStorage S) I) (Except Response PostAuditMeta)).Guarded
        (fun s => appendedTo s.reader.logStorage) (Owns lib config calls messageId i)
        newsgroups Refused := by
  have refuses {x : Prog (ServerStores (RecordedLogStorage S) I) Response Unit}
      (errors : Prog.ErrorsIn Refusal x) : Prog.ErrorsIn (fun e => Refused (.error e)) x :=
    fun s e s' run => refused_of_refusal (errors s e s' run)
  unfold Call.steps postSteps admitSteps finishSteps
  rw [bind_assoc]
  refine guarded_bind_ofExcept (fun e failed => refused_of_refusal
    (checkPost_refuses lib config call.readings call.request e failed)) fun headers passed => ?_
  obtain ⟨rfl, rfl⟩ := checked headers.1 headers.2 passed
  simp only [bind_assoc, pure_bind]
  -- The look-ups and the clock append nothing.
  refine guarded_bind (silent_atom (fun s => rfl) (refuses
    (checkDuplicateMsgid_refuses headers.1).zoom)) fun _ => ?_
  refine guarded_bind (silent_atom (fun s => rfl) (by rintro s e s' ⟨⟩)) fun hlcTimestamps => ?_
  refine guarded_bind (silent_atom (fun s => rfl) (refuses
    (recheckMsgid_refuses headers.1).zoom)) fun _ => ?_
  refine guarded_bind_ofExcept (fun e failed => ?_) fun built build => ?_
  · exact refused_of_refusal (refusesIn_mapError (fun _ => refusal_441 _) _ e failed)
  refine guarded_bind (silent_zoom_mapError (by intro _ _; rfl)
    (by intro _; exact refused_of_refusal (refusal_441 _)) _) fun _ => ?_
  -- The insertion into the map makes the post the owner.
  refine guarded_bind_owner (fun s => rfl) (refuses
    (Prog.errorsIn_mapError (fun _ => refusal_441 _) _).zoom) (fun s a s' run => ?_) fun _ => ?_
  · obtain ⟨map', inserted, rfl⟩ := Prog.of_exec_zoom run
    refine ⟨call, built, here, ⟨headers.2, _, passed, mapError_eq_ok.mp build⟩, ?_⟩
    exact (insertMsgid_outcome headers.1 built.rootCid _ s.msgidMap).of_exec inserted
  · exact emits_bind_last (Steps.Emits.zoom (fun _ _ => rfl)
      (appendToGroupsSteps_emits _ _ _ _ _)) fun _ => trivial

end Steps

section Schedules

variable {S I : Type} [LogStorage S] [IpfsBlockStore I] {calls : List Call} {messageId : String}

def Call.groups (call : Call) : List GroupName :=
  match checkPost lib config call.readings call.request with
  | .ok (_, newsgroups) => newsgroups
  | .error _ => []

def rowOwnership (different : calls.Pairwise (Different lib config messageId))
    (nodup : ∀ call ∈ calls, (call.groups lib config).Nodup) :
    Threads.Ownership (ServerStores (RecordedLogStorage S) I) (Except Response PostAuditMeta)
      GroupName where
  seen s := appendedTo s.reader.logStorage
  owns := Owns lib config calls messageId
  kept := KeepsRows
  budget i := ((calls[i]?.map (Call.groups lib config)).getD [] : List GroupName)
  fails := Refused
  stays := fun i s s' kept ⟨call, built, here, mayBuild, row⟩ =>
    ⟨call, built, here, mayBuild, kept _ row⟩
  sole := owns_sole different
  nodup i := by
    cases here : calls[i]? with
    | none => exact nodup_nil
    | some call => exact nodup call (mem_of_getElem? here)

end Schedules

section Race

variable {S I : Type}

/-- Nothing fails, and the Message-ID is mapped to nothing but `rootCid`. -/
structure Calm (messageId : String) (rootCid : Cid) (s : ServerStores S MemIpfsStore) : Prop where
  map : s.msgidMap.faults = []
  store : s.ipfsStore.faults = []
  numbers : s.reader.articleNumbers.faults = []
  agrees : ¬ s.msgidMap.Conflicts messageId rootCid

theorem insert_calm {messageId : String} {rootCid : Cid} {map : MsgIdMap} (faultless : map.faults = [])
    (agrees : ¬ map.Conflicts messageId rootCid) :
    ∃ map', (MsgIdMap.insert messageId rootCid).exec map = (.ok (), map') ∧ map'.faults = [] ∧
      ¬ map'.Conflicts messageId rootCid := by
  rcases map with ⟨tables, faults⟩
  obtain rfl : faults = [] := faultless
  have run := @MsgIdMap.exec_query ⟨tables, []⟩ _ _ (fun rows =>
      (MsgIdMap.rowsOf messageId (rows.insertOrIgnore ⟨messageId, rootCid.toBytes⟩),
        rows.insertOrIgnore ⟨messageId, rootCid.toBytes⟩)) (fun stored =>
      if stored.all fun r => decide (r.cid = rootCid.toBytes) then pure ()
      else throw (.database ("message-id " ++ MsgIdMap.debugStr messageId ++
        " already mapped to a different CID"))) rfl
  have same : ∀ row ∈ (tables.insertOrIgnore ⟨messageId, rootCid.toBytes⟩).rows,
      row.messageId = messageId → row.cid = rootCid.toBytes := by
    intro row present named
    rw [Table.rows_insertOrIgnore] at present
    split at present
    · by_contra other
      exact agrees ⟨row, present, named, other⟩
    · rcases mem_append.mp present with old | new
      · by_contra other
        exact agrees ⟨row, old, named, other⟩
      · rw [mem_singleton.mp new]
  refine ⟨⟨tables.insertOrIgnore ⟨messageId, rootCid.toBytes⟩, []⟩, ?_, rfl, ?_⟩
  · refine run.trans ?_
    rw [if_pos]
    · rfl
    · simpa [MsgIdMap.rowsOf, Table.select, or_iff_not_imp_left] using same
  · rintro ⟨row, present, named, other⟩
    exact other (same row present named)

theorem admit_calm {call : Call} {messageId : String} {newsgroups : List GroupName}
    {stores : ServerStores S I}
    (checked : checkPost lib config call.readings call.request = .ok (messageId, newsgroups))
    (faultless : stores.msgidMap.faults = []) (fresh : ¬ stores.msgidMap.Known messageId) :
    (admitSteps lib config call.readings call.request).exec stores = (.ok ((messageId, newsgroups),
        (sendTimestamps call.readings.hlcMs newsgroups stores.clock).1),
        { stores with clock := (sendTimestamps call.readings.hlcMs newsgroups stores.clock).2 }) := by
  have lookup := MsgIdMap.lookupByMsgid_fresh faultless fresh
  simp only [admitSteps, checked, exec_bind, exec_ofExcept, exec_atom,
    checkDuplicateMsgid, recheckMsgid, onMsgidMap, onClock, Prog.exec_bind, Prog.exec_zoom,
    Prog.exec_mapError, lookup, Prog.exec_pure, Prog.exec_ofExec, exec_pure]

variable [LogStorage S]

theorem finish_calm {call : Call} {messageId : String} {newsgroups : List GroupName}
    {hlcTimestamps : List UInt64} {built : BuiltArticle} {s : ServerStores S MemIpfsStore}
    (build : call.build lib config messageId newsgroups
      (hlcTimestamps.head?.getD call.readings.hlcMs) = .ok built)
    (stamped : hlcTimestamps.length = newsgroups.length)
    (stays : (injectionSource call.request).isPeerable = false) (calm : Calm messageId built.rootCid s) :
    ∃ audit s', (finishSteps lib config call.readings call.request
        ((messageId, newsgroups), hlcTimestamps)).exec s =
      (.ok audit, s') ∧ Calm messageId built.rootCid s' := by
  obtain ⟨store', written, storeCalm⟩ := @putBlocks_mem built.blocks s.ipfsStore calm.store
  obtain ⟨map', inserted, mapCalm, agrees⟩ := insert_calm calm.map calm.agrees
  obtain ⟨result, reader', appended, numbersCalm⟩ := @appendToGroups_local lib.ed S _ _ _
    (injectionSource call.request) s.reader stays calm.numbers stamped built.rootCid config.signingKey
  refine ⟨⟨messageId, String.intercalate "," (newsgroups.map GroupName.asStr),
    built.rootCid.toString⟩, ⟨reader', map', store', s.clock⟩, ?_, mapCalm, storeCalm, numbersCalm,
    agrees⟩
  unfold Call.build at build
  simp only [finishSteps, exec_bind, exec_ofExcept, build, Except.mapError,
    exec_zoom lens_ipfsStore, exec_mapError, putBlocksSteps_refines built.blocks _,
    written, exec_atom, onMsgidMap, Prog.exec_zoom, Prog.exec_mapError, inserted,
    exec_zoom lens_reader, appendToGroupsSteps_refines _ _ _ _ _ _, appended,
    exec_pure]

/-- Two posts of one article that both pass the look-ups before either is recorded are both
accepted, if the clock has stamped them alike. -/
theorem race_accepted {call : Call} {messageId : String} {newsgroups : List GroupName}
    {built : BuiltArticle} {stores : ServerStores S MemIpfsStore}
    (checked : checkPost lib config call.readings call.request = .ok (messageId, newsgroups))
    (stays : (injectionSource call.request).isPeerable = false)
    (fresh : ¬ stores.msgidMap.Known messageId) (calm : Calm messageId built.rootCid stores)
    (first : plannedArticle lib config call.readings call.request stores.clock messageId newsgroups =
      .ok built) (second : plannedArticle lib config call.readings call.request
      (sendTimestamps call.readings.hlcMs newsgroups stores.clock).2 messageId newsgroups = .ok built) :
    ∃ schedule audit audit',
      ((posting lib config [call, call] stores).run schedule).Returned 0 (.ok audit) ∧
        ((posting lib config [call, call] stores).run schedule).Returned 1 (.ok audit') := by
  let next (s : ServerStores (RecordedLogStorage S) MemIpfsStore) :=
    { s with clock := (sendTimestamps call.readings.hlcMs newsgroups s.clock).2 }
  let stamps (clock : HlcClock) := (sendTimestamps call.readings.hlcMs newsgroups clock).1
  let rest (clock : HlcClock) : Steps (ServerStores (RecordedLogStorage S) MemIpfsStore) _ :=
    run (finishSteps lib config call.readings call.request
      ((messageId, newsgroups), stamps clock))
  have admitted (s : ServerStores (RecordedLogStorage S) MemIpfsStore)
      (same : s.msgidMap = stores.msgidMap) :
      Steps.run (admitSteps lib config call.readings call.request) s =
        (.ok ((messageId, newsgroups), stamps s.clock), next s) :=
    admit_calm lib config checked (same ▸ calm.map) (same ▸ fresh)
  -- Both pass the look-ups.
  obtain ⟨n₀, run₀⟩ := @Threads.run_alone_bind _ _ _ (posting lib config [call, call] stores) 0 _ _
    rfl
  obtain ⟨n₁, run₁⟩ := @Threads.run_alone_bind _ _ _
    ⟨next (recorded stores), [rest stores.clock, call.steps lib config]⟩ 1 _ _ rfl
  rw [show (posting lib config [call, call] stores).state = recorded stores from rfl,
    admitted (recorded stores) rfl] at run₀
  dsimp only at run₁
  rw [admitted (next (recorded stores)) rfl] at run₁
  -- Then one after the other runs to its end.
  have started : Calm messageId built.rootCid (next (next (recorded stores))) :=
    ⟨calm.map, calm.store, calm.numbers, calm.agrees⟩
  have length (clock : HlcClock) : (stamps clock).length = newsgroups.length :=
    length_sendTimestamps _ _ _
  obtain ⟨audit, s₂, finished, calm₂⟩ := finish_calm lib config first (length _) stays started
  obtain ⟨audit', s₃, finished', -⟩ := finish_calm lib config second (length _) stays calm₂
  obtain ⟨n₂, run₂⟩ := @Threads.run_alone _ _ ⟨next (next (recorded stores)),
    [rest stores.clock, rest (next (recorded stores)).clock]⟩ 0 _ rfl
  obtain ⟨n₃, run₃⟩ := @Threads.run_alone _ _ ⟨s₂,
    [.done (.ok audit), rest (next (recorded stores)).clock]⟩ 1 _ rfl
  have ended : (rest stores.clock).run (next (next (recorded stores))) = (.ok audit, s₂) := finished
  have ended' : (rest (next (recorded stores)).clock).run s₂ = (.ok audit', s₃) := finished'
  rw [ended] at run₂
  rw [ended'] at run₃
  refine ⟨List.replicate n₀ 0 ++ List.replicate n₁ 1 ++ List.replicate n₂ 0 ++ List.replicate n₃ 1,
    audit, audit', ?_⟩
  have final : (posting lib config [call, call] stores).run (List.replicate n₀ 0 ++
      List.replicate n₁ 1 ++ List.replicate n₂ 0 ++ List.replicate n₃ 1) =
        ⟨s₃, [.done (.ok audit), .done (.ok audit')]⟩ := by
    rw [run_append, run_append, run_append, run₀]
    exact ((congrArg (fun c => run _ (run _ c)) run₁).trans
      (congrArg (run _) run₂)).trans run₃
  rw [final]
  exact ⟨rfl, rfl⟩

end Race

end General

namespace Sample

def plainCall : Call := ⟨request [], readings⟩

def emptyCall : Call := ⟨{ request [] with articleBytes := [] }, readings⟩

theorem plain_local : (injectionSource (request [])).isPeerable = false := by decide +kernel

end Sample

namespace Sample

theorem plain_has_body : (plainCall.parts (lib [] plainSig) config).2.length ≠ 0 := by
  unfold Call.parts plainCall
  rw [plain_rewritten]
  decide +kernel

theorem empty_refused (id : String) (groups : List GroupName) :
    checkPost (lib [] plainSig) config readings emptyCall.request ≠ .ok (id, groups) := by
  have refused : (checkPost (lib [] plainSig) config readings emptyCall.request).toOption = none := by
    decide +kernel
  intro passed
  rw [passed] at refused
  cases refused

theorem plain_differs : Different (lib [] plainSig) config messageId plainCall emptyCall := by
  refine ⟨fun same => ?_, ?_⟩
  · have empty : (emptyCall.parts (lib [] plainSig) config).2.length = 0 := by decide +kernel
    rw [← same] at empty
    exact plain_has_body empty
  · rintro _ _ - ⟨newsgroups, _, checked, -⟩
    exact absurd checked (empty_refused _ _)

end Sample

end Stoa.Post
