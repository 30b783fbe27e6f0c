import Stoa.Mail.ActivityPub.Inbound
import Stoa.Reader.PostPipeline

/-! Activities that remote actors post to a group: they follow it, stop following it, or send a note
that becomes an article. -/
namespace Stoa.ActivityPub

open List Prog
open Post (ServerStores IpfsBlockStore)

structure Follower where
  groupName : Chars
  actorUrl : Chars
  inboxUrl : Chars
  followedAt : Nat
  deriving DecidableEq

def Follower.key (f : Follower) : Chars × Chars := (f.groupName, f.actorUrl)

abbrev FollowerStore := AnyPool (Table Follower Follower.key)

namespace FollowerStore

def Follows (store : FollowerStore) (groupName actorUrl : Chars) : Prop :=
  (groupName, actorUrl) ∈ store.tables.rows.map Follower.key

instance (store : FollowerStore) (groupName actorUrl : Chars) :
    Decidable (store.Follows groupName actorUrl) :=
  inferInstanceAs (Decidable ((groupName, actorUrl) ∈ store.tables.rows.map Follower.key))

def isRow (groupName actorUrl : Chars) (f : Follower) : Bool := f.key == (groupName, actorUrl)

def add (nowSecs : Nat) (groupName actorUrl inboxUrl : Chars) : Prog FollowerStore String Unit :=
  AnyPool.transaction fun rows =>
    let updated := rows.update (isRow groupName actorUrl)
      (fun f => { f with inboxUrl, followedAt := nowSecs }) fun _ => rfl
    ((), updated.insertOrIgnore ⟨groupName, actorUrl, inboxUrl, nowSecs⟩)

def remove (groupName actorUrl : Chars) : Prog FollowerStore String Unit :=
  AnyPool.transaction fun rows => ((), rows.delete (isRow groupName actorUrl))

def isFollower (groupName actorUrl : Chars) : Prog FollowerStore String Bool :=
  AnyPool.transaction fun rows =>
    (decide (0 < (rows.select (isRow groupName actorUrl)).length), rows)

variable {store : FollowerStore} {groupName actorUrl : Chars}

theorem isFollower_iff :
    store.Follows groupName actorUrl ↔ ∃ f ∈ store.tables.rows, f.key = (groupName, actorUrl) := by
  simp [Follows]

theorem follows_add {nowSecs : Nat} {inboxUrl g a : Chars} :
    ((add nowSecs groupName actorUrl inboxUrl).exec store).2.Follows g a ↔
      store.Follows g a ∨ (store.fault = none ∧ g = groupName ∧ a = actorUrl) := by
  rw [add, AnyPool.exec_transaction]
  cases faulty : store.fault with
  | some message => simp [Follows]
  | none =>
    -- An update keeps all keys, and the insertion adds the one of the new row.
    have keys : ∀ f : Follower, Follower.key (if isRow groupName actorUrl f then
        { f with inboxUrl, followedAt := nowSecs } else f) = f.key := by
      intro f
      split <;> rfl
    simp only [Follows, Table.rows_insertOrIgnore, Table.update, true_and]
    split
    · next present =>
      simp only [map_map, Function.comp_def, keys] at present ⊢
      constructor
      · exact .inl
      · rintro (old | ⟨rfl, rfl⟩)
        · exact old
        · exact present
    · simp only [map_append, map_map, Function.comp_def, keys, map_cons, map_nil,
        mem_append, mem_singleton]
      rw [Follower.key, Prod.mk.injEq]

theorem follows_remove {g a : Chars} : ((remove groupName actorUrl).exec store).2.Follows g a ↔
      store.Follows g a ∧ ¬(store.fault = none ∧ g = groupName ∧ a = actorUrl) := by
  rw [remove, AnyPool.exec_transaction]
  cases faulty : store.fault with
  | some message => simp [Follows]
  | none =>
    simp only [Follows, Table.delete, isRow, true_and, mem_map, mem_filter,
      Bool.not_eq_true', beq_eq_false_iff_ne]
    constructor
    · rintro ⟨f, ⟨row, other⟩, key⟩
      refine ⟨⟨f, row, key⟩, ?_⟩
      rintro ⟨rfl, rfl⟩
      exact other key
    · rintro ⟨⟨f, row, key⟩, other⟩
      refine ⟨f, ⟨row, ?_⟩, key⟩
      rw [key]
      rintro ⟨⟩
      exact other ⟨rfl, rfl⟩

theorem exec_isFollower (groupName actorUrl : Chars) (store : FollowerStore) :
    (isFollower groupName actorUrl).exec store = (match store.fault with
      | some message => .error message
      | none => .ok (decide (store.Follows groupName actorUrl)),
      ⟨store.tables, store.faults.tail⟩) := by
  rw [isFollower, AnyPool.exec_transaction]
  cases store.fault with
  | some message => rfl
  | none =>
    simp only [Prod.mk.injEq, Except.ok.injEq, and_true, decide_eq_decide, length_pos_iff_exists_mem,
      isFollower_iff]
    simp [Table.select, isRow]

end FollowerStore

structure ActivityPubConfig where
  enabled : Bool
  /-- The state below has been set up. -/
  hasState : Bool
  verifyHttpSignatures : Bool
  baseUrl : Chars

/-- The stores of the server; articles can be taken only with the stores of `jmap`. -/
structure ActivityPubState (S I : Type) where
  followerStore : FollowerStore
  receivedStore : ReceivedActivityStore
  pubKeyCache : PubKeyCache
  jmap : Option (ServerStores S I)

structure Libraries where
  rsa : Rsa
  json : JsonLib
  post : Post.Libraries

structure InboxReadings where
  web : Web
  nowSecs : Nat
  hlcMs : UInt64
  note : NoteReadings

structure InboxRequest where
  groupName : Chars
  headers : HeaderMap
  body : Bytes

abbrev StatusCode := Nat

namespace ActivityPubState

variable {S I ε α : Type}

def onFollowers (x : Prog FollowerStore ε α) : Prog (ActivityPubState S I) ε α :=
  x.zoom followerStore fun followerStore t => { t with followerStore }

def onReceived (x : Prog ReceivedActivityStore ε α) : Prog (ActivityPubState S I) ε α :=
  x.zoom receivedStore fun receivedStore t => { t with receivedStore }

def onPubKeyCache (x : Prog PubKeyCache ε α) : Prog (ActivityPubState S I) ε α :=
  x.zoom pubKeyCache fun pubKeyCache t => { t with pubKeyCache }

end ActivityPubState

open ActivityPubState

/-! A handler that stops early does so with its status as the error. -/

section Handlers

variable (lib : Libraries) (config : ActivityPubConfig) (readings : InboxReadings)
variable {S I : Type} [IpfsBlockStore I]

def fetchActorInbox (actorUrl : Chars) : Chars :=
  let fallback := actorUrl ++ "/inbox".toList
  match readActor lib.json (readings.web.get actorUrl) with
  | .ok actor => (actor.get "inbox").asStr.getD fallback
  | .error _ => fallback

def handleFollow (groupName : Chars) (activity : Json) :
    Prog (ActivityPubState S I) StatusCode StatusCode := do
  match (activity.get "actor").asStr with
  | none => throw 400
  | some actorUrl =>
    onFollowers ((FollowerStore.add readings.nowSecs groupName actorUrl
      (fetchActorInbox lib readings actorUrl)).mapError fun _ => 500)
    return 202

def handleUndoFollow (groupName : Chars) (followActivity : Json) :
    Prog (ActivityPubState S I) StatusCode StatusCode := do
  match (followActivity.get "actor").asStr with
  | none => throw 400
  | some actorUrl =>
    onFollowers ((FollowerStore.remove groupName actorUrl).mapError fun _ => 500)
    return 202

/-- The activity id, else the id of the note, else a hash of the note. -/
def dedupKey (activity : Json) : Chars :=
  let activityId := textField activity "id"
  let noteId := textField (activity.get "object") "id"
  if !activityId.isEmpty then activityId
  else if !noteId.isEmpty then noteId
  else "sha256:".toList ++ (Multibase.hexEncode (Sha256.digest
    (lib.json.toVec (activity.get "object"))).toBytes).toList

def requireFollower (groupName actorUrl : Chars) : Prog (ActivityPubState S I) StatusCode Unit := do
  if actorUrl.isEmpty then throw 400
  let follows ← onFollowers ((FollowerStore.isFollower groupName actorUrl).mapError fun _ => 500)
  if follows then pure () else throw 403

/-- Whether an activity is to be taken. An error of the store does not stop it. -/
def isNewActivity (activity : Json) : Prog (ActivityPubState S I) StatusCode Bool := do
  let recorded ← onReceived ((ReceivedActivityStore.recordIfNew readings.nowSecs
    (dedupKey lib activity)).attempt)
  return match recorded with
    | .ok isNew => isNew
    | .error _ => true

def writeNote (groupName : Chars) (note : Json) : Prog (ServerStores S I) Response Cid :=
  let (messageId, newsgroups, articleBytes) :=
    noteToArticle readings.note note groupName config.baseUrl
  Post.writeIpldArticleToIpfs lib.post articleBytes (String.ofList messageId)
    (newsgroups.map String.ofList) readings.hlcMs []

/-- Write the article, if there are stores for it. A failure is logged, not answered; the
result is what the log says. -/
def injectNote (groupName : Chars) (note : Json) :
    Prog (ActivityPubState S I) StatusCode (Except Response Cid) :=
  Prog.ofExec fun state => match state.jmap with
    | none => (.error 503, state)
    | some stores =>
      let (logged, stores) := (writeNote lib config readings groupName note).exec stores
      (.ok logged, { state with jmap := some stores })

/-- The answer to a note, and the CID of its article if this call has written it. -/
def handleCreate (groupName : Chars) (activity : Json) :
    Prog (ActivityPubState S I) StatusCode (StatusCode × Option Cid) := do
  requireFollower groupName (textField activity "actor")
  let isNew ← isNewActivity lib readings activity
  if isNew then
    let logged ← injectNote lib config readings groupName (activity.get "object")
    return (202, logged.toOption)
  else return (202, none)

/-- The sender of the note follows the group, and the look-up tells. -/
structure PassesGate (groupName : Chars) (activity : Json) (state : ActivityPubState S I) : Prop where
  named : textField activity "actor" ≠ []
  answers : state.followerStore.fault = none
  follows : state.followerStore.Follows groupName (textField activity "actor")

def Taken (activity : Json) (state : ActivityPubState S I) : Prop :=
  state.receivedStore.fault = none → ¬ state.receivedStore.Has (dedupKey lib activity)

def afterRecording (activity : Json) (state : ActivityPubState S I) : ActivityPubState S I :=
  { state with
    followerStore := ⟨state.followerStore.tables, state.followerStore.faults.tail⟩
    receivedStore := ((ReceivedActivityStore.recordIfNew readings.nowSecs
      (dedupKey lib activity)).exec state.receivedStore).2 }

variable {groupName : Chars} {activity : Json} {state : ActivityPubState S I}

omit [IpfsBlockStore I] in
theorem exec_requireFollower (passes : PassesGate groupName activity state) :
    (requireFollower groupName (textField activity "actor")).exec state =
      (.ok (), { state with
        followerStore := ⟨state.followerStore.tables, state.followerStore.faults.tail⟩ }) := by
  have named : (textField activity "actor").isEmpty = false := by simpa using passes.named
  simp [requireFollower, named, onFollowers, exec_bind, exec_mapError,
    FollowerStore.exec_isFollower, passes.answers, passes.follows]

omit [IpfsBlockStore I] in
theorem exec_isNewActivity (activity : Json) (state : ActivityPubState S I) :
    ∃ isNew, (isNew = true ↔ Taken lib activity state) ∧
      (isNewActivity lib readings activity).exec state = (.ok isNew, { state with
        receivedStore := ((ReceivedActivityStore.recordIfNew readings.nowSecs
          (dedupKey lib activity)).exec state.receivedStore).2 }) := by
  simp only [isNewActivity, exec_bind, onReceived, exec_zoom, exec_attempt,
    exec_pure, ReceivedActivityStore.exec_recordIfNew, Taken]
  cases state.receivedStore.fault with
  | some message => exact ⟨true, by simp, rfl⟩
  | none => exact ⟨!decide (state.receivedStore.Has (dedupKey lib activity)), by simp, by simp⟩

theorem exec_handleCreate (passes : PassesGate groupName activity state) :
    ∃ isNew, (isNew = true ↔ Taken lib activity state) ∧
      (handleCreate lib config readings groupName activity).exec state =
        (if isNew then do
          let logged ← injectNote lib config readings groupName (activity.get "object")
          return (202, logged.toOption)
        else return (202, none) : Prog (ActivityPubState S I) StatusCode _).exec
          (afterRecording lib readings activity state) := by
  obtain ⟨isNew, taken, run⟩ := exec_isNewActivity lib readings activity { state with
    followerStore := ⟨state.followerStore.tables, state.followerStore.faults.tail⟩ }
  refine ⟨isNew, taken, ?_⟩
  rw [handleCreate, exec_bind_ok _ (exec_requireFollower passes), exec_bind_ok _ run]
  rfl

theorem handleCreate_refused (refused : ¬ PassesGate groupName activity state) :
    ∃ status store, (handleCreate lib config readings groupName activity).exec state =
      (.error status, { state with followerStore := store }) ∧ status ≠ 202 ∧
        store.tables = state.followerStore.tables := by
  have stops : ∃ status store, (requireFollower groupName (textField activity "actor")).exec state =
      (.error status, { state with followerStore := store }) ∧ status ≠ 202 ∧
        store.tables = state.followerStore.tables := by
    by_cases named : textField activity "actor" = []
    · refine ⟨400, state.followerStore, ?_, by decide, rfl⟩
      simp [requireFollower, named]
    have nonempty : (textField activity "actor").isEmpty = false := by simpa using named
    cases faulty : state.followerStore.fault with
    | some message =>
      refine ⟨500, ⟨state.followerStore.tables, state.followerStore.faults.tail⟩, ?_, by decide, rfl⟩
      simp [requireFollower, nonempty, onFollowers, exec_bind, exec_mapError,
        FollowerStore.exec_isFollower, faulty]
    | none =>
      have stranger : ¬ state.followerStore.Follows groupName (textField activity "actor") :=
        fun follows => refused ⟨named, faulty, follows⟩
      refine ⟨403, ⟨state.followerStore.tables, state.followerStore.faults.tail⟩, ?_, by decide, rfl⟩
      simp [requireFollower, nonempty, onFollowers, exec_bind, exec_mapError,
        FollowerStore.exec_isFollower, faulty, stranger]
  obtain ⟨status, store, run, rest⟩ := stops
  exact ⟨status, store, exec_bind_error _ run, rest⟩

theorem handleCreate_duplicate
    (passes : PassesGate groupName activity state) (known : ¬ Taken lib activity state) :
    (handleCreate lib config readings groupName activity).exec state =
      (.ok (202, none), afterRecording lib readings activity state) := by
  obtain ⟨isNew, taken, run⟩ := exec_handleCreate lib config readings passes
  obtain rfl : isNew = false := by simpa [known] using taken
  rw [run]
  rfl

theorem handleCreate_unavailable (passes : PassesGate groupName activity state)
    (taken : Taken lib activity state) (missing : state.jmap = none) :
    (handleCreate lib config readings groupName activity).exec state =
      (.error 503, afterRecording lib readings activity state) := by
  obtain ⟨isNew, isTaken, run⟩ := exec_handleCreate lib config readings passes
  obtain rfl : isNew = true := isTaken.mpr taken
  have still : (afterRecording lib readings activity state).jmap = none := missing
  rw [run, if_pos rfl, exec_bind, injectNote, exec_ofExec, still]

theorem handleCreate_written {stores stores' : ServerStores S I} {logged : Except Response Cid}
    (passes : PassesGate groupName activity state) (taken : Taken lib activity state)
    (available : state.jmap = some stores)
    (written : (writeNote lib config readings groupName (activity.get "object")).exec stores =
      (logged, stores')) : (handleCreate lib config readings groupName activity).exec state =
      (.ok (202, logged.toOption),
        { afterRecording lib readings activity state with jmap := some stores' }) := by
  obtain ⟨isNew, isTaken, run⟩ := exec_handleCreate lib config readings passes
  obtain rfl : isNew = true := isTaken.mpr taken
  have still : (afterRecording lib readings activity state).jmap = some stores := available
  rw [run, if_pos rfl, exec_bind, injectNote, exec_ofExec, still]
  simp only [written]
  rfl

def inboxPath (groupName : Chars) : Chars :=
  "/ap/groups/".toList ++ groupName ++ "/inbox".toList

/-- Refuse a request whose signature does not verify. Whose signature it is, is only logged. -/
def requireSignature (request : InboxRequest) : Prog (ActivityPubState S I) StatusCode Unit := do
  if config.verifyHttpSignatures then
    let _actor ← onPubKeyCache ((verifyHttpSignature lib.rsa lib.json readings.web "post".toList
      (inboxPath request.groupName) request.headers request.body).mapError fun _ => 401)
  else pure ()

def dispatchActivity (groupName : Chars) (activity : Json) :
    Prog (ActivityPubState S I) StatusCode StatusCode :=
  let activityType := textField activity "type"
  if activityType = "Follow".toList then handleFollow lib readings groupName activity
  else if activityType = "Undo".toList then
    if ((activity.get "object").get "type").asStr = some "Follow".toList then
      handleUndoFollow groupName (activity.get "object")
    else pure 202
  else if activityType = "Create".toList then do
    let (status, _) ← handleCreate lib config readings groupName activity
    return status
  else pure 202

def handleRequest (request : InboxRequest) : Prog (ActivityPubState S I) StatusCode StatusCode := do
  if !config.enabled then throw 404
  else if !config.hasState then throw 503
  else
    let activity ← Prog.ofExcept ((lib.json.fromSlice request.body).mapError fun _ => 400)
    requireSignature lib config readings request
    dispatchActivity lib config readings request.groupName activity

def inboxHandler (request : InboxRequest) (state : ActivityPubState S I) :
    StatusCode × ActivityPubState S I :=
  match (handleRequest lib config readings request).exec state with
  | (.ok status, state) => (status, state)
  | (.error status, state) => (status, state)

end Handlers

end Stoa.ActivityPub
