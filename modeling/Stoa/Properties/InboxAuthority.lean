import Stoa.Core.GroupLog.MemStorage
import Stoa.Lib.Runs
import Stoa.Properties.SignedRequests

/-! Over any run of requests, everything is done in the name of the signer exactly if every verified
request that takes effect names its signer as the actor; and what it takes for every note answered
with 202 to have been written. -/
namespace Stoa.ActivityPub

open ActivityPubState Prog FollowerStore

open Post (ServerStores IpfsBlockStore)

abbrev Call := InboxReadings × InboxRequest

section Calls

variable (lib : Libraries) (config : ActivityPubConfig) {S I : Type} [IpfsBlockStore I]

def serve (call : Call) (state : ActivityPubState S I) : StatusCode × ActivityPubState S I :=
  inboxHandler lib config call.1 call.2 state

def verifiedAs (call : Call) (state : ActivityPubState S I) : Except String Chars :=
  ((verifyHttpSignature lib.rsa lib.json call.1.web "post".toList (inboxPath call.2.groupName)
    call.2.headers call.2.body).exec state.pubKeyCache).1

def ActivityPubState.Holds (state : ActivityPubState S I) (messageId : String) : Prop :=
  ∃ stores ∈ state.jmap, stores.msgidMap.Known messageId

/-- What a request has done in the name of an actor: it has made the actor follow a group or
stop to, or has stored a note that the actor is said to have sent. -/
inductive ActsFor (call : Call) (before after : ActivityPubState S I) (actor : Chars) : Prop
  | follower (groupName : Chars) (changed : ¬(after.followerStore.Follows groupName actor ↔
      before.followerStore.Follows groupName actor))
  | note (activity : Json) (messageId : String)
      (parsed : lib.json.fromSlice call.2.body = .ok activity)
      (sender : textField activity "actor" = actor) (stored : after.Holds messageId)
      (fresh : ¬ before.Holds messageId)

def Authorised (call : Call) (state : ActivityPubState S I) : Prop :=
  ∀ actor, ActsFor lib call state (serve lib config call state).2 actor →
    verifiedAs lib call state = .ok actor

inductive TakesEffect (readings : InboxReadings) (groupName : Chars) (activity : Json)
    (state : ActivityPubState S I) (actor : Chars) : Prop
  | follow (kind : textField activity "type" = "Follow".toList)
      (named : (activity.get "actor").asStr = some actor)
      (stranger : ¬ state.followerStore.Follows groupName actor)
      (answers : state.followerStore.fault = none)
  | undo (kind : textField activity "type" = "Undo".toList)
      (inner : ((activity.get "object").get "type").asStr = some "Follow".toList)
      (named : ((activity.get "object").get "actor").asStr = some actor)
      (follows : state.followerStore.Follows groupName actor)
      (answers : state.followerStore.fault = none)
  | create (kind : textField activity "type" = "Create".toList)
      (named : textField activity "actor" = actor) (passes : PassesGate groupName activity state)
      (taken : Taken lib activity state) (stores : ServerStores S I)
      (available : state.jmap = some stores) (cid : Cid)
      (written : ((writeNote lib config readings groupName (activity.get "object")).exec stores).1 =
        .ok cid)

def NamesSigner (call : Call) (state : ActivityPubState S I) : Prop :=
  config.enabled = true → config.hasState = true →
    ∀ activity, lib.json.fromSlice call.2.body = .ok activity →
      ∀ signer, verifiedAs lib call state = .ok signer →
        ∀ actor, TakesEffect lib config call.1 call.2.groupName activity state actor → actor = signer

end Calls

section Changes

variable {lib : Libraries} {config : ActivityPubConfig} {readings : InboxReadings}
variable {S I : Type} [IpfsBlockStore I]

variable {groupName : Chars}

theorem known_writeNote {note : Json} {stores stores' : ServerStores S I} {logged : Except Response Cid}
    (run : (writeNote lib config readings groupName note).exec stores = (logged, stores')) :
    (∃ cid, logged = .ok cid) ↔ ∃ id, stores'.msgidMap.Known id ∧ ¬ stores.msgidMap.Known id := by
  have outcome := (Post.writeIpldArticleToIpfs_outcome lib.post _ _ _ _ _ stores).of_exec run
  cases logged with
  | error e =>
    constructor
    · rintro ⟨cid, ⟨⟩⟩
    · rintro ⟨id, now, fresh⟩
      exact absurd (outcome.2 id now) fresh
  | ok cid =>
    obtain ⟨-, built, map', -, -, -, rechecked, inserted⟩ := outcome
    refine iff_of_true ⟨cid, rfl⟩ ⟨_, ?_, ((Post.recheckMsgid_outcome _ _).of_exec rechecked).2 rfl⟩
    exact ⟨_, (Post.insertMsgid_outcome _ _ _ map').of_exec inserted, rfl⟩

omit [IpfsBlockStore I] in
theorem state_handleFollow (groupName : Chars) (activity : Json) (state : ActivityPubState S I) :
    ((handleFollow lib readings groupName activity).exec state).2 =
      match (activity.get "actor").asStr with
      | none => state
      | some actorUrl => { state with
          followerStore := ((add readings.nowSecs groupName actorUrl
            (fetchActorInbox lib readings actorUrl)).exec state.followerStore).2 } := by
  unfold handleFollow
  cases (activity.get "actor").asStr with
  | none => rfl
  | some actorUrl =>
    simp only [exec_bind, onFollowers, exec_zoom, exec_mapError, exec_pure]
    rcases (add _ _ _ _).exec state.followerStore with ⟨_ | _, store⟩ <;> rfl

omit [IpfsBlockStore I] in
theorem state_handleUndoFollow (groupName : Chars) (follow : Json) (state : ActivityPubState S I) :
    ((handleUndoFollow groupName follow).exec state).2 =
      match (follow.get "actor").asStr with
      | none => state
      | some actorUrl => { state with
          followerStore := ((remove groupName actorUrl).exec state.followerStore).2 } := by
  unfold handleUndoFollow
  cases (follow.get "actor").asStr with
  | none => rfl
  | some actorUrl =>
    simp only [exec_bind, onFollowers, exec_zoom, exec_mapError, exec_pure]
    rcases (remove _ _).exec state.followerStore with ⟨_ | _, store⟩ <;> rfl

theorem followers_handleCreate (groupName : Chars) (activity : Json) (state : ActivityPubState S I) :
    ((handleCreate lib config readings groupName activity).exec state).2.followerStore.tables =
      state.followerStore.tables := by
  by_cases passes : PassesGate groupName activity state
  · by_cases taken : Taken lib activity state
    · cases available : state.jmap with
      | none => rw [handleCreate_unavailable lib config readings passes taken available]; rfl
      | some stores => rw [handleCreate_written lib config readings passes taken available rfl]; rfl
    · rw [handleCreate_duplicate lib config readings passes taken]
      rfl
  · obtain ⟨status, store, run, -, same⟩ := handleCreate_refused lib config readings passes
    rw [run]
    exact same

variable {before after : ActivityPubState S I}

omit [IpfsBlockStore I] in
theorem not_holds_of_jmap (same : after.jmap = before.jmap) :
    ¬ ∃ id, after.Holds id ∧ ¬ before.Holds id := by
  rintro ⟨id, ⟨stores, available, known⟩, fresh⟩
  exact fresh ⟨stores, same ▸ available, known⟩

theorem holds_handleCreate (groupName : Chars) (activity : Json) (state : ActivityPubState S I) :
    (∃ id, ((handleCreate lib config readings groupName activity).exec state).2.Holds id ∧
      ¬ state.Holds id) ↔ PassesGate groupName activity state ∧ Taken lib activity state ∧
      ∃ stores, state.jmap = some stores ∧ ∃ cid,
        ((writeNote lib config readings groupName (activity.get "object")).exec stores).1 = .ok cid := by
  by_cases passes : PassesGate groupName activity state
  swap
  · obtain ⟨status, store, run, -⟩ := handleCreate_refused lib config readings passes
    rw [run]
    exact iff_of_false (not_holds_of_jmap rfl) fun h => passes h.1
  by_cases taken : Taken lib activity state
  swap
  · rw [handleCreate_duplicate lib config readings passes taken]
    exact iff_of_false (not_holds_of_jmap rfl) fun h => taken h.2.1
  cases available : state.jmap with
  | none =>
    rw [handleCreate_unavailable lib config readings passes taken available]
    exact iff_of_false (not_holds_of_jmap rfl) (by simp)
  | some stores =>
    rw [handleCreate_written lib config readings passes taken available rfl]
    have known := known_writeNote (Prod.mk.eta (p :=
      (writeNote lib config readings groupName (activity.get "object")).exec stores)).symm
    simp only [ActivityPubState.Holds, available, Option.mem_some_iff, exists_eq_left', passes, taken,
      true_and, Option.some.injEq]
    exact known.symm

variable {actor : Chars}

theorem follower_added_iff {nowSecs : Nat} {actorUrl inboxUrl : Chars} {store : FollowerStore} :
    (∃ g, ¬(((add nowSecs groupName actorUrl inboxUrl).exec store).2.Follows g actor ↔
      store.Follows g actor)) ↔
      store.fault = none ∧ actor = actorUrl ∧ ¬ store.Follows groupName actor := by
  simp only [follows_add]
  constructor
  · rintro ⟨g, changed⟩
    by_cases old : store.Follows g actor
    · exact absurd (iff_of_true (.inl old) old) changed
    · by_cases new : store.fault = none ∧ g = groupName ∧ actor = actorUrl
      · obtain ⟨answers, rfl, rfl⟩ := new
        exact ⟨answers, rfl, old⟩
      · exact absurd (iff_of_false (by simp [old, new]) old) changed
  · rintro ⟨answers, rfl, stranger⟩
    exact ⟨groupName, fun same => stranger (same.mp (.inr ⟨answers, rfl, rfl⟩))⟩

theorem follower_removed_iff {actorUrl : Chars} {store : FollowerStore} :
    (∃ g, ¬(((remove groupName actorUrl).exec store).2.Follows g actor ↔
      store.Follows g actor)) ↔ store.fault = none ∧ actor = actorUrl ∧ store.Follows groupName actor := by
  simp only [follows_remove]
  constructor
  · rintro ⟨g, changed⟩
    by_cases old : store.Follows g actor
    · by_cases gone : store.fault = none ∧ g = groupName ∧ actor = actorUrl
      · obtain ⟨answers, rfl, rfl⟩ := gone
        exact ⟨answers, rfl, old⟩
      · exact absurd (iff_of_true ⟨old, gone⟩ old) changed
    · exact absurd (iff_of_false (fun h => old h.1) old) changed
  · rintro ⟨answers, rfl, follows⟩
    exact ⟨groupName, fun same => (same.mpr follows).2 ⟨answers, rfl, rfl⟩⟩

def Changes (activity : Json) (before after : ActivityPubState S I) (actor : Chars) : Prop :=
  (∃ g, ¬(after.followerStore.Follows g actor ↔ before.followerStore.Follows g actor)) ∨
    textField activity "actor" = actor ∧ ∃ id, after.Holds id ∧ ¬ before.Holds id

section Kinds

variable {groupName : Chars} {activity : Json} {state : ActivityPubState S I} {actor : Chars}

omit [IpfsBlockStore I] in
theorem changes_self : ¬ Changes activity state state actor := by
  rintro (⟨g, changed⟩ | ⟨-, new⟩)
  · exact changed Iff.rfl
  · exact not_holds_of_jmap rfl new

omit [IpfsBlockStore I] in
theorem changes_followers {store : FollowerStore} :
    Changes activity state { state with followerStore := store } actor ↔
      ∃ g, ¬(store.Follows g actor ↔ state.followerStore.Follows g actor) := by
  rw [Changes, or_iff_left]
  exact fun note => not_holds_of_jmap rfl note.2

theorem changes_follow (kind : textField activity "type" = "Follow".toList) :
    Changes activity state ((handleFollow lib readings groupName activity).exec state).2 actor ↔
      TakesEffect lib config readings groupName activity state actor := by
  have others : ∀ {other : Chars}, "Follow".toList ≠ other → textField activity "type" ≠ other :=
    fun differ same => differ (kind.symm.trans same)
  rw [state_handleFollow]
  cases named : (activity.get "actor").asStr with
  | none =>
    refine iff_of_false changes_self ?_
    rintro (⟨-, named', -⟩ | ⟨kind', -⟩ | ⟨kind', -⟩)
    · rw [named] at named'
      cases named'
    · exact others (by decide) kind'
    · exact others (by decide) kind'
  | some actorUrl =>
    rw [changes_followers, follower_added_iff]
    constructor
    · rintro ⟨answers, rfl, stranger⟩
      exact .follow kind named stranger answers
    · rintro (⟨-, named', stranger, answers⟩ | ⟨kind', -⟩ | ⟨kind', -⟩)
      · exact ⟨answers, Option.some.inj (named'.symm.trans named), stranger⟩
      · exact absurd kind' (others (by decide))
      · exact absurd kind' (others (by decide))

theorem changes_undo (kind : textField activity "type" = "Undo".toList)
    (inner : ((activity.get "object").get "type").asStr = some "Follow".toList) :
    Changes activity state ((handleUndoFollow groupName (activity.get "object")).exec state).2 actor ↔
      TakesEffect lib config readings groupName activity state actor := by
  have others : ∀ {other : Chars}, "Undo".toList ≠ other → textField activity "type" ≠ other :=
    fun differ same => differ (kind.symm.trans same)
  rw [state_handleUndoFollow]
  cases named : ((activity.get "object").get "actor").asStr with
  | none =>
    refine iff_of_false changes_self ?_
    rintro (⟨kind', -⟩ | ⟨-, -, named', -⟩ | ⟨kind', -⟩)
    · exact others (by decide) kind'
    · rw [named] at named'
      cases named'
    · exact others (by decide) kind'
  | some actorUrl =>
    rw [changes_followers, follower_removed_iff]
    constructor
    · rintro ⟨answers, rfl, follows⟩
      exact .undo kind inner named follows answers
    · rintro (⟨kind', -⟩ | ⟨-, -, named', follows, answers⟩ | ⟨kind', -⟩)
      · exact absurd kind' (others (by decide))
      · exact ⟨answers, Option.some.inj (named'.symm.trans named), follows⟩
      · exact absurd kind' (others (by decide))

theorem changes_create (kind : textField activity "type" = "Create".toList) :
    Changes activity state ((handleCreate lib config readings groupName activity).exec state).2
      actor ↔ TakesEffect lib config readings groupName activity state actor := by
  have others : ∀ {other : Chars}, "Create".toList ≠ other → textField activity "type" ≠ other :=
    fun differ same => differ (kind.symm.trans same)
  rw [Changes, holds_handleCreate, or_iff_right]
  · constructor
    · rintro ⟨named, passes, taken, stores, available, cid, written⟩
      exact .create kind named passes taken stores available cid written
    · rintro (⟨kind', -⟩ | ⟨kind', -⟩ | ⟨-, named, passes, taken, stores, available, cid, written⟩)
      · exact absurd kind' (others (by decide))
      · exact absurd kind' (others (by decide))
      · exact ⟨named, passes, taken, stores, available, cid, written⟩
  · rintro ⟨g, changed⟩
    rw [FollowerStore.Follows, followers_handleCreate] at changed
    exact changed Iff.rfl

theorem changes_iff :
    Changes activity state ((dispatchActivity lib config readings groupName activity).exec state).2
      actor ↔ TakesEffect lib config readings groupName activity state actor := by
  unfold dispatchActivity
  by_cases isFollow : textField activity "type" = "Follow".toList
  · rw [if_pos isFollow]
    exact changes_follow isFollow
  rw [if_neg isFollow]
  by_cases isUndo : textField activity "type" = "Undo".toList
  · rw [if_pos isUndo]
    by_cases inner : ((activity.get "object").get "type").asStr = some "Follow".toList
    · rw [if_pos inner]
      exact changes_undo isUndo inner
    · rw [if_neg inner, exec_pure]
      refine iff_of_false changes_self ?_
      rintro (⟨kind, -⟩ | ⟨-, inner', -⟩ | ⟨kind, -⟩)
      · exact isFollow kind
      · exact inner inner'
      · rw [isUndo] at kind
        exact absurd kind (by decide)
  rw [if_neg isUndo]
  by_cases isCreate : textField activity "type" = "Create".toList
  · rw [if_pos isCreate, ← changes_create isCreate, exec_bind]
    rcases (handleCreate lib config readings groupName activity).exec state with
      ⟨status | ⟨status, cid⟩, after⟩ <;> exact Iff.rfl
  · rw [if_neg isCreate, exec_pure]
    refine iff_of_false changes_self ?_
    rintro (⟨kind, -⟩ | ⟨kind, -⟩ | ⟨kind, -⟩)
    · exact isFollow kind
    · exact isUndo kind
    · exact isCreate kind

end Kinds

omit [IpfsBlockStore I] in
theorem actsFor_of_parsed {call : Call} {activity : Json}
    (parsed : lib.json.fromSlice call.2.body = .ok activity) :
    ActsFor lib call before after actor ↔ Changes activity before after actor := by
  constructor
  · rintro (⟨g, changed⟩ | ⟨activity', id, parsed', sender, stored, fresh⟩)
    · exact .inl ⟨g, changed⟩
    · obtain rfl : activity = activity' := Except.ok.inj (parsed.symm.trans parsed')
      exact .inr ⟨sender, id, stored, fresh⟩
  · rintro (⟨g, changed⟩ | ⟨sender, id, stored, fresh⟩)
    · exact .follower g changed
    · exact .note activity id parsed sender stored fresh

variable {state : ActivityPubState S I}

omit [IpfsBlockStore I] in
theorem actsFor_self {call : Call} : ¬ ActsFor lib call state state actor := by
  rintro (⟨g, changed⟩ | ⟨activity, id, -, -, stored, fresh⟩)
  · exact changed Iff.rfl
  · exact fresh stored

theorem takesEffect_cache {activity : Json} {cache : PubKeyCache} :
    TakesEffect lib config readings groupName activity { state with pubKeyCache := cache } actor ↔
      TakesEffect lib config readings groupName activity state actor := by
  constructor
  all_goals
    rintro (⟨kind, named, stranger, answers⟩ | ⟨kind, inner, named, follows, answers⟩ |
      ⟨kind, sender, passes, taken, stores, available, cid, written⟩)
    · exact .follow kind named stranger answers
    · exact .undo kind inner named follows answers
    · exact .create kind sender ⟨passes.named, passes.answers, passes.follows⟩ taken stores available
        cid written

theorem state_serve (call : Call) (state : ActivityPubState S I) : (serve lib config call state).2 =
      ((handleRequest lib config call.1 call.2).exec state).2 := by
  unfold serve inboxHandler
  rcases (handleRequest lib config call.1 call.2).exec state with ⟨_ | _, after⟩ <;> rfl

theorem actsFor_iff (signed : config.verifyHttpSignatures = true) (call : Call)
    (state : ActivityPubState S I) (actor : Chars) :
    ActsFor lib call state (serve lib config call state).2 actor ↔
      config.enabled = true ∧ config.hasState = true ∧
      ∃ activity signer, lib.json.fromSlice call.2.body = .ok activity ∧
        verifiedAs lib call state = .ok signer ∧
        TakesEffect lib config call.1 call.2.groupName activity state actor := by
  rw [state_serve, handleRequest]
  cases on : config.enabled with
  | false => exact iff_of_false actsFor_self (by simp)
  | true => cases has : config.hasState with
    | false => exact iff_of_false actsFor_self (by simp)
    | true =>
      simp only [Bool.not_true, Bool.false_eq_true, if_false, true_and]
      cases parsed : lib.json.fromSlice call.2.body with
      | error e => exact iff_of_false actsFor_self (by simp)
      | ok activity =>
        rw [exec_bind, Except.mapError, exec_ofExcept]
        simp only [requireSignature, if_pos signed, onPubKeyCache, exec_bind, exec_zoom,
          exec_mapError]
        rcases checked : (verifyHttpSignature lib.rsa lib.json call.1.web "post".toList
          (inboxPath call.2.groupName) call.2.headers call.2.body).exec state.pubKeyCache with
          ⟨e | signer, cache⟩
        · have unverified : verifiedAs lib call state = .error e := congrArg Prod.fst checked
          rw [unverified]
          refine iff_of_false (fun acts => ?_) (by simp)
          have changes := (actsFor_of_parsed parsed).mp acts
          exact @changes_self S I activity state actor changes
        · have verified : verifiedAs lib call state = .ok signer := congrArg Prod.fst checked
          have effect := (@changes_iff lib config call.1 S I _ call.2.groupName activity
            { state with pubKeyCache := cache } actor).trans takesEffect_cache
          rw [actsFor_of_parsed parsed, verified]
          refine Iff.trans effect ?_
          constructor
          · exact fun takes => ⟨activity, signer, rfl, rfl, takes⟩
          · rintro ⟨_, _, ⟨⟩, -, takes⟩
            exact takes

end Changes

/-- Everything is done in the name of the signer, over a whole run, exactly if every verified
request that takes effect names its signer. -/
theorem inbox_authorised_iff (lib : Libraries) (config : ActivityPubConfig) {S I : Type}
    [IpfsBlockStore I] (signed : config.verifyHttpSignatures = true) (calls : List Call)
    (state : ActivityPubState S I) : AlongRun (serve lib config) (Authorised lib config) calls state ↔
      AlongRun (serve lib config) (NamesSigner lib config) calls state := by
  have each : ∀ call (state : ActivityPubState S I),
      Authorised lib config call state ↔ NamesSigner lib config call state := by
    intro call state
    constructor
    · intro authorised on has activity parsed signer verified actor effect
      have acts := (actsFor_iff signed call state actor).mpr
        ⟨on, has, activity, signer, parsed, verified, effect⟩
      exact Except.ok.inj ((authorised actor acts).symm.trans verified)
    · intro names actor acts
      obtain ⟨on, has, activity, signer, parsed, verified, effect⟩ :=
        (actsFor_iff signed call state actor).mp acts
      rw [verified, names on has activity parsed signer verified actor effect]
  exact alongRun_congr each calls state

/-! The owner of the key of `s.example/a` sends a Follow, once in that name and once in another's. -/

namespace Sample

def followBody (actor : Chars) : Bytes :=
  Chars.asBytes ("\x7b\"type\":\"Follow\",\"actor\":\"".toList ++ actor ++ "\"\x7d".toList)

def followJson (actor : Chars) : JsonLib where
  fromSlice b := if b = followBody actor then
      .ok (.obj [("type".toList, .str "Follow".toList), ("actor".toList, .str actor)])
    else .error "expected value"
  toVec _ := []

def follow (actor : Chars) (sig : Bytes) : InboxRequest :=
  ⟨"a".toList, headers (followBody actor) sig postSpec [] named_nil, followBody actor⟩

def noIpld : IpldLib where
  toRfc3339 _ := none
  headerMapToVec _ := .error "unsupported"
  rootToVec _ := .error "unsupported"
  rootFromSlice _ := .error "unsupported"
  parseMime _ _ := none
  rootFromSlice_rootToVec _ _ encoded := by cases encoded

def followLib (actor : Chars) (sig : Bytes) : Libraries where
  rsa := rsa (signedText (follow actor sig) postSpec).asBytes sig
  json := followJson actor
  post := ⟨.ofSignatures (.fill 32 0) (.fill 32 1) [], .plain [], noIpld⟩

def config : ActivityPubConfig := ⟨true, true, true, "https://h.example".toList⟩

def noFollowers : ActivityPubState Unit Post.MemIpfsStore :=
  ⟨⟨Table.empty, []⟩, ⟨Table.empty, []⟩, cache, none⟩

def call (actor : Chars) (sig : Bytes) : Call := (⟨web, 0, 0, ⟨[], []⟩⟩, follow actor sig)

theorem verified_follow (actor : Chars) (sig : Bytes) :
    verifiedAs (followLib actor sig) (call actor sig) noFollowers = .ok "https://s.example/a".toList := by
  rw [verifiedAs]
  exact (verify_headers postSpec_plain postSpec_minimum rfl).trans (by decide)

theorem parsed_follow (actor : Chars) (sig : Bytes) :
    (followLib actor sig).json.fromSlice (call actor sig).2.body =
      .ok (.obj [("type".toList, .str "Follow".toList), ("actor".toList, .str actor)]) :=
  if_pos rfl

theorem effect_follow (actor : Chars) (sig : Bytes) :
    TakesEffect (followLib actor sig) config (call actor sig).1 "a".toList
      (.obj [("type".toList, .str "Follow".toList), ("actor".toList, .str actor)]) noFollowers actor :=
  .follow rfl rfl (by simp [noFollowers, FollowerStore.Follows, Table.empty]) rfl

def otherSig : Bytes :=
  [135, 48, 137, 203, 20, 187, 140, 229, 104, 161, 14, 251, 222, 208, 83, 53, 115, 210, 241, 97, 76, 158,
    250, 43, 241, 47, 7, 55, 128, 114, 248, 111, 65, 167, 202, 156, 92, 147, 67, 228, 203, 41, 76, 155,
    91, 43, 84, 232, 214, 194, 8, 142, 78, 15, 56, 202, 84, 243, 241, 215, 245, 121, 154, 47]

def otherActor : Chars := "https://a.example/b".toList

/-- The signer makes another actor follow the group. -/
theorem follows_for_another :
    verifiedAs (followLib otherActor otherSig) (call otherActor otherSig) noFollowers =
        .ok "https://s.example/a".toList ∧
      ActsFor (followLib otherActor otherSig) (call otherActor otherSig) noFollowers
        (serve (followLib otherActor otherSig) config (call otherActor otherSig) noFollowers).2
        otherActor ∧ ¬ AlongRun (serve (followLib otherActor otherSig) config)
        (Authorised (followLib otherActor otherSig) config) [call otherActor otherSig] noFollowers := by
  have verified := verified_follow otherActor otherSig
  have acts := (@actsFor_iff _ config _ _ _ rfl (call otherActor otherSig) noFollowers otherActor).mpr
    ⟨rfl, rfl, _, _, parsed_follow _ _, verified, effect_follow _ _⟩
  refine ⟨verified, acts, fun authorised => ?_⟩
  have own := Except.ok.inj (verified.symm.trans (authorised.1 _ acts))
  exact absurd own (by decide)

def ownSig : Bytes :=
  [191, 151, 133, 41, 248, 121, 206, 88, 253, 38, 181, 20, 142, 20, 117, 144, 249, 199, 234, 4, 231, 251,
    10, 12, 100, 248, 129, 138, 58, 215, 232, 234, 92, 119, 143, 25, 117, 163, 138, 3, 136, 149, 41, 63,
    214, 165, 151, 53, 108, 203, 104, 17, 192, 251, 103, 94, 151, 59, 146, 73, 66, 194, 53, 154]

def ownActor : Chars := "https://s.example/a".toList

/-- The signer follows the group. -/
theorem follows_for_itself :
    verifiedAs (followLib ownActor ownSig) (call ownActor ownSig) noFollowers = .ok ownActor ∧
      ActsFor (followLib ownActor ownSig) (call ownActor ownSig) noFollowers
        (serve (followLib ownActor ownSig) config (call ownActor ownSig) noFollowers).2 ownActor ∧
      AlongRun (serve (followLib ownActor ownSig) config)
        (Authorised (followLib ownActor ownSig) config) [call ownActor ownSig] noFollowers := by
  have verified := verified_follow ownActor ownSig
  have acts := (@actsFor_iff _ config _ _ _ rfl (call ownActor ownSig) noFollowers ownActor).mpr
    ⟨rfl, rfl, _, _, parsed_follow _ _, verified, effect_follow _ _⟩
  refine ⟨verified, acts, (inbox_authorised_iff _ config rfl _ _).mpr ⟨?_, trivial⟩⟩
  intro _ _ activity parsed signer verified' actor effect
  obtain rfl := Except.ok.inj ((parsed_follow _ _).symm.trans parsed)
  obtain rfl := Except.ok.inj (verified.symm.trans verified')
  rcases effect with ⟨-, named, -⟩ | ⟨kind, -⟩ | ⟨kind, -⟩
  · exact (Option.some.inj named).symm
  · exact absurd kind (by decide)
  · exact absurd kind (by decide)

end Sample

/-- One delivery: what it reads from the world outside, the group and the activity. -/
abbrev NoteCall := InboxReadings × Chars × Json

def NoteCall.note (call : NoteCall) : Json := call.2.2.get "object"

section Calls

variable (lib : Libraries) (config : ActivityPubConfig) {S I : Type} [IpfsBlockStore I]

/-- Answer a delivery, and keep account of the notes that have been written. -/
def receive (call : NoteCall) (s : ActivityPubState S I × List Json) :
    StatusCode × ActivityPubState S I × List Json :=
  match (handleCreate lib config call.1 call.2.1 call.2.2).exec s.1 with
  | (.error status, state) => (status, state, s.2)
  | (.ok (status, none), state) => (status, state, s.2)
  | (.ok (status, some _), state) => (status, state, call.note :: s.2)

def Kept (call : NoteCall) (s : ActivityPubState S I × List Json) : Prop :=
  (receive lib config call s).1 = 202 → call.note ∈ (receive lib config call s).2.2

structure TakesArticle (call : NoteCall) (stores : ServerStores S I) : Prop where
  answers : stores.msgidMap.Answers 2
  fresh : ¬ stores.msgidMap.Known
    (String.ofList (noteToArticle call.1.note call.note call.2.1 config.baseUrl).1)
  blocks : ∃ built, Post.buildSigned lib.post
      (noteToArticle call.1.note call.note call.2.1 config.baseUrl).2.2
      (String.ofList (noteToArticle call.1.note call.note call.2.1 config.baseUrl).1)
      ((noteToArticle call.1.note call.note call.2.1 config.baseUrl).2.1.map String.ofList)
      call.1.hlcMs [] = .ok built ∧
    ((Post.putBlocks built.blocks).exec stores.ipfsStore).1 = .ok ()

/-- A note that is let in and not written yet is taken for a new one, and can be written. -/
def FindsStores (call : NoteCall) (s : ActivityPubState S I × List Json) : Prop :=
  PassesGate call.2.1 call.2.2 s.1 → call.note ∉ s.2 →
    Taken lib call.2.2 s.1 ∧ ∀ stores, s.1.jmap = some stores → TakesArticle lib config call stores

end Calls

section Writing

variable {lib : Libraries} {config : ActivityPubConfig} {S I : Type} [IpfsBlockStore I]

theorem recheckMsgid_eq_ok {messageId : String} {map map' : MsgIdMap} :
    (Post.recheckMsgid messageId).exec map = (.ok (), map') ↔
      map.fault = none ∧ ¬ map.Known messageId ∧ map' = ⟨map.tables, map.faults.tail⟩ := by
  have passes : map.fault = none → ¬ map.Known messageId →
      (Post.recheckMsgid messageId).exec map = (.ok (), ⟨map.tables, map.faults.tail⟩) := by
    intro answers fresh
    exact Prog.exec_bind_ok _ (Prog.exec_mapError_ok _ (MsgIdMap.lookupByMsgid_new answers fresh))
  constructor
  · intro run
    have fresh := ((Post.recheckMsgid_outcome messageId map).of_exec run).2 rfl
    obtain ⟨found, mid, looked, -⟩ := Prog.of_exec_bind_ok run
    have answers := MsgIdMap.fault_of_lookupByMsgid (Prog.of_exec_mapError_ok looked)
    exact ⟨answers, fresh, congrArg Prod.snd (run.symm.trans (passes answers fresh))⟩
  · rintro ⟨answers, fresh, rfl⟩
    exact passes answers fresh

theorem writeNote_ok_iff (call : NoteCall) (stores : ServerStores S I) :
    (∃ cid, ((writeNote lib config call.1 call.2.1 call.note).exec stores).1 = .ok cid) ↔
      TakesArticle lib config call stores := by
  constructor
  · rintro ⟨cid, written⟩
    obtain ⟨-, built, map', builds, -, put, rechecked, inserted⟩ :=
      (Post.writeIpldArticleToIpfs_outcome lib.post _ _ _ _ _ stores).of_exec (Prod.ext written rfl)
    obtain ⟨first, fresh, rfl⟩ := recheckMsgid_eq_ok.mp rechecked
    have second := MsgIdMap.fault_of_insert (Prog.of_exec_mapError_ok inserted)
    refine ⟨?_, fresh, built, builds, congrArg Prod.fst put⟩
    rw [AnyPool.answers_succ, AnyPool.answers_succ]
    exact ⟨first, second, by simp [AnyPool.Answers]⟩
  · rintro ⟨answers, fresh, built, builds, put⟩
    rw [AnyPool.answers_succ, AnyPool.answers_succ] at answers
    obtain ⟨first, second, -⟩ := answers
    have returns := Post.writeIpldArticleToIpfs_returns lib.post
      (recheckMsgid_eq_ok.mpr ⟨first, fresh, rfl⟩) builds (Prod.ext put rfl)
      (Prog.exec_mapError_ok _ (MsgIdMap.insert_new built.rootCid second fresh))
    exact ⟨_, congrArg Prod.fst returns⟩

end Writing

section Delivery

variable {lib : Libraries} {config : ActivityPubConfig} {S I : Type} [IpfsBlockStore I]

theorem kept_iff (call : NoteCall) (s : ActivityPubState S I × List Json) :
    Kept lib config call s ↔ FindsStores lib config call s := by
  unfold Kept FindsStores receive
  by_cases passes : PassesGate call.2.1 call.2.2 s.1
  swap
  · -- Refused: the answer is not 202.
    obtain ⟨status, store, run, other, -⟩ := handleCreate_refused lib config call.1 passes
    rw [run]
    exact iff_of_true (fun same => absurd same other) fun h => absurd h passes
  by_cases taken : Taken lib call.2.2 s.1
  swap
  · -- Recorded before: 202, and nothing is written.
    rw [handleCreate_duplicate lib config call.1 passes taken]
    simp [passes, taken]
  cases available : s.1.jmap with
  | none =>
    rw [handleCreate_unavailable lib config call.1 passes taken available]
    simp [taken]
  | some stores =>
    have takes := @writeNote_ok_iff lib config S I _ call stores
    rcases written : (writeNote lib config call.1 call.2.1 call.note).exec stores with
      ⟨e | cid, stores'⟩
    · -- Not written: 202 all the same.
      rw [handleCreate_written lib config call.1 passes taken available written]
      have refuses : ¬ TakesArticle lib config call stores := by
        rw [← takes, written]
        rintro ⟨cid, ⟨⟩⟩
      simp [Except.toOption, passes, taken, refuses]
    · rw [handleCreate_written lib config call.1 passes taken available written]
      have written' : TakesArticle lib config call stores := takes.mp ⟨cid, congrArg Prod.fst written⟩
      simp [Except.toOption, taken, written']

end Delivery

/-- Over a whole run, every note that is answered with 202 has been written exactly if every
delivery of a note that is not written yet finds its key unrecorded and the stores in order. -/
theorem accepted_notes_kept_iff (lib : Libraries) (config : ActivityPubConfig) {S I : Type}
    [IpfsBlockStore I] (calls : List NoteCall) (state : ActivityPubState S I) :
    AlongRun (receive lib config) (Kept lib config) calls (state, []) ↔
      AlongRun (receive lib config) (FindsStores lib config) calls (state, []) :=
  alongRun_congr kept_iff calls _

/-! The database is locked when the note arrives, and answers again when it is delivered the
second time. -/

namespace Sample

def note : Json := .obj [("type".toList, .str "Note".toList), ("content".toList, .str "hi".toList)]

def create : Json :=
  .obj [("type".toList, .str "Create".toList), ("id".toList, .str "https://s.example/1".toList),
    ("actor".toList, .str ownActor), ("object".toList, note)]

def noteCall : NoteCall := (⟨web, 0, 0, ⟨[], []⟩⟩, "a".toList, create)

def locked : ActivityPubState MemLogStorage Post.MemIpfsStore where
  followerStore := ((FollowerStore.add 0 "a".toList ownActor []).exec ⟨Table.empty, []⟩).2
  receivedStore := ⟨Table.empty, []⟩
  pubKeyCache := ∅
  jmap := some ⟨⟨.new, .new⟩, ⟨Table.empty, [some "database is locked"]⟩, .new,
    .new (FixedBytes.fill 8 0) 0⟩

/-- Both deliveries are answered with 202, and the note is never written. -/
theorem note_lost_in_locked_database :
    (runAll (receive (followLib ownActor []) config) [noteCall, noteCall] (locked, [])).1 = [202, 202] ∧
      (runAll (receive (followLib ownActor []) config) [noteCall, noteCall] (locked, [])).2.2 = [] ∧
      ¬ AlongRun (receive (followLib ownActor []) config) (Kept (followLib ownActor []) config)
        [noteCall, noteCall] (locked, []) := by
  refine ⟨rfl, rfl, fun kept => ?_⟩
  have written : noteCall.note ∈ ([] : List Json) := kept.1 rfl
  cases written

end Sample

end Stoa.ActivityPub
