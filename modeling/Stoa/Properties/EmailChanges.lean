import Stoa.Smtp.Delivery

/-! `told_iff_timely`: the client has been told of every changed email exactly if each of them was
logged at least once under a state that the client had not been told yet. -/
namespace Stoa.Mail

open List Function

/-- An entry of the update map: the keywords it sets if it has any, whether it has mailbox ids, and
the error of the database when the flags are set. -/
structure EmailPatch where
  id : String
  keywords : Option (Bool × Bool)
  mailboxIds : Bool
  fault : Option String

structure EmailSetCall where
  destroy : List String
  update : List EmailPatch
  create : List (String × Except String String)
  getStateFault : Option String
  bumpFault : Option String
  recordCreatedFault : Option String
  recordUpdatedFault : Option String

inductive SetError
  | notPermitted
  | invalidArguments
  | serverFail (description : String)
  deriving DecidableEq, Repr

structure SetResult where
  oldState : Nat
  newState : Nat
  created : List String
  updated : List String
  notUpdated : List (String × SetError)
  notDestroyed : List (String × SetError)
  notCreated : List (String × String)

section EmailSet

variable (isCid : String → Bool)

def handleEmailSet (destroy : List String) (update : List EmailPatch) :
    List (String × SetError) × List (String × SetError) :=
  (destroy.map fun id => (id, .notPermitted),
    (update.filter EmailPatch.mailboxIds).map fun patch => (patch.id, .notPermitted))

def setFlags (patch : EmailPatch) : Option (Except (String × SetError) String) :=
  patch.keywords.map fun _ =>
    if !isCid patch.id then .error (patch.id, .invalidArguments)
    else match patch.fault with
      | some e => .error (patch.id, .serverFail e)
      | none => .ok patch.id

/-- The ids whose flags were set, and the entries that failed. -/
def handleKeywordUpdate (update : List EmailPatch) : List String × List (String × SetError) :=
  let outcomes := update.filterMap (setFlags isCid)
  (outcomes.filterMap fun outcome => match outcome with
      | .ok id => some id
      | .error _ => none,
    outcomes.filterMap fun outcome => match outcome with
      | .ok _ => none
      | .error e => some e)

def handleEmailCreate (create : List (String × Except String String)) :
    List String × List (String × String) :=
  (create.filterMap fun (_, outcome) => match outcome with
      | .ok id => some id
      | .error _ => none,
    create.filterMap fun (creationId, outcome) => match outcome with
      | .ok _ => none
      | .error e => some (creationId, e))

/-- What a call has written before it touches the state: the emails whose flags were set, those of
them that it reports as updated, and the emails that were created. -/
structure Written where
  flagged : List String
  updated : List String
  created : List String

def EmailSetCall.write (call : EmailSetCall) : Written :=
  let flagged := (handleKeywordUpdate isCid call.update).1
  -- An id must not appear in both updated and notUpdated.
  let refused := (handleEmailSet call.destroy call.update).2.map Prod.fst
  ⟨flagged, flagged.filter fun id => !refused.contains id, (handleEmailCreate call.create).1⟩

def Written.anyChanged (written : Written) : Bool := !written.updated.isEmpty || !written.created.isEmpty

def emailSet (userId : Nat) (call : EmailSetCall) (tables : MailTables) : SetResult × MailTables :=
  let oldState := getState userId "Email" call.getStateFault tables
  let written := call.write isCid
  let (newState, tables) := if written.anyChanged then
      bumpState userId "Email" call.bumpFault oldState tables
    else (oldState, tables)
  let tables := recordOrWarn userId written.created newState .created call.recordCreatedFault tables
  let tables := recordOrWarn userId written.updated newState .updated call.recordUpdatedFault tables
  (⟨oldState, newState, written.created, written.updated,
    (handleEmailSet call.destroy call.update).2 ++ (handleKeywordUpdate isCid call.update).2,
    (handleEmailSet call.destroy call.update).1, (handleEmailCreate call.create).2⟩, tables)

theorem version_emailSet (userId : Nat) (call : EmailSetCall) (tables : MailTables) :
    (emailSet isCid userId call tables).2.version userId "Email" =
      if (call.write isCid).anyChanged = true ∧ call.bumpFault = none then
        tables.version userId "Email" + 1
      else tables.version userId "Email" := by
  unfold emailSet
  by_cases changed : (call.write isCid).anyChanged = true
  · cases fault : call.bumpFault with
    | none => simp [changed, bumpState, MailTables.version_bump]
    | some e => simp [changed, bumpState]
  · simp [changed]

theorem logged_emailSet (userId : Nat) (call : EmailSetCall) (tables : MailTables) (seq : Nat)
    (itemId : String) :
    (emailSet isCid userId call tables).2.Logged userId seq "Email" itemId ↔
      tables.Logged userId seq "Email" itemId ∨
        seq = (emailSet isCid userId call tables).1.newState ∧
          (itemId ∈ (call.write isCid).created ∧ call.recordCreatedFault = none ∨
            itemId ∈ (call.write isCid).updated ∧ call.recordUpdatedFault = none) := by
  have unchanged : ∀ oldState, (if (call.write isCid).anyChanged = true then
      bumpState userId "Email" call.bumpFault oldState tables else (oldState, tables)).2.Logged
      userId seq "Email" itemId ↔ tables.Logged userId seq "Email" itemId := by
    intro oldState
    split
    · cases call.bumpFault with
      | none => exact logged_bump ..
      | some e => exact Iff.rfl
    · exact Iff.rfl
  unfold emailSet
  simp only [logged_recordOrWarn, unchanged, true_and, or_assoc, and_or_left]

theorem newState_emailSet (userId : Nat) (call : EmailSetCall) (tables : MailTables) :
    (emailSet isCid userId call tables).1.newState =
      if (call.write isCid).anyChanged = true ∧ call.bumpFault = none then
        tables.version userId "Email" + 1
      else getState userId "Email" call.getStateFault tables := by
  unfold emailSet
  by_cases changed : (call.write isCid).anyChanged = true
  · cases fault : call.bumpFault with
    | none => simp [changed, bumpState]
    | some e => simp [changed, bumpState]
  · simp [changed]

end EmailSet

structure ChangesResult where
  created : List String
  updated : List String
  destroyed : List String
  newState : Nat

def getChanges (userId sinceState : Nat) (tables : MailTables) : ChangesResult :=
  let newState := getState userId "Email" none tables
  let (created, updated, destroyed) := tables.querySince userId "Email" sinceState
  ⟨created, updated, destroyed, newState⟩

def ChangesResult.ids (result : ChangesResult) : List String :=
  result.created ++ result.updated ++ result.destroyed

theorem mem_ids_getChanges (userId since : Nat) (tables : MailTables) (id : String) :
    id ∈ (getChanges userId since tables).ids ↔ ∃ seq, since < seq ∧ tables.Logged userId seq "Email" id :=
  tables.mem_querySince userId since "Email" id

def smtpId (message : SmtpMessage) : String := "smtp:" ++ toString message.id

/-- A message for the inbox or a call of Email/set, with the errors of the database. -/
inductive MailOp
  | deliver (env : Smtp.DeliveryEnv) (message : Smtp.Inbound) (stores : Smtp.DeliveryStores)
      (insertFault bumpFault : Option String)
  | set (call : EmailSetCall)

def MailTables.empty : MailTables := ⟨[], fun _ => none, Table.empty⟩

section Histories

variable (isCid : String → Bool) (userId : Nat)

/-- One operation, with the emails that it has created or updated. -/
def mailStep : MailOp → MailTables → List String × MailTables
  | .deliver env message stores insertFault bumpFault, tables =>
    let pool : MailPool := ⟨tables, [insertFault, bumpFault]⟩
    let after := (Smtp.applyKeep env message { stores with mailPool := some pool }).2
    let tables' := (after.mailPool.getD pool).tables
    ((tables'.messages.drop tables.messages.length).map smtpId, tables')
  | .set call, tables =>
    let written := call.write isCid
    (written.created ++ written.flagged, (emailSet isCid userId call tables).2)

/-- Wherever the history is cut twice, the changes since the state at the first cut that are
reported at the second one are complete. -/
def ChangesComplete (ops : List MailOp) (tables : MailTables) : Prop :=
  ∀ before after rest, ops = before ++ after ++ rest →
    let first := (runAll (mailStep isCid userId) before tables).2
    let second := runAll (mailStep isCid userId) after first
    let answer := getChanges userId (first.version userId "Email") second.2
    (∀ id ∈ second.1.flatten, id ∈ answer.ids) ∧ answer.newState = second.2.version userId "Email"

/-- The operation leaves a trace in the log: a message is not stored, and what a call has
changed is logged, under a new state. -/
def LeavesTrace : MailOp → MailTables → Prop
  | .deliver env message _ insertFault _, _ =>
    (Smtp.keepMailbox env message).2 = "" ∨ insertFault ≠ none
  | .set call, _ =>
    ∀ id ∈ (call.write isCid).created ++ (call.write isCid).flagged, call.bumpFault = none ∧
      (id ∈ (call.write isCid).created ∧ call.recordCreatedFault = none ∨
        id ∈ (call.write isCid).updated ∧ call.recordUpdatedFault = none)

end Histories

section Operations

variable {isCid : String → Bool} {userId : Nat}

theorem version_le_bump (tables : MailTables) (userId user : Nat) (scope kind : String) :
    tables.version user kind ≤ (tables.bump userId scope).version user kind := by
  rw [MailTables.version_bump]
  split
  · next same =>
    cases same
    exact Nat.le_succ _
  · exact le_rfl

theorem mailPool_deliverOrDefer (message : Smtp.Inbound) (mailbox : String) (stores : Smtp.DeliveryStores) :
    (Smtp.deliverOrDefer message mailbox stores).2.mailPool = stores.mailPool := by
  unfold Smtp.deliverOrDefer
  split
  · rfl
  · split <;> rfl

theorem mailStep_deliver (env : Smtp.DeliveryEnv) (message : Smtp.Inbound) (stores : Smtp.DeliveryStores)
    (insertFault bumpFault : Option String) (tables : MailTables) :
    let next := mailStep isCid userId (.deliver env message stores insertFault bumpFault) tables
    (((Smtp.keepMailbox env message).2 = "" ∨ insertFault ≠ none) ∧ next = ([], tables)) ∨
    (¬ ((Smtp.keepMailbox env message).2 = "" ∨ insertFault ≠ none) ∧ (∃ id, next.1 = [id]) ∧
      next.2.changeLog = tables.changeLog ∧
      tables.version userId "Email" ≤ next.2.version userId "Email") := by
  dsimp only [mailStep, Smtp.applyKeep]
  by_cases unnamed : (Smtp.keepMailbox env message).2 = ""
  · refine Or.inl ⟨Or.inl unnamed, ?_⟩
    simp [unnamed, mailPool_deliverOrDefer]
  · rw [if_pos unnamed]
    cases insertFault with
    | some e =>
      refine Or.inl ⟨Or.inr (by simp), ?_⟩
      rw [AnyPool.exec_transaction]
      simp [AnyPool.fault, mailPool_deliverOrDefer]
    | none =>
      refine Or.inr ⟨by simp [unnamed], ?_⟩
      have grown : ∀ row : SmtpMessage, ((tables.messages ++ [row]).drop tables.messages.length).map smtpId =
          [smtpId row] := fun row => congrArg (map smtpId) drop_left
      -- Whether the state is counted up does not matter.
      cases bumpFault with
      | some e => exact ⟨⟨_, grown _⟩, rfl, le_rfl⟩
      | none => exact ⟨⟨_, grown _⟩, rfl, version_le_bump _ 1 userId "Email" "Email"⟩

def Bounded (userId : Nat) (tables : MailTables) : Prop :=
  ∀ seq id, tables.Logged userId seq "Email" id → seq ≤ tables.version userId "Email"

theorem bounded_empty : Bounded userId .empty := by
  intro seq id logged
  simp [MailTables.Logged, MailTables.empty, Table.empty] at logged

theorem version_le_mailStep (op : MailOp) (tables : MailTables) :
    tables.version userId "Email" ≤ (mailStep isCid userId op tables).2.version userId "Email" := by
  cases op with
  | deliver env message stores insertFault bumpFault =>
    rcases @mailStep_deliver isCid userId env message stores insertFault bumpFault tables with
      ⟨-, same⟩ | ⟨-, -, -, le⟩
    · rw [same]
    · exact le
  | set call =>
    dsimp only [mailStep]
    rw [version_emailSet]
    split
    · exact Nat.le_succ _
    · exact le_rfl

variable {tables : MailTables}

theorem logged_mailStep {op : MailOp} {seq : Nat} {id : String}
    (logged : tables.Logged userId seq "Email" id) :
    (mailStep isCid userId op tables).2.Logged userId seq "Email" id := by
  cases op with
  | deliver env message stores insertFault bumpFault =>
    rcases @mailStep_deliver isCid userId env message stores insertFault bumpFault tables with
      ⟨-, same⟩ | ⟨-, -, log, -⟩
    · rw [same]
      exact logged
    · rw [MailTables.Logged, log]
      exact logged
  | set call => exact (logged_emailSet ..).mpr (Or.inl logged)

theorem newState_le (call : EmailSetCall) (tables : MailTables) :
    (emailSet isCid userId call tables).1.newState ≤
      (emailSet isCid userId call tables).2.version userId "Email" := by
  rw [newState_emailSet, version_emailSet]
  split
  · exact le_rfl
  · exact getState_le ..

theorem Bounded.mailStep (bounded : Bounded userId tables) (op : MailOp) :
    Bounded userId (mailStep isCid userId op tables).2 := by
  intro seq id logged
  have rises := @version_le_mailStep isCid userId op tables
  cases op with
  | deliver env message stores insertFault bumpFault =>
    rcases @mailStep_deliver isCid userId env message stores insertFault bumpFault tables with
      ⟨-, same⟩ | ⟨-, -, log, -⟩
    · rw [same] at logged ⊢
      exact bounded seq id logged
    · rw [MailTables.Logged, log] at logged
      exact (bounded seq id logged).trans rises
  | set call =>
    rcases (logged_emailSet ..).mp logged with old | ⟨rfl, -⟩
    · exact (bounded seq id old).trans rises
    · exact newState_le call tables

/-- What the operation has changed is logged above the state that it found. -/
def ListsChanges (isCid : String → Bool) (userId : Nat) (op : MailOp) (tables : MailTables) : Prop :=
  ∀ id ∈ (mailStep isCid userId op tables).1, ∃ seq, tables.version userId "Email" < seq ∧
    (mailStep isCid userId op tables).2.Logged userId seq "Email" id

theorem anyChanged_of_mem {written : Written} {id : String}
    (changed : id ∈ written.created ∨ id ∈ written.updated) : written.anyChanged = true := by
  rcases changed with created | updated
  · simp [Written.anyChanged, ne_nil_of_mem created]
  · simp [Written.anyChanged, ne_nil_of_mem updated]

theorem listsChanges_iff_leavesTrace (bounded : Bounded userId tables) (op : MailOp) :
    ListsChanges isCid userId op tables ↔ LeavesTrace isCid op tables := by
  unfold ListsChanges LeavesTrace
  cases op with
  | deliver env message stores insertFault bumpFault =>
    rcases @mailStep_deliver isCid userId env message stores insertFault bumpFault tables with
      ⟨idle, same⟩ | ⟨stores, ⟨id, ids⟩, log, -⟩
    · rw [same]
      exact iff_of_true (by simp) idle
    · -- The log is as before, so that the new message is not in it.
      refine iff_of_false (fun listed => ?_) stores
      obtain ⟨seq, above, logged⟩ := listed id (by rw [ids]; exact mem_singleton_self id)
      rw [MailTables.Logged, log] at logged
      exact absurd (bounded seq id logged) (by omega)
  | set call =>
    dsimp only [Mail.mailStep]
    refine forall₂_congr fun id changed => ?_
    simp only [logged_emailSet]
    constructor
    · rintro ⟨seq, above, old | ⟨rfl, recorded⟩⟩
      · exact absurd (bounded seq id old) (by omega)
      · refine ⟨?_, recorded⟩
        -- Without a new state the entry would not be above the old one.
        rw [newState_emailSet] at above
        split at above
        · next counted => exact counted.2
        · exact absurd (getState_le userId "Email" call.getStateFault tables) (by omega)
    · rintro ⟨counts, recorded⟩
      refine ⟨_, ?_, Or.inr ⟨rfl, recorded⟩⟩
      have changes := anyChanged_of_mem (recorded.imp And.left And.left)
      rw [newState_emailSet, if_pos ⟨changes, counts⟩]
      exact Nat.lt_succ_self _

end Operations

section Whole

variable {isCid : String → Bool} {userId : Nat}

variable {ops : List MailOp} {tables : MailTables}

theorem logged_runAll {seq : Nat} {id : String} (logged : tables.Logged userId seq "Email" id) :
    (runAll (mailStep isCid userId) ops tables).2.Logged userId seq "Email" id := by
  induction ops generalizing tables with
  | nil => exact logged
  | cons op ops ih => exact ih (logged_mailStep logged)

theorem logged_of_alongRun
    (along : AlongRun (mailStep isCid userId) (ListsChanges isCid userId) ops tables) {id : String}
    (changed : id ∈ (runAll (mailStep isCid userId) ops tables).1.flatten) :
    ∃ seq, tables.version userId "Email" < seq ∧
      (runAll (mailStep isCid userId) ops tables).2.Logged userId seq "Email" id := by
  induction ops generalizing tables with
  | nil => cases changed
  | cons op ops ih =>
    rw [runAll_cons, flatten_cons, mem_append] at changed
    rcases changed with now | later
    · obtain ⟨seq, above, logged⟩ := along.1 id now
      exact ⟨seq, above, @logged_runAll isCid userId ops _ seq id logged⟩
    · obtain ⟨seq, above, logged⟩ := ih along.2 later
      exact ⟨seq, lt_of_le_of_lt (version_le_mailStep op tables) above, logged⟩

/-- Complete answers from anywhere to anywhere are the same as complete answers about each
single operation. -/
theorem changesComplete_iff_alongRun : ChangesComplete isCid userId ops tables ↔
      AlongRun (mailStep isCid userId) (ListsChanges isCid userId) ops tables := by
  constructor
  · intro complete
    refine alongRun_iff_forall.mpr ?_
    intro before op after split id changed
    have listed := (complete before [op] after (by rw [split]; simp)).1 id (by simpa using changed)
    exact (mem_ids_getChanges ..).mp listed
  · rintro along before after rest rfl
    rw [append_assoc, alongRun_append, alongRun_append] at along
    refine ⟨fun id changed => ?_, rfl⟩
    exact (mem_ids_getChanges ..).mpr (logged_of_alongRun along.2.1 changed)

theorem changes_complete_iff (isCid : String → Bool) (userId : Nat) (ops : List MailOp) :
    ChangesComplete isCid userId ops .empty ↔
      AlongRun (mailStep isCid userId) (LeavesTrace isCid) ops .empty := by
  rw [changesComplete_iff_alongRun]
  exact alongRun_iff (fun op _ bounded => listsChanges_iff_leavesTrace bounded op)
    (fun op _ bounded _ => bounded.mailStep op) bounded_empty

end Whole

namespace Sample

def inboxDelivery : MailOp :=
  .deliver ⟨some "inbox", fun _ => none, fun n => n⟩ ⟨"a", "b", [0x78]⟩
    ⟨none, none, ⟨⟨fun _ => none, []⟩, 0⟩⟩ none none

theorem delivery_not_reported : ¬ ChangesComplete (fun _ => true) 1 [inboxDelivery] .empty := by
  rw [changesComplete_iff_alongRun]
  rintro ⟨lists, -⟩
  rcases (listsChanges_iff_leavesTrace bounded_empty inboxDelivery).mp lists with unnamed | faulty
  · revert unnamed
    decide
  · exact faulty rfl

end Sample

/-- Where a call of Email/set stands, with the state that it has read or counted up. -/
inductive SetPhase
  | fresh
  | opened (call : EmailSetCall) (oldState : Nat)
  | written (call : EmailSetCall) (oldState : Nat)
  | bumped (call : EmailSetCall) (newState : Nat)
  | recorded (call : EmailSetCall) (newState : Nat)
  | finished

/-- The database, the calls, and the client: its state, the state of the answer under way, and
all the ids it was told. Besides, the emails that changed since the client's first state, and
those that were logged under a state above the client's. -/
structure SyncWorld where
  tables : MailTables
  calls : Nat → SetPhase
  since : Option Nat
  reading : Option Nat
  told : List String
  owed : List String
  timely : List String

def SyncWorld.start : SyncWorld := ⟨.empty, fun _ => .fresh, none, none, [], [], []⟩

inductive SyncLabel
  | start (c : Nat) (call : EmailSetCall)
  | write (c : Nat)
  | bump (c : Nat)
  | recordCreated (c : Nat)
  | recordUpdated (c : Nat)
  | first
  | readState
  | query

section Schedules

variable (isCid : String → Bool) (userId : Nat)

def bumpIfChanged (call : EmailSetCall) (oldState : Nat) (tables : MailTables) : Nat × MailTables :=
  if (call.write isCid).anyChanged then bumpState userId "Email" call.bumpFault oldState tables
  else (oldState, tables)

def SyncWorld.inTime (s : SyncWorld) (ids : List String) (newState : Nat) (fault : Option String) :
    List String :=
  match s.since with
  | some since => if since < newState ∧ fault = none then ids else []
  | none => []

def syncStep (label : SyncLabel) (s : SyncWorld) : Unit × SyncWorld :=
  ((), match label with
  | .start c call => match s.calls c with
    | .fresh => { s with
        calls := Function.update s.calls c
          (.opened call (getState userId "Email" call.getStateFault s.tables)) }
    | _ => s
  | .write c => match s.calls c with
    | .opened call oldState => { s with
        calls := Function.update s.calls c (.written call oldState)
        owed := if s.since.isSome then
            s.owed ++ (call.write isCid).created ++ (call.write isCid).flagged
          else s.owed }
    | _ => s
  | .bump c => match s.calls c with
    | .written call oldState => { s with
        tables := (bumpIfChanged isCid userId call oldState s.tables).2
        calls := Function.update s.calls c
          (.bumped call (bumpIfChanged isCid userId call oldState s.tables).1) }
    | _ => s
  | .recordCreated c => match s.calls c with
    | .bumped call newState => { s with
        tables := recordOrWarn userId (call.write isCid).created newState .created
          call.recordCreatedFault s.tables
        calls := Function.update s.calls c (.recorded call newState)
        timely := s.timely ++ s.inTime (call.write isCid).created newState call.recordCreatedFault }
    | _ => s
  | .recordUpdated c => match s.calls c with
    | .recorded call newState => { s with
        tables := recordOrWarn userId (call.write isCid).updated newState .updated
          call.recordUpdatedFault s.tables
        calls := Function.update s.calls c .finished
        timely := s.timely ++ s.inTime (call.write isCid).updated newState call.recordUpdatedFault }
    | _ => s
  | .first => match s.since with
    | none => { s with since := some (getState userId "Email" none s.tables) }
    | some _ => s
  | .readState => match s.since, s.reading with
    | some _, none => { s with reading := some (getState userId "Email" none s.tables) }
    | _, _ => s
  | .query => match s.since, s.reading with
    | some since, some newState => { s with
        told := s.told ++ (getChanges userId since s.tables).ids
        since := some newState
        reading := none }
    | _, _ => s)

end Schedules

variable {isCid : String → Bool} {userId : Nat}

def SetPhase.state : SetPhase → Option Nat
  | .fresh | .finished => none
  | .opened _ state | .written _ state | .bumped _ state | .recorded _ state => some state

structure SyncWorld.Inv (userId : Nat) (s : SyncWorld) : Prop where
  bounded : Bounded userId s.tables
  known : ∀ c state, (s.calls c).state = some state → state ≤ s.tables.version userId "Email"
  since : ∀ since, s.since = some since → since ≤ s.tables.version userId "Email" ∧
    ∀ newState, s.reading = some newState → since ≤ newState ∧ newState ≤ s.tables.version userId "Email"
  idle : s.since = none → s.reading = none ∧ s.owed = []
  told : ∀ id ∈ s.told, id ∈ s.timely
  /-- What the client is going to be told was logged in time. -/
  ahead : ∀ since seq id, s.since = some since → s.tables.Logged userId seq "Email" id →
    since < seq → id ∈ s.timely
  /-- What was logged in time the client has been told or is going to be told. -/
  covered : ∀ id ∈ s.timely, id ∈ s.told ∨ ∃ since seq, s.since = some since ∧ since < seq ∧
    s.tables.Logged userId seq "Email" id

theorem inv_syncStart : SyncWorld.start.Inv userId where
  bounded := bounded_empty
  known := by rintro c state ⟨⟩
  since := by rintro since ⟨⟩
  idle := fun _ => ⟨rfl, rfl⟩
  told := by rintro id ⟨⟩
  ahead := by rintro since seq id ⟨⟩
  covered := by rintro id ⟨⟩

variable {s : SyncWorld}

theorem mem_inTime {ids : List String} {newState : Nat} {fault : Option String} {id : String} :
    id ∈ s.inTime ids newState fault ↔
      ∃ since, s.since = some since ∧ since < newState ∧ fault = none ∧ id ∈ ids := by
  unfold SyncWorld.inTime
  cases s.since with
  | none => simp
  | some since =>
    by_cases early : since < newState ∧ fault = none
    · simp [early]
    · simp only [early, if_false, List.not_mem_nil, Option.some.injEq, exists_eq_left', false_iff]
      exact fun ⟨below, answers, _⟩ => early ⟨below, answers⟩

theorem known_update {calls : Nat → SetPhase} {bound : Nat}
    (known : ∀ c state, (calls c).state = some state → state ≤ bound) {c : Nat} {phase : SetPhase}
    (here : ∀ state, phase.state = some state → state ≤ bound) :
    ∀ c' state, (update calls c phase c').state = some state → state ≤ bound := by
  intro c' state
  by_cases same : c' = c
  · rw [same, update_self]
    exact here state
  · rw [update_of_ne same]
    exact known c' state

theorem SyncWorld.Inv.moves (inv : s.Inv userId) {c : Nat} {phase : SetPhase}
    (here : ∀ state, phase.state = some state → state ≤ s.tables.version userId "Email")
    {owed : List String} (unowed : s.since = none → owed = []) :
    ({ s with calls := update s.calls c phase, owed := owed } : SyncWorld).Inv userId :=
  { inv with known := known_update inv.known here, idle := fun none => ⟨(inv.idle none).1, unowed none⟩ }

theorem bumpIfChanged_spec (call : EmailSetCall) (tables : MailTables) {oldState : Nat}
    (old : oldState ≤ tables.version userId "Email") :
    (bumpIfChanged isCid userId call oldState tables).1 ≤
        (bumpIfChanged isCid userId call oldState tables).2.version userId "Email" ∧
      tables.version userId "Email" ≤
        (bumpIfChanged isCid userId call oldState tables).2.version userId "Email" ∧
      ∀ seq id, (bumpIfChanged isCid userId call oldState tables).2.Logged userId seq "Email" id ↔
        tables.Logged userId seq "Email" id := by
  unfold bumpIfChanged
  split
  · cases call.bumpFault with
    | none =>
      refine ⟨?_, version_le_bump .., fun _ _ => Iff.rfl⟩
      dsimp only [bumpState]
      rw [MailTables.version_bump, if_pos rfl]
    | some e => exact ⟨old, le_rfl, fun _ _ => Iff.rfl⟩
  · exact ⟨old, le_rfl, fun _ _ => Iff.rfl⟩

theorem SyncWorld.Inv.bumps (inv : s.Inv userId) {c : Nat} {call : EmailSetCall}
    {oldState : Nat} (phase : s.calls c = .written call oldState) :
    (syncStep isCid userId (.bump c) s).2.Inv userId := by
  have old : oldState ≤ s.tables.version userId "Email" := inv.known c oldState (by rw [phase]; rfl)
  obtain ⟨new, rises, same⟩ := @bumpIfChanged_spec isCid userId call s.tables oldState old
  simp only [syncStep, phase]
  generalize bumpIfChanged isCid userId call oldState s.tables = next at new rises same
  obtain ⟨newState, tables⟩ := next
  dsimp only at new rises same ⊢
  constructor
  case bounded => exact fun seq id logged => (inv.bounded seq id ((same seq id).mp logged)).trans rises
  case known =>
    refine known_update (fun c' state known => (inv.known c' state known).trans rises) ?_
    rintro state ⟨⟩
    exact new
  case since =>
    intro since here
    obtain ⟨below, between⟩ := inv.since since here
    exact ⟨below.trans rises, fun newState reading => ⟨(between newState reading).1,
      (between newState reading).2.trans rises⟩⟩
  case idle => exact inv.idle
  case told => exact inv.told
  case ahead => exact fun since seq id here logged => inv.ahead since seq id here ((same seq id).mp logged)
  case covered =>
    intro id timely
    refine (inv.covered id timely).imp_right ?_
    rintro ⟨since, seq, here, above, logged⟩
    exact ⟨since, seq, here, above, (same seq id).mpr logged⟩

theorem SyncWorld.Inv.records (inv : s.Inv userId) {c newState : Nat} {phase : SetPhase}
    (here : ∀ state, phase.state = some state → state ≤ s.tables.version userId "Email")
    (new : newState ≤ s.tables.version userId "Email") (ids : List String) (change : Change)
    (fault : Option String) :
    ({ s with
      tables := recordOrWarn userId ids newState change fault s.tables
      calls := update s.calls c phase
      timely := s.timely ++ s.inTime ids newState fault } : SyncWorld).Inv userId := by
  constructor
  case bounded =>
    intro seq id logged
    rw [version_recordOrWarn]
    rcases (logged_recordOrWarn ..).mp logged with old | ⟨-, rfl, -⟩
    · exact inv.bounded seq id old
    · exact new
  case known =>
    dsimp only
    rw [version_recordOrWarn]
    exact known_update inv.known here
  case since =>
    dsimp only
    rw [version_recordOrWarn]
    exact inv.since
  case idle => exact inv.idle
  case told => exact fun id told => List.mem_append_left _ (inv.told id told)
  case ahead =>
    intro since seq id now logged above
    rcases (logged_recordOrWarn ..).mp logged with old | ⟨-, rfl, here, answers⟩
    · exact List.mem_append_left _ (inv.ahead since seq id now old above)
    · exact List.mem_append_right _ (mem_inTime.mpr ⟨since, now, above, answers, here⟩)
  case covered =>
    intro id timely
    rcases List.mem_append.mp timely with old | new
    · refine (inv.covered id old).imp_right ?_
      rintro ⟨since, seq, now, above, logged⟩
      exact ⟨since, seq, now, above, (logged_recordOrWarn ..).mpr (Or.inl logged)⟩
    · obtain ⟨since, now, above, answers, here⟩ := mem_inTime.mp new
      exact Or.inr ⟨since, newState, now, above,
        (logged_recordOrWarn ..).mpr (Or.inr ⟨rfl, rfl, here, answers⟩)⟩

theorem SyncWorld.Inv.first (inv : s.Inv userId) : (syncStep isCid userId .first s).2.Inv userId := by
  cases now : s.since with
  | some since =>
    simp only [syncStep, now]
    exact inv
  | none =>
    simp only [syncStep, now]
    constructor
    case bounded => exact inv.bounded
    case known => exact inv.known
    case since =>
      rintro since ⟨⟩
      refine ⟨le_rfl, fun newState reading => ?_⟩
      rw [(inv.idle now).1] at reading
      cases reading
    case idle => rintro ⟨⟩
    case told => exact inv.told
    case ahead =>
      rintro since seq id ⟨⟩ logged above
      exact absurd (inv.bounded seq id logged) (Nat.not_le_of_lt above)
    case covered =>
      intro id timely
      rcases inv.covered id timely with told | ⟨since, seq, started, -⟩
      · exact Or.inl told
      · rw [now] at started
        cases started

theorem SyncWorld.Inv.readState (inv : s.Inv userId) :
    (syncStep isCid userId .readState s).2.Inv userId := by
  cases now : s.since with
  | none =>
    simp only [syncStep, now]
    exact inv
  | some since =>
    cases reading : s.reading with
    | some newState =>
      simp only [syncStep, now, reading]
      exact inv
    | none =>
      have next : (syncStep isCid userId .readState s).2 =
          { s with reading := some (getState userId "Email" none s.tables) } := by
        simp [syncStep, now, reading]
      rw [next]
      refine { inv with since := fun since' now' => ?_, idle := fun none => absurd none (by simp [now]) }
      refine ⟨(inv.since since' now').1, ?_⟩
      rintro newState ⟨⟩
      exact ⟨(inv.since since' now').1, le_rfl⟩

theorem SyncWorld.Inv.timely_told (inv : s.Inv userId) {since newState : Nat}
    (now : s.since = some since) (reading : s.reading = some newState) {id : String} (timely : id ∈ s.timely) :
    id ∈ (syncStep isCid userId .query s).2.told := by
  simp only [syncStep, now, reading, List.mem_append]
  refine (inv.covered id timely).imp_right ?_
  rintro ⟨since', seq, now', above, logged⟩
  cases now.symm.trans now'
  exact (mem_ids_getChanges ..).mpr ⟨seq, above, logged⟩

theorem SyncWorld.Inv.query (inv : s.Inv userId) : (syncStep isCid userId .query s).2.Inv userId := by
  cases now : s.since with
  | none =>
    simp only [syncStep, now]
    exact inv
  | some since =>
    cases reading : s.reading with
    | none =>
      simp only [syncStep, now, reading]
      exact inv
    | some newState =>
      have covered : ∀ id ∈ s.timely, id ∈ (syncStep isCid userId .query s).2.told :=
        fun id timely => inv.timely_told now reading timely
      obtain ⟨-, between⟩ := inv.since since now
      obtain ⟨later, below⟩ := between newState reading
      simp only [syncStep, now, reading] at covered ⊢
      constructor
      case bounded => exact inv.bounded
      case known => exact inv.known
      case since =>
        rintro since' ⟨⟩
        exact ⟨below, by rintro newState ⟨⟩⟩
      case idle => rintro ⟨⟩
      case told =>
        intro id told
        rcases List.mem_append.mp told with old | new
        · exact inv.told id old
        · obtain ⟨seq, above, logged⟩ := (mem_ids_getChanges ..).mp new
          exact inv.ahead since seq id now logged above
      case ahead =>
        rintro since' seq id ⟨⟩ logged above
        exact inv.ahead since seq id now logged (lt_of_le_of_lt later above)
      case covered => exact fun id timely => Or.inl (covered id timely)

theorem SyncWorld.Inv.step (inv : s.Inv userId) (label : SyncLabel) :
    (syncStep isCid userId label s).2.Inv userId := by
  cases label with
  | first => exact inv.first
  | readState => exact inv.readState
  | query => exact inv.query
  | start c call =>
    cases phase : s.calls c with
    | fresh =>
      simp only [syncStep, phase]
      refine inv.moves ?_ fun none => (inv.idle none).2
      rintro state ⟨⟩
      exact getState_le ..
    | _ =>
      simp only [syncStep, phase]
      exact inv
  | write c =>
    cases phase : s.calls c with
    | opened call oldState =>
      simp only [syncStep, phase]
      refine inv.moves ?_ fun none => ?_
      · rintro state ⟨⟩
        exact inv.known c oldState (by rw [phase]; rfl)
      · simp [none, (inv.idle none).2]
    | _ =>
      simp only [syncStep, phase]
      exact inv
  | bump c =>
    cases phase : s.calls c with
    | written call oldState => exact inv.bumps phase
    | _ =>
      simp only [syncStep, phase]
      exact inv
  | recordCreated c =>
    cases phase : s.calls c with
    | bumped call newState =>
      have known : newState ≤ s.tables.version userId "Email" := inv.known c newState (by rw [phase]; rfl)
      simp only [syncStep, phase]
      refine inv.records ?_ known ..
      rintro state ⟨⟩
      exact known
    | _ =>
      simp only [syncStep, phase]
      exact inv
  | recordUpdated c =>
    cases phase : s.calls c with
    | recorded call newState =>
      have known : newState ≤ s.tables.version userId "Email" := inv.known c newState (by rw [phase]; rfl)
      simp only [syncStep, phase]
      exact inv.records (by rintro state ⟨⟩) known ..
    | _ =>
      simp only [syncStep, phase]
      exact inv

theorem SyncWorld.Inv.run (inv : s.Inv userId) (schedule : List SyncLabel) :
    (runAll (syncStep isCid userId) schedule s).2.Inv userId := by
  induction schedule generalizing s with
  | nil => exact inv
  | cons label schedule ih => exact ih (inv.step label)

theorem timely_query (s : SyncWorld) : (syncStep isCid userId .query s).2.timely = s.timely := by
  dsimp only [syncStep]
  split <;> rfl

theorem SyncWorld.Inv.told_iff (inv : s.Inv userId) (started : s.since ≠ none) (id : String) :
    id ∈ (runAll (syncStep isCid userId) [.readState, .query] s).2.told ↔
      id ∈ (runAll (syncStep isCid userId) [.readState, .query] s).2.timely := by
  obtain ⟨since, now⟩ := Option.ne_none_iff_exists'.mp started
  have read : ∃ newState, (syncStep isCid userId .readState s).2.since = some since ∧
      (syncStep isCid userId .readState s).2.reading = some newState := by
    cases reading : s.reading with
    | none => simp [syncStep, now, reading]
    | some newState => simp [syncStep, now, reading]
  obtain ⟨newState, now', reading⟩ := read
  constructor
  · exact (inv.run [.readState, .query]).told id
  · intro timely
    simp only [runAll_cons, runAll_nil, timely_query] at timely
    exact @SyncWorld.Inv.timely_told isCid userId _ (inv.step .readState) _ _ now' reading id timely

theorem told_iff_timely (isCid : String → Bool) (userId : Nat) (schedule : List SyncLabel) :
    let last := (runAll (syncStep isCid userId) (schedule ++ [.readState, .query]) .start).2
    (∀ id ∈ last.owed, id ∈ last.told) ↔ ∀ id ∈ last.owed, id ∈ last.timely := by
  dsimp only
  have inv := @SyncWorld.Inv.run isCid userId _ inv_syncStart schedule
  rw [runAll_append_snd]
  generalize (runAll (syncStep isCid userId) schedule .start).2 = s at inv
  by_cases started : s.since = none
  · -- A client that has no state yet is owed nothing.
    have unowed : (runAll (syncStep isCid userId) [.readState, .query] s).2.owed = [] := by
      simp [syncStep, started, (inv.idle started).2]
    rw [unowed]
    simp
  · exact forall₂_congr fun id _ => inv.told_iff started id

namespace Sample

/-- A call that creates the email `a`. -/
def createCall : EmailSetCall := ⟨[], [], [("k", .ok "a")], none, none, none, none⟩

def askInBetween : List SyncLabel :=
  [.first, .start 0 createCall, .write 0, .bump 0, .readState, .query, .recordCreated 0, .recordUpdated 0]

def askOnceMore : List SyncLabel := askInBetween ++ [.readState, .query]

def askedOnceMore : SyncWorld := (runAll (syncStep (fun _ => true) 1) askOnceMore .start).2

theorem askedOnceMore_calls (c : Nat) : askedOnceMore.calls c = .fresh ∨ askedOnceMore.calls c = .finished := by
  cases c with
  | zero => exact Or.inr rfl
  | succ c => exact Or.inl rfl

theorem mem_owed : "a" ∈ askedOnceMore.owed := by decide

theorem notMem_timely : "a" ∉ askedOnceMore.timely := by decide

theorem inv_askedOnceMore : askedOnceMore.Inv 1 := by
  have inv := @SyncWorld.Inv.run (fun _ => true) 1 .start inv_syncStart askOnceMore
  exact inv

theorem created_not_told : (∀ c, askedOnceMore.calls c = .fresh ∨ askedOnceMore.calls c = .finished) ∧
      ¬ ∀ id ∈ askedOnceMore.owed, id ∈ askedOnceMore.told := by
  constructor
  · exact askedOnceMore_calls
  · intro told
    exact notMem_timely (inv_askedOnceMore.told "a" (told "a" mem_owed))

end Sample

end Stoa.Mail
