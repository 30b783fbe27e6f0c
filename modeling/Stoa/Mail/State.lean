import Stoa.Core.MsgIdMap

/-! The JMAP server counts the changes of each kind of object. -/
namespace Stoa.Mail

structure SmtpMessage where
  id : Nat
  mailboxId : String
  envelopeFrom : String
  envelopeTo : String
  rawMessage : Bytes
  deriving DecidableEq

inductive Change
  | created
  | updated
  | destroyed
  deriving DecidableEq, Repr

structure ChangeRow where
  userId : Nat
  seq : Nat
  scope : String
  itemId : String
  change : Change
  deriving DecidableEq

def ChangeRow.key (row : ChangeRow) : Nat × Nat × String × String :=
  (row.userId, row.seq, row.scope, row.itemId)

structure MailTables where
  messages : List SmtpMessage
  /-- The version of each user's scope; none before the first change. -/
  stateVersion : Nat × String → Option Nat
  changeLog : Table ChangeRow ChangeRow.key

abbrev MailPool := AnyPool MailTables

namespace MailTables

def version (tables : MailTables) (userId : Nat) (scope : String) : Nat :=
  (tables.stateVersion (userId, scope)).getD 0

def bump (tables : MailTables) (userId : Nat) (scope : String) : MailTables :=
  { tables with stateVersion :=
      Function.update tables.stateVersion (userId, scope) (some (tables.version userId scope + 1)) }

def insertMessage (tables : MailTables) (mailboxId envelopeFrom envelopeTo : String)
    (rawMessage : Bytes) : MailTables :=
  { tables with messages := tables.messages ++
      [⟨tables.messages.length + 1, mailboxId, envelopeFrom, envelopeTo, rawMessage⟩] }

/-- Log items under a version; an item that is logged under it already is left as it is. -/
def recordAction (tables : MailTables) (userId : Nat) (scope : String) (itemIds : List String)
    (seq : Nat) (change : Change) : MailTables :=
  let rows : List ChangeRow := itemIds.map fun itemId => ⟨userId, seq, scope, itemId, change⟩
  { tables with changeLog := rows.foldl Table.insertOrIgnore tables.changeLog }

/-- The items logged above a version, in the order of their versions, by the kind of change. -/
def querySince (tables : MailTables) (userId : Nat) (scope : String) (sinceSeq : Nat) :
    List String × List String × List String :=
  let rows := (tables.changeLog.select fun row => decide (row.userId = userId) &&
    decide (row.scope = scope) && decide (sinceSeq < row.seq)).mergeSort fun a b => decide (a.seq ≤ b.seq)
  let ids (change : Change) := (rows.filter fun row => decide (row.change = change)).map ChangeRow.itemId
  (ids .created, ids .updated, ids .destroyed)

end MailTables

/-- The state of a scope; the callers take an error of the database for the first state. -/
def getState (userId : Nat) (scope : String) (fault : Option String) (tables : MailTables) : Nat :=
  match fault with
  | none => tables.version userId scope
  | some _ => 0

/-- Increment the state of a scope and return it; on an error it is `oldState` for the caller. -/
def bumpState (userId : Nat) (scope : String) (fault : Option String) (oldState : Nat)
    (tables : MailTables) : Nat × MailTables :=
  match fault with
  | none => (tables.version userId scope + 1, tables.bump userId scope)
  | some _ => (oldState, tables)

def recordOrWarn (userId : Nat) (itemIds : List String) (seq : Nat) (change : Change)
    (fault : Option String) (tables : MailTables) : MailTables :=
  match fault with
  | none => tables.recordAction userId "Email" itemIds seq change
  | some _ => tables

namespace MailTables

theorem version_bump (tables : MailTables) (userId user : Nat) (scope kind : String) :
    (tables.bump userId scope).version user kind =
      if (user, kind) = (userId, scope) then tables.version userId scope + 1
      else tables.version user kind := by
  unfold bump
  rw [version]
  dsimp only
  by_cases same : (user, kind) = (userId, scope)
  · rw [same, Function.update_self, if_pos rfl]
    rfl
  · rw [Function.update_of_ne same, if_neg same]
    rfl

def Logged (tables : MailTables) (userId seq : Nat) (scope itemId : String) : Prop :=
  (userId, seq, scope, itemId) ∈ tables.changeLog.rows.map ChangeRow.key

theorem logged_recordAction (tables : MailTables) (userId user seq n : Nat) (scope kind itemId : String)
    (itemIds : List String) (change : Change) :
    (tables.recordAction userId scope itemIds seq change).Logged user n kind itemId ↔
      tables.Logged user n kind itemId ∨ user = userId ∧ n = seq ∧ kind = scope ∧ itemId ∈ itemIds := by
  unfold Logged recordAction
  rw [Table.mem_keys_foldl_insertOrIgnore]
  refine or_congr_right ?_
  simp only [List.map_map, List.mem_map, Function.comp_apply, ChangeRow.key, Prod.mk.injEq]
  constructor
  · rintro ⟨id, here, rfl, rfl, rfl, rfl⟩
    exact ⟨rfl, rfl, rfl, here⟩
  · rintro ⟨rfl, rfl, rfl, here⟩
    exact ⟨itemId, here, rfl, rfl, rfl, rfl⟩

theorem mem_querySince (tables : MailTables) (userId since : Nat) (scope itemId : String) :
    itemId ∈ (tables.querySince userId scope since).1 ++ (tables.querySince userId scope since).2.1 ++
        (tables.querySince userId scope since).2.2 ↔
      ∃ seq, since < seq ∧ tables.Logged userId seq scope itemId := by
  unfold querySince Logged
  simp only [List.mem_append, List.mem_map, List.mem_filter, List.mem_mergeSort, Table.select,
    Bool.and_eq_true, decide_eq_true_eq]
  constructor
  · rintro ((⟨row, ⟨⟨here, ⟨rfl, rfl⟩, above⟩, -⟩, rfl⟩ | ⟨row, ⟨⟨here, ⟨rfl, rfl⟩, above⟩, -⟩, rfl⟩) |
      ⟨row, ⟨⟨here, ⟨rfl, rfl⟩, above⟩, -⟩, rfl⟩)
    · exact ⟨row.seq, above, row, here, rfl⟩
    · exact ⟨row.seq, above, row, here, rfl⟩
    · exact ⟨row.seq, above, row, here, rfl⟩
  · rintro ⟨seq, above, row, here, key⟩
    simp only [ChangeRow.key, Prod.mk.injEq] at key
    obtain ⟨user, rfl, kind, item⟩ := key
    have found : row ∈ tables.changeLog.rows ∧ (row.userId = userId ∧ row.scope = scope) ∧ since < row.seq :=
      ⟨here, ⟨user, kind⟩, above⟩
    cases change : row.change with
    | created => exact Or.inl (Or.inl ⟨row, ⟨found, change⟩, item⟩)
    | updated => exact Or.inl (Or.inr ⟨row, ⟨found, change⟩, item⟩)
    | destroyed => exact Or.inr ⟨row, ⟨found, change⟩, item⟩

end MailTables

theorem getState_le (userId : Nat) (scope : String) (fault : Option String) (tables : MailTables) :
    getState userId scope fault tables ≤ tables.version userId scope := by
  cases fault with
  | none => exact le_rfl
  | some e => exact Nat.zero_le _

@[simp] theorem version_recordOrWarn (userId user seq : Nat) (itemIds : List String) (change : Change)
    (fault : Option String) (tables : MailTables) (scope : String) :
    (recordOrWarn userId itemIds seq change fault tables).version user scope = tables.version user scope := by
  cases fault <;> rfl

theorem logged_recordOrWarn (userId user seq n : Nat) (itemIds : List String) (change : Change)
    (fault : Option String) (tables : MailTables) (itemId : String) :
    (recordOrWarn userId itemIds seq change fault tables).Logged user n "Email" itemId ↔
      tables.Logged user n "Email" itemId ∨
        user = userId ∧ n = seq ∧ itemId ∈ itemIds ∧ fault = none := by
  cases fault with
  | none =>
    unfold recordOrWarn
    rw [MailTables.logged_recordAction]
    simp
  | some e => simp [recordOrWarn]

theorem logged_bump (tables : MailTables) (userId user seq : Nat) (scope kind itemId : String) :
    (tables.bump userId scope).Logged user seq kind itemId ↔ tables.Logged user seq kind itemId := Iff.rfl

end Stoa.Mail
