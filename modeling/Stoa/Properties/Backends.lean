import Stoa.Core.GroupLog.SqliteStorage
import Stoa.Lib.Runs
import Stoa.Properties.BackfillCompleteness

/-! The in-memory backend keeps entries and tips as they are given; the SQL backend keeps the wall
clock of a timestamp, each parent once and each tip once. -/
namespace Stoa

open LawfulLogStorage SqliteDb Function MemLogStorage

inductive StorageOp
  | insertEntry (id : LogEntryId) (entry : LogEntry)
  | getEntry (id : LogEntryId)
  | hasEntry (id : LogEntryId)
  | getParentCids (id : LogEntryId)
  | listTips (group : GroupName)
  | setTips (group : GroupName) (tips : List LogEntryId)
  | advanceTips (group : GroupName) (parentsToRemove : List LogEntryId) (newTip : LogEntryId)
  | insertEntryAndAdvanceTips (id : LogEntryId) (entry : LogEntry) (group : GroupName)
      (parentsToRemove : List LogEntryId) (newTip : LogEntryId)
  | tipCount (group : GroupName)

inductive StorageAnswer
  | unit
  | entry (entry : Option LogEntry)
  | bool (present : Bool)
  | parents (cids : Option (List Cid))
  | tips (ids : List LogEntryId)
  | count (n : UInt64)
  deriving DecidableEq

namespace StorageOp

variable {S : Type} [LogStorage S]

def run : StorageOp → Prog S StorageError StorageAnswer
  | insertEntry id entry => do
    LogStorage.insertEntry id entry
    return .unit
  | getEntry id => do return .entry (← LogStorage.getEntry id)
  | hasEntry id => do return .bool (← LogStorage.hasEntry id)
  | getParentCids id => do return .parents (← LogStorage.getParentCids id)
  | listTips group => do return .tips (← LogStorage.listTips group)
  | setTips group tips => do
    LogStorage.setTips group tips
    return .unit
  | advanceTips group parentsToRemove newTip => do
    LogStorage.advanceTips group parentsToRemove newTip
    return .unit
  | insertEntryAndAdvanceTips id entry group parentsToRemove newTip => do
    LogStorage.insertEntryAndAdvanceTips id entry group parentsToRemove newTip
    return .unit
  | tipCount group => do return .count (← LogStorage.tipCount group)

/-- The answers of a sequence of operations, failures included, and the storage after it. -/
def runOps (ops : List StorageOp) (s : S) : List (Except StorageError StorageAnswer) × S :=
  runAll (fun op s => op.run.exec s) ops s

def inserted : StorageOp → Option LogEntry
  | insertEntry _ entry => some entry
  | insertEntryAndAdvanceTips _ entry _ _ _ => some entry
  | _ => none

def replacing : StorageOp → List LogEntryId
  | setTips _ tips => tips
  | _ => []

end StorageOp

/-- `v` is a log as the in-memory backend has it, `w` the same log as the SQL backend has it. -/
structure SameLog (v w : LogView) : Prop where
  entries : ∀ id, Option.Rel ReadsBackAs (v.entry id) (w.entry id)
  tips : ∀ g, (v.tips g).Perm (w.tips g)

def SameAnswer : Except StorageError StorageAnswer → Except StorageError StorageAnswer → Prop
  | .ok (.entry e), .ok (.entry e') => Option.Rel ReadsBackAs e e'
  | .ok (.parents l), .ok (.parents l') =>
    Option.Rel (fun l l' => l'.Nodup ∧ ∀ c, c ∈ l' ↔ c ∈ l) l l'
  | .ok (.tips l), .ok (.tips l') => l.Perm l'
  | r, r' => r = r'

namespace SameLog

variable {v w v' w' : LogView}

theorem stored_iff (same : SameLog v w) (id : LogEntryId) : v.Stored id ↔ w.Stored id := by
  have related := same.entries id
  unfold LogView.Stored
  generalize v.entry id = a, w.entry id = b at related
  cases related with
  | some _ => exact Iff.rfl
  | none => exact Iff.rfl

theorem inserted (same : SameLog v w) {id : LogEntryId} {e e' : LogEntry}
    (reads : ReadsBackAs e e') (first : v.Inserted v' id e) (second : w.Inserted w' id e') :
    SameLog v' w' := by
  constructor
  · intro other
    rw [first.entry_eq, second.entry_eq]
    by_cases here : other = id
    · subst here
      rw [update_self, update_self]
      exact Option.Rel.some reads
    · rw [update_of_ne here, update_of_ne here]
      exact same.entries other
  · rw [first.tips_eq, second.tips_eq]
    exact same.tips

theorem advanced (same : SameLog v w) {g : GroupName} {parents : List LogEntryId}
    {new : LogEntryId} (first : v.Advanced v' g parents new)
    (second : w.Advanced w' g parents new) : SameLog v' w' := by
  constructor
  · rw [first.entry_eq, second.entry_eq]
    exact same.entries
  · intro h
    by_cases here : h = g
    · subst here
      have moved : (advance (v.tips h) parents new).Perm (advance (w.tips h) parents new) :=
        advance_perm (same.tips h) parents new
      exact first.tips_perm.trans (moved.trans second.tips_perm.symm)
    · rw [first.others h here, second.others h here]
      exact same.tips h

theorem tipsSet (same : SameLog v w) {g : GroupName} {tips : List LogEntryId}
    (first : v.TipsSet v' g tips) (second : w.TipsSet w' g tips) : SameLog v' w' := by
  constructor
  · rw [first.entry_eq, second.entry_eq]
    exact same.entries
  · intro h
    by_cases here : h = g
    · subst here
      exact first.tips_perm.trans second.tips_perm.symm
    · rw [first.others h here, second.others h here]
      exact same.tips h

end SameLog

/-- What the two backends may be asked: entries whose wall clock fits the column, and tips without
repetition. -/
def StorageOp.Portable (op : StorageOp) : Prop :=
  (∀ e ∈ op.inserted, Fits e) ∧ op.replacing.Nodup

instance (op : StorageOp) : Decidable op.Portable :=
  inferInstanceAs (Decidable ((∀ e ∈ op.inserted, Fits e) ∧ op.replacing.Nodup))

def Alike (p : Except StorageError StorageAnswer × MemLogStorage)
    (q : Except StorageError StorageAnswer × SqliteLogStorage) : Prop :=
  SameAnswer p.1 q.1 ∧ SameLog (log p.2) (log q.2)

section Steps

variable {m : MemLogStorage} {d : SqliteLogStorage}

theorem alike_of_reads {α β : Type} {x : Prog MemLogStorage StorageError α}
    {y : Prog SqliteLogStorage StorageError β} {P : α → Prop} {Q : β → Prop}
    (same : SameLog (log m) (log d)) (readX : Prog.Satisfies x m (ReadOutcome log Healthy m P))
    (readY : Prog.Satisfies y d (ReadOutcome log Healthy d Q)) {f : α → StorageAnswer}
    {g : β → StorageAnswer} (answers : ∀ a b, P a → Q b → SameAnswer (.ok (f a)) (.ok (g b))) :
    Alike ((do return f (← x) : Prog MemLogStorage StorageError StorageAnswer).exec m)
      ((do return g (← y) : Prog SqliteLogStorage StorageError StorageAnswer).exec d) := by
  obtain ⟨a, okX⟩ := readX.succeeds trivial
  obtain ⟨b, okY⟩ := readY.succeeds trivial
  rw [Prog.exec_bind_ok _ (Prod.ext okX rfl), Prog.exec_bind_ok _ (Prod.ext okY rfl)]
  refine ⟨answers a b (readX.returned a okX) (readY.returned b okY), ?_⟩
  change SameLog (log (x.exec m).2) (log (y.exec d).2)
  rw [readX.log_eq, readY.log_eq]
  exact same

variable {x : Prog MemLogStorage StorageError Unit} {y : Prog SqliteLogStorage StorageError Unit}

theorem alike_of_writes (results : (x.exec m).1 = (y.exec d).1)
    (same : SameLog (log (x.exec m).2) (log (y.exec d).2)) :
    Alike ((do x; return .unit : Prog MemLogStorage StorageError StorageAnswer).exec m)
      ((do y; return .unit : Prog SqliteLogStorage StorageError StorageAnswer).exec d) := by
  rcases runX : x.exec m with ⟨e | ⟨⟩, m'⟩
  · rw [runX] at results same
    have runY : y.exec d = (.error e, (y.exec d).2) := Prod.ext results.symm rfl
    rw [Prog.exec_bind_error _ runX, Prog.exec_bind_error _ runY]
    exact ⟨rfl, same⟩
  · rw [runX] at results same
    have runY : y.exec d = (.ok (), (y.exec d).2) := Prod.ext results.symm rfl
    rw [Prog.exec_bind_ok _ runX, Prog.exec_bind_ok _ runY]
    exact ⟨rfl, same⟩

theorem alike_of_inserts {id : LogEntryId} {e : LogEntry}
    (effect : LogView → LogEntry → LogView → Prop) (same : SameLog (log m) (log d)) (fits : Fits e)
    (insertX : Prog.Satisfies x m
      (InsertOutcome log Healthy (Storable MemLogStorage) m id e (effect (log m))))
    (insertY : Prog.Satisfies y d
      (InsertOutcome log Healthy (Storable SqliteLogStorage) d id e (effect (log d))))
    (kept : (x.exec m).1 = .ok () → (log (x.exec m).2).entry id = some e)
    (found : ∀ v e' v', effect v e' v' → v'.entry id = some e')
    (alike : ∀ e' v' w', ReadsBackAs e e' → effect (log m) e v' → effect (log d) e' w' → SameLog v' w') :
    Alike ((do x; return .unit : Prog MemLogStorage StorageError StorageAnswer).exec m)
      ((do y; return .unit : Prog SqliteLogStorage StorageError StorageAnswer).exec d) := by
  by_cases stored : (log m).Stored id
  · have takenX := insertX.present trivial trivial stored
    have takenY := insertY.present trivial fits ((same.stored_iff id).mp stored)
    apply alike_of_writes (takenX.trans takenY.symm)
    rw [insertX.failed _ takenX, insertY.failed _ takenY]
    exact same
  · have absentY := fun h => stored ((same.stored_iff id).mpr h)
    have okX := insertX.absent trivial trivial (LogView.not_stored_iff.mp stored)
    have okY := insertY.absent trivial fits (LogView.not_stored_iff.mp absentY)
    obtain ⟨_, a, _, effectX⟩ := insertX.inserted okX
    obtain ⟨_, b, storedAs, effectY⟩ := insertY.inserted okY
    -- The in-memory backend has stored the entry itself.
    have same_entry : a = e := Option.some.inj ((found _ _ _ effectX).symm.trans (kept okX))
    rw [same_entry] at effectX
    have reads : ReadsBackAs e b :=
      readsBackAs_of_view (y.exec d).2.2 (found _ _ _ effectY) storedAs
    exact alike_of_writes (okX.trans okY.symm) (alike b _ _ reads effectX effectY)

end Steps

theorem mem_sqlite_simulate : Simulates (fun op (m : MemLogStorage) => op.run.exec m)
    (fun op (d : SqliteLogStorage) => op.run.exec d) StorageOp.Portable
    (fun m d => SameLog (log m) (log d)) SameAnswer := by
  intro op m d portable same
  change Alike (op.run.exec m) (op.run.exec d)
  cases op with
  | insertEntry id e =>
    apply alike_of_inserts (fun v e' v' => v.Inserted v' id e') same (portable.1 e rfl)
      (insertEntry_outcome m id e) (insertEntry_outcome d id e)
      (entry_of_insertEntry m id e)
    · intro v e' v' inserted
      rw [inserted.entry_eq, update_self]
    · exact fun e' v' w' reads first second => same.inserted reads first second
  | getEntry id =>
    apply alike_of_reads same (getEntry_outcome m id) (getEntry_outcome d id)
    rintro a b rfl rfl
    exact same.entries id
  | hasEntry id =>
    apply alike_of_reads same (hasEntry_outcome m id) (hasEntry_outcome d id)
    intro a b foundA foundB
    have equal : a = b := by
      rw [Bool.eq_iff_iff, foundA, foundB]
      exact same.stored_iff id
    exact congrArg (fun b => Except.ok (StorageAnswer.bool b)) equal
  | getParentCids id =>
    apply alike_of_reads same (getParentCids_outcome m id) (getParentCids_outcome d id)
    rintro a b rfl rfl
    have related := same.entries id
    generalize (log m).entry id = e, (log d).entry id = e' at related
    cases related with
    | some reads => exact Option.Rel.some ⟨reads.nodup, reads.parents⟩
    | none => exact Option.Rel.none
  | listTips g =>
    apply alike_of_reads same (listTips_outcome m g) (listTips_outcome d g)
    rintro a b rfl rfl
    exact same.tips g
  | setTips g tips =>
    have first := setTips_outcome m g tips
    have second := setTips_outcome d g tips
    have okX := first.succeeds trivial portable.2
    have okY := second.succeeds trivial portable.2
    exact alike_of_writes (okX.trans okY.symm)
      (same.tipsSet (first.updated okX) (second.updated okY))
  | advanceTips g parents new =>
    have first := advanceTips_outcome m g parents new
    have second := advanceTips_outcome d g parents new
    have okX := first.succeeds trivial trivial
    have okY := second.succeeds trivial trivial
    exact alike_of_writes (okX.trans okY.symm)
      (same.advanced (first.updated okX) (second.updated okY))
  | insertEntryAndAdvanceTips id e g parents new =>
    apply alike_of_inserts
      (fun v e' v' => ∃ mid, v.Inserted mid id e' ∧ mid.Advanced v' g parents new) same
      (portable.1 e rfl) (insertEntryAndAdvanceTips_outcome m id e g parents new)
      (insertEntryAndAdvanceTips_outcome d id e g parents new)
      (entry_of_insertEntryAndAdvanceTips m id e g parents new)
    · rintro v e' v' ⟨mid, inserted, advanced⟩
      rw [advanced.entry_eq, inserted.entry_eq, update_self]
    · rintro e' v' w' reads ⟨mid, inserted, advanced⟩ ⟨mid', inserted', advanced'⟩
      exact (same.inserted reads inserted inserted').advanced advanced advanced'
  | tipCount g =>
    apply alike_of_reads same (tipCount_outcome m g) (tipCount_outcome d g)
    rintro a b rfl rfl
    exact congrArg (fun n => Except.ok (StorageAnswer.count (UInt64.ofNat n)))
      (same.tips g).length_eq

theorem sameLog_new : SameLog (log new) (log SqliteLogStorage.new) :=
  ⟨fun _ => Option.Rel.none, fun _ => List.Perm.refl _⟩

namespace Sample

def tick : HlcTimestamp := ⟨1000, 1, FixedBytes.fill 8 0⟩

def ticked : LogEntry := { root with hlcTimestamp := tick }

def tiedSignature : Signature := .ofNumber 64
  0x7737921fdb7cc6a787c63e2c806a52734ea8a2b80d14bf5975ccff63cb5176f4bb3a4094b6ba0015362add366816ea62c6e4d53edcbb760b054534de3e92d70d

def tied : LogEntry := ⟨tick, article 0xbb, tiedSignature.toBytes, [rootId.toCid]⟩

def tiedEd : Ed25519 := .ofSignatures key pubkey
  [(logEntryCanonicalBytes 1000 (article 0xbb) [rootId.toCid], tiedSignature)]

def insertTicked : List StorageOp := [.insertEntry rootId ticked, .getEntry rootId]

def insertTwice : List StorageOp :=
  [.insertEntry ⟨FixedBytes.fill 32 1⟩ { root with parentCids := [article 1, article 1] },
    .getParentCids ⟨FixedBytes.fill 32 1⟩]

def insertFar : List StorageOp :=
  [.insertEntry ⟨FixedBytes.fill 32 1⟩ { root with hlcTimestamp := .ofWallMs 0x8000000000000000 }]

def setTwice : List StorageOp :=
  [.setTips group [⟨FixedBytes.fill 32 1⟩, ⟨FixedBytes.fill 32 1⟩]]

def portableOps : List StorageOp :=
  [.insertEntryAndAdvanceTips rootId root group [] rootId, .insertEntry rootId ticked,
    .getParentCids rootId, .setTips group [childId, rootId], .listTips group, .tipCount group]

end Sample

end Stoa
