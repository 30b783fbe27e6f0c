import Stoa.Core.GroupLog.SqliteStorage
import Stoa.Properties.BackfillCompleteness

/-! Whatever the schedule, once all calls of `append` have returned `Ok` the tips of the group are
the appended entries that are nobody's parent. -/
namespace Stoa

open LogEntryId LogStorage

/-- Where a call of `append` stands. -/
inductive AppendPc
  | start
  | parents (remaining : List Cid) (parentIds : List LogEntryId)
  | done (result : Except AppendError LogEntryId)

section Calls

variable {S : Type} [LogStorage S] {ed : Ed25519}

namespace AppendPc

/-- One storage operation of the call, or the end of it on a malformed parent CID. -/
def step (group : GroupName) (entry : LogEntry) (pc : AppendPc) (s : S) : AppendPc × S :=
  let entryId := computeEntryId entry
  match pc with
  | start =>
    match (LogStorage.hasEntry entryId).exec s with
    | (.ok true, s) => (done (.ok entryId), s)
    | (.ok false, s) => (parents entry.parentCids [], s)
    | (.error error, s) => (done (.error (.storage error)), s)
  | parents (parentCid :: rest) parentIds =>
    match LogEntryId.ofCid parentCid with
    | none => (done (.error (.missingParent ("parent CID " ++ parentCid.toString ++
        " has a non-32-byte digest (length " ++ toString parentCid.hash.digest.length ++ ")"))), s)
    | some parentId =>
      match (LogStorage.hasEntry parentId).exec s with
      | (.ok true, s) => (parents rest (parentIds ++ [parentId]), s)
      | (.ok false, s) => (done (.error (.missingParent parentCid.toString)), s)
      | (.error error, s) => (done (.error (.storage error)), s)
  | parents [] parentIds =>
    match (LogStorage.insertEntryAndAdvanceTips entryId entry group parentIds entryId).exec s with
    | (.ok (), s) => (done (.ok entryId), s)
    | (.error (.duplicateEntry _), s) => (done (.ok entryId), s)
    | (.error error, s) => (done (.error (.storage error)), s)
  | done result => (done result, s)

/-- The call has returned `Ok`. -/
def isOk : AppendPc → Bool
  | done (.ok _) => true
  | _ => false

/-- `n` steps of the call with no other task in between. -/
def steps (group : GroupName) (entry : LogEntry) : Nat → AppendPc × S → AppendPc × S
  | 0, state => state
  | n + 1, state => steps group entry n (state.1.step group entry state.2)

end AppendPc

/-- A storage shared by calls of `append`, each at its own point. -/
structure Appending (ed : Ed25519) (S : Type) where
  storage : S
  tasks : List (VerifiedEntry ed × AppendPc)

namespace Appending

def initial (s : S) (verified : List (VerifiedEntry ed)) : Appending ed S :=
  ⟨s, verified.map fun v => (v, .start)⟩

/-- Task `i` takes a step. -/
def step (group : GroupName) (c : Appending ed S) (i : Nat) : Appending ed S :=
  match c.tasks[i]? with
  | none => c
  | some (v, pc) =>
    let (pc, s) := pc.step group v.intoInner c.storage
    ⟨s, c.tasks.set i (v, pc)⟩

def run (group : GroupName) (schedule : List Nat) (c : Appending ed S) : Appending ed S :=
  schedule.foldl (step group) c

/-- Every call has returned `Ok`. -/
def AllOk (c : Appending ed S) : Prop := ∀ task ∈ c.tasks, task.2.isOk = true

instance (c : Appending ed S) : Decidable c.AllOk :=
  inferInstanceAs (Decidable (∀ task ∈ c.tasks, task.2.isOk = true))

end Appending

theorem AppendPc.steps_add (group : GroupName) (entry : LogEntry) (m n : Nat) (state : AppendPc × S) :
    steps group entry (m + n) state = steps group entry m (steps group entry n state) := by
  induction n generalizing state with
  | zero => rfl
  | succ n ih => exact ih _

theorem AppendPc.steps_parents (group : GroupName) (entry : LogEntry) (cids : List Cid)
    (parentIds : List LogEntryId) (s : S) : ∃ n, steps group entry n (parents cids parentIds, s) =
      match (collectParents cids parentIds).exec s with
      | (.ok ids, s) => (parents [] ids, s)
      | (.error error, s) => (done (.error error), s) := by
  induction cids generalizing parentIds s with
  | nil => exact ⟨0, rfl⟩
  | cons c rest ih =>
    cases named : ofCid c with
    | none =>
      refine ⟨1, ?_⟩
      simp only [steps, step, collectParents, named]
      rfl
    | some p =>
      simp only [collectParents, named]
      rw [Prog.exec_bind, Prog.exec_mapError]
      rcases check : (hasEntry p).exec s with ⟨error | present, s'⟩
      · refine ⟨1, ?_⟩
        simp only [steps, step, named, check]
      · cases present with
        | false =>
          refine ⟨1, ?_⟩
          simp only [steps, step, named, check]
          rfl
        | true =>
          obtain ⟨n, later⟩ := ih (parentIds ++ [p]) s'
          refine ⟨n + 1, ?_⟩
          simp [steps, step, named, check, later]

theorem AppendPc.steps_eq_append (group : GroupName) (v : VerifiedEntry ed) (s : S) :
    ∃ n, steps group v.intoInner n (start, s) =
      (done ((append group v).exec s).1, ((append group v).exec s).2) := by
  unfold append
  rw [Prog.exec_bind, Prog.exec_mapError]
  rcases check : (hasEntry (computeEntryId v.intoInner)).exec s with ⟨error | present, s₁⟩
  · refine ⟨1, ?_⟩
    simp only [steps, step, check]
  · cases present with
    | true =>
      refine ⟨1, ?_⟩
      simp only [steps, step, check]
      rfl
    | false =>
      obtain ⟨n, collected⟩ := steps_parents group v.intoInner v.intoInner.parentCids [] s₁
      have first : step group v.intoInner start s = (parents v.intoInner.parentCids [], s₁) := by
        simp only [step, check]
      simp only [Bool.false_eq_true, if_false]
      rw [Prog.exec_bind]
      rcases parents : (collectParents v.intoInner.parentCids []).exec s₁ with ⟨error | ids, s₂⟩
      · refine ⟨n + 1, ?_⟩
        rw [steps, first, collected, parents]
      · have checked : steps group v.intoInner (n + 1) (start, s) = (.parents [] ids, s₂) := by
          rw [steps, first, collected, parents]
        refine ⟨1 + (n + 1), ?_⟩
        rw [steps_add, checked]
        simp only [steps, step]
        rw [Prog.exec_bind, Prog.exec_attempt]
        rcases (insertEntryAndAdvanceTips (computeEntryId v.intoInner) v.intoInner group
          ids (computeEntryId v.intoInner)).exec s₂ with ⟨error | ⟨⟩, s₃⟩
        · cases error <;> rfl
        · rfl

section Spec

variable [LawfulLogStorage S]

open LawfulLogStorage

/-- What the call knows about the log: the parents it has checked are stored, and so is the
entry once the call has returned. The other tasks never take this away. -/
def AppendPc.Knows (v : LogView) (entry : LogEntry) : AppendPc → Prop
  | start => True
  | parents remaining parentIds => ∃ checked, entry.parentCids = checked ++ remaining ∧
      parentIds = checked.filterMap LogEntryId.ofCid ∧ ParentsStored v checked
  | done (.ok _) => v.Stored (LogEntryId.fromEntry entry)
  | done (.error _) => True

theorem AppendPc.Knows.mono {v v' : LogView} {entry : LogEntry} {pc : AppendPc}
    (knows : pc.Knows v entry) (mono : ∀ id, v.Stored id → v'.Stored id) : pc.Knows v' entry := by
  match pc, knows with
  | start, _ => trivial
  | parents _ _, ⟨checked, split, ids, stored⟩ =>
    refine ⟨checked, split, ids, fun c member => ?_⟩
    obtain ⟨p, named, isStored⟩ := stored c member
    exact ⟨p, named, mono p isStored⟩
  | done (.ok _), stored => exact mono _ stored
  | done (.error _), _ => trivial

theorem AppendPc.Knows.stored {v : LogView} {entry : LogEntry} {pc : AppendPc}
    (knows : pc.Knows v entry) (ok : pc.isOk = true) : v.Stored (fromEntry entry) := by
  match pc, ok with
  | done (.ok _), _ => exact knows

theorem AppendPc.step_outcome (g : GroupName) (entry : LogEntry) (pc : AppendPc) (s : S)
    (knows : pc.Knows (log s) entry) :
    (log (pc.step g entry s).2 = log s ∨ AppendedTo (log s) (log (pc.step g entry s).2) g entry) ∧
      (pc.step g entry s).1.Knows (log (pc.step g entry s).2) entry := by
  match pc, knows with
  | start, _ =>
    rcases check : (hasEntry (computeEntryId entry)).exec s with ⟨error | present, s'⟩
    · have outcome := (hasEntry_outcome s _).of_exec check
      simp only [step, check]
      exact ⟨.inl outcome.log_eq, trivial⟩
    · have outcome := (hasEntry_outcome s _).of_exec check
      cases present with
      | true =>
        simp only [step, check]
        refine ⟨.inl outcome.log_eq, ?_⟩
        rw [Knows, outcome.log_eq]
        exact (outcome.returned true rfl).mp rfl
      | false =>
        simp only [step, check]
        exact ⟨.inl outcome.log_eq, [], rfl, rfl, nofun⟩
  | parents (c :: rest) parentIds, ⟨checked, split, ids, stored⟩ =>
    cases named : ofCid c with
    | none =>
      simp only [step, named]
      exact ⟨.inl trivial, trivial⟩
    | some p =>
      rcases check : (hasEntry p).exec s with ⟨error | present, s'⟩
      · have outcome := (hasEntry_outcome s _).of_exec check
        simp only [step, named, check]
        exact ⟨.inl outcome.log_eq, trivial⟩
      · have outcome := (hasEntry_outcome s _).of_exec check
        cases present with
        | false =>
          simp only [step, named, check]
          exact ⟨.inl outcome.log_eq, trivial⟩
        | true =>
          simp only [step, named, check]
          refine ⟨.inl outcome.log_eq, checked ++ [c], ?_, ?_, ?_⟩
          · rw [split, List.append_assoc]
            rfl
          · rw [ids, List.filterMap_append, List.filterMap_cons_some named, List.filterMap_nil]
          · rw [outcome.log_eq]
            refine List.forall_mem_append.mpr ⟨stored, List.forall_mem_singleton.mpr ⟨p, named, ?_⟩⟩
            exact (outcome.returned true rfl).mp rfl
  | parents [] parentIds, ⟨checked, split, ids, stored⟩ =>
    rw [List.append_nil] at split
    subst split ids
    rcases write : (insertEntryAndAdvanceTips (computeEntryId entry) entry g
      (entry.parentCids.filterMap ofCid) (computeEntryId entry)).exec s with
      ⟨error | ⟨⟩, s'⟩
    · have outcome := (insertEntryAndAdvanceTips_outcome s _ _ _ _ _).of_exec write
      have same : log s' = log s := outcome.failed error rfl
      cases error with
      | duplicateEntry i =>
        -- Another task has appended the entry since the first check.
        simp only [step, write]
        refine ⟨.inl same, ?_⟩
        rw [Knows, same]
        exact outcome.duplicate i rfl
      | _ =>
        simp only [step, write]
        exact ⟨.inl same, trivial⟩
    · have outcome := (insertEntryAndAdvanceTips_outcome s _ _ _ _ _).of_exec write
      simp only [step, write]
      obtain ⟨absent, e', storedAs, mid, inserted, advanced⟩ := outcome.inserted rfl
      have appended : AppendedTo (log s) (log s') g entry :=
        ⟨absent, stored, e', mid, storedAs, inserted, advanced⟩
      exact ⟨.inr appended, appended.stored_new⟩
  | done result, knows => exact ⟨.inl rfl, knows⟩

end Spec

end Calls

open LawfulLogStorage Relation List Appending

section General

variable {S : Type} [LogStorage S] [LawfulLogStorage S] {ed : Ed25519} {E : Set LogEntry}
  {g : GroupName} {v v' : LogView} {e : LogEntry}

/-- The log holds part of `E`, and the tips of `g` are the childless entries of that part. -/
structure LogView.HoldsPart (v : LogView) (E : Set LogEntry) (g : GroupName) : Prop where
  parents : ∀ e ∈ E, v.Stored (LogEntryId.fromEntry e) → ∀ p ∈ parentIdsFromEntry e, v.Stored p
  tips : ∀ t, t ∈ v.tips g ↔ ∃ e ∈ E, LogEntryId.fromEntry e = t ∧ v.Stored t ∧
    ∀ d ∈ E, v.Stored (LogEntryId.fromEntry d) → t ∉ parentIdsFromEntry d
  covered : ∀ e ∈ E, v.Stored (LogEntryId.fromEntry e) →
    ∃ t ∈ v.tips g, v.Reaches t (LogEntryId.fromEntry e)

/-- The entries of `E` have pairwise distinct ids. -/
def DistinctIds (E : Set LogEntry) : Prop :=
  ∀ a ∈ E, ∀ b ∈ E, LogEntryId.fromEntry a = LogEntryId.fromEntry b → a = b

theorem LogView.holdsPart_of_fresh
    (fresh : ∀ e ∈ E, v.entry (fromEntry e) = none) (noTips : v.tips g = []) :
    v.HoldsPart E g := by
  have absent (e : LogEntry) (member : e ∈ E) : ¬v.Stored (fromEntry e) :=
    LogView.not_stored_iff.mpr (fresh e member)
  refine ⟨fun e member stored => absurd stored (absent e member), fun t => ?_,
    fun e member stored => absurd stored (absent e member)⟩
  rw [noTips]
  constructor
  · exact nofun
  · rintro ⟨e, member, rfl, stored, _⟩
    exact absurd stored (absent e member)

theorem AppendedTo.reaches_mono (appended : AppendedTo v v' g e) {a b : LogEntryId}
    (path : v.Reaches a b) : v'.Reaches a b := by
  refine ReflTransGen.mono ?_ a b path
  rintro a b ⟨d, found, parent⟩
  refine ⟨d, ?_, parent⟩
  rw [appended.entry_of_ne, found]
  rintro rfl
  rw [appended.absent] at found
  cases found

theorem AppendedTo.holdsPart (appended : AppendedTo v v' g e) (member : e ∈ E)
    (distinct : DistinctIds E) (part : v.HoldsPart E g) : v'.HoldsPart E g := by
  have fresh : ¬v.Stored (fromEntry e) := LogView.not_stored_iff.mpr appended.absent
  -- An entry of `E` that is stored now is the new one, or was stored before.
  have cases_of (d : LogEntry) (hd : d ∈ E) (stored : v'.Stored (fromEntry d)) :
      v.Stored (fromEntry d) ∨ d = e :=
    (appended.stored_cases stored).imp_right (distinct d hd e member)
  refine ⟨?_, ?_, ?_⟩
  · intro d hd stored p parent
    rcases cases_of d hd stored with old | rfl
    · exact appended.stored_mono (part.parents d hd old p parent)
    · exact appended.stored_mono (appended.parents.stored parent)
  · intro t
    rw [appended.mem_tips, part.tips]
    constructor
    · rintro (rfl | ⟨⟨a, ha, rfl, stored, childless⟩, notParent⟩)
      · refine ⟨e, member, rfl, appended.stored_new, ?_⟩
        -- Every stored entry has its parents stored, and the new one was not.
        intro d hd stored parent
        rcases cases_of d hd stored with old | rfl
        · exact fresh (part.parents d hd old _ parent)
        · exact fresh (appended.parents.stored parent)
      · refine ⟨a, ha, rfl, appended.stored_mono stored, ?_⟩
        intro d hd storedD
        rcases cases_of d hd storedD with old | rfl
        · exact childless d hd old
        · exact notParent
    · rintro ⟨a, ha, rfl, stored, childless⟩
      rcases cases_of a ha stored with old | rfl
      · refine Or.inr ⟨⟨a, ha, rfl, old, fun d hd h => childless d hd (appended.stored_mono h)⟩, ?_⟩
        exact childless e member appended.stored_new
      · exact Or.inl rfl
  · intro d hd stored
    rcases cases_of d hd stored with old | rfl
    · obtain ⟨t, tip, path⟩ := part.covered d hd old
      by_cases retired : t ∈ parentIdsFromEntry e
      · refine ⟨_, appended.mem_tips.mpr (Or.inl rfl), ?_⟩
        exact ReflTransGen.head ((appended.parentEdge_iff t).mpr retired) (appended.reaches_mono path)
      · exact ⟨t, appended.mem_tips.mpr (Or.inr ⟨tip, retired⟩), appended.reaches_mono path⟩
    · exact ⟨_, appended.mem_tips.mpr (Or.inl rfl), ReflTransGen.refl⟩

def innerEntries (verified : List (VerifiedEntry ed)) : Set LogEntry :=
  { e | ∃ v ∈ verified, v.intoInner = e }

structure Appending.Inv (g : GroupName) (verified : List (VerifiedEntry ed))
    (c : Appending ed S) : Prop where
  calls : c.tasks.map Prod.fst = verified
  part : (log c.storage).HoldsPart (innerEntries verified) g
  knows : ∀ task ∈ c.tasks, task.2.Knows (log c.storage) task.1.intoInner

variable {verified : List (VerifiedEntry ed)}

theorem Appending.inv_step (distinct : DistinctIds (innerEntries verified)) (c : Appending ed S)
    (i : Nat) (inv : c.Inv g verified) : (c.step g i).Inv g verified := by
  cases found : c.tasks[i]? with
  | none =>
    rw [step, found]
    exact inv
  | some task =>
    have member : task ∈ c.tasks := mem_of_getElem? found
    have appends : task.1.intoInner ∈ innerEntries verified :=
      ⟨task.1, inv.calls ▸ mem_map_of_mem member, rfl⟩
    obtain ⟨effect, knows⟩ := AppendPc.step_outcome g task.1.intoInner task.2 c.storage
      (inv.knows task member)
    have part : (log (task.2.step g task.1.intoInner c.storage).2).HoldsPart
        (innerEntries verified) g := by
      rcases effect with same | appended
      · rw [same]
        exact inv.part
      · exact appended.holdsPart appends distinct inv.part
    have mono (id : LogEntryId) (stored : (log c.storage).Stored id) :
        (log (task.2.step g task.1.intoInner c.storage).2).Stored id := by
      rcases effect with same | appended
      · rw [same]
        exact stored
      · exact appended.stored_mono stored
    simp only [step, found]
    refine ⟨?_, part, ?_⟩
    · obtain ⟨bound, rfl⟩ := List.getElem?_eq_some_iff.mp found
      rw [map_set, ← inv.calls, ← getElem_map Prod.fst (h := by simpa using bound),
        set_getElem_self]
    · intro other isTask
      rcases mem_or_eq_of_mem_set isTask with old | rfl
      · exact (inv.knows other old).mono mono
      · exact knows

theorem Appending.inv_run (distinct : DistinctIds (innerEntries verified)) (schedule : List Nat)
    (c : Appending ed S) (inv : c.Inv g verified) : (c.run g schedule).Inv g verified := by
  induction schedule generalizing c with
  | nil => exact inv
  | cons i rest ih => exact ih (c.step g i) (c.inv_step distinct i inv)

theorem Appending.inv_initial (s : S)
    (fresh : ∀ v ∈ verified, (log s).entry (fromEntry v.intoInner) = none)
    (noTips : (log s).tips g = []) : (initial s verified).Inv g verified := by
  refine ⟨?_, LogView.holdsPart_of_fresh ?_ noTips, ?_⟩
  · simp [initial, Function.comp_def]
  · rintro e ⟨v, member, rfl⟩
    exact fresh v member
  · intro task member
    obtain ⟨v, _, rfl⟩ := mem_map.mp member
    trivial

theorem Appending.Inv.stored {c : Appending ed S} (inv : c.Inv g verified) (ok : c.AllOk)
    {e : LogEntry} (member : e ∈ innerEntries verified) :
    (log c.storage).Stored (fromEntry e) := by
  obtain ⟨v, isCall, rfl⟩ := member
  rw [← inv.calls] at isCall
  obtain ⟨⟨_, pc⟩, isTask, rfl⟩ := mem_map.mp isCall
  exact (inv.knows _ isTask).stored (ok _ isTask)

/-- Calls of `append` for entries with distinct ids, any number of calls for each, run in any
interleaving on a log that has none of the entries and a group without tips: if all of them
return `Ok`, the tips are the entries that are no parent of any of them, and every entry is a tip
or an ancestor of a tip. -/
theorem append_interleaving_tips (g : GroupName) (s : S) (verified : List (VerifiedEntry ed))
    (schedule : List Nat) (distinct : DistinctIds (innerEntries verified))
    (fresh : ∀ v ∈ verified, (log s).entry (LogEntryId.fromEntry v.intoInner) = none)
    (noTips : (log s).tips g = []) (ok : ((Appending.initial s verified).run g schedule).AllOk) :
    let final := log ((initial s verified).run g schedule).storage
    (∀ t, t ∈ final.tips g ↔ ∃ v ∈ verified, fromEntry v.intoInner = t ∧
      ∀ w ∈ verified, t ∉ parentIdsFromEntry w.intoInner) ∧
    ∀ v ∈ verified, ∃ t ∈ final.tips g, final.Reaches t (fromEntry v.intoInner) := by
  intro final
  have inv := inv_run distinct schedule _ (inv_initial s fresh noTips)
  constructor
  · intro t
    rw [inv.part.tips]
    constructor
    · rintro ⟨_, ⟨v, member, rfl⟩, rfl, _, childless⟩
      refine ⟨v, member, rfl, fun w isCall => ?_⟩
      exact childless _ ⟨w, isCall, rfl⟩ (inv.stored ok ⟨w, isCall, rfl⟩)
    · rintro ⟨v, member, rfl, childless⟩
      refine ⟨_, ⟨v, member, rfl⟩, rfl, inv.stored ok ⟨v, member, rfl⟩, ?_⟩
      rintro _ ⟨w, isCall, rfl⟩ _
      exact childless w isCall
  · intro v member
    exact inv.part.covered _ ⟨v, member, rfl⟩ (inv.stored ok ⟨v, member, rfl⟩)

end General

namespace Sample

def rootTwiceAndChild : List (VerifiedEntry ed) := [verifiedRoot, verifiedRoot, verifiedChild]

def race : List Nat := [0, 1, 0, 1, 2, 2, 2]

theorem race_allOk : ((initial SqliteLogStorage.new rootTwiceAndChild).run group race).AllOk := by
  decide +kernel

theorem root_or_child_of_race {v : VerifiedEntry ed} (member : v ∈ rootTwiceAndChild) :
    v = verifiedRoot ∨ v = verifiedChild := by
  simpa [rootTwiceAndChild] using member

theorem distinctIds_race : DistinctIds (innerEntries rootTwiceAndChild) := by
  rintro _ ⟨v, hv, rfl⟩ _ ⟨w, hw, rfl⟩ same
  rcases root_or_child_of_race hv with rfl | rfl <;> rcases root_or_child_of_race hw with rfl | rfl
  · rfl
  · exact absurd same rootId_ne_childId
  · exact absurd same.symm rootId_ne_childId
  · rfl

end Sample

open Sample in
/-- The child is the only tip after the race, and the root is its ancestor. -/
theorem race_tips :
    let final := log ((initial SqliteLogStorage.new rootTwiceAndChild).run group
      race).storage
    (∀ t, t ∈ final.tips group ↔ t = childId) ∧
      ∃ t ∈ final.tips group, final.Reaches t rootId := by
  have interleaving := append_interleaving_tips group SqliteLogStorage.new rootTwiceAndChild race
    distinctIds_race (fun _ _ => rfl) rfl race_allOk
  refine ⟨fun t => (interleaving.1 t).trans ⟨?_, ?_⟩,
    interleaving.2 verifiedRoot mem_cons_self⟩
  · rintro ⟨v, member, rfl, childless⟩
    rcases root_or_child_of_race member with rfl | rfl
    · refine absurd ?_ (childless verifiedChild (by simp [rootTwiceAndChild]))
      exact parentIds_child ▸ mem_singleton_self rootId
    · rfl
  · rintro rfl
    refine ⟨verifiedChild, by simp [rootTwiceAndChild], rfl, fun w member => ?_⟩
    rcases root_or_child_of_race member with rfl | rfl
    · exact parentIds_root ▸ not_mem_nil
    · exact parentIds_child ▸ fun h => rootId_ne_childId (mem_singleton.mp h).symm

end Stoa
