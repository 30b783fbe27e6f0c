import Stoa.Core.GroupLog.Append
import Stoa.Core.GroupLog.Backfill

/-! What every sequence of `append` and `backfill` calls keeps, failed calls included. -/
namespace Stoa

inductive Call (ed : Ed25519)
  | append (group : GroupName) (verified : VerifiedEntry ed)
  | backfill (group : GroupName) (wantId : LogEntryId) (fetch : Fetch ed)

variable {ed : Ed25519}

namespace Call

def entries : Call ed → Set LogEntry
  | append _ verified => {verified.intoInner}
  | backfill _ _ fetch => {e | ∃ id, Serves fetch id e}

def group : Call ed → GroupName
  | append g _ => g
  | backfill g _ _ => g

variable {S : Type} [LogStorage S]

def after (c : Call ed) (s : S) : S :=
  match c with
  | append g verified => ((Stoa.append g verified).exec s).2
  | backfill g wantId fetch => ((Stoa.backfill g wantId fetch).exec s).2

/-- The call returns `Ok`. -/
def Returns (c : Call ed) (s : S) : Prop :=
  match c with
  | append g verified => ∃ id, ((Stoa.append g verified).exec s).1 = .ok id
  | backfill g wantId fetch => ∃ n, ((Stoa.backfill g wantId fetch).exec s).1 = .ok n

theorem signature_length {c : Call ed} {e : LogEntry} (h : e ∈ c.entries) :
    e.operatorSignature.length = 64 := by
  cases c with
  | append g verified =>
    rw [Set.mem_singleton_iff.mp h]
    exact verified.signature_length
  | backfill g wantId fetch =>
    obtain ⟨id, v, _, rfl, _⟩ := h
    exact v.signature_length

end Call

def runCalls {S : Type} [LogStorage S] (s : S) (calls : List (Call ed)) : S :=
  calls.foldl (fun s c => c.after s) s

def callEntries (calls : List (Call ed)) : Set LogEntry := {e | ∃ c ∈ calls, e ∈ c.entries}

theorem signature_length_of_mem_callEntries {calls : List (Call ed)} {e : LogEntry}
    (h : e ∈ callEntries calls) : e.operatorSignature.length = 64 := by
  obtain ⟨c, _, member⟩ := h
  exact c.signature_length member

section HoldsFrom

variable {U : Set LogEntry} {v v' : LogView}

theorem LogView.HoldsFrom.congr (holds : v.HoldsFrom U) (same : v'.entry = v.entry) : v'.HoldsFrom U := by
  intro id e found
  exact holds id e (same ▸ found)

theorem LogView.HoldsFrom.grown_of {fetch : Fetch ed} (holds : v.HoldsFrom U)
    (served : ∀ id e, v'.Stored id → ¬v.Stored id → Serves fetch id e → e ∈ U)
    (grown : GrownBy fetch v v') : v'.HoldsFrom U := by
  intro id e' found
  rcases grown.entry id with kept | ⟨absent, e, d, serves, stored, added⟩
  · exact holds id e' (kept ▸ found)
  · rw [found] at added
    cases added
    have inU := served id e (stored_iff.mpr ⟨e', found⟩) (not_stored_iff.mpr absent) serves
    exact ⟨e, inU, serves.fromEntry, stored⟩

theorem LogView.HoldsFrom.grown {fetch : Fetch ed} (holds : v.HoldsFrom U)
    (served : ∀ id e, Serves fetch id e → e ∈ U) (grown : GrownBy fetch v v') : v'.HoldsFrom U :=
  holds.grown_of (fun id e _ _ => served id e) grown

theorem LogView.HoldsFrom.appended {g : GroupName} {e : LogEntry} (holds : v.HoldsFrom U)
    (member : e ∈ U) (appended : AppendedTo v v' g e) : v'.HoldsFrom U := by
  obtain ⟨e', mid, stored, inserted, advanced⟩ := appended.written
  intro id d found
  rw [advanced.entry_eq, inserted.entry_eq] at found
  by_cases same : id = LogEntryId.fromEntry e
  · subst same
    rw [Function.update_self] at found
    cases found
    exact ⟨e, member, rfl, stored⟩
  · rw [Function.update_of_ne same] at found
    exact holds id d found

theorem BackfilledTo.holdsFrom {fetch : Fetch ed} {g : GroupName} {want : LogEntryId}
    (holds : v.HoldsFrom U) (served : ∀ id e, Serves fetch id e → e ∈ U)
    (done : BackfilledTo fetch g want v v') : v'.HoldsFrom U := by
  cases done with
  | isTip _ _ same => exact same ▸ holds
  | promoted e _ _ advanced => exact holds.congr advanced.entry_eq
  | fetched e mid seen _ _ searched advanced =>
    exact (holds.grown served searched.grown).congr advanced.entry_eq

end HoldsFrom

section Runs

variable {S : Type} [LogStorage S] [LawfulLogStorage S] {U : Set LogEntry}

open LawfulLogStorage

theorem Call.holdsFrom (c : Call ed) (s : S) (entries : ∀ e ∈ c.entries, e ∈ U)
    (holds : (log s).HoldsFrom U) : (log (c.after s)).HoldsFrom U := by
  cases c with
  | append g verified =>
    have outcome := append_outcome s g verified
    unfold Prog.Satisfies at outcome
    dsimp only [after]
    cases result : ((Stoa.append g verified).exec s).1 with
    | error e => exact holds.congr (by rw [outcome.failed e result])
    | ok id =>
      rcases (outcome.returned id result).2 with ⟨_, same⟩ | appended
      · exact holds.congr (by rw [same])
      · exact holds.appended (entries _ rfl) appended
  | backfill g wantId fetch =>
    have outcome := backfill_outcome g wantId fetch s
    unfold Prog.Satisfies at outcome
    have served (id : LogEntryId) (e : LogEntry) (h : Serves fetch id e) : e ∈ U :=
      entries e ⟨id, h⟩
    dsimp only [after]
    cases result : ((Stoa.backfill g wantId fetch).exec s).1 with
    | error e => exact holds.grown served (outcome.failed e result)
    | ok n => exact BackfilledTo.holdsFrom holds served (outcome.returned n result)

theorem runCalls_holdsFrom (calls : List (Call ed)) (s : S)
    (entries : ∀ c ∈ calls, ∀ e ∈ c.entries, e ∈ U) (holds : (log s).HoldsFrom U) :
    (log (runCalls s calls)).HoldsFrom U := by
  induction calls generalizing s with
  | nil => exact holds
  | cons c rest ih =>
    apply ih
    · exact fun d hd => entries d (List.mem_cons_of_mem c hd)
    · exact c.holdsFrom s (entries c List.mem_cons_self) holds

theorem holdsFrom_of_isEmpty {v : LogView} (empty : v.IsEmpty) : v.HoldsFrom U := by
  intro id e found
  rw [empty.1 id] at found
  cases found

end Runs

end Stoa
