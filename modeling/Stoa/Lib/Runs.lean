import Mathlib.Data.List.Forall2
import Mathlib.Order.Basic

/-! Rules for whole runs of a system that takes operations one after the other: what every step
keeps, every run keeps; and where every step climbs an order, the marks that a run leaves behind are
strictly increasing. -/
namespace Stoa

open List

variable {ω σ τ ρ θ : Type}

/-- Run the operations one after the other and collect their answers. -/
def runAll (step : ω → σ → ρ × σ) : List ω → σ → List ρ × σ
  | [], s => ([], s)
  | op :: ops, s =>
    let (r, s') := step op s
    let (rs, s'') := runAll step ops s'
    (r :: rs, s'')

/-- Admitted operations keep `related` and give answers that `agree`. -/
def Simulates (step : ω → σ → ρ × σ) (step' : ω → τ → θ × τ) (admitted : ω → Prop)
    (related : σ → τ → Prop) (agree : ρ → θ → Prop) : Prop :=
  ∀ op s t, admitted op → related s t →
    agree (step op s).1 (step' op t).1 ∧ related (step op s).2 (step' op t).2

theorem Simulates.runAll {step : ω → σ → ρ × σ} {step' : ω → τ → θ × τ} {admitted : ω → Prop}
    {related : σ → τ → Prop} {agree : ρ → θ → Prop}
    (simulates : Simulates step step' admitted related agree) {ops : List ω}
    (allAdmitted : ∀ op ∈ ops, admitted op) {s : σ} {t : τ} (start : related s t) :
    Forall₂ agree (runAll step ops s).1 (runAll step' ops t).1 ∧
      related (runAll step ops s).2 (runAll step' ops t).2 := by
  -- One step on both sides, then the rest of the run from related states.
  induction ops generalizing s t with
  | nil => exact ⟨Forall₂.nil, start⟩
  | cons op ops ih =>
    obtain ⟨answer, next⟩ := simulates op s t (allAdmitted op mem_cons_self) start
    obtain ⟨answers, final⟩ := ih (fun o h => allAdmitted o (mem_cons_of_mem op h)) next
    exact ⟨Forall₂.cons answer answers, final⟩

variable {α : Type}

@[simp] theorem runAll_nil (step : ω → σ → ρ × σ) (s : σ) : runAll step [] s = ([], s) := rfl

@[simp] theorem runAll_cons (step : ω → σ → ρ × σ) (op : ω) (ops : List ω) (s : σ) :
    runAll step (op :: ops) s =
      ((step op s).1 :: (runAll step ops (step op s).2).1, (runAll step ops (step op s).2).2) := rfl

/-- `holds` is true of every operation of the run, in the state that it finds. -/
def AlongRun (step : ω → σ → ρ × σ) (holds : ω → σ → Prop) : List ω → σ → Prop
  | [], _ => True
  | op :: ops, s => holds op s ∧ AlongRun step holds ops (step op s).2

instance AlongRun.decidable {step : ω → σ → ρ × σ} {holds : ω → σ → Prop}
    [∀ op s, Decidable (holds op s)] : ∀ ops s, Decidable (AlongRun step holds ops s)
  | [], _ => isTrue trivial
  | op :: ops, s =>
    have := (AlongRun.decidable ops (step op s).2 : Decidable (AlongRun step holds ops (step op s).2))
    inferInstanceAs (Decidable (holds op s ∧ AlongRun step holds ops (step op s).2))

theorem runAll_append_snd (step : ω → σ → ρ × σ) (before after : List ω) (s : σ) :
    (runAll step (before ++ after) s).2 = (runAll step after (runAll step before s).2).2 := by
  induction before generalizing s with
  | nil => rfl
  | cons op before ih => exact ih (step op s).2

variable {step : ω → σ → ρ × σ}

theorem alongRun_append {holds : ω → σ → Prop} (before after : List ω) (s : σ) :
    AlongRun step holds (before ++ after) s ↔
      AlongRun step holds before s ∧ AlongRun step holds after (runAll step before s).2 := by
  induction before generalizing s with
  | nil => exact (and_iff_right trivial).symm
  | cons op before ih => exact (and_congr_right fun _ => ih (step op s).2).trans and_assoc.symm

variable {ops : List ω} {s : σ}

theorem alongRun_iff_forall {holds : ω → σ → Prop} : AlongRun step holds ops s ↔
      ∀ before op after, ops = before ++ op :: after → holds op (runAll step before s).2 := by
  constructor
  · rintro along before op after rfl
    exact ((alongRun_append before (op :: after) s).mp along).2.1
  · intro each
    induction ops generalizing s with
    | nil => trivial
    | cons op ops ih =>
      refine ⟨each [] op ops rfl, ih fun before op' after split => ?_⟩
      exact each (op :: before) op' after (by rw [split, cons_append])

theorem alongRun_congr {holds holds' : ω → σ → Prop}
    (each : ∀ op s, holds op s ↔ holds' op s) (ops : List ω) (s : σ) :
    AlongRun step holds ops s ↔ AlongRun step holds' ops s := by
  induction ops generalizing s with
  | nil => exact Iff.rfl
  | cons op ops ih => exact and_congr (each op s) (ih _)

theorem alongRun_const {holds : ω → Prop} :
    AlongRun step (fun op _ => holds op) ops s ↔ ∀ op ∈ ops, holds op := by
  induction ops generalizing s with
  | nil => simp [AlongRun]
  | cons op ops ih => simp [AlongRun, ih]

theorem alongRun_iff {inv : σ → Prop} {holds good : ω → σ → Prop}
    (each : ∀ op s, inv s → (holds op s ↔ good op s))
    (kept : ∀ op s, inv s → good op s → inv (step op s).2) (start : inv s) :
    AlongRun step holds ops s ↔ AlongRun step good ops s := by
  induction ops generalizing s with
  | nil => exact Iff.rfl
  | cons op ops ih =>
    unfold AlongRun
    rw [each op s start]
    exact and_congr_right fun here => ih (kept op s start here)

/-- `holds` is true of every state of the run, the first and the last included. -/
def Throughout (step : ω → σ → ρ × σ) (holds : σ → Prop) : List ω → σ → Prop
  | [], s => holds s
  | op :: ops, s => holds s ∧ Throughout step holds ops (step op s).2

instance Throughout.decidable {step : ω → σ → ρ × σ} {holds : σ → Prop}
    [∀ s, Decidable (holds s)] : ∀ ops s, Decidable (Throughout step holds ops s)
  | [], s => inferInstanceAs (Decidable (holds s))
  | op :: ops, s =>
    have := (Throughout.decidable ops (step op s).2 :
      Decidable (Throughout step holds ops (step op s).2))
    inferInstanceAs (Decidable (holds s ∧ Throughout step holds ops (step op s).2))

theorem Throughout.first {holds : σ → Prop} (throughout : Throughout step holds ops s) : holds s := by
  cases ops with
  | nil => exact throughout
  | cons op ops => exact throughout.1

theorem Throughout.last {holds : σ → Prop}
    (throughout : Throughout step holds ops s) : holds (runAll step ops s).2 := by
  induction ops generalizing s with
  | nil => exact throughout
  | cons op ops ih => exact ih throughout.2

/-- If exactly the good operations keep an invariant, it lasts for a run exactly if every
operation of the run is good. -/
theorem throughout_iff {inv : σ → Prop} {good : ω → σ → Prop}
    (each : ∀ op s, inv s → (inv (step op s).2 ↔ good op s))
    (start : inv s) : Throughout step inv ops s ↔ AlongRun step good ops s := by
  induction ops generalizing s with
  | nil => exact iff_of_true start trivial
  | cons op ops ih =>
    constructor
    · rintro ⟨_, rest⟩
      exact ⟨(each op s start).mp rest.first, (ih rest.first).mp rest⟩
    · rintro ⟨here, rest⟩
      exact ⟨start, (ih ((each op s start).mpr here)).mpr rest⟩

/-- If the good operations keep an invariant that is safe, and the others are unsafe at once, a
run is safe all along exactly if every operation of it is good. -/
theorem throughout_iff_of_unsafe {inv safe : σ → Prop} {good : ω → σ → Prop}
    (sound : ∀ s, inv s → safe s) (kept : ∀ op s, inv s → good op s → inv (step op s).2)
    (lost : ∀ op s, inv s → ¬ good op s → ¬ safe (step op s).2)
    (start : inv s) : Throughout step safe ops s ↔ AlongRun step good ops s := by
  induction ops generalizing s with
  | nil => exact iff_of_true (sound s start) trivial
  | cons op ops ih =>
    by_cases here : good op s
    · exact and_congr (iff_of_true (sound s start) here) (ih (kept op s start here))
    · refine iff_of_false ?_ (fun along => here along.1)
      rintro ⟨-, rest⟩
      exact lost op s start here rest.first

/-- A step that starts from `s` ends no lower, and the mark it leaves is above `s` and not
above the state it ends in. -/
structure Climb [Preorder α] (height : σ → α) (mark : ρ → Option α) (s : σ) (next : ρ × σ) :
    Prop where
  rises : height s ≤ height next.2
  above : ∀ a ∈ mark next.1, height s < a ∧ a ≤ height next.2

theorem marks_increasing [Preorder α] {holds : ω → σ → Prop} {height : σ → α} {mark : ρ → Option α}
    (climbs : ∀ op s, holds op s → Climb height mark s (step op s)) (along : AlongRun step holds ops s) :
    ((runAll step ops s).1.filterMap mark).Pairwise (· < ·) ∧
      ∀ a ∈ (runAll step ops s).1.filterMap mark, height s < a := by
  -- The lower bound carries the induction: all later marks are above the state in between.
  induction ops generalizing s with
  | nil => simp
  | cons op ops ih =>
    obtain ⟨here, rest⟩ := along
    obtain ⟨increasing, later⟩ := ih rest
    have climb := climbs op s here
    have laterAbove : ∀ a ∈ (runAll step ops (step op s).2).1.filterMap mark, height s < a :=
      fun a mem => lt_of_le_of_lt climb.rises (later a mem)
    cases left : mark (step op s).1 with
    | none => simpa only [runAll_cons, filterMap_cons, left] using ⟨increasing, laterAbove⟩
    | some a =>
      obtain ⟨aboveStart, belowEnd⟩ := climb.above a left
      simp only [runAll_cons, filterMap_cons, left, pairwise_cons, mem_cons]
      refine ⟨⟨fun b mem => lt_of_le_of_lt belowEnd (later b mem), increasing⟩, ?_⟩
      rintro b (rfl | mem)
      · exact aboveStart
      · exact laterAbove b mem

theorem runAll_zip {holds : ω → σ → Prop} {good : ω → ρ → Prop}
    (each : ∀ op s, holds op s → good op (step op s).1) (along : AlongRun step holds ops s) :
    ∀ call ∈ ops.zip (runAll step ops s).1, good call.1 call.2 := by
  induction ops generalizing s with
  | nil => simp
  | cons op ops ih =>
    obtain ⟨here, rest⟩ := along
    simp only [runAll_cons, zip_cons_cons, forall_mem_cons]
    exact ⟨each op s here, ih rest⟩

theorem exists_frees_of_lock {inv lock : σ → Prop} {takes frees : ρ → Prop}
    (kept : ∀ op s, inv s → inv (step op s).2)
    (holds : ∀ op s, inv s → lock s → ¬ frees (step op s).1 → lock (step op s).2)
    (excludes : ∀ op s, inv s → lock s → ¬ takes (step op s).1) (start : inv s)
    (locked : lock s) {mid after : List ρ} {r : ρ}
    (split : (runAll step ops s).1 = mid ++ r :: after) (taken : takes r) : ∃ x ∈ mid, frees x := by
  induction mid generalizing ops s with
  | nil =>
    cases ops with
    | nil => simp at split
    | cons op ops =>
      obtain ⟨rfl, -⟩ := cons_eq_cons.mp split
      exact absurd taken (excludes op s start locked)
  | cons x mid ih =>
    cases ops with
    | nil => simp at split
    | cons op ops =>
      obtain ⟨rfl, rest⟩ := cons_eq_cons.mp split
      by_cases freed : frees (step op s).1
      · exact ⟨_, mem_cons_self, freed⟩
      · obtain ⟨x, mem, frees⟩ := ih (kept op s start) (holds op s start locked freed) rest
        exact ⟨x, mem_cons_of_mem _ mem, frees⟩

theorem exists_frees_between {inv lock : σ → Prop} {takes frees : ρ → Prop}
    (kept : ∀ op s, inv s → inv (step op s).2)
    (locks : ∀ op s, inv s → takes (step op s).1 → lock (step op s).2)
    (holds : ∀ op s, inv s → lock s → ¬ frees (step op s).1 → lock (step op s).2)
    (excludes : ∀ op s, inv s → lock s → ¬ takes (step op s).1) (start : inv s)
    {before mid after : List ρ} {r r' : ρ}
    (split : (runAll step ops s).1 = before ++ r :: (mid ++ r' :: after)) (first : takes r)
    (second : takes r') : ∃ x ∈ mid, frees x := by
  induction before generalizing ops s with
  | nil =>
    cases ops with
    | nil => simp at split
    | cons op ops =>
      obtain ⟨rfl, rest⟩ := cons_eq_cons.mp split
      exact exists_frees_of_lock kept holds excludes (kept op s start) (locks op s start first) rest second
  | cons x before ih =>
    cases ops with
    | nil => simp at split
    | cons op ops =>
      obtain ⟨-, rest⟩ := cons_eq_cons.mp split
      exact ih (kept op s start) rest

end Stoa
