import Mathlib.Computability.Language

/-! A pattern is a list of symbols, of which one stands for any text and one for any single symbol.
-/
namespace Stoa.Glob

open List
variable {α β : Type} (star question : α)

/-- The texts that one symbol of a pattern stands for. -/
def symbol (p : α) : Language α :=
  { w | p = star ∨ ∃ c, w = [c] ∧ (p = question ∨ p = c) }

def language (pattern : List α) : Language α := (pattern.map (symbol star question)).prod

variable {star question}

variable {p : α} {w : List α}

theorem mem_symbol : w ∈ symbol star question p ↔ p = star ∨ ∃ c, w = [c] ∧ (p = question ∨ p = c) :=
  Iff.rfl

@[simp] theorem mem_language_nil : w ∈ language star question [] ↔ w = [] := by
  simp [language]

variable {q : List α}

theorem mem_language_append {r : List α} : w ∈ language star question (q ++ r) ↔
    ∃ u ∈ language star question q, ∃ v ∈ language star question r, u ++ v = w := by
  simp [language, Language.mem_mul]

theorem mem_language_cons : w ∈ language star question (p :: q) ↔
    ∃ u ∈ symbol star question p, ∃ v ∈ language star question q, u ++ v = w := by
  simp [language, Language.mem_mul]

theorem mem_language_singleton : w ∈ language star question [p] ↔ w ∈ symbol star question p := by
  simp [language]

theorem nil_mem_concat : [] ∈ language star question (q ++ [p]) ↔
    [] ∈ language star question q ∧ p = star := by
  simp [mem_language_append, mem_language_singleton, mem_symbol]

theorem concat_mem_star {c : α} : w ++ [c] ∈ language star question (q ++ [star]) ↔
    w ++ [c] ∈ language star question q ∨ w ∈ language star question (q ++ [star]) := by
  simp only [mem_language_append, mem_language_singleton, mem_symbol, true_or, true_and]
  constructor
  · rintro ⟨u, matched, v, whole⟩
    rcases eq_nil_or_concat v with rfl | ⟨v, d, rfl⟩
    · rw [append_nil] at whole
      exact .inl (whole ▸ matched)
    · rw [concat_eq_append, ← append_assoc] at whole
      exact .inr ⟨u, matched, v, (List.append_inj' whole rfl).1⟩
  · rintro (matched | ⟨u, matched, v, rfl⟩)
    · exact ⟨_, matched, [], append_nil _⟩
    · exact ⟨u, matched, v ++ [c], by simp⟩

theorem concat_mem_concat {c : α} (notStar : p ≠ star) : w ++ [c] ∈ language star question (q ++ [p]) ↔
      w ∈ language star question q ∧ (p = question ∨ p = c) := by
  simp only [mem_language_append, mem_language_singleton, mem_symbol, notStar, false_or]
  constructor
  · rintro ⟨u, matched, v, ⟨d, rfl, fits⟩, whole⟩
    obtain ⟨rfl, last⟩ := List.append_inj' whole rfl
    exact ⟨matched, singleton_inj.mp last ▸ fits⟩
  · rintro ⟨matched, fits⟩
    exact ⟨w, matched, [c], ⟨c, rfl, fits⟩, rfl⟩

variable {pattern : List α}

theorem mem_of_literal {x : α} (present : x ∈ pattern)
    (literal : x ≠ star ∧ x ≠ question) (matched : w ∈ language star question pattern) : x ∈ w := by
  obtain ⟨before, after, rfl⟩ := append_of_mem present
  obtain ⟨u, -, v, rest, rfl⟩ := mem_language_append.mp matched
  obtain ⟨u', single, v', -, rfl⟩ := mem_language_cons.mp rest
  rcases mem_symbol.mp single with h | ⟨c, rfl, h | rfl⟩
  · exact absurd h literal.1
  · exact absurd h literal.2
  · simp

theorem mem_language_literal (literal : ∀ x ∈ pattern, x ≠ star ∧ x ≠ question) :
    w ∈ language star question pattern ↔ w = pattern := by
  induction pattern generalizing w with
  | nil => exact mem_language_nil
  | cons p q ih =>
    have ⟨head, tail⟩ := forall_mem_cons.mp literal
    simp only [mem_language_cons, mem_symbol, head.1, head.2, false_or, ih tail]
    exact ⟨fun ⟨_, ⟨_, rfl, rfl⟩, _, rfl, same⟩ => same.symm,
      fun same => ⟨[p], ⟨p, rfl, rfl⟩, q, rfl, same.symm⟩⟩

theorem map_mem_language_map {f : α → β} {S : Set α} (inj : S.InjOn f) (hs : star ∈ S)
    (hq : question ∈ S) (hp : ∀ p ∈ pattern, p ∈ S) (hw : ∀ c ∈ w, c ∈ S) :
    w.map f ∈ language (f star) (f question) (pattern.map f) ↔ w ∈ language star question pattern := by
  induction pattern generalizing w with
  | nil => simp
  | cons p q ih =>
    have ⟨head, tail⟩ := forall_mem_cons.mp hp
    have same {u : List α} (hu : ∀ c ∈ u, c ∈ S) :
        u.map f ∈ symbol (f star) (f question) (f p) ↔ u ∈ symbol star question p := by
      simp only [mem_symbol, inj.eq_iff head hs, inj.eq_iff head hq]
      refine or_congr_right ?_
      constructor
      · rintro ⟨c, single, fits⟩
        obtain ⟨d, rfl, rfl⟩ := map_eq_singleton_iff.mp single
        exact ⟨d, rfl, fits.imp_right (inj head (hu d mem_cons_self))⟩
      · rintro ⟨c, rfl, fits⟩
        exact ⟨f c, rfl, fits.imp_right (congrArg f)⟩
    rw [map_cons, mem_language_cons, mem_language_cons]
    constructor
    · rintro ⟨u, first, v, rest, whole⟩
      obtain ⟨u, v, rfl, rfl, rfl⟩ := map_eq_append_iff.mp whole.symm
      rw [forall_mem_append] at hw
      exact ⟨u, (same hw.1).mp first, v, (ih tail hw.2).mp rest, rfl⟩
    · rintro ⟨u, first, v, rest, rfl⟩
      rw [forall_mem_append] at hw
      exact ⟨_, (same hw.1).mpr first, _, (ih tail hw.2).mpr rest, map_append.symm⟩

end Stoa.Glob
