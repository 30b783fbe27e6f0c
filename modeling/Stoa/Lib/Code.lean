import Mathlib.Data.List.Perm.Basic
import Mathlib.Data.List.Sort

/-! A code is self-delimiting when the first code word of a text can be read without knowing where
it ends. -/
namespace Stoa

open List
variable {α β γ : Type}

/-- Two texts that start with code words and agree start with the same word. -/
def SelfDelimiting (enc : α → List β) : Prop :=
  ∀ a b x y, enc a ++ x = enc b ++ y → a = b

namespace SelfDelimiting

variable {enc : α → List β}

theorem tail (h : SelfDelimiting enc) {a b : α} {x y : List β}
    (text : enc a ++ x = enc b ++ y) : a = b ∧ x = y := by
  have same := h a b x y text
  subst same
  exact ⟨rfl, append_cancel_left text⟩

theorem injective (h : SelfDelimiting enc) : Function.Injective enc := by
  intro a b text
  exact h a b [] [] (by rw [text])

theorem of_decoder (dec : List β → Option (α × List β))
    (reads : ∀ a x, dec (enc a ++ x) = some (a, x)) : SelfDelimiting enc := by
  intro a b x y text
  have both : some (a, x) = some (b, y) := by rw [← reads a x, ← reads b y, text]
  simp only [Option.some.injEq, Prod.mk.injEq] at both
  exact both.1

theorem of_length {n : Nat} (inj : Function.Injective enc) (len : ∀ a, (enc a).length = n) :
    SelfDelimiting enc := by
  intro a b x y text
  have words := (append_inj text (by rw [len, len])).1
  exact inj words

theorem flatMap_injective (h : SelfDelimiting enc) (nonempty : ∀ a, enc a ≠ []) :
    Function.Injective (fun l : List α => l.flatMap enc) := by
  intro l₁
  induction l₁ with
  | nil =>
    intro l₂ text
    cases l₂ with
    | nil => rfl
    | cons b l₂ =>
      simp only [flatMap_nil, flatMap_cons] at text
      exact absurd (append_eq_nil_iff.mp text.symm).1 (nonempty b)
  | cons a l₁ ih =>
    intro l₂ text
    cases l₂ with
    | nil =>
      simp only [flatMap_nil, flatMap_cons] at text
      exact absurd (append_eq_nil_iff.mp text).1 (nonempty a)
    | cons b l₂ =>
      simp only [flatMap_cons] at text
      obtain ⟨same, rest⟩ := h.tail text
      rw [same, ih rest]

end SelfDelimiting

theorem append_mark_inj {mark : β} {v w x y : List β} (safeV : mark ∉ v) (safeW : mark ∉ w)
    (text : v ++ mark :: x = w ++ mark :: y) : v = w ∧ x = y := by
  induction v generalizing w with
  | nil =>
    cases w with
    | nil => exact ⟨rfl, (List.cons.inj text).2⟩
    | cons c w =>
      have head : mark = c := (List.cons.inj text).1
      exact absurd (head ▸ mem_cons_self) safeW
  | cons b v ih =>
    cases w with
    | nil =>
      have head : b = mark := (List.cons.inj text).1
      exact absurd (head ▸ mem_cons_self) safeV
    | cons c w =>
      obtain ⟨head, rest⟩ := List.cons.inj text
      obtain ⟨same, tail⟩ := ih (fun h => safeV (mem_cons_of_mem b h))
        (fun h => safeW (mem_cons_of_mem c h)) rest
      exact ⟨by rw [head, same], tail⟩

theorem mem_of_mem_intercalate {sep : List β} {words : List (List β)} {b : β}
    (member : b ∈ sep.intercalate words) : b ∈ sep ∨ ∃ word ∈ words, b ∈ word := by
  induction words with
  | nil => cases member
  | cons word rest ih =>
    cases rest with
    | nil =>
      rw [intercalate_singleton] at member
      exact Or.inr ⟨word, mem_cons_self, member⟩
    | cons next rest =>
      rw [intercalate_cons_cons, mem_append, mem_append] at member
      rcases member with (inWord | inSep) | later
      · exact Or.inr ⟨word, mem_cons_self, inWord⟩
      · exact Or.inl inSep
      · obtain inSep | ⟨other, listed, inOther⟩ := ih later
        · exact Or.inl inSep
        · exact Or.inr ⟨other, mem_cons_of_mem word listed, inOther⟩

theorem intercalate_inj [DecidableEq β] {mark : β} {words words' : List (List β)}
    (safe : ∀ word ∈ words, mark ∉ word) (safe' : ∀ word ∈ words', mark ∉ word)
    (some_word : words ≠ []) (some_word' : words' ≠ [])
    (text : [mark].intercalate words = [mark].intercalate words') : words = words' := by
  rw [← splitOn_intercalate mark safe some_word, text,
    splitOn_intercalate mark safe' some_word']

/-! A code may delimit itself only on the values that are safe to encode. -/

/-- Two texts that start with code words of values in `P` and agree start with the same word. -/
def SelfDelimitingOn (P : α → Prop) (enc : α → List β) : Prop :=
  ∀ a b x y, P a → P b → enc a ++ x = enc b ++ y → a = b

namespace SelfDelimitingOn

variable {P : α → Prop} {enc : α → List β}

theorem tail (h : SelfDelimitingOn P enc) {a b : α} {x y : List β} (inA : P a) (inB : P b)
    (text : enc a ++ x = enc b ++ y) : a = b ∧ x = y := by
  have same := h a b x y inA inB text
  subst same
  exact ⟨rfl, append_cancel_left text⟩

theorem flatMap_append_inj (h : SelfDelimitingOn P enc) {l₁ l₂ : List α} {x y : List β}
    (in₁ : ∀ a ∈ l₁, P a) (in₂ : ∀ a ∈ l₂, P a) (stopX : ∀ a z, P a → enc a ++ z ≠ x)
    (stopY : ∀ a z, P a → enc a ++ z ≠ y) (text : l₁.flatMap enc ++ x = l₂.flatMap enc ++ y) :
    l₁ = l₂ ∧ x = y := by
  induction l₁ generalizing l₂ with
  | nil =>
    cases l₂ with
    | nil => exact ⟨rfl, text⟩
    | cons b l₂ =>
      rw [flatMap_nil, nil_append, flatMap_cons, append_assoc] at text
      exact absurd text.symm (stopX b _ (in₂ b mem_cons_self))
  | cons a l₁ ih =>
    cases l₂ with
    | nil =>
      rw [flatMap_nil, nil_append, flatMap_cons, append_assoc] at text
      exact absurd text (stopY a _ (in₁ a mem_cons_self))
    | cons b l₂ =>
      simp only [flatMap_cons, append_assoc] at text
      obtain ⟨same, rest⟩ := h.tail (in₁ a mem_cons_self) (in₂ b mem_cons_self) text
      obtain ⟨others, tail⟩ := ih (fun c hc => in₁ c (mem_cons_of_mem a hc))
        (fun c hc => in₂ c (mem_cons_of_mem b hc)) rest
      exact ⟨by rw [same, others], tail⟩

end SelfDelimitingOn

section Sorted

variable (r : β → β → Prop) [DecidableRel r] [Std.Total r] [IsTrans β r] [Std.Antisymm r]

theorem insertionSort_eq_iff_perm (l₁ l₂ : List β) :
    l₁.insertionSort r = l₂.insertionSort r ↔ l₁.Perm l₂ := by
  constructor
  · intro sorted
    exact ((perm_insertionSort r l₁).symm.trans (sorted ▸ perm_insertionSort r l₂))
  · intro perm
    apply List.Perm.eq_of_pairwise' (pairwise_insertionSort r l₁)
      (pairwise_insertionSort r l₂)
    exact ((perm_insertionSort r l₁).trans perm).trans (perm_insertionSort r l₂).symm

end Sorted

section SortedCode

variable (r : List β → List β → Prop) [DecidableRel r] [Std.Total r] [IsTrans (List β) r]
  [Std.Antisymm r]

theorem SelfDelimiting.flatten_sorted_eq_iff {enc : α → List β} (h : SelfDelimiting enc)
    (nonempty : ∀ a, enc a ≠ []) (l₁ l₂ : List α) :
    ((l₁.map enc).insertionSort r).flatten = ((l₂.map enc).insertionSort r).flatten ↔ l₁.Perm l₂ := by
  constructor
  · intro text
    -- Sorting the words is sorting the values by their words.
    have words (l : List α) : (l.map enc).insertionSort r =
        (l.insertionSort (fun a b => r (enc a) (enc b))).map enc := by
      rw [map_insertionSort (fun a b => r (enc a) (enc b)) r enc l]
      exact fun _ _ _ _ => Iff.rfl
    rw [words l₁, words l₂, ← flatMap_def, ← flatMap_def] at text
    have values := h.flatMap_injective nonempty text
    exact ((perm_insertionSort _ l₁).symm.trans
      (values ▸ perm_insertionSort _ l₂))
  · intro perm
    rw [(insertionSort_eq_iff_perm r _ _).mpr (perm.map enc)]

end SortedCode

end Stoa
