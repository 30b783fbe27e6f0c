import Mathlib.Logic.Relation
import Mathlib.Tactic.ByContra

/-! A set of tips covers a closed acyclic graph when every node is reached from a tip. -/
namespace Stoa.Graph

open Relation

variable {α : Type} {E F : α → α → Prop} {P : α → Prop}

/-- Edges that start in `P` end in `P`. -/
def Closed (E : α → α → Prop) (P : α → Prop) : Prop := ∀ a b, P a → E a b → P b

theorem Closed.reach (closed : Closed E P) {a b : α} (start : P a) (path : ReflTransGen E a b) : P b := by
  induction path with
  | refl => exact start
  | tail _ edge ih => exact closed _ _ ih edge

theorem Closed.reach_mono (closed : Closed E P) (edges : ∀ a b, P a → E a b → F a b) {a b : α}
    (start : P a) (path : ReflTransGen E a b) : ReflTransGen F a b := by
  induction path with
  | refl => exact ReflTransGen.refl
  | tail before edge ih => exact ih.tail (edges _ _ (closed.reach start before) edge)

theorem Closed.trans_mono (closed : Closed E P) (edges : ∀ a b, P a → E a b → F a b) {a b : α}
    (start : P a) (path : TransGen E a b) : TransGen F a b := by
  obtain ⟨c, first, rest⟩ := TransGen.head'_iff.mp path
  exact TransGen.head'_iff.mpr
    ⟨c, edges a c start first, closed.reach_mono edges (closed a c start first) rest⟩

def Acyclic (E : α → α → Prop) : Prop := ∀ a, ¬TransGen E a a

theorem Acyclic.extend (closed : Closed E P) (inside : ∀ a, P a → ¬TransGen E a a)
    (rank : α → Nat) (outside : ∀ a b, ¬P a → ¬P b → E a b → rank b < rank a) : Acyclic E := by
  intro a cycle
  by_cases member : P a
  · exact inside a member cycle
  · -- Every node of a cycle through `a` reaches `a`, so none of them is in `P`.
    have descends : ∀ b, TransGen E a b → ¬P b → rank b < rank a := by
      intro b path
      induction path with
      | single edge => exact fun notB => outside _ _ member notB edge
      | @tail b c before edge ih =>
        intro notC
        have notB : ¬P b := fun inB => notC (closed _ _ inB edge)
        exact Nat.lt_trans (outside _ _ notB notC edge) (ih notB)
    exact Nat.lt_irrefl _ (descends a cycle member)

variable {α : Type} {E E' : α → α → Prop} {N N' T T' : α → Prop} {w : α}

structure Covers (E : α → α → Prop) (N T : α → Prop) : Prop where
  closed : Closed E N
  acyclic : Acyclic E
  inside : ∀ t, T t → N t
  reached : ∀ a, N a → ∃ t, T t ∧ ReflTransGen E t a

def Antichain (E : α → α → Prop) (T : α → Prop) : Prop := ∀ a b, T a → T b → ¬TransGen E a b

/-- The graph grows by a new node `w` and by what it reaches, and `w` replaces the tips that it
points to. -/
structure Added (E E' : α → α → Prop) (N N' T T' : α → Prop) (w : α) : Prop where
  agrees : ∀ a b, N a → (E' a b ↔ E a b)
  closed : Closed E' N'
  keeps : ∀ a, N a → N' a
  fresh : ¬N w
  head : N' w
  reached : ∀ a, N' a → N a ∨ ReflTransGen E' w a
  ranked : ∃ rank : α → Nat, ∀ a b, ¬N a → ¬N b → E' a b → rank b < rank a
  tips : ∀ t, T' t ↔ t = w ∨ T t ∧ ¬E' w t

namespace Added

theorem closed_old (added : Added E E' N N' T T' w) (covers : Covers E N T) : Closed E' N :=
  fun a b member edge => covers.closed a b member ((added.agrees a b member).mp edge)

theorem trans_iff (added : Added E E' N N' T T' w) (covers : Covers E N T) {a b : α}
    (old : N a) : TransGen E' a b ↔ TransGen E a b := by
  constructor
  · exact (added.closed_old covers).trans_mono (fun x y hx => (added.agrees x y hx).mp) old
  · exact covers.closed.trans_mono (fun x y hx => (added.agrees x y hx).mpr) old

theorem reach_old (added : Added E E' N N' T T' w) (covers : Covers E N T) {a b : α}
    (old : N a) (path : ReflTransGen E a b) : ReflTransGen E' a b :=
  covers.closed.reach_mono (fun x y hx => (added.agrees x y hx).mpr) old path

theorem covers (added : Added E E' N N' T T' w) (covers : Covers E N T) : Covers E' N' T' := by
  refine ⟨added.closed, ?_, ?_, ?_⟩
  · obtain ⟨rank, descends⟩ := added.ranked
    apply Acyclic.extend (added.closed_old covers) _ rank descends
    exact fun a old cycle => covers.acyclic a ((added.trans_iff covers old).mp cycle)
  · intro t tip
    rcases (added.tips t).mp tip with rfl | ⟨old, _⟩
    · exact added.head
    · exact added.keeps t (covers.inside t old)
  · intro a node
    rcases added.reached a node with old | path
    · obtain ⟨t, tip, path⟩ := covers.reached a old
      have path' := added.reach_old covers (covers.inside t tip) path
      by_cases retired : E' w t
      · exact ⟨w, (added.tips w).mpr (.inl rfl), path'.head retired⟩
      · exact ⟨t, (added.tips t).mpr (.inr ⟨tip, retired⟩), path'⟩
    · exact ⟨w, (added.tips w).mpr (.inl rfl), path⟩

theorem antichain_iff (added : Added E E' N N' T T' w) (covers : Covers E N T)
    (antichain : Antichain E T) : Antichain E' T' ↔ ∀ t, T t → TransGen E' w t → E' w t := by
  have acyclic := (added.covers covers).acyclic
  constructor
  · intro after t tip path
    by_contra kept
    exact after w t ((added.tips w).mpr (.inl rfl)) ((added.tips t).mpr (.inr ⟨tip, kept⟩)) path
  · intro direct a b tipA tipB path
    rcases (added.tips a).mp tipA with rfl | ⟨oldA, _⟩
    · rcases (added.tips b).mp tipB with rfl | ⟨oldB, kept⟩
      · exact acyclic _ path
      · exact kept (direct b oldB path)
    · -- A path out of an old node stays among the old ones.
      have path' := (added.trans_iff covers (covers.inside a oldA)).mp path
      rcases (added.tips b).mp tipB with rfl | ⟨oldB, _⟩
      · exact added.fresh (covers.closed.reach (covers.inside a oldA) path'.to_reflTransGen)
      · exact antichain a b oldA oldB path'

theorem antichain_of_old (added : Added E E' N N' T T' w) (covers : Covers E N T)
    (antichain : Antichain E T) (old : ∀ p, E' w p → N p) : Antichain E' T' := by
  apply (added.antichain_iff covers antichain).mpr
  intro t tip path
  obtain ⟨p, edge, rest⟩ := TransGen.head'_iff.mp path
  obtain ⟨t₀, tip₀, above⟩ := covers.reached p (old p edge)
  have rest' := (added.closed_old covers).reach_mono (fun x y hx => (added.agrees x y hx).mp)
    (old p edge) rest
  -- The tip above `p` reaches the tip `t`, so the three are one node.
  rcases reflTransGen_iff_eq_or_transGen.mp (above.trans rest') with same | below
  · rcases reflTransGen_iff_eq_or_transGen.mp above with here | cycle
    · rw [same, ← here]
      exact edge
    · rw [same] at rest'
      exact absurd (cycle.trans_left rest') (covers.acyclic t₀)
  · exact absurd below (antichain t₀ t tip₀ tip)

end Added

theorem Covers.promote (covers : Covers E N T) (node : N w)
    (tips : ∀ t, T' t ↔ t = w ∨ T t ∧ ¬E w t) : Covers E N T' := by
  refine ⟨covers.closed, covers.acyclic, ?_, ?_⟩
  · intro t tip
    rcases (tips t).mp tip with rfl | ⟨old, _⟩
    · exact node
    · exact covers.inside t old
  · intro a member
    obtain ⟨t, tip, path⟩ := covers.reached a member
    by_cases retired : E w t
    · exact ⟨w, (tips w).mpr (.inl rfl), path.head retired⟩
    · exact ⟨t, (tips t).mpr (.inr ⟨tip, retired⟩), path⟩

theorem Covers.not_antichain_promote (covers : Covers E N T) (node : N w) (inner : ¬T w)
    (tips : ∀ t, T' t ↔ t = w ∨ T t ∧ ¬E w t) : ¬Antichain E T' := by
  intro antichain
  obtain ⟨t, tip, path⟩ := covers.reached w node
  rcases reflTransGen_iff_eq_or_transGen.mp path with same | below
  · exact inner (same ▸ tip)
  · have kept : ¬E w t := fun edge => covers.acyclic w (TransGen.head edge below)
    exact antichain t w ((tips t).mpr (.inr ⟨tip, kept⟩)) ((tips w).mpr (.inl rfl)) below

end Stoa.Graph
