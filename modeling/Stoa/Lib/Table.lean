import Mathlib.Data.List.Nodup

/-! Relational tables with a primary key: rows in the order of the table, no two with the same key.
-/
namespace Stoa

open List
structure Table (ρ : Type) {κ : Type} (key : ρ → κ) where
  rows : List ρ
  unique : (rows.map key).Nodup

namespace Table

variable {ρ κ : Type} {key : ρ → κ}

def empty : Table ρ key := ⟨[], nodup_nil⟩

/-- `SELECT .. WHERE p`. -/
def select (t : Table ρ key) (p : ρ → Bool) : List ρ := t.rows.filter p

/-- `DELETE .. WHERE p`. -/
def delete (t : Table ρ key) (p : ρ → Bool) : Table ρ key :=
  ⟨t.rows.filter fun r => !p r, t.unique.sublist (filter_sublist.map key)⟩

/-- `UPDATE .. WHERE p`, of columns outside the key. -/
def update (t : Table ρ key) (p : ρ → Bool) (f : ρ → ρ) (keeps : ∀ r, key (f r) = key r) :
    Table ρ key :=
  ⟨t.rows.map fun r => if p r then f r else r, by
    have same : (key ∘ fun r => if p r then f r else r) = key := by
      funext r
      simp only [Function.comp_apply, apply_ite key, keeps, ite_self]
    rw [map_map, same]
    exact t.unique⟩

variable [DecidableEq κ]

/-- `INSERT`: `none` when the key is taken. -/
def insert (t : Table ρ key) (r : ρ) : Option (Table ρ key) :=
  if h : key r ∈ t.rows.map key then none
  else some ⟨t.rows ++ [r], by
    rw [map_append, map_singleton, nodup_append]
    refine ⟨t.unique, nodup_singleton _, ?_⟩
    rintro a member b last rfl
    exact h (mem_singleton.mp last ▸ member)⟩

/-- `INSERT .. ON CONFLICT DO NOTHING`. -/
def insertOrIgnore (t : Table ρ key) (r : ρ) : Table ρ key := (t.insert r).getD t

/-- One `INSERT` of several rows, all or none. -/
def insertAll (t : Table ρ key) : List ρ → Option (Table ρ key)
  | [] => some t
  | r :: rest => (t.insert r).bind fun t => t.insertAll rest

theorem insert_eq_none_iff (t : Table ρ key) (r : ρ) :
    t.insert r = none ↔ ∃ old ∈ t.rows, key old = key r := by
  unfold insert
  split
  · rename_i taken
    exact iff_of_true rfl (mem_map.mp taken)
  · rename_i fresh
    exact iff_of_false nofun fun h => fresh (mem_map.mpr h)

theorem rows_of_insert {t t' : Table ρ key} {r : ρ} (h : t.insert r = some t') :
    t'.rows = t.rows ++ [r] := by
  unfold insert at h
  split at h
  · cases h
  · cases h
    rfl

theorem rows_of_insertAll {t t' : Table ρ key} {l : List ρ} (h : t.insertAll l = some t') :
    t'.rows = t.rows ++ l := by
  induction l generalizing t with
  | nil =>
    cases h
    rw [append_nil]
  | cons r rest ih =>
    obtain ⟨mid, first, tail⟩ := Option.bind_eq_some_iff.mp h
    rw [ih tail, rows_of_insert first, append_assoc]
    rfl

theorem insertAll_isSome {t : Table ρ key} {l : List ρ} (fresh : ((t.rows ++ l).map key).Nodup) :
    (t.insertAll l).isSome = true := by
  induction l generalizing t with
  | nil => rfl
  | cons r rest ih =>
    cases first : t.insert r with
    | none =>
      -- A taken key would stand twice in the list of keys.
      obtain ⟨old, member, same⟩ := (insert_eq_none_iff t r).mp first
      rw [map_append, nodup_append] at fresh
      exact absurd same (fresh.2.2 _ (mem_map_of_mem member) _
        (mem_map_of_mem mem_cons_self))
    | some mid =>
      unfold insertAll
      rw [first]
      apply ih
      rw [rows_of_insert first, append_assoc]
      exact fresh

theorem rows_insertOrIgnore (t : Table ρ key) (r : ρ) : (t.insertOrIgnore r).rows =
    if key r ∈ t.rows.map key then t.rows else t.rows ++ [r] := by
  unfold insertOrIgnore insert
  split
  · rfl
  · rfl

theorem mem_keys_insertOrIgnore (t : Table ρ key) (r : ρ) (k : κ) :
    k ∈ (t.insertOrIgnore r).rows.map key ↔ k ∈ t.rows.map key ∨ k = key r := by
  rw [rows_insertOrIgnore]
  split
  · next taken => exact ⟨Or.inl, fun h => h.elim (fun old => old) fun same => same ▸ taken⟩
  · rw [map_append, mem_append, map_singleton, mem_singleton]

theorem mem_keys_foldl_insertOrIgnore (t : Table ρ key) (l : List ρ) (k : κ) :
    k ∈ (l.foldl insertOrIgnore t).rows.map key ↔ k ∈ t.rows.map key ∨ k ∈ l.map key := by
  induction l generalizing t with
  | nil => simp
  | cons r rest ih =>
    rw [foldl_cons, ih, mem_keys_insertOrIgnore, map_cons, mem_cons, or_assoc]

omit [DecidableEq κ] in
theorem select_delete (t : Table ρ key) (p q : ρ → Bool) (disjoint : ∀ r, q r = true → p r = false) :
    (t.delete p).select q = t.select q := by
  simp only [select, delete, filter_filter]
  apply filter_congr
  intro r _
  cases selected : q r with
  | false => rfl
  | true => rw [disjoint r selected]; rfl

theorem select_insertOrIgnore (t : Table ρ key) (r : ρ) (q : ρ → Bool) (outside : q r = false) :
    (t.insertOrIgnore r).select q = t.select q := by
  unfold select
  rw [rows_insertOrIgnore]
  split
  · rfl
  · rw [filter_append, filter_singleton, outside]
    simp

theorem select_foldl_insertOrIgnore (t : Table ρ key) (l : List ρ) (q : ρ → Bool)
    (outside : ∀ r ∈ l, q r = false) : (l.foldl insertOrIgnore t).select q = t.select q := by
  induction l generalizing t with
  | nil => rfl
  | cons r rest ih =>
    rw [foldl_cons, ih _ fun x h => outside x (mem_cons_of_mem r h),
      select_insertOrIgnore t r q (outside r mem_cons_self)]

variable (identifies : Function.Injective key)
include identifies

theorem mem_insertOrIgnore (t : Table ρ key) (r x : ρ) :
    x ∈ (t.insertOrIgnore r).rows ↔ x ∈ t.rows ∨ x = r := by
  rw [rows_insertOrIgnore]
  split
  · rename_i taken
    have present := (mem_map_of_injective identifies).mp taken
    exact ⟨Or.inl, fun h => h.elim (fun h => h) (fun same => same ▸ present)⟩
  · rw [mem_append, mem_singleton]

theorem mem_foldl_insertOrIgnore (t : Table ρ key) (l : List ρ) (x : ρ) :
    x ∈ (l.foldl insertOrIgnore t).rows ↔ x ∈ t.rows ∨ x ∈ l := by
  induction l generalizing t with
  | nil => simp
  | cons r rest ih =>
    rw [foldl_cons, ih, mem_insertOrIgnore identifies, mem_cons, or_assoc]

end Table

end Stoa
