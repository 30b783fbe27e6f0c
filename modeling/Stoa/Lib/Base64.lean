import Mathlib.Data.List.Nodup
import Mathlib.Data.List.GetD
import Stoa.Lib.Bytes

/-! Three bytes as four symbols of an alphabet. -/
namespace Stoa

open List
structure Base64 where
  symbols : List Char
  padded : Bool
  complete : symbols.length = 64
  distinct : symbols.Nodup
  noPad : '=' ∉ symbols

namespace Base64

def standard : Base64 where
  symbols := "ABCDEFGHIJKLMNOPQRSTUVWXYZabcdefghijklmnopqrstuvwxyz0123456789+/".toList
  padded := true
  complete := by decide
  distinct := by decide
  noPad := by decide

/-- The alphabet for URLs and file names, without padding. -/
def urlSafeNoPad : Base64 where
  symbols := "ABCDEFGHIJKLMNOPQRSTUVWXYZabcdefghijklmnopqrstuvwxyz0123456789-_".toList
  padded := false
  complete := by decide
  distinct := by decide
  noPad := by decide

/-- Six bits at a time; the last group is filled with zero bits. -/
def sextets : Bytes → List Nat
  | a :: b :: c :: rest =>
    a.toNat / 4 :: (a.toNat % 4 * 16 + b.toNat / 16) :: (b.toNat % 16 * 4 + c.toNat / 64) ::
      c.toNat % 64 :: sextets rest
  | [a, b] => [a.toNat / 4, a.toNat % 4 * 16 + b.toNat / 16, b.toNat % 16 * 4]
  | [a] => [a.toNat / 4, a.toNat % 4 * 16]
  | [] => []

def octets : List Nat → Option Bytes
  | s :: t :: u :: v :: rest => (octets rest).map fun tail =>
    UInt8.ofNat (s * 4 + t / 16) :: UInt8.ofNat (t % 16 * 16 + u / 4) ::
      UInt8.ofNat (u % 4 * 64 + v) :: tail
  | [s, t, u] =>
    if u % 4 = 0 then some [UInt8.ofNat (s * 4 + t / 16), UInt8.ofNat (t % 16 * 16 + u / 4)]
    else none
  | [s, t] => if t % 16 = 0 then some [UInt8.ofNat (s * 4 + t / 16)] else none
  | [_] => none
  | [] => some []

variable (base : Base64)

def symbol (n : Nat) : Char := base.symbols.getD n '='

def value (c : Char) : Option Nat := base.symbols.findIdx? (· == c)

/-- The padding after `n` symbols. -/
def padding (n : Nat) : List Char :=
  if base.padded then List.replicate ((4 - n % 4) % 4) '=' else []

def encode (b : Bytes) : String :=
  let body := (sextets b).map base.symbol
  String.ofList (body ++ base.padding body.length)

def decode (s : String) : Option Bytes :=
  let body := s.toList.takeWhile (· != '=')
  let rest := s.toList.dropWhile (· != '=')
  if rest = base.padding body.length then (body.mapM base.value).bind octets else none

theorem sextets_lt (b : Bytes) : ∀ n ∈ sextets b, n < 64 := by
  induction b using sextets.induct with
  | case1 a b c rest ih =>
    have := a.toNat_lt
    have := b.toNat_lt
    have := c.toNat_lt
    simp only [sextets, forall_mem_cons]
    refine ⟨?_, ?_, ?_, ?_, ih⟩ <;> omega
  | case2 a b =>
    have := a.toNat_lt
    have := b.toNat_lt
    simp only [sextets, forall_mem_cons]
    refine ⟨?_, ?_, ?_, by simp⟩ <;> omega
  | case3 a =>
    have := a.toNat_lt
    simp only [sextets, forall_mem_cons]
    refine ⟨?_, ?_, by simp⟩ <;> omega
  | case4 => simp [sextets]

theorem ofNat_of_eq {n : Nat} {a : UInt8} (same : n = a.toNat) : UInt8.ofNat n = a := by
  rw [same, UInt8.ofNat_toNat]

theorem octets_sextets (b : Bytes) : octets (sextets b) = some b := by
  induction b using sextets.induct with
  | case1 a b c rest ih =>
    have := a.toNat_lt
    have := b.toNat_lt
    have := c.toNat_lt
    simp only [sextets, octets, ih, Option.map_some, Option.some.injEq, List.cons.injEq, and_true]
    refine ⟨?_, ?_, ?_⟩ <;> apply ofNat_of_eq <;> omega
  | case2 a b =>
    have := b.toNat_lt
    have unused : b.toNat % 16 * 4 % 4 = 0 := by omega
    simp only [sextets, octets, unused, if_true, Option.some.injEq, List.cons.injEq, and_true]
    refine ⟨?_, ?_⟩ <;> apply ofNat_of_eq <;> omega
  | case3 a =>
    have unused : a.toNat % 4 * 16 % 16 = 0 := by omega
    simp only [sextets, octets, unused, if_true, Option.some.injEq, List.cons.injEq, and_true]
    apply ofNat_of_eq
    omega
  | case4 => rfl

theorem symbol_mem {n : Nat} (small : n < 64) : base.symbol n ∈ base.symbols := by
  rw [symbol, getD_eq_getElem _ _ (by rw [base.complete]; exact small)]
  exact getElem_mem _

theorem mem_encode {b : Bytes} {c : Char} (mem : c ∈ (base.encode b).toList) :
    c ∈ base.symbols ∨ c = '=' := by
  rw [encode, String.toList_ofList, mem_append] at mem
  rcases mem with symbol | pad
  · obtain ⟨n, known, rfl⟩ := mem_map.mp symbol
    exact .inl (base.symbol_mem (sextets_lt b n known))
  · unfold padding at pad
    split at pad
    · exact .inr (eq_of_mem_replicate pad)
    · cases pad

theorem value_symbol {n : Nat} (small : n < 64) : base.value (base.symbol n) = some n := by
  have bound : n < base.symbols.length := by rw [base.complete]; exact small
  rw [value, symbol, getD_eq_getElem _ _ bound, List.findIdx?_eq_some_iff_getElem]
  refine ⟨bound, by simp, ?_⟩
  intro j before
  simpa using fun same => absurd (base.distinct.getElem_inj_iff.mp same) (by omega)

theorem mapM_value_symbol {l : List Nat} (small : ∀ n ∈ l, n < 64) :
    (l.map base.symbol).mapM base.value = some l := by
  induction l with
  | nil => rfl
  | cons n rest ih =>
    rw [forall_mem_cons] at small
    simp [value_symbol base small.1, ih small.2]

theorem decode_encode (b : Bytes) : base.decode (base.encode b) = some b := by
  have clean : ∀ c ∈ (sextets b).map base.symbol, (c != '=') = true := by
    intro c member
    obtain ⟨n, known, rfl⟩ := mem_map.mp member
    rw [bne_iff_ne]
    intro pad
    exact base.noPad (pad ▸ base.symbol_mem (sextets_lt b n known))
  have stop : ∀ n, (base.padding n).takeWhile (· != '=') = [] ∧
      (base.padding n).dropWhile (· != '=') = base.padding n := by
    intro n
    unfold padding
    split
    · cases (4 - n % 4) % 4 <;> simp [replicate_succ]
    · simp
  -- The padding starts where the symbols end.
  simp only [decode, encode, String.toList_ofList, takeWhile_append_of_pos clean,
    dropWhile_append_of_pos clean, (stop _).1, (stop _).2, append_nil, if_true]
  rw [base.mapM_value_symbol (sextets_lt b)]
  exact octets_sextets b

end Base64

end Stoa
