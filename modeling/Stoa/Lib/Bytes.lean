import Stoa.Lib.Code
import Mathlib.Algebra.Group.Nat.Defs
import Mathlib.Data.List.Basic

/-! Byte strings, fixed-size byte arrays, their lexicographic order and big-endian numbers, as the
standard library of the source language has them. -/
namespace Stoa

abbrev Bytes := List UInt8

/-- An array of exactly `n` bytes. -/
def FixedBytes (n : Nat) : Type := { b : Bytes // b.length = n }

namespace FixedBytes

variable {n : Nat}

instance : DecidableEq (FixedBytes n) := inferInstanceAs (DecidableEq { b : Bytes // b.length = n })

def toBytes (b : FixedBytes n) : Bytes := b.1

@[simp] theorem length_toBytes (b : FixedBytes n) : b.toBytes.length = n := b.2

theorem toBytes_injective : Function.Injective (toBytes : FixedBytes n → Bytes) :=
  fun _ _ h => Subtype.ext h

/-- The array with the given bytes, if there are exactly `n` of them. -/
def tryFrom (n : Nat) (b : Bytes) : Option (FixedBytes n) :=
  if h : b.length = n then some ⟨b, h⟩ else none

@[simp] theorem tryFrom_toBytes (b : FixedBytes n) : tryFrom n b.toBytes = some b := by
  simp only [tryFrom, length_toBytes, dite_true]
  rfl

theorem toBytes_of_tryFrom {b : Bytes} {a : FixedBytes n} (h : tryFrom n b = some a) : a.toBytes = b := by
  unfold tryFrom at h
  split at h
  · cases h
    rfl
  · cases h

def fill (n : Nat) (x : UInt8) : FixedBytes n := ⟨List.replicate n x, List.length_replicate⟩

end FixedBytes

/-- Lexicographic comparison of byte strings, a proper prefix first. -/
def bytesLe : Bytes → Bytes → Bool
  | [], _ => true
  | _ :: _, [] => false
  | a :: as, b :: bs => decide (a < b) || (decide (a = b) && bytesLe as bs)

theorem bytesLe_cons_iff (a b : UInt8) (as bs : Bytes) :
    bytesLe (a :: as) (b :: bs) = true ↔ a < b ∨ a = b ∧ bytesLe as bs = true := by
  simp [bytesLe]

theorem bytesLe_total (x y : Bytes) : bytesLe x y = true ∨ bytesLe y x = true := by
  induction x generalizing y with
  | nil => exact .inl rfl
  | cons a as ih =>
    cases y with
    | nil => exact .inr rfl
    | cons b bs =>
      rw [bytesLe_cons_iff, bytesLe_cons_iff]
      rcases UInt8.lt_or_lt_of_ne (a := a) (b := b) |> fun h => (em (a = b)).imp_right h with
        same | below | above
      · exact (ih bs).imp (fun h => .inr ⟨same, h⟩) (fun h => .inr ⟨same.symm, h⟩)
      · exact .inl (.inl below)
      · exact .inr (.inl above)

theorem bytesLe_trans (x y z : Bytes) (first : bytesLe x y = true) (second : bytesLe y z = true) :
    bytesLe x z = true := by
  induction x generalizing y z with
  | nil => rfl
  | cons a as ih =>
    cases y with
    | nil => simp [bytesLe] at first
    | cons b bs =>
      cases z with
      | nil => simp [bytesLe] at second
      | cons c cs =>
        rw [bytesLe_cons_iff] at first second ⊢
        rcases first with ab | ⟨rfl, tailAB⟩
        · rcases second with bc | ⟨rfl, _⟩
          · exact .inl (UInt8.lt_trans ab bc)
          · exact .inl ab
        · rcases second with bc | ⟨rfl, tailBC⟩
          · exact .inl bc
          · exact .inr ⟨rfl, ih bs cs tailAB tailBC⟩

theorem bytesLe_antisymm (x y : Bytes) (first : bytesLe x y = true) (second : bytesLe y x = true) :
    x = y := by
  induction x generalizing y with
  | nil =>
    cases y with
    | nil => rfl
    | cons b bs => simp [bytesLe] at second
  | cons a as ih =>
    cases y with
    | nil => simp [bytesLe] at first
    | cons b bs =>
      rw [bytesLe_cons_iff] at first second
      rcases first with ab | ⟨rfl, tailAB⟩
      · rcases second with ba | ⟨same, _⟩
        · exact absurd ba (UInt8.lt_asymm ab)
        · exact absurd ab (same ▸ UInt8.lt_irrefl _)
      · rcases second with ba | ⟨_, tailBA⟩
        · exact absurd ba (UInt8.lt_irrefl _)
        · rw [ih bs tailAB tailBA]

instance : Std.Total (fun x y : Bytes => bytesLe x y = true) := ⟨bytesLe_total⟩
instance : IsTrans Bytes (fun x y => bytesLe x y = true) := ⟨bytesLe_trans⟩
instance : Std.Antisymm (fun x y : Bytes => bytesLe x y = true) := ⟨bytesLe_antisymm⟩

def sortBytes (l : List Bytes) : List Bytes := l.insertionSort (fun x y => bytesLe x y = true)

/-- The low `n` bytes of `x`, most significant first. -/
def beBytes : Nat → Nat → Bytes
  | 0, _ => []
  | n + 1, x => beBytes n (x / 256) ++ [UInt8.ofNat x]

@[simp] theorem length_beBytes (n x : Nat) : (beBytes n x).length = n := by
  induction n generalizing x with
  | zero => rfl
  | succ n ih => simp only [beBytes, List.length_append, ih, List.length_singleton]

theorem beBytes_injective (n : Nat) {x y : Nat} (hx : x < 256 ^ n) (hy : y < 256 ^ n)
    (h : beBytes n x = beBytes n y) : x = y := by
  induction n generalizing x y with
  | zero => simp only [Nat.pow_zero] at hx hy; omega
  | succ n ih =>
    simp only [beBytes] at h
    obtain ⟨high, low⟩ := List.append_inj h (by simp only [length_beBytes])
    have quotient : x / 256 = y / 256 := by
      apply ih
      · exact Nat.div_lt_of_lt_mul (by rw [Nat.pow_succ] at hx; omega)
      · exact Nat.div_lt_of_lt_mul (by rw [Nat.pow_succ] at hy; omega)
      · exact high
    have remainder : x % 256 = y % 256 := by
      have bytes : UInt8.ofNat x = UInt8.ofNat y := by simpa using low
      have values := congrArg UInt8.toNat bytes
      simpa using values
    omega

/-- The array whose bytes read as `x`. -/
def FixedBytes.ofNumber (n x : Nat) : FixedBytes n := ⟨beBytes n x, length_beBytes n x⟩

/-- `u64::to_be_bytes`. -/
def toBeBytes (x : UInt64) : Bytes := beBytes 8 x.toNat

theorem selfDelimiting_toBeBytes : SelfDelimiting toBeBytes := by
  apply SelfDelimiting.of_length (n := 8)
  · intro x y h
    exact UInt64.toNat_inj.mp (beBytes_injective 8 x.toNat_lt y.toNat_lt h)
  · exact fun x => length_beBytes 8 _

end Stoa
