import Mathlib.Data.List.GetD
import Mathlib.Data.List.Induction
import Mathlib.Tactic.Ring
import Stoa.Lib.Bytes

/-! The text forms in which identifiers are shown in messages: hexadecimal, base 32 in lower case
without padding, and base 58 in the Bitcoin alphabet. -/
namespace Stoa.Multibase

open List
def hexDigits : List Char := "0123456789abcdef".toList

def hexEncode (b : Bytes) : String :=
  String.ofList (b.flatMap fun x =>
    [hexDigits.getD (x.toNat / 16) '0', hexDigits.getD (x.toNat % 16) '0'])

def toNumber (b : Bytes) : Nat := b.foldl (fun n x => n * 256 + x.toNat) 0

/-- The low `places` digits of `n` in base `base`, most significant first. -/
def digitsLoop (base : Nat) : Nat → Nat → List Nat → List Nat
  | 0, _, acc => acc
  | places + 1, n, acc => digitsLoop base places (n / base) (n % base :: acc)

def base32Alphabet : List Char := "abcdefghijklmnopqrstuvwxyz234567".toList

/-- Base 32 without padding: the bits in groups of five, the last group filled with zeros. -/
def base32Lower (b : Bytes) : String :=
  let groups := (b.length * 8 + 4) / 5
  let filled := toNumber b * 2 ^ (groups * 5 - b.length * 8)
  String.ofList ((digitsLoop 32 groups filled []).map fun d => base32Alphabet.getD d 'a')

def base58Alphabet : List Char :=
  "123456789ABCDEFGHJKLMNPQRSTUVWXYZabcdefghijkmnopqrstuvwxyz".toList

/-- Base 58: the number without leading zeros, a `1` for each leading zero byte. -/
def base58Btc (b : Bytes) : String :=
  let zeros := (b.takeWhile (· == 0)).length
  let digits := (digitsLoop 58 (b.length * 2) (toNumber b) []).dropWhile (· == 0)
  String.ofList (List.replicate zeros '1' ++ digits.map fun d => base58Alphabet.getD d '1')

theorem toNumber_append (b : Bytes) (x : UInt8) : toNumber (b ++ [x]) = toNumber b * 256 + x.toNat := by
  simp [toNumber]

theorem toNumber_lt (b : Bytes) : toNumber b < 256 ^ b.length := by
  induction b using List.reverseRecOn with
  | nil => simp [toNumber]
  | append_singleton b x ih =>
    have small := x.toNat_lt
    rw [toNumber_append, length_append, length_singleton, pow_succ]
    omega

theorem toNumber_inj {a b : Bytes} (len : a.length = b.length) (same : toNumber a = toNumber b) :
    a = b := by
  induction a using List.reverseRecOn generalizing b with
  | nil => exact (length_eq_zero_iff.mp len.symm).symm
  | append_singleton a x ih =>
    cases b using List.reverseRecOn with
    | nil => simp at len
    | append_singleton b y =>
      rw [toNumber_append, toNumber_append] at same
      have smallX := x.toNat_lt
      have smallY := y.toNat_lt
      obtain rfl : x = y := UInt8.toNat_inj.mp (by omega)
      rw [ih (by simpa using len) (by omega)]

theorem digitsLoop_append (base places n : Nat) (acc : List Nat) :
    digitsLoop base places n acc = digitsLoop base places n [] ++ acc := by
  induction places generalizing n acc with
  | zero => rfl
  | succ places ih =>
    rw [digitsLoop, digitsLoop, ih, ih (n / base) [n % base], append_assoc, singleton_append]

@[simp] theorem length_digitsLoop (base places n : Nat) :
    (digitsLoop base places n []).length = places := by
  induction places generalizing n with
  | zero => rfl
  | succ places ih =>
    rw [digitsLoop, digitsLoop_append, length_append, ih, length_singleton]

theorem mem_digitsLoop {base places n d : Nat} (positive : 0 < base)
    (member : d ∈ digitsLoop base places n []) : d < base := by
  induction places generalizing n with
  | zero => simp [digitsLoop] at member
  | succ places ih =>
    rw [digitsLoop, digitsLoop_append, mem_append, mem_singleton] at member
    rcases member with high | rfl
    · exact ih high
    · exact Nat.mod_lt n positive

theorem digitsLoop_inj {base places n m : Nat} (small : n < base ^ places) (small' : m < base ^ places)
    (same : digitsLoop base places n [] = digitsLoop base places m []) : n = m := by
  induction places generalizing n m with
  | zero =>
    simp only [pow_zero] at small small'
    omega
  | succ places ih =>
    rw [digitsLoop, digitsLoop, digitsLoop_append, digitsLoop_append base places (m / base)] at same
    obtain ⟨high, low⟩ := append_inj same (by simp)
    rw [pow_succ] at small small'
    have quotient := ih (Nat.div_lt_of_lt_mul (by rwa [mul_comm] at small))
      (Nat.div_lt_of_lt_mul (by rwa [mul_comm] at small')) high
    have rest : n % base = m % base := by simpa using low
    rw [← Nat.div_add_mod n base, ← Nat.div_add_mod m base, quotient, rest]

theorem letters_inj {ds es : List Nat} (digits : ∀ d ∈ ds, d < 32) (digits' : ∀ e ∈ es, e < 32)
    (same : (ds.map fun d => base32Alphabet.getD d 'a') = es.map fun d => base32Alphabet.getD d 'a') :
    ds = es := by
  have letter : ∀ d < 32, ∀ e < 32, base32Alphabet.getD d 'a' = base32Alphabet.getD e 'a' → d = e := by
    have nodup : base32Alphabet.Nodup := by decide
    intro d small e small' equal
    have len : base32Alphabet.length = 32 := by decide
    rw [getD_eq_getElem _ _ (by omega), getD_eq_getElem _ _ (by omega)] at equal
    exact (nodup.getElem_inj_iff).mp equal
  induction ds generalizing es with
  | nil => simpa using same.symm
  | cons d ds ih =>
    cases es with
    | nil => simp at same
    | cons e es =>
      simp only [map_cons, List.cons.injEq, forall_mem_cons] at same digits digits'
      rw [letter d digits.1 e digits'.1 same.1, ih digits.2 digits'.2 same.2]

theorem base32Lower_injective : Function.Injective base32Lower := by
  intro a b same
  have chars := congrArg String.toList same
  simp only [base32Lower, String.toList_ofList] at chars
  -- The number of letters gives away the number of bytes.
  have letters := congrArg List.length chars
  simp only [length_map, length_digitsLoop] at letters
  have len : a.length = b.length := by omega
  rw [len] at chars
  have digits := letters_inj (fun d => mem_digitsLoop (by decide)) (fun d => mem_digitsLoop (by decide))
    chars
  have scaled (c : Bytes) (long : c.length = b.length) :
      toNumber c * 2 ^ ((b.length * 8 + 4) / 5 * 5 - b.length * 8) <
        32 ^ ((b.length * 8 + 4) / 5) := by
    have bound := toNumber_lt c
    rw [long] at bound
    calc toNumber c * 2 ^ ((b.length * 8 + 4) / 5 * 5 - b.length * 8)
        < 256 ^ b.length * 2 ^ ((b.length * 8 + 4) / 5 * 5 - b.length * 8) :=
          Nat.mul_lt_mul_of_pos_right bound (Nat.pow_pos (by decide))
      _ = 32 ^ ((b.length * 8 + 4) / 5) := by
          rw [show (256 : Nat) = 2 ^ 8 by decide, show (32 : Nat) = 2 ^ 5 by decide, ← pow_mul,
            ← pow_add, ← pow_mul]
          congr 1
          omega
  have number := digitsLoop_inj (scaled a len) (scaled b rfl) digits
  exact toNumber_inj len (Nat.eq_of_mul_eq_mul_right (Nat.pow_pos (by decide)) number)

end Stoa.Multibase
