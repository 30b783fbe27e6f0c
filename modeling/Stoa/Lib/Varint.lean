import Mathlib.Tactic.Ring
import Stoa.Lib.Text

/-! Little-endian base-128 numbers of at most 64 bits: seven bits a byte, the high bit set on every
byte but the last. -/
namespace Stoa.Cbor

open Text

def head (major n : Nat) : Bytes :=
  if n < 24 then [UInt8.ofNat (32 * major + n)]
  else if n < 2 ^ 8 then UInt8.ofNat (32 * major + 24) :: beBytes 1 n
  else if n < 2 ^ 16 then UInt8.ofNat (32 * major + 25) :: beBytes 2 n
  else if n < 2 ^ 32 then UInt8.ofNat (32 * major + 26) :: beBytes 4 n
  else UInt8.ofNat (32 * major + 27) :: beBytes 8 n

def uint (n : Nat) : Bytes := head 0 n

def byteString (b : Bytes) : Bytes := head 2 b.length ++ b

def text (s : String) : Bytes := head 3 (len s) ++ asBytes s

def array (items : List Bytes) : Bytes := head 4 items.length ++ items.flatten

def keyLe (a b : String) : Bool :=
  decide (len a < len b) || (decide (len a = len b) && bytesLe (asBytes a) (asBytes b))

def map (entries : List (String × Bytes)) : Bytes :=
  head 5 entries.length ++
    (entries.insertionSort fun a b => keyLe a.1 b.1 = true).flatMap fun e => text e.1 ++ e.2

def link (cid : Bytes) : Bytes := head 6 42 ++ byteString (0x00 :: cid)

def null : Bytes := [0xf6]

end Stoa.Cbor

namespace Stoa.Varint

/-- The bytes of a `u64` buffer. -/
def bufferLength : Nat := 10

/-- Fill at most `room` bytes with the base-128 digits of `n`. -/
def encodeLoop : Nat → Nat → Bytes
  | 0, _ => []
  | room + 1, n =>
    if n / 128 = 0 then [UInt8.ofNat (n % 128)]
    else UInt8.ofNat (n % 128 + 128) :: encodeLoop room (n / 128)

def encode (n : UInt64) : Bytes := encodeLoop bufferLength n.toNat

inductive DecodeError
  | insufficient
  | overflow
  | notMinimal
  deriving DecidableEq, Repr

/-- Read on at byte `i` with the lower digits summed up in `n`. -/
def decodeLoop (i n : Nat) : Bytes → Except DecodeError (Nat × Bytes)
  | [] => .error .insufficient
  | b :: rest =>
    let n := n + b.toNat % 128 * 128 ^ i % 2 ^ 64
    if b.toNat < 128 then
      -- A zero in the last place could have been left out.
      if b = 0 ∧ 0 < i then .error .notMinimal else .ok (n, rest)
    else if i + 1 = bufferLength then .error .overflow
    else decodeLoop (i + 1) n rest

def decode (b : Bytes) : Except DecodeError (UInt64 × Bytes) :=
  (decodeLoop 0 0 b).map fun (n, rest) => (UInt64.ofNat n, rest)

theorem encodeLoop_ne_nil (room n : Nat) : encodeLoop (room + 1) n ≠ [] := by
  simp only [encodeLoop]
  split <;> simp

theorem encode_ne_nil (n : UInt64) : encode n ≠ [] := encodeLoop_ne_nil 9 n.toNat

theorem decodeLoop_encodeLoop (room i n acc : Nat) (rest : Bytes) (places : i + room = bufferLength)
    (fits : n < 128 ^ room) (bound : n * 128 ^ i < 2 ^ 64) (nonzero : 0 < i → 0 < n)
    (some_room : 0 < room) :
    decodeLoop i acc (encodeLoop room n ++ rest) = .ok (acc + n * 128 ^ i, rest) := by
  induction room generalizing i n acc with
  | zero => omega
  | succ room ih =>
    have low : n % 128 * 128 ^ i ≤ n * 128 ^ i := Nat.mul_le_mul_right _ (Nat.mod_le _ _)
    have keep : n % 128 * 128 ^ i % 2 ^ 64 = n % 128 * 128 ^ i := Nat.mod_eq_of_lt (by omega)
    simp only [encodeLoop]
    split
    · rename_i last
      have digit : n % 128 = n := by omega
      rw [digit] at keep ⊢
      have byte : (UInt8.ofNat n).toNat = n := by
        rw [UInt8.toNat_ofNat']
        omega
      have notPadded : ¬(UInt8.ofNat n = 0 ∧ 0 < i) := by
        rintro ⟨zero, later⟩
        have value : n = 0 := by rw [← byte, zero]; rfl
        have := nonzero later
        omega
      simp only [List.singleton_append, decodeLoop, byte, digit, keep]
      rw [if_pos (by omega), if_neg notPadded]
    · rename_i more
      have byte : (UInt8.ofNat (n % 128 + 128)).toNat = n % 128 + 128 := by
        rw [UInt8.toNat_ofNat']
        omega
      have room_left : 0 < room := by
        rcases Nat.eq_zero_or_pos room with rfl | positive
        · simp only [Nat.zero_add, Nat.pow_one] at fits
          omega
        · exact positive
      have split_n : n % 128 * 128 ^ i + n / 128 * 128 ^ (i + 1) = n * 128 ^ i := by
        calc n % 128 * 128 ^ i + n / 128 * 128 ^ (i + 1)
            = (n % 128 + 128 * (n / 128)) * 128 ^ i := by ring
          _ = n * 128 ^ i := by rw [Nat.mod_add_div]
      simp only [List.cons_append, decodeLoop, byte, Nat.add_mod_right, Nat.mod_mod, keep]
      rw [if_neg (by omega), if_neg (by omega),
        ih (i + 1) (n / 128) _ (by omega) _ (by omega) (by omega) room_left]
      · simp only [Except.ok.injEq, Prod.mk.injEq, and_true]
        omega
      · apply Nat.div_lt_of_lt_mul
        rw [Nat.pow_succ] at fits
        omega

theorem decode_encode (n : UInt64) (rest : Bytes) : decode (encode n ++ rest) = .ok (n, rest) := by
  have size := n.toNat_lt
  unfold decode encode
  rw [decodeLoop_encodeLoop bufferLength 0 n.toNat 0 rest rfl (by unfold bufferLength; omega)
    (by omega) (by omega) (by decide)]
  simp [Except.map]

end Stoa.Varint
