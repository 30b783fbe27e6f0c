import Stoa.Lib.Bytes

/-! Strings seen through their UTF-8 bytes, which is how texts are stored, compared and hashed. -/
namespace Stoa.Text

open List Char
def asBytes (s : String) : Bytes := s.toList.flatMap String.utf8EncodeChar

theorem asBytes_eq_toByteArray (s : String) : asBytes s = s.toByteArray.data.toList := by
  rw [← String.utf8Encode_toList, List.utf8Encode]
  simp [asBytes]

theorem asBytes_injective : Function.Injective asBytes := by
  intro s t h
  rw [asBytes_eq_toByteArray, asBytes_eq_toByteArray] at h
  apply String.toByteArray_inj.mp
  apply ByteArray.ext
  exact Array.toList_inj.mp h

@[simp] theorem asBytes_append (s t : String) : asBytes (s ++ t) = asBytes s ++ asBytes t := by
  simp [asBytes]

variable {c : Char}

theorem eq_of_mem_utf8EncodeChar {x : UInt8} (small : x.toNat < 128)
    (member : x ∈ String.utf8EncodeChar c) : c.toNat = x.toNat := by
  have continuation (n : Nat) (h : 128 ≤ n ∧ n < 256) : x ≠ UInt8.ofNat n := by
    rintro rfl
    rw [UInt8.toNat_ofNat'] at small
    omega
  simp only [String.utf8EncodeChar] at member
  split at member
  · rename_i ascii
    simp only [mem_singleton] at member
    rw [member, UInt8.toNat_ofNat', Char.toNat]
    omega
  · -- Every byte of a longer encoding is at least 128.
    split at member
    · simp only [mem_cons, not_mem_nil, or_false] at member
      rcases member with h | h <;> exact absurd h (continuation _ (by omega))
    · split at member
      · simp only [mem_cons, not_mem_nil, or_false] at member
        rcases member with h | h | h <;> exact absurd h (continuation _ (by omega))
      · simp only [mem_cons, not_mem_nil, or_false] at member
        rcases member with h | h | h | h <;> exact absurd h (continuation _ (by omega))

theorem notMem_asBytes {s : String} (ascii : c.toNat < 128) (absent : c ∉ s.toList) :
    UInt8.ofNat c.toNat ∉ asBytes s := by
  intro member
  obtain ⟨d, present, inside⟩ := mem_flatMap.mp member
  have value : (UInt8.ofNat c.toNat).toNat = c.toNat := by
    rw [UInt8.toNat_ofNat']
    omega
  have same := eq_of_mem_utf8EncodeChar (by omega) inside
  rw [value] at same
  exact absent (toNat_inj.mp same ▸ present)

/-- `str::contains` of a character. -/
def contains (s : String) (c : Char) : Bool := s.toList.contains c

/-- `str::len`, in bytes. -/
def len (s : String) : Nat := (asBytes s).length

/-- A character of which `owed` bytes are missing, the next one between `low` and `high`. -/
structure Pending where
  owed : Nat
  low : UInt8
  high : UInt8
  value : Nat

/-- What the byte emits, `none` for an unreadable sequence, and the character it leaves open. -/
abbrev Emits := List (Option Char) × Option Pending

def firstByte (b : UInt8) : Emits :=
  let n := b.toNat
  if n < 0x80 then ([some (Char.ofNat n)], none)
  else if n < 0xc2 then ([none], none)
  else if n < 0xe0 then ([], some ⟨1, 0x80, 0xbf, n % 32⟩)
  else if n = 0xe0 then ([], some ⟨2, 0xa0, 0xbf, 0⟩)
  else if n = 0xed then ([], some ⟨2, 0x80, 0x9f, n % 16⟩)
  else if n < 0xf0 then ([], some ⟨2, 0x80, 0xbf, n % 16⟩)
  else if n = 0xf0 then ([], some ⟨3, 0x90, 0xbf, 0⟩)
  else if n < 0xf4 then ([], some ⟨3, 0x80, 0xbf, n % 8⟩)
  else if n = 0xf4 then ([], some ⟨3, 0x80, 0x8f, n % 8⟩)
  else ([none], none)

def nextByte : Option Pending → UInt8 → Emits
  | none, b => firstByte b
  | some p, b =>
    if p.low ≤ b ∧ b ≤ p.high then
      let value := p.value * 64 + b.toNat % 64
      if p.owed = 1 then ([some (Char.ofNat value)], none)
      else ([], some ⟨p.owed - 1, 0x80, 0xbf, value⟩)
    -- The sequence ends before this byte, which starts anew.
    else (none :: (firstByte b).1, (firstByte b).2)

def decodeFrom (pending : Option Pending) : Bytes → List (Option Char)
  | [] => if pending.isSome then [none] else []
  | b :: rest => (nextByte pending b).1 ++ decodeFrom (nextByte pending b).2 rest

/-- `str::from_utf8`. -/
def fromUtf8 (bytes : Bytes) : Option String :=
  ((decodeFrom none bytes).mapM id).map String.ofList

/-- `String::from_utf8_lossy`. -/
def fromUtf8Lossy (bytes : Bytes) : String :=
  String.ofList ((decodeFrom none bytes).map fun c => c.getD '\uFFFD')

variable {n : Nat}

theorem toNat_ofNat_of_lt (small : n < 256) : (UInt8.ofNat n).toNat = n := by
  rw [UInt8.toNat_ofNat']
  omega

theorem decodeFrom_last {p : Pending} (owed : p.owed = 1) (small : n < 256)
    (fits : p.low.toNat ≤ n ∧ n ≤ p.high.toNat) (rest : Bytes) :
    decodeFrom (some p) (UInt8.ofNat n :: rest) =
      some (ofNat (p.value * 64 + n % 64)) :: decodeFrom none rest := by
  have value := toNat_ofNat_of_lt small
  have within : p.low ≤ UInt8.ofNat n ∧ UInt8.ofNat n ≤ p.high := by
    rw [UInt8.le_iff_toNat_le, UInt8.le_iff_toNat_le, value]
    exact fits
  simp [decodeFrom, nextByte, within, owed, value]

theorem decodeFrom_more {p : Pending} (owed : p.owed ≠ 1) (small : n < 256)
    (fits : p.low.toNat ≤ n ∧ n ≤ p.high.toNat) (rest : Bytes) :
    decodeFrom (some p) (UInt8.ofNat n :: rest) =
      decodeFrom (some ⟨p.owed - 1, 0x80, 0xbf, p.value * 64 + n % 64⟩) rest := by
  have value := toNat_ofNat_of_lt small
  have within : p.low ≤ UInt8.ofNat n ∧ UInt8.ofNat n ≤ p.high := by
    rw [UInt8.le_iff_toNat_le, UInt8.le_iff_toNat_le, value]
    exact fits
  simp [decodeFrom, nextByte, within, owed, value]

theorem decodeFrom_lead {p : Pending} (lead : firstByte (UInt8.ofNat n) = ([], some p)) (rest : Bytes) :
    decodeFrom none (UInt8.ofNat n :: rest) = decodeFrom (some p) rest := by
  simp [decodeFrom, nextByte, lead]

theorem firstByte_of_lt_e0 (from_ : 0xc2 ≤ n) (upTo : n < 0xe0) :
    firstByte (UInt8.ofNat n) = ([], some ⟨1, 0x80, 0xbf, n % 32⟩) := by
  simp only [firstByte, toNat_ofNat_of_lt (show n < 256 by omega)]
  rw [if_neg (by omega), if_neg (by omega), if_pos upTo]

theorem firstByte_of_lt_f0 (from_ : 0xe0 ≤ n) (upTo : n < 0xf0) :
    firstByte (UInt8.ofNat n) = ([], some ⟨2, if n = 0xe0 then 0xa0 else 0x80,
      if n = 0xed then 0x9f else 0xbf, n % 16⟩) := by
  simp only [firstByte, toNat_ofNat_of_lt (show n < 256 by omega)]
  rw [if_neg (by omega), if_neg (by omega), if_neg (by omega)]
  split
  · next h => simp [h]
  · split
    · next h => simp [h]
    · simp

theorem firstByte_of_le_f4 (from_ : 0xf0 ≤ n) (upTo : n ≤ 0xf4) :
    firstByte (UInt8.ofNat n) = ([], some ⟨3, if n = 0xf0 then 0x90 else 0x80,
      if n = 0xf4 then 0x8f else 0xbf, n % 8⟩) := by
  simp only [firstByte, toNat_ofNat_of_lt (show n < 256 by omega)]
  rw [if_neg (by omega), if_neg (by omega), if_neg (by omega), if_neg (by omega),
    if_neg (by omega), if_neg (by omega)]
  split
  · next h => simp [h]
  · split
    · next h => simp [show n ≠ 0xf4 by omega]
    · simp [show n = 0xf4 by omega]

theorem decodeFrom_utf8EncodeChar (c : Char) (rest : Bytes) :
    decodeFrom none (String.utf8EncodeChar c ++ rest) = some c :: decodeFrom none rest := by
  have back : ofNat c.val.toNat = c := ofNat_toNat c
  have valid : c.val.toNat < 0xd800 ∨ 0xdfff < c.val.toNat ∧ c.val.toNat < 0x110000 := c.valid
  simp only [String.utf8EncodeChar]
  generalize c.val.toNat = v at back valid
  split
  · next ascii =>
    have value : (UInt8.ofNat v).toNat = v := toNat_ofNat_of_lt (by omega)
    simp only [cons_append, nil_append, decodeFrom, nextByte, firstByte, value]
    rw [if_pos (by omega)]
    simp [back]
  · split
    · -- Two bytes.
      simp only [cons_append, nil_append]
      rw [decodeFrom_lead (firstByte_of_lt_e0 (by omega) (by omega)),
        decodeFrom_last rfl (by omega) ⟨by simp, by simp; omega⟩, ← back]
      congr 3
      simp only
      omega
    · split
      · -- Three bytes: the second one rules out overlong forms and surrogates.
        simp only [cons_append, nil_append]
        rw [decodeFrom_lead (firstByte_of_lt_f0 (by omega) (by omega)),
          decodeFrom_more (by simp) (by omega) ?_,
          decodeFrom_last rfl (by omega) ⟨by simp, by simp; omega⟩, ← back]
        · congr 3
          simp only
          omega
        · dsimp only
          constructor
          · split
            · simp; omega
            · simp
          · split
            · simp; omega
            · simp; omega
      · simp only [cons_append, nil_append]
        rw [decodeFrom_lead (firstByte_of_le_f4 (by omega) (by omega)),
          decodeFrom_more (by simp) (by omega) ?_,
          decodeFrom_more (by simp) (by omega) ⟨by simp, by simp; omega⟩,
          decodeFrom_last rfl (by omega) ⟨by simp, by simp; omega⟩, ← back]
        · congr 3
          simp only
          omega
        · dsimp only
          constructor
          · split
            · simp; omega
            · simp
          · split
            · simp; omega
            · simp; omega

theorem decodeFrom_asBytes (s : String) (rest : Bytes) :
    decodeFrom none (asBytes s ++ rest) = s.toList.map some ++ decodeFrom none rest := by
  unfold asBytes
  induction s.toList with
  | nil => rfl
  | cons c cs ih =>
    rw [flatMap_cons, append_assoc, decodeFrom_utf8EncodeChar, ih]
    rfl

theorem fromUtf8Lossy_asBytes (s : String) : fromUtf8Lossy (asBytes s) = s := by
  have read := decodeFrom_asBytes s []
  rw [append_nil] at read
  rw [fromUtf8Lossy, read]
  simp [decodeFrom, Function.comp_def]

def Pending.Beyond (p : Pending) : Prop :=
  p.high.toNat ≤ 0xbf ∧ if p.owed = 1 then 2 ≤ p.value else 1 ≤ p.value ∨ 0x90 ≤ p.low.toNat

/-- A character that a byte emits is the byte itself, or lies outside ASCII. -/
def Plain (b : UInt8) (c : Option Char) : Prop :=
  ∀ a ∈ c, a.toNat = b.toNat ∨ a.toNat = 0 ∨ 128 ≤ a.toNat

theorem toNat_ofNat_of_valid (valid : n.isValidChar) : (ofNat n).toNat = n := by
  rw [ofNat, dif_pos valid]
  rfl

theorem toNat_ofNat_ge (beyond : 128 ≤ n) : (ofNat n).toNat = 0 ∨ 128 ≤ (ofNat n).toNat := by
  by_cases valid : n.isValidChar
  · right
    rwa [toNat_ofNat_of_valid valid]
  · left
    simp [ofNat, valid]

theorem firstByte_beyond (b : UInt8) :
    (∀ c ∈ (firstByte b).1, Plain b c) ∧ ∀ p ∈ (firstByte b).2, p.Beyond := by
  have small := b.toNat_lt
  unfold firstByte
  dsimp only
  split_ifs with ascii
  · refine ⟨?_, nofun⟩
    simp only [mem_singleton, forall_eq, Plain, Option.mem_def, Option.some.injEq, forall_eq']
    left
    exact toNat_ofNat_of_valid (Or.inl (by omega))
  all_goals refine ⟨by simp [Plain], ?_⟩
  all_goals simp [Pending.Beyond]
  all_goals omega

theorem nextByte_beyond {pending : Option Pending} (before : ∀ p ∈ pending, p.Beyond) (b : UInt8) :
    (∀ c ∈ (nextByte pending b).1, Plain b c) ∧ ∀ p ∈ (nextByte pending b).2, p.Beyond := by
  cases pending with
  | none => exact firstByte_beyond b
  | some p =>
    have beyond : p.Beyond := before p rfl
    have first := firstByte_beyond b
    unfold nextByte
    dsimp only
    split_ifs with fits last
    · -- The last byte of a character.
      refine ⟨?_, nofun⟩
      have lead : 2 ≤ p.value := by simpa [Pending.Beyond, last] using beyond.2
      simp only [mem_singleton, forall_eq, Plain, Option.mem_def, Option.some.injEq, forall_eq']
      exact .inr (toNat_ofNat_ge (by omega))
    · refine ⟨nofun, ?_⟩
      simp only [Pending.Beyond, last, if_false] at beyond
      have low : p.low.toNat ≤ b.toNat := UInt8.le_iff_toNat_le.mp fits.1
      have high : b.toNat ≤ p.high.toNat := UInt8.le_iff_toNat_le.mp fits.2
      have value : 2 ≤ p.value * 64 + b.toNat % 64 := by omega
      simp only [Option.mem_def, Option.some.injEq, forall_eq', Pending.Beyond]
      refine ⟨by decide, ?_⟩
      split <;> omega
    · refine ⟨?_, first.2⟩
      rw [forall_mem_cons]
      exact ⟨nofun, first.1⟩

theorem mem_of_mem_decodeFrom {bytes : Bytes} (ascii : 0 < c.toNat ∧ c.toNat < 128)
    (mem : some c ∈ decodeFrom none bytes) : UInt8.ofNat c.toNat ∈ bytes := by
  have general : ∀ (bytes : Bytes) (pending : Option Pending), (∀ p ∈ pending, p.Beyond) →
      some c ∈ decodeFrom pending bytes → UInt8.ofNat c.toNat ∈ bytes := by
    intro bytes
    induction bytes with
    | nil =>
      intro pending _ mem
      unfold decodeFrom at mem
      split at mem <;> simp at mem
    | cons b rest ih =>
      intro pending before mem
      obtain ⟨plain, after⟩ := nextByte_beyond before b
      rw [decodeFrom, mem_append] at mem
      rcases mem with here | later
      · rcases plain _ here c rfl with same | zero | beyond
        · rw [same, UInt8.ofNat_toNat]
          exact mem_cons_self
        · omega
        · omega
      · exact mem_cons_of_mem b (ih _ after later)
  exact general bytes none nofun mem

theorem notMem_fromUtf8Lossy {bytes : Bytes} (ascii : 0 < c.toNat ∧ c.toNat < 128)
    (absent : UInt8.ofNat c.toNat ∉ bytes) : c ∉ (fromUtf8Lossy bytes).toList := by
  intro mem
  rw [fromUtf8Lossy, String.toList_ofList, mem_map] at mem
  obtain ⟨_ | d, read, rfl⟩ := mem
  · exact absurd ascii.2 (by decide)
  · exact absent (mem_of_mem_decodeFrom ascii read)

/-- `str::from_utf8` succeeds. -/
def isUtf8 (bytes : Bytes) : Bool := (decodeFrom none bytes).all Option.isSome

theorem isUtf8_asBytes (s : String) : isUtf8 (asBytes s) = true := by
  have read := decodeFrom_asBytes s []
  rw [append_nil] at read
  rw [isUtf8, read]
  simp [decodeFrom]

/-- The characters read before the end, and the one left open there. -/
def readAll : Option Pending → Bytes → Emits
  | pending, [] => ([], pending)
  | pending, b :: rest =>
    ((nextByte pending b).1 ++ (readAll (nextByte pending b).2 rest).1,
      (readAll (nextByte pending b).2 rest).2)

theorem decodeFrom_append (pending : Option Pending) (x y : Bytes) :
    decodeFrom pending (x ++ y) = (readAll pending x).1 ++ decodeFrom (readAll pending x).2 y := by
  induction x generalizing pending with
  | nil => rfl
  | cons b rest ih => simp [decodeFrom, readAll, ih]

theorem isUtf8_iff (x : Bytes) :
    isUtf8 x = true ↔ (readAll none x).1.all Option.isSome = true ∧ (readAll none x).2 = none := by
  have read := decodeFrom_append none x []
  rw [append_nil] at read
  rw [isUtf8, read, all_append, Bool.and_eq_true]
  cases (readAll none x).2 <;> simp [decodeFrom]

theorem isUtf8_append {x : Bytes} (text : isUtf8 x = true) (y : Bytes) : isUtf8 (x ++ y) = isUtf8 y := by
  obtain ⟨readable, closed⟩ := (isUtf8_iff x).mp text
  rw [isUtf8, decodeFrom_append, closed, all_append, readable, Bool.true_and]
  rfl

theorem nextByte_low {pending : Option Pending} {b : UInt8} {q : Pending}
    (left : (nextByte pending b).2 = some q) : 0x80 ≤ q.low := by
  have first : ∀ q, (firstByte b).2 = some q → 0x80 ≤ q.low := by
    intro q left
    unfold firstByte at left
    dsimp only at left
    split_ifs at left <;> cases left <;> dsimp only <;> decide
  unfold nextByte at left
  cases pending with
  | none => exact first q left
  | some p =>
    dsimp only at left
    split_ifs at left
    · cases left
      exact UInt8.le_refl _
    · exact first q left

theorem readAll_low {x : Bytes} {q : Pending} (left : (readAll none x).2 = some q) : 0x80 ≤ q.low := by
  have general : ∀ (x : Bytes) (pending : Option Pending), (∀ p ∈ pending, 0x80 ≤ p.low) →
      ∀ q ∈ (readAll pending x).2, 0x80 ≤ q.low := by
    intro x
    induction x with
    | nil => exact fun pending start => start
    | cons b rest ih => exact fun pending _ => ih _ fun p left => nextByte_low left
  exact general x none (by simp) q left

theorem isUtf8_of_append_ascii {x y : Bytes} {b : UInt8} (ascii : b < 0x80)
    (text : isUtf8 (x ++ b :: y) = true) : isUtf8 x = true ∧ isUtf8 (b :: y) = true := by
  have head : isUtf8 x = true := by
    rw [isUtf8, decodeFrom_append, all_append, Bool.and_eq_true] at text
    obtain ⟨readable, rest⟩ := text
    refine (isUtf8_iff x).mpr ⟨readable, ?_⟩
    cases left : (readAll none x).2 with
    | none => rfl
    | some q =>
      -- An ASCII byte cannot continue the open character.
      have low := readAll_low left
      have outside : ¬ (q.low ≤ b ∧ b ≤ q.high) := by
        rintro ⟨below, -⟩
        rw [UInt8.le_iff_toNat_le] at low below
        rw [UInt8.lt_iff_toNat_lt] at ascii
        omega
      rw [left] at rest
      simp [decodeFrom, nextByte, outside] at rest
  exact ⟨head, by rwa [isUtf8_append head] at text⟩

/-- `str::is_char_boundary`, for bytes that are text. -/
def isCharBoundary (bytes : Bytes) (i : Nat) : Bool :=
  match bytes[i]? with
  | none => i == bytes.length
  | some b => !(decide (0x80 ≤ b) && decide (b ≤ 0xbf))

def toAsciiLowercase (b : UInt8) : UInt8 :=
  if decide (0x41 ≤ b) && decide (b ≤ 0x5a) then b + 0x20 else b

def eqIgnoreAsciiCase (a b : Bytes) : Bool := a.map toAsciiLowercase == b.map toAsciiLowercase

/-- `str::eq_ignore_ascii_case`. -/
def sameIgnoringCase (a b : String) : Bool := eqIgnoreAsciiCase (asBytes a) (asBytes b)

theorem sameIgnoringCase_comm (a b : String) : sameIgnoringCase a b = sameIgnoringCase b a := by
  simp only [sameIgnoringCase, eqIgnoreAsciiCase, Bool.beq_comm]

/-- `str::to_ascii_uppercase`, which `Char.toUpper` is for a character. -/
def toAsciiUppercase (s : String) : String := String.ofList (s.toList.map Char.toUpper)

def isWhitespace (c : Char) : Bool :=
  let n := c.toNat
  (9 ≤ n && n ≤ 13) || n == 0x20 || n == 0x85 || n == 0xa0 || n == 0x1680 ||
    (0x2000 ≤ n && n ≤ 0x200a) || n == 0x2028 || n == 0x2029 || n == 0x202f || n == 0x205f ||
    n == 0x3000

/-- `str::trim`. -/
def trim (s : String) : String :=
  String.ofList ((s.toList.dropWhile isWhitespace).reverse.dropWhile isWhitespace).reverse

theorem notMem_trim {s : String} (absent : c ∉ s.toList) : c ∉ (trim s).toList := by
  intro mem
  rw [trim, String.toList_ofList, mem_reverse] at mem
  have front := (dropWhile_suffix isWhitespace).subset mem
  rw [mem_reverse] at front
  exact absent ((dropWhile_suffix isWhitespace).subset front)

/-- The text before the first character that `p` accepts, and the text after it. -/
def splitOnce (p : Char → Bool) (s : String) : String × Option String :=
  match s.toList.dropWhile (!p ·) with
  | [] => (s, none)
  | _ :: rest => (String.ofList (s.toList.takeWhile (!p ·)), some (String.ofList rest))

/-- `char::is_ascii_whitespace`. -/
def isAsciiSpace (c : Char) : Bool :=
  c == ' ' || c == '\t' || c == '\n' || c == '\x0c' || c == '\r'

/-- `str::trim_ascii_start`. -/
def trimAsciiStart (s : String) : String := String.ofList (s.toList.dropWhile isAsciiSpace)

/-- `str::trim_ascii`. -/
def trimAscii (s : String) : String :=
  String.ofList ((s.toList.dropWhile isAsciiSpace).reverse.dropWhile isAsciiSpace).reverse

/-- `str::split_ascii_whitespace`. -/
def asciiWords (s : String) : List String :=
  ((s.toList.splitOnP isAsciiSpace).filter (! ·.isEmpty)).map String.ofList

/-- `str::strip_prefix`. -/
def stripStart (start s : String) : Option String :=
  if start.toList.isPrefixOf s.toList then some (String.ofList (s.toList.drop start.length)) else none

/-- `str::strip_suffix`. -/
def stripEnd (tail s : String) : Option String :=
  if tail.toList.isSuffixOf s.toList then
    some (String.ofList (s.toList.take (s.toList.length - tail.toList.length)))
  else none

/-- `str::parse::<u64>`: digits after an optional plus sign, within 64 bits. -/
def parseU64 (s : String) : Option Nat :=
  let digits := match s.toList with
    | '+' :: rest => rest
    | cs => cs
  if digits.isEmpty || !digits.all Char.isDigit then none
  else
    let n := digits.foldl (fun n c => n * 10 + (c.toNat - 48)) 0
    if n < 2 ^ 64 then some n else none

end Stoa.Text
