import Mathlib.Data.List.Infix
import Stoa.Lib.Text

/-! Searching for a separator, pieces between separators, and three ways of cutting bytes into
lines: at line feeds, at any line end, and as the text of a list of lines that each end in CR LF. -/
namespace Stoa

open List
section Search

variable {α : Type} [DecidableEq α]

/-- The first position at which `needle` stands. -/
def findInfix (needle : List α) : List α → Option Nat
  | [] => if needle = [] then some 0 else none
  | b :: rest =>
    if needle.isPrefixOf (b :: rest) then some 0 else (findInfix needle rest).map (· + 1)

theorem findInfix_start {needle l : List α} (here : needle <+: l) : findInfix needle l = some 0 := by
  cases l with
  | nil => simp [findInfix, prefix_nil.mp here]
  | cons b rest => simp [findInfix, isPrefixOf_iff_prefix.mpr here]

theorem findInfix_cons_of_not {needle rest : List α} {b : α} (elsewhere : ¬ needle <+: b :: rest) :
    findInfix needle (b :: rest) = (findInfix needle rest).map (· + 1) := by
  rw [findInfix, if_neg (by rwa [ isPrefixOf_iff_prefix])]

theorem findInfix_eq_none {needle l : List α} : findInfix needle l = none ↔ ¬ needle <:+: l := by
  induction l with
  | nil => simp [findInfix]
  | cons b rest ih =>
    rw [infix_cons_iff, not_or, ← ih]
    by_cases here : needle <+: b :: rest
    · simp [findInfix_start here, here]
    · simp [findInfix_cons_of_not here, here]

theorem findInfix_append_of_notMem {x : α} {needle l : List α} (absent : x ∉ l) (r : List α) :
    findInfix (x :: needle) (l ++ r) = (findInfix (x :: needle) r).map (· + l.length) := by
  induction l with
  | nil => simp
  | cons b rest ih =>
    rw [mem_cons, not_or] at absent
    have elsewhere : ¬ x :: needle <+: b :: (rest ++ r) := fun here =>
      absent.1 (cons_prefix_cons.mp here).1
    rw [cons_append, findInfix_cons_of_not elsewhere, ih absent.2, Option.map_map]
    congr 1

theorem findInfix_some {needle l : List α} {i : Nat} (found : findInfix needle l = some i) :
    ∃ before rest, l = before ++ needle ++ rest ∧ before.length = i := by
  induction l generalizing i with
  | nil =>
    by_cases empty : needle = []
    · subst empty
      simpa [findInfix, @eq_comm _ 0 i] using found
    · simp [findInfix, empty] at found
  | cons b l ih =>
    by_cases here : needle <+: b :: l
    · rw [findInfix_start here, Option.some_inj] at found
      obtain ⟨rest, shape⟩ := here
      exact ⟨[], rest, by simp [shape], found⟩
    · rw [findInfix_cons_of_not here, Option.map_eq_some_iff] at found
      obtain ⟨j, later, rfl⟩ := found
      obtain ⟨before, rest, rfl, rfl⟩ := ih later
      exact ⟨b :: before, rest, by simp, rfl⟩

/-- `slice::split_inclusive`: every piece but the last ends in `b`. -/
def splitInclusive (b : α) : List α → List (List α)
  | [] => []
  | a :: rest =>
    if a = b then [a] :: splitInclusive b rest
    else match splitInclusive b rest with
      | [] => [[a]]
      | piece :: pieces => (a :: piece) :: pieces

theorem flatten_splitInclusive (b : α) (l : List α) : (splitInclusive b l).flatten = l := by
  induction l with
  | nil => rfl
  | cons a rest ih =>
    rw [splitInclusive]
    split
    · simp [ih]
    · cases pieces : splitInclusive b rest with
      | nil =>
        rw [pieces] at ih
        simp [← ih]
      | cons piece more =>
        rw [pieces] at ih
        simp [← ih]

theorem splitInclusive_append {b : α} {l : List α} (absent : b ∉ l) (rest : List α) :
    splitInclusive b (l ++ b :: rest) = (l ++ [b]) :: splitInclusive b rest := by
  induction l with
  | nil => simp [splitInclusive]
  | cons a l ih =>
    rw [mem_cons, not_or] at absent
    rw [cons_append, splitInclusive, if_neg (Ne.symm absent.1), ih absent.2]
    rfl

end Search

theorem notMem_splitOnP {α : Type} {p : α → Bool} {cs piece : List α} (mem : piece ∈ cs.splitOnP p) :
    ∀ c ∈ piece, p c = false := by
  induction cs generalizing piece with
  | nil =>
    rw [splitOnP_nil, mem_singleton] at mem
    subst mem
    simp
  | cons c cs ih =>
    rw [splitOnP_cons_eq_if_modifyHead] at mem
    split at mem
    · rcases mem_cons.mp mem with rfl | later
      · simp
      · exact ih later
    · next keep =>
      -- The element goes to the first piece; the others are those of the rest.
      rcases pieces : cs.splitOnP p with _ | ⟨first, others⟩
      · exact absurd pieces (splitOnP_ne_nil p cs)
      · rw [pieces] at mem ih
        rw [modifyHead_cons] at mem
        rcases mem_cons.mp mem with rfl | later
        · rw [forall_mem_cons]
          exact ⟨by simpa using keep, ih mem_cons_self⟩
        · exact ih (mem_cons_of_mem first later)

section Pieces

variable {α : Type}

theorem intercalate_append (x : α) (ps : List (List α)) {qs : List (List α)} (some : qs ≠ []) :
    [x].intercalate (ps ++ qs) = ps.flatMap (· ++ [x]) ++ [x].intercalate qs := by
  induction ps with
  | nil => rfl
  | cons p ps ih =>
    obtain ⟨next, others, shape⟩ := exists_cons_of_ne_nil (show ps ++ qs ≠ [] by simp [some])
    rw [cons_append, shape, intercalate_cons_cons, ← shape, ih]
    simp

theorem flatMap_ended (x : α) {ps : List (List α)} (some : ps ≠ []) :
    ps.flatMap (· ++ [x]) = [x].intercalate ps ++ [x] := by
  obtain ⟨init, last, rfl⟩ := eq_nil_or_concat ps |>.resolve_left some
  rw [concat_eq_append, intercalate_append x init (cons_ne_nil last [])]
  simp [intercalate_singleton]

variable [DecidableEq α]

theorem splitOn_ne_nil (x : α) (l : List α) : l.splitOn x ≠ [] := by
  rw [splitOn_eq_splitOnP]
  exact splitOnP_ne_nil _ l

theorem splitOn_append (x : α) (l r : List α) : (l ++ x :: r).splitOn x = l.splitOn x ++ r.splitOn x := by
  have piece : ∀ m : List α, ∀ p ∈ m.splitOn x, x ∉ p := by
    intro m p mem here
    rw [splitOn_eq_splitOnP] at mem
    simpa using notMem_splitOnP mem _ here
  have single : ∀ p ∈ l.splitOn x ++ r.splitOn x, x ∉ p := by
    intro p mem
    rcases mem_append.mp mem with left | right
    · exact piece l p left
    · exact piece r p right
  have joined : [x].intercalate (l.splitOn x ++ r.splitOn x) = l ++ x :: r := by
    rw [intercalate_append x _ (splitOn_ne_nil x r), flatMap_ended x (splitOn_ne_nil x l),
      intercalate_splitOn, intercalate_splitOn]
    simp
  rw [← joined]
  exact splitOn_intercalate x single (by simp)

theorem splitOn_flatMap {x : α} {ps : List (List α)} (single : ∀ p ∈ ps, x ∉ p) :
    (ps.flatMap (· ++ [x])).splitOn x = ps ++ [[]] := by
  have joined : [x].intercalate (ps ++ [[]]) = ps.flatMap (· ++ [x]) := by
    rw [intercalate_append x ps (cons_ne_nil [] [])]
    simp
  rw [← joined]
  apply splitOn_intercalate x _ (by simp)
  simpa [or_imp, forall_and] using single

end Pieces

def OneLine (l : Bytes) : Prop := 0x0d ∉ l ∧ 0x0a ∉ l

instance (l : Bytes) : Decidable (OneLine l) := inferInstanceAs (Decidable (_ ∧ _))

theorem oneLine_append {x y : Bytes} : OneLine (x ++ y) ↔ OneLine x ∧ OneLine y := by
  simp only [OneLine, mem_append, not_or]
  tauto

theorem OneLine.sublist {x y : Bytes} (clean : OneLine y) (sub : x ⊆ y) : OneLine x :=
  ⟨fun mem => clean.1 (sub mem), fun mem => clean.2 (sub mem)⟩

theorem oneLine_asBytes {s : String} (noCr : '\r' ∉ s.toList) (noLf : '\n' ∉ s.toList) :
    OneLine (Text.asBytes s) :=
  ⟨Text.notMem_asBytes (by decide) noCr, Text.notMem_asBytes (by decide) noLf⟩

theorem oneLine_trim_fromUtf8Lossy {b : Bytes} (clean : OneLine b) :
    OneLine (Text.asBytes (Text.trim (Text.fromUtf8Lossy b))) :=
  oneLine_asBytes
    (Text.notMem_trim (Text.notMem_fromUtf8Lossy ⟨by decide, by decide⟩ clean.1))
    (Text.notMem_trim (Text.notMem_fromUtf8Lossy ⟨by decide, by decide⟩ clean.2))

theorem oneLine_natRepr (n : Nat) : OneLine (Text.asBytes n.repr) := by
  have digits : ∀ c ∈ n.repr.toList, c.isDigit = true := by
    intro c mem
    have digit : c ∈ Nat.toDigits 10 n := by simpa [Nat.repr] using mem
    exact Nat.isDigit_of_mem_toDigits (by decide) (by decide) digit
  exact oneLine_asBytes (fun mem => absurd (digits _ mem) (by decide))
    fun mem => absurd (digits _ mem) (by decide)

theorem oneLine_intRepr (n : Int) : OneLine (Text.asBytes n.repr) := by
  cases n with
  | ofNat n => exact oneLine_natRepr n
  | negSucc n =>
    rw [Int.repr, Text.asBytes_append, oneLine_append]
    exact ⟨by decide, oneLine_natRepr _⟩

def crlfBytes : Bytes := [0x0d, 0x0a]

/-- The lines one after the other, each ended by CR LF. -/
def crlf (ls : List Bytes) : Bytes := ls.flatMap (· ++ crlfBytes)

@[simp] theorem crlf_nil : crlf [] = [] := rfl

@[simp] theorem crlf_cons (l : Bytes) (ls : List Bytes) : crlf (l :: ls) = l ++ crlfBytes ++ crlf ls := rfl

@[simp] theorem crlf_append (ls ms : List Bytes) : crlf (ls ++ ms) = crlf ls ++ crlf ms :=
  flatMap_append

theorem splitInclusive_crlf {ls : List Bytes} (clean : ∀ l ∈ ls, 0x0a ∉ l) (rest : Bytes) :
    splitInclusive 0x0a (crlf ls ++ rest) =
      ls.map (· ++ crlfBytes) ++ splitInclusive 0x0a rest := by
  induction ls with
  | nil => simp
  | cons l ls ih =>
    rw [forall_mem_cons] at clean
    have absent : (0x0a : UInt8) ∉ l ++ [0x0d] := by
      simp only [mem_append, mem_singleton, not_or]
      exact ⟨clean.1, by decide⟩
    have shape : crlf (l :: ls) ++ rest = (l ++ [0x0d]) ++ 0x0a :: (crlf ls ++ rest) := by
      simp [crlfBytes]
    rw [shape, splitInclusive_append absent, ih clean.2]
    simp [crlfBytes]

/-- A line as it stands in the bytes: its content, and CR LF, CR or LF, or nothing at the end. -/
structure RawLine where
  content : Bytes
  terminator : Bytes
  deriving DecidableEq

def RawLine.raw (line : RawLine) : Bytes := line.content ++ line.terminator

def rawLines : Bytes → List RawLine
  | [] => []
  | 0x0d :: 0x0a :: rest => ⟨[], crlfBytes⟩ :: rawLines rest
  | 0x0d :: rest => ⟨[], [0x0d]⟩ :: rawLines rest
  | 0x0a :: rest => ⟨[], [0x0a]⟩ :: rawLines rest
  | b :: rest =>
    match rawLines rest with
    | [] => [⟨[b], []⟩]
    | line :: lines => ⟨b :: line.content, line.terminator⟩ :: lines

theorem rawLines_of_content {b : UInt8} (noCr : b ≠ 0x0d) (noLf : b ≠ 0x0a) (rest : Bytes) :
    rawLines (b :: rest) = match rawLines rest with
      | [] => [⟨[b], []⟩]
      | line :: lines => ⟨b :: line.content, line.terminator⟩ :: lines := by
  rw [rawLines]
  · exact fun _ h _ => noCr h
  · exact fun h => noCr h
  · exact fun h => noLf h

theorem rawLines_line {l : Bytes} (clean : OneLine l) (rest : Bytes) :
    rawLines (l ++ crlfBytes ++ rest) = ⟨l, crlfBytes⟩ :: rawLines rest := by
  induction l with
  | nil => rfl
  | cons b l ih =>
    obtain ⟨noCr, noLf⟩ := clean
    rw [mem_cons, not_or] at noCr noLf
    simp only [cons_append]
    rw [rawLines_of_content (Ne.symm noCr.1) (Ne.symm noLf.1), ih ⟨noCr.2, noLf.2⟩]

theorem rawLines_crlf {ls : List Bytes} (clean : ∀ l ∈ ls, OneLine l) :
    rawLines (crlf ls) = ls.map (⟨·, crlfBytes⟩) := by
  induction ls with
  | nil => rfl
  | cons l ls ih =>
    rw [forall_mem_cons] at clean
    rw [crlf_cons, rawLines_line clean.1, ih clean.2, map_cons]

theorem flatMap_raw_crlf (ls : List Bytes) :
    (ls.map (⟨·, crlfBytes⟩)).flatMap RawLine.raw = crlf ls := by
  induction ls with
  | nil => rfl
  | cons l ls ih => simp [RawLine.raw, ih]

end Stoa
