import Stoa.Core.Wildmat
import Stoa.Lib.Checks
import Stoa.Lib.Glob

/-!
`wildmat_spec`: a name matches a pattern exactly if its lower case is in the language of the
pattern's lower case, and a filter decides by the first of its patterns that matches.

The rows of the table are read from left to right: `Row` says of every entry that it answers for
the pattern up to there.
-/
namespace Stoa

open Text Glob WildmatPattern

/-- The entries of a row answer for `done` and its extensions by the rest of the pattern. -/
def Row (text : Bytes) : (done rest : Bytes) → List Bool → Prop
  | done, [], row => ∃ b, row = [b] ∧ (b = true ↔ text ∈ language star question done)
  | done, p :: rest, row => ∃ b tail, row = b :: tail ∧
      (b = true ↔ text ∈ language star question done) ∧ Row text (done ++ [p]) rest tail

theorem Row.getLastD {text done rest : Bytes} {row : List Bool} (holds : Row text done rest row)
    (default : Bool) : row.getLastD default = true ↔ text ∈ language star question (done ++ rest) := by
  induction rest generalizing done row default with
  | nil =>
    obtain ⟨b, rfl, answer⟩ := holds
    simpa using answer
  | cons p rest ih =>
    obtain ⟨b, tail, rfl, -, further⟩ := holds
    rw [List.getLastD_cons, ih further, List.append_assoc, List.singleton_append]

theorem row_scanl {done rest : Bytes} {matched : Bool}
    (answer : matched = true ↔ [] ∈ language star question done) :
    Row [] done rest (rest.scanl (fun matched p => matched && p == star) matched) := by
  induction rest generalizing done matched with
  | nil => exact ⟨matched, List.scanl_nil, answer⟩
  | cons p rest ih =>
    refine ⟨matched, _, List.scanl_cons, answer, ih ?_⟩
    rw [nil_mem_concat, Bool.and_eq_true, answer, beq_iff_eq]

theorem row_firstRow (pattern : Bytes) : Row [] [] pattern (firstRow pattern) := by
  have row := @row_scanl [] pattern true (by simp)
  cases pattern with
  | nil => exact row
  | cons p rest =>
    rw [List.scanl_cons] at row
    rwa [firstRow, List.scanl_cons, List.tail_cons]

theorem row_nextEntries {c : UInt8} {text done rest : Bytes} {prev : List Bool} {left : Bool}
    (above : Row text done rest prev) (answer : left = true ↔ text ++ [c] ∈ language star question done) :
    Row (text ++ [c]) done rest (left :: nextEntries c left prev rest) := by
  induction rest generalizing done prev left with
  | nil =>
    obtain ⟨b, rfl, -⟩ := above
    exact ⟨left, rfl, answer⟩
  | cons p rest ih =>
    obtain ⟨diagonal, tail, rfl, old, further⟩ := above
    obtain ⟨up, tail, rfl, upper⟩ : ∃ up tail', tail = up :: tail' ∧
        (up = true ↔ text ∈ language star question (done ++ [p])) := by
      cases rest with
      | nil => exact further.imp fun b h => ⟨[], h⟩
      | cons _ _ => exact further.imp fun b ⟨tail, h, up, _⟩ => ⟨tail, h, up⟩
    refine ⟨left, _, rfl, answer, ih further ?_⟩
    -- The three kinds of symbols.
    by_cases isStar : p = star
    · rw [if_pos isStar, isStar, concat_mem_star, Bool.or_eq_true, answer, upper, isStar]
    · rw [if_neg isStar, concat_mem_concat isStar, ← old]
      by_cases isQuestion : p = question
      · simp [isQuestion]
      · simp [isQuestion, @eq_comm _ c p]

theorem row_foldl {pattern text : Bytes} (before : Bytes) {row : List Bool}
    (holds : Row before [] pattern row) :
    Row (before ++ text) [] pattern (text.foldl (nextRow pattern) row) := by
  induction text generalizing before row with
  | nil => simpa using holds
  | cons c text ih =>
    have next : Row (before ++ [c]) [] pattern (nextRow pattern row c) :=
      row_nextEntries holds (by simp)
    simpa using ih (before ++ [c]) next

theorem wildmatMatch_iff (text pattern : Bytes) :
    wildmatMatch text pattern = true ↔ text ∈ language star question pattern := by
  rw [wildmatMatch, (row_foldl [] (row_firstRow pattern)).getLastD]
  simp

/-- `str::to_ascii_lowercase`. -/
def asciiLowercase (s : String) : List Char := s.toList.map charToAsciiLowercase

def isAscii (s : String) : Bool := s.toList.all fun c => c.toNat < 128

theorem utf8EncodeChar_ascii {c : Char} (ascii : c.toNat < 128) :
    String.utf8EncodeChar c = [UInt8.ofNat c.toNat] := by
  simp only [String.utf8EncodeChar, Char.toNat_val, if_pos (Nat.le_of_lt_succ ascii)]

theorem not_ascii_of_mem {c : Char} (high : ¬ c.toNat < 128) {x : UInt8}
    (present : x ∈ String.utf8EncodeChar c) : ¬ x.toNat < 128 := fun small =>
  high (eq_of_mem_utf8EncodeChar small present ▸ small)

theorem asciiLowercase_ascii {c : Char} (ascii : c.toNat < 128) :
    toAsciiLowercase (UInt8.ofNat c.toNat) = UInt8.ofNat (charToAsciiLowercase c).toNat ∧
      (charToAsciiLowercase c).toNat < 128 := by
  have each : ∀ n < 128, toAsciiLowercase (UInt8.ofNat n) =
      UInt8.ofNat (charToAsciiLowercase (Char.ofNat n)).toNat ∧
        (charToAsciiLowercase (Char.ofNat n)).toNat < 128 := by decide
  simpa using each c.toNat ascii

theorem toNat_of_isUpper {c : Char} (upper : c.isUpper = true) : 65 ≤ c.toNat ∧ c.toNat ≤ 90 := by
  have bounds : 'A'.val ≤ c.val ∧ c.val ≤ 'Z'.val := of_decide_eq_true upper
  simpa [UInt32.le_iff_toNat_le] using bounds

theorem map_utf8EncodeChar (c : Char) : (String.utf8EncodeChar c).map toAsciiLowercase =
    String.utf8EncodeChar (charToAsciiLowercase c) := by
  by_cases ascii : c.toNat < 128
  · have here := asciiLowercase_ascii ascii
    rw [utf8EncodeChar_ascii ascii, utf8EncodeChar_ascii here.2, List.map_singleton, here.1]
  · have same : charToAsciiLowercase c = c := by
      refine if_neg fun upper => ascii ?_
      have bounds := toNat_of_isUpper upper
      omega
    rw [same]
    conv_rhs => rw [← List.map_id (String.utf8EncodeChar c)]
    refine List.map_congr_left fun x present => ?_
    have high := not_ascii_of_mem ascii present
    have outside : ¬ x ≤ 0x5a := fun within => high (by
      have := UInt8.le_iff_toNat_le.mp within
      simp only [UInt8.reduceToNat] at this
      omega)
    simp [toAsciiLowercase, outside]

theorem map_asBytes (s : String) :
    (asBytes s).map toAsciiLowercase = (asciiLowercase s).flatMap String.utf8EncodeChar := by
  simp only [asBytes, asciiLowercase, List.map_flatMap, List.flatMap_map, map_utf8EncodeChar]

theorem flatMap_ascii {cs : List Char} (ascii : ∀ c ∈ cs, c.toNat < 128) :
    cs.flatMap String.utf8EncodeChar = cs.map fun c => UInt8.ofNat c.toNat := by
  rw [List.flatMap_congr fun c present => utf8EncodeChar_ascii (ascii c present)]
  exact List.flatMap_pure_eq_map _ cs

theorem ofNat_toNat_injOn : Set.InjOn (fun c : Char => UInt8.ofNat c.toNat) { c | c.toNat < 128 } := by
  intro c small d small' same
  have values := congrArg UInt8.toNat same
  simp only [Set.mem_ofPred_eq, UInt8.toNat_ofNat'] at small small' values
  exact Char.toNat_inj.mp (by omega)

/-- On names of ASCII characters the bytes match as the characters do. -/
theorem flatMap_mem_language {name pattern : List Char} (ascii : ∀ c ∈ name, c.toNat < 128) :
    name.flatMap String.utf8EncodeChar ∈ language star question (pattern.flatMap String.utf8EncodeChar) ↔
      name ∈ language '*' '?' pattern := by
  by_cases plain : ∀ c ∈ pattern, c.toNat < 128
  · rw [flatMap_ascii ascii, flatMap_ascii plain]
    exact @map_mem_language_map _ _ '*' '?' _ _ _ _ ofNat_toNat_injOn (by decide) (by decide) plain ascii
  · -- A literal that no ASCII name has.
    push Not at plain
    obtain ⟨c, present, high⟩ := plain
    have nonempty : String.utf8EncodeChar c ≠ [] := String.utf8EncodeChar_ne_nil
    obtain ⟨x, inside⟩ := List.exists_mem_of_ne_nil _ nonempty
    have beyond := not_ascii_of_mem (Nat.not_lt.mpr high) inside
    constructor
    · intro matched
      have there := mem_of_literal (List.mem_flatMap.mpr ⟨c, present, inside⟩)
        ⟨fun h => beyond (h ▸ by decide), fun h => beyond (h ▸ by decide)⟩ matched
      obtain ⟨d, isName, holds⟩ := List.mem_flatMap.mp there
      rw [utf8EncodeChar_ascii (ascii d isName), List.mem_singleton] at holds
      have := ascii d isName
      rw [holds, UInt8.toNat_ofNat'] at beyond
      omega
    · intro matched
      have there := mem_of_literal present
        ⟨fun h => absurd high (h ▸ by decide), fun h => absurd high (h ▸ by decide)⟩ matched
      exact absurd (ascii c there) (Nat.not_lt.mpr high)

theorem contains_iff {s : String} {c : Char} (ascii : c.toNat < 128) :
    contains s c = true ↔ UInt8.ofNat c.toNat ∈ asBytes s := by
  rw [contains, List.contains_iff_mem]
  refine ⟨fun present => List.mem_flatMap.mpr ⟨c, present, ?_⟩, fun present => ?_⟩
  · rw [utf8EncodeChar_ascii ascii]
    exact List.mem_singleton.mpr rfl
  · by_contra absent
    exact notMem_asBytes ascii absent present

theorem toAsciiLowercase_eq {b x : UInt8} (notLetter : x < 0x61) (same : toAsciiLowercase b = x) :
    b = x := by
  unfold toAsciiLowercase at same
  split at same
  · next upper =>
    simp only [Bool.and_eq_true, decide_eq_true_eq, UInt8.le_iff_toNat_le, UInt8.reduceToNat] at upper
    rw [← same, UInt8.lt_iff_toNat_lt, UInt8.toNat_add] at notLetter
    simp only [UInt8.reduceToNat] at notLetter
    omega
  · exact same

/-- A pattern without wildcards has one text. -/
theorem mem_language_of_plain {pattern w : Bytes} (noStar : star ∉ pattern) (noQuestion : question ∉ pattern) :
    w ∈ language star question pattern ↔ w = pattern :=
  mem_language_literal fun _ present => ⟨fun h => noStar (h ▸ present), fun h => noQuestion (h ▸ present)⟩

theorem matchesWildmat_iff (name pattern : String) : matchesWildmat name pattern = true ↔
    (asBytes name).map toAsciiLowercase ∈
      language star question ((asBytes pattern).map toAsciiLowercase) := by
  unfold matchesWildmat
  split
  · next all =>
    rw [all]
    simp only [true_iff]
    exact mem_language_singleton.mpr (.inl rfl)
  split
  · next plain =>
    simp only [Bool.and_eq_true, Bool.not_eq_true', ← Bool.not_eq_true] at plain
    have absent {x : UInt8} (notLetter : x < 0x61) (plain : x ∉ asBytes pattern) :
        x ∉ (asBytes pattern).map toAsciiLowercase := by
      intro present
      obtain ⟨b, inside, same⟩ := List.mem_map.mp present
      exact plain (toAsciiLowercase_eq notLetter same ▸ inside)
    rw [mem_language_of_plain
      (absent (by decide) fun h => plain.1 ((contains_iff (by decide)).mpr h))
      (absent (by decide) fun h => plain.2 ((contains_iff (by decide)).mpr h)),
      sameIgnoringCase, eqIgnoreAsciiCase, beq_iff_eq]
  · exact wildmatMatch_iff _ _

theorem matchesWildmatPrefolded_iff (name : String) (pattern : Bytes) :
    matchesWildmatPrefolded name pattern = true ↔
      (asBytes name).map toAsciiLowercase ∈ language star question pattern := by
  unfold matchesWildmatPrefolded
  dsimp only
  split
  · next plain =>
    simp only [Bool.and_eq_true, Bool.not_eq_true', ← Bool.not_eq_true, List.contains_iff_mem] at plain
    rw [mem_language_of_plain plain.1 plain.2, beq_iff_eq]
  · exact wildmatMatch_iff _ _

theorem charToAsciiLowercase_idem (c : Char) :
    charToAsciiLowercase (charToAsciiLowercase c) = charToAsciiLowercase c := by
  by_cases upper : c.isUpper
  · have each : ∀ n < 128, charToAsciiLowercase (charToAsciiLowercase (Char.ofNat n)) =
        charToAsciiLowercase (Char.ofNat n) := by decide
    have small := toNat_of_isUpper upper
    simpa using each c.toNat (by omega)
  · have same : charToAsciiLowercase c = c := if_neg upper
    rw [same, same]

theorem asciiLowercase_parse {s : String} {p : WildmatPattern} (parsed : parse s = .ok p) :
    asciiLowercase p.barePattern = p.barePattern.toList := by
  obtain ⟨bare, shape⟩ : ∃ bare : List Char, p.barePattern = String.ofList (bare.map charToAsciiLowercase) := by
    simp only [parse] at parsed
    repeat' split at parsed
    all_goals first
      | exact ⟨_, (congrArg barePattern (Except.ok.inj parsed)).symm⟩
      | cases parsed
  simp only [asciiLowercase, shape, String.toList_ofList, List.map_map]
  exact List.map_congr_left fun c _ => charToAsciiLowercase_idem c

theorem matchesWildmatPrefolded_eq {s : String} {p : WildmatPattern}
    (parsed : parse s = .ok p) (name : String) :
    matchesWildmatPrefolded name (asBytes p.barePattern) = matchesWildmat name p.barePattern := by
  rw [Bool.eq_iff_iff, matchesWildmatPrefolded_iff, matchesWildmat_iff, map_asBytes p.barePattern,
    asciiLowercase_parse parsed, asBytes]

/-- Matching is membership in the language of the pattern, and the first match decides. -/
theorem wildmat_spec : (∀ name pattern, isAscii name = true →
      (matchesWildmat name pattern = true ↔ asciiLowercase name ∈ language '*' '?' (asciiLowercase pattern))) ∧
    ∀ rawPatterns filter name, GroupFilter.new rawPatterns = .ok filter → name.isEmpty = false →
      filter.accepts name =
        match filter.patterns.find? fun p => matchesWildmat name p.barePattern with
        | some p => !p.isNegated
        | none => false := by
  constructor
  · intro name pattern ascii
    rw [matchesWildmat_iff, map_asBytes, map_asBytes, flatMap_mem_language]
    intro c present
    obtain ⟨d, isName, rfl⟩ := List.mem_map.mp present
    exact (asciiLowercase_ascii (of_decide_eq_true (List.all_eq_true.mp ascii d isName))).2
  · intro rawPatterns filter name built nonempty
    obtain ⟨patterns, parsed, rest⟩ := bind_eq_ok built
    have same : filter.patterns = patterns := by
      split at rest
      · cases rest
      split at rest
      · exact (congrArg GroupFilter.patterns (Except.ok.inj rest)).symm
      · cases rest
    have found : filter.patterns.find? (fun p => matchesWildmatPrefolded name (asBytes p.barePattern)) =
        filter.patterns.find? fun p => matchesWildmat name p.barePattern := by
      rw [same, ← List.head?_filter, ← List.head?_filter]
      refine congrArg List.head? (List.filter_congr fun p present => ?_)
      obtain ⟨s, -, eq⟩ := List.mem_map.mp (mapM_eq_ok.mp parsed ▸ List.mem_map.mpr ⟨p, present, rfl⟩)
      exact matchesWildmatPrefolded_eq eq name
    rw [GroupFilter.accepts, nonempty, found]
    rfl

namespace Sample

def filter : GroupFilter := ⟨[⟨true, "comp.os.*"⟩, ⟨false, "comp.*"⟩], by decide⟩

theorem wildmat_spec_linux : GroupFilter.new ["!comp.os.*", "comp.*"] = .ok filter ∧
    filter.accepts "Comp.OS.linux" = false ∧
    asciiLowercase "Comp.OS.linux" ∈ language '*' '?' (asciiLowercase "comp.*.l?nux") := by
  have built : GroupFilter.new ["!comp.os.*", "comp.*"] = .ok filter := by decide
  refine ⟨built, ?_, (wildmat_spec.1 "Comp.OS.linux" "comp.*.l?nux" (by decide)).mp (by decide)⟩
  rw [wildmat_spec.2 _ filter "Comp.OS.linux" built (by decide)]
  decide

end Sample

end Stoa
