import Stoa.Lib.Text

/-! `*` stands for any run of bytes and `?` for one byte. -/
namespace Stoa

open Text

inductive WildmatError
  | emptyFilter
  | allNegation
  | emptyPattern
  | invalidCharacter (ch : Char)
  | consecutiveDots
  deriving DecidableEq, Repr

/-- `*` and `?`. -/
def star : UInt8 := 0x2a
def question : UInt8 := 0x3f

/-- The row before any text: a prefix of the pattern matches the empty text if it is all stars.
The entries are for the prefixes of the pattern, the empty one first. -/
def firstRow (pattern : Bytes) : List Bool :=
  true :: (pattern.scanl (fun matched p => matched && p == star) true).tail

/-- The entries of the next row, from `left`, the one before, and `prev`, the last row from the
entry above `left` on. -/
def nextEntries (c : UInt8) : (left : Bool) → (prev : List Bool) → (pattern : Bytes) → List Bool
  | left, diagonal :: above :: prev, p :: pattern =>
    let entry :=
      if p = star then left || above
      else if p = question then diagonal
      else diagonal && c == p
    entry :: nextEntries c entry (above :: prev) pattern
  | _, _, _ => []

def nextRow (pattern : Bytes) (prev : List Bool) (c : UInt8) : List Bool :=
  false :: nextEntries c false prev pattern

/-- The last entry of the table: the whole text against the whole pattern. -/
def wildmatMatch (text pattern : Bytes) : Bool :=
  (text.foldl (nextRow pattern) (firstRow pattern)).getLastD false

def matchesWildmatPrefolded (name : String) (pattern : Bytes) : Bool :=
  let name := (asBytes name).map toAsciiLowercase
  if !pattern.contains star && !pattern.contains question then name == pattern
  else wildmatMatch name pattern

/-- Matching that ignores ASCII case, with a short cut for patterns without wildcards. -/
def matchesWildmat (name pattern : String) : Bool :=
  if pattern = "*" then true
  else if !contains pattern '*' && !contains pattern '?' then sameIgnoringCase name pattern
  else wildmatMatch ((asBytes name).map toAsciiLowercase) ((asBytes pattern).map toAsciiLowercase)

structure WildmatPattern where
  isNegated : Bool
  barePattern : String
  deriving DecidableEq

def isPatternChar (c : Char) : Bool :=
  c.isLower || c.isDigit || c == '+' || c == '-' || c == '_' || c == '.' || c == '*' || c == '?'

def charToAsciiLowercase (c : Char) : Char := if c.isUpper then c.toLower else c

def hasConsecutiveDots : List Char → Bool
  | '.' :: '.' :: _ => true
  | _ :: rest => hasConsecutiveDots rest
  | [] => false

def WildmatPattern.parse (s : String) : Except WildmatError WildmatPattern :=
  let (isNegated, bare) := match s.toList with
    | '!' :: stripped => (true, stripped)
    | whole => (false, whole)
  let bare := bare.map charToAsciiLowercase
  if bare.isEmpty then .error .emptyPattern
  else match bare.find? fun c => !isPatternChar c with
    | some ch => .error (.invalidCharacter ch)
    | none =>
      if hasConsecutiveDots bare then .error .consecutiveDots
      else .ok ⟨isNegated, String.ofList bare⟩

/-- A filter that some name can pass. -/
structure GroupFilter where
  patterns : List WildmatPattern
  positive : (patterns.any fun p => !p.isNegated) = true
  deriving DecidableEq

namespace GroupFilter

def new (rawPatterns : List String) : Except WildmatError GroupFilter := do
  let patterns ← rawPatterns.mapM WildmatPattern.parse
  if patterns.isEmpty then throw .emptyFilter
  else if h : (patterns.any fun p => !p.isNegated) = true then return ⟨patterns, h⟩
  else throw .allNegation

def accepts (filter : GroupFilter) (name : String) : Bool :=
  !name.isEmpty &&
    match filter.patterns.find? fun p => matchesWildmatPrefolded name (asBytes p.barePattern) with
    | some p => !p.isNegated
    | none => false

end GroupFilter

/-- `None` accepts every group. -/
abbrev GroupPolicy := Option GroupFilter

end Stoa
