import Stoa.Transit.HeaderFields

/-! `body_independent_iff`: the body has no part in the Message-ID of a queued article exactly if the
headers have one. -/
namespace Stoa.Smtp

open List Text

/-- `find_header_end`, from the start of a line. -/
def findHeaderEnd (bytes : Bytes) : Nat :=
  if [0x0d, 0x0a, 0x0d, 0x0a] <+: bytes then 4
  else if [0x0a, 0x0a] <+: bytes then 2
  else match later : bytes.dropWhile (· != 0x0a) with
    | [] => bytes.length
    | _ :: rest => (bytes.takeWhile (· != 0x0a)).length + 1 + findHeaderEnd rest
termination_by bytes.length
decreasing_by
  have shorter := (dropWhile_sublist (· != 0x0a) : bytes.dropWhile _ <+ bytes).length_le
  rw [later, length_cons] at shorter
  exact shorter

def stripFieldName (line fieldName : Bytes) : Option Bytes :=
  if line.length ≤ fieldName.length then none
  else if eqIgnoreAsciiCase (line.take fieldName.length) fieldName ∧
      (line.drop fieldName.length).head? = some 0x3a then
    some (line.drop (fieldName.length + 1))
  else none

def messageIdField (line : Bytes) : Option Bytes := stripFieldName (stripCr line) (asBytes "message-id")

def messageIdValue (field : Bytes) : String :=
  let value := (trim ((fromUtf8 field).getD "")).toList
  .ofList ((value.dropWhile (· == '<')).reverse.dropWhile (· == '>')).reverse

def extractMessageId (bytes : Bytes) : Option String :=
  ((lines (bytes.take (findHeaderEnd bytes))).findSome? messageIdField).map messageIdValue

/-- A line up to its line feed, with text. -/
def HeaderLine (line : Bytes) : Prop := 0x0a ∉ line ∧ line ≠ [] ∧ line ≠ [0x0d]
  deriving Decidable

/-- The header lines, an empty line and a body. -/
def articleOf (h : List Bytes) (cr b : Bytes) : Bytes := h.flatMap (· ++ [0x0a]) ++ (cr ++ 0x0a :: b)

section Lines

variable {line rest : Bytes} (single : 0x0a ∉ line) (lf : ¬ [0x0a, 0x0a] <+: line ++ 0x0a :: rest)
  (crlf : ¬ [0x0d, 0x0a, 0x0d, 0x0a] <+: line ++ 0x0a :: rest)

include single lf crlf

theorem findHeaderEnd_line :
    findHeaderEnd (line ++ 0x0a :: rest) = (line ++ [0x0a]).length + findHeaderEnd rest := by
  have inside : ∀ b ∈ line, (b != 0x0a) = true := by
    intro b mem
    rw [bne_iff_ne]
    rintro rfl
    exact single mem
  rw [findHeaderEnd, if_neg crlf, if_neg lf]
  have later : (line ++ 0x0a :: rest).dropWhile (· != 0x0a) = 0x0a :: rest := by
    rw [dropWhile_append_of_pos inside]
    rfl
  split
  · next none => simp [later] at none
  · next first rest' found =>
    rw [later] at found
    cases found
    rw [takeWhile_append_of_pos inside]
    simp

theorem extractMessageId_line : extractMessageId (line ++ 0x0a :: rest) =
      ((messageIdField line).map messageIdValue).or (extractMessageId rest) := by
  have headers : (line ++ 0x0a :: rest).take (findHeaderEnd (line ++ 0x0a :: rest)) =
      line ++ 0x0a :: rest.take (findHeaderEnd rest) := by
    rw [findHeaderEnd_line single lf crlf, append_cons line 0x0a rest, take_length_add_append]
    simp
  rw [extractMessageId, headers, lines_append single, findSome?_cons]
  cases messageIdField line <;> rfl

end Lines

variable {h : List Bytes} {cr : Bytes}

theorem extractMessageId_headers (plain : ∀ line ∈ h, HeaderLine line) (rest : Bytes) :
    extractMessageId (h.flatMap (· ++ [0x0a]) ++ rest) =
      ((h.findSome? messageIdField).map messageIdValue).or (extractMessageId rest) := by
  induction h with
  | nil => rfl
  | cons line h ih =>
    obtain ⟨⟨single, text, textCr⟩, more⟩ := forall_mem_cons.mp plain
    rw [flatMap_cons, append_assoc, append_assoc, singleton_append, extractMessageId_line single, ih more,
      findSome?_cons]
    · cases messageIdField line <;> rfl
    -- The scan stops at a pair of empty lines only.
    all_goals
      rintro ⟨tail, same⟩
      rcases line with _ | ⟨first, _ | ⟨second, line⟩⟩
      · exact text rfl
      all_goals
        obtain ⟨rfl, same⟩ := cons.inj same
        simp_all

/-- The body after the empty line is searched as well. -/
theorem extractMessageId_body (plain : ∀ line ∈ h, HeaderLine line)
    (blank : cr = [] ∨ cr = [0x0d]) (absent : ∀ line ∈ h, messageIdField line = none) :
    extractMessageId (articleOf h cr (asBytes "message-id:" ++ [0x0a])) = some "" := by
  have named : extractMessageId (asBytes "message-id:" ++ [0x0a]) = some "" := by
    rw [extractMessageId_line (by decide) (by decide) (by decide)]
    rfl
  rw [articleOf, extractMessageId_headers plain, findSome?_eq_none_iff.mpr absent]
  rcases blank with rfl | rfl
  all_goals
    rw [extractMessageId_line (by decide) (by decide) (by decide), named]
    rfl

theorem body_independent_iff (plain : ∀ line ∈ h, HeaderLine line)
    (blank : cr = [] ∨ cr = [0x0d]) :
    (∀ b b', extractMessageId (articleOf h cr b) = extractMessageId (articleOf h cr b') ∧
      ((∀ line ∈ h, messageIdField line = none) → extractMessageId (articleOf h cr b) = none)) ↔
    ∃ line ∈ h, messageIdField line ≠ none := by
  constructor
  · intro independent
    by_contra absent
    simp only [not_exists, not_and, not_not] at absent
    have named := extractMessageId_body plain blank absent
    rw [(independent _ []).2 absent] at named
    cases named
  · rintro ⟨line, mem, field⟩ b b'
    obtain ⟨value, found⟩ : ∃ value, h.findSome? messageIdField = some value := by
      rw [← Option.isSome_iff_exists, findSome?_isSome_iff]
      exact ⟨line, mem, Option.isSome_iff_ne_none.mpr field⟩
    simp only [articleOf, extractMessageId_headers plain, found]
    exact ⟨rfl, fun absent => absurd (absent line mem) field⟩

namespace Sample

theorem named_article_independent : HeaderLine (asBytes "Message-ID:<a>") ∧
    ∀ b b', extractMessageId (articleOf [asBytes "Message-ID:<a>"] [] b) =
      extractMessageId (articleOf [asBytes "Message-ID:<a>"] [] b') := by
  have plain : HeaderLine (asBytes "Message-ID:<a>") := by decide
  have independent := (body_independent_iff (forall_mem_singleton.mpr plain) (.inl rfl)).mpr
    ⟨_, mem_singleton_self _, by decide⟩
  exact ⟨plain, fun b b' => (independent b b').1⟩

theorem body_names_article : ¬ ∀ (h : List Bytes) (cr : Bytes), (∀ line ∈ h, HeaderLine line) →
    cr = [] ∨ cr = [0x0d] → ∀ b b',
      extractMessageId (articleOf h cr b) = extractMessageId (articleOf h cr b') ∧
      ((∀ line ∈ h, messageIdField line = none) → extractMessageId (articleOf h cr b) = none) := by
  intro independent
  have plain : ∀ line ∈ [asBytes "Subject: a\r"], HeaderLine line := by decide
  have absent : ∀ line ∈ [asBytes "Subject: a\r"], messageIdField line = none := by decide
  have named := extractMessageId_body plain (.inr rfl) absent
  rw [(independent _ _ plain (.inr rfl) _ []).2 absent] at named
  cases named

end Sample

end Stoa.Smtp
