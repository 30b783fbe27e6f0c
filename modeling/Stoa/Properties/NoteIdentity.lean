import Mathlib.Data.List.Forall2
import Stoa.Core.Validation
import Stoa.Mail.ActivityPub.Inbound

/-! Notes keep their identity exactly if no two ids differ only in characters that are replaced by
the same one, and every URL has one at sign, not at its end, and no control characters but those
that are replaced. -/
namespace Stoa.ActivityPub

open List Chars
/-- The id of a note, without the schemes it starts with. -/
def schemeless (noteId : Chars) : Chars :=
  Chars.trimStartMatches "http://".toList noteId.length
    (Chars.trimStartMatches "https://".toList noteId.length noteId)

def SameMark (c d : Char) : Prop :=
  c = d ∨ (c ∈ ['/', '-'] ∧ d ∈ ['/', '-']) ∨
    (c ∈ ['<', '>', ' ', '\n', '\r', '_'] ∧ d ∈ ['<', '>', ' ', '\n', '\r', '_'])

def Confusable (a b : Chars) : Prop := List.Forall₂ SameMark (schemeless a) (schemeless b)

def IsHttpUrl (noteId : Chars) : Prop :=
  "http://".toList <+: noteId ∨ "https://".toList <+: noteId

/-- The id reads as an address: it has one at sign, with something behind it. -/
structure ReadsAsAddress (noteId : Chars) : Prop where
  one : (schemeless noteId).count '@' = 1
  host : (schemeless noteId).getLast? ≠ some '@'
  printed : ∀ c ∈ schemeless noteId, c ∈ [' ', '\n', '\r'] ∨ 0x20 < c.toNat ∧ c.toNat ≠ 0x7f

def sanitizeChar (c : Char) : Char :=
  if c = '/' then '-' else if c ∈ ['<', '>', ' ', '\n', '\r'] then '_' else c

theorem noteMessageId_eq (uuid : Chars) {noteId : Chars} (present : noteId ≠ []) :
    noteMessageId uuid noteId =
      '<' :: (("ap.".toList ++ (schemeless noteId).map sanitizeChar) ++ ['>']) := by
  have replaced (cs : Chars) : replaceAny ['<', '>', ' ', '\n', '\r'] ['_']
      (replaceAny ['/'] ['-'] cs) = cs.map sanitizeChar := by
    induction cs with
    | nil => rfl
    | cons c cs ih =>
      simp only [replaceAny, flatMap_cons, flatMap_append, map_cons] at ih ⊢
      rw [ih, sanitizeChar]
      split_ifs <;> simp_all
  rw [noteMessageId, if_neg (by simpa using present)]
  simp only [replaced]
  rfl

theorem sanitizeChar_eq_iff {c d : Char} : sanitizeChar c = sanitizeChar d ↔ SameMark c d := by
  simp only [sanitizeChar, SameMark, mem_cons, not_mem_nil, or_false]
  split_ifs <;> grind

theorem sanitizeChar_eq_at {c : Char} : sanitizeChar c = '@' ↔ c = '@' := by
  have same : sanitizeChar c = sanitizeChar '@' ↔ c = '@' := by simp [sanitizeChar_eq_iff, SameMark]
  exact same

theorem isForbidden_sanitizeChar {c : Char} : isForbiddenInMessageId (sanitizeChar c) = false ↔
    c ∈ [' ', '\n', '\r'] ∨ 0x20 < c.toNat ∧ c.toNat ≠ 0x7f := by
  simp only [sanitizeChar, mem_cons, not_mem_nil, or_false]
  by_cases slash : c = '/'
  · subst slash
    decide
  rw [if_neg slash]
  split_ifs with marked
  · rcases marked with rfl | rfl | rfl | rfl | rfl <;> decide
  · simp_all [isForbiddenInMessageId]

theorem trimStartMatches_suffix (start : Chars) (fuel : Nat) (cs : Chars) :
    trimStartMatches start fuel cs <:+ cs := by
  induction fuel generalizing cs with
  | zero => exact suffix_rfl
  | succ fuel ih =>
    rw [trimStartMatches]
    split
    · next rest cut =>
      obtain ⟨before, whole, -⟩ := List.dropPrefix?_eq_some_iff.mp cut
      exact (ih rest).trans ⟨before, whole.symm⟩
    · exact suffix_rfl

theorem length_map_sanitizeChar (cs : Chars) :
    (asBytes (cs.map sanitizeChar)).length ≤ cs.asBytes.length := by
  induction cs with
  | nil => exact le_rfl
  | cons c cs ih =>
    have least := Char.utf8Size_pos c
    have size : (sanitizeChar c).utf8Size ≤ c.utf8Size := by
      unfold sanitizeChar
      split_ifs
      exacts [least, least, le_rfl]
    simp only [asBytes, map_cons, flatMap_cons, length_append,
      String.length_utf8EncodeChar] at ih ⊢
    omega

section

variable {noteId : Chars} (uuid : Chars) (present : noteId ≠ [])
include present

theorem length_noteMessageId : (noteMessageId uuid noteId).asBytes.length ≤ noteId.asBytes.length + 5 := by
  obtain ⟨start, whole⟩ : schemeless noteId <:+ noteId :=
    (trimStartMatches_suffix _ _ _).trans (trimStartMatches_suffix _ _ _)
  have shorter := congrArg (fun cs => (asBytes cs).length) whole
  have mapped := length_map_sanitizeChar (schemeless noteId)
  have brackets : (asBytes "<ap.".toList).length = 4 ∧ (asBytes ['>']).length = 1 := by
    decide
  have shape : noteMessageId uuid noteId =
      "<ap.".toList ++ ((schemeless noteId).map sanitizeChar ++ ['>']) :=
    noteMessageId_eq uuid present
  simp only [shape, asBytes, flatMap_append, length_append] at mapped shorter brackets ⊢
  omega

theorem validateMessageId_iff (short : noteId.asBytes.length ≤ 900) :
    validateMessageId (String.ofList (noteMessageId uuid noteId)) = .ok () ↔ ReadsAsAddress noteId := by
  have fits := length_noteMessageId uuid present
  have marks : ((schemeless noteId).map sanitizeChar).count '@' = (schemeless noteId).count '@' := by
    simp only [List.count, countP_map]
    exact countP_congr fun c _ => by simp [sanitizeChar_eq_at]
  have last : ("ap.".toList ++ (schemeless noteId).map sanitizeChar).getLast? = some '@' ↔
      (schemeless noteId).getLast? = some '@' := by
    rw [List.getLast?_append, List.getLast?_map]
    cases (schemeless noteId).getLast? <;> simp [sanitizeChar_eq_at]
  rw [validateMessageId_eq_ok, isValidMessageId_iff, Text.len, asBytes_ofList,
    String.toList_ofList]
  simp only [noteMessageId_eq uuid present, ne_eq, List.cons.injEq, true_and, append_cancel_right_eq,
    exists_eq_left', last, count_append, marks, mem_append, or_imp, forall_and, mem_map,
    forall_exists_index, and_imp, forall_apply_eq_imp_iff₂, isForbidden_sanitizeChar]
  constructor
  · rintro ⟨-, one, -, host, -, printed⟩
    exact ⟨(Nat.zero_add _).symm.trans one, host, printed⟩
  · rintro ⟨one, host, printed⟩
    rw [noteMessageId_eq uuid present] at fits
    exact ⟨by omega, (Nat.zero_add _).trans one, by simp, host, by simp [isForbiddenInMessageId], printed⟩

end

/-- A note, the group it is bridged to, and what is read when it is. -/
abbrev BridgedNote := NoteReadings × Json × Chars

namespace BridgedNote

def id (n : BridgedNote) : Chars := textField n.2.1 "id"

def messageId (baseUrl : Chars) (n : BridgedNote) : String :=
  String.ofList (noteToArticle n.1 n.2.1 n.2.2 baseUrl).1

def KeepIdentity (baseUrl : Chars) (notes : List BridgedNote) : Prop :=
  (∀ m ∈ notes, ∀ n ∈ notes, m.id ≠ [] → n.id ≠ [] → m.id ≠ n.id →
    m.messageId baseUrl ≠ n.messageId baseUrl) ∧
  ∀ n ∈ notes, IsHttpUrl n.id → n.id.asBytes.length ≤ 900 →
    validateMessageId (n.messageId baseUrl) = .ok ()

theorem messageId_eq_iff {baseUrl : Chars} {m n : BridgedNote} (first : m.id ≠ []) (second : n.id ≠ []) :
    m.messageId baseUrl = n.messageId baseUrl ↔ Confusable m.id n.id := by
  rw [messageId, messageId, String.ofList_inj]
  change noteMessageId _ m.id = noteMessageId _ n.id ↔ _
  rw [noteMessageId_eq _ first, noteMessageId_eq _ second]
  simp only [List.cons.injEq, true_and, append_cancel_right_eq, append_cancel_left_eq]
  rw [← forall₂_eq_eq_eq, forall₂_map_left_iff, forall₂_map_right_iff]
  simp only [sanitizeChar_eq_iff, Confusable]

theorem keepIdentity_iff (baseUrl : Chars) (notes : List BridgedNote) : KeepIdentity baseUrl notes ↔
      (∀ m ∈ notes, ∀ n ∈ notes, m.id ≠ [] → n.id ≠ [] → m.id ≠ n.id → ¬ Confusable m.id n.id) ∧
      ∀ n ∈ notes, IsHttpUrl n.id → n.id.asBytes.length ≤ 900 → ReadsAsAddress n.id := by
  refine and_congr ?_ (forall₄_congr fun n _ url short => ?_)
  · exact forall₄_congr fun m _ n _ => forall₃_congr fun first second _ =>
      not_congr (messageId_eq_iff first second)
  · have present : n.id ≠ [] := by
      intro empty
      simp [IsHttpUrl, empty] at url
    exact validateMessageId_iff _ present short

def sample (noteId : String) : BridgedNote :=
  (⟨[], []⟩, .obj [("id".toList, .str noteId.toList)], [])

/-- Two notes share a Message-ID; that of a URL without an at sign is not valid. -/
theorem identity_lost :
    (sample "https://h.example/@a/b-c").messageId [] =
        (sample "https://h.example/@a-b/c").messageId [] ∧
      validateMessageId ((sample "https://h.example/notes/1").messageId []) ≠ .ok () ∧
      ¬ KeepIdentity [] [sample "https://h.example/@a/b-c", sample "https://h.example/@a-b/c"] := by
  refine ⟨by decide, by decide, fun kept => ?_⟩
  exact kept.1 _ (.head _) _ (.tail _ (.head _)) (by decide) (by decide) (by decide) (by decide)

end BridgedNote

end Stoa.ActivityPub
