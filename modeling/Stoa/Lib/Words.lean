import Stoa.Lib.Lines

/-! Texts as lists of characters: white space at the ends, words between white space, replacement.
-/
namespace Stoa

open List
abbrev Chars := List Char

namespace Chars

/-- `trim_matches`, on both ends. -/
def trimMatches (p : Char → Bool) (cs : Chars) : Chars :=
  ((cs.dropWhile p).reverse.dropWhile p).reverse

/-- `str::trim`. -/
def trim (cs : Chars) : Chars := trimMatches Text.isWhitespace cs

/-- `split_whitespace`. -/
def words (cs : Chars) : List Chars := (cs.splitOnP Text.isWhitespace).filter (! ·.isEmpty)

/-- `str::to_ascii_lowercase`. -/
def toLower (cs : Chars) : Chars := cs.map Char.toLower

/-- `trim_start_matches` with a text; `fuel` bounds the repetitions. -/
def trimStartMatches (start : Chars) : (fuel : Nat) → Chars → Chars
  | 0, cs => cs
  | fuel + 1, cs => match cs.dropPrefix? start with
    | some rest => trimStartMatches start fuel rest
    | none => cs

/-- `str::replace`; `skip` counts the characters of a match that are still to be left out. -/
def replaceFrom (old new : Chars) : (skip : Nat) → Chars → Chars
  | _, [] => []
  | skip + 1, _ :: rest => replaceFrom old new skip rest
  | 0, c :: rest =>
    if old.isPrefixOf (c :: rest) then new ++ replaceFrom old new (old.length - 1) rest
    else c :: replaceFrom old new 0 rest

def replace (old new cs : Chars) : Chars := replaceFrom old new 0 cs

/-- `str::replace` of single characters. -/
def replaceAny (old : List Char) (new cs : Chars) : Chars :=
  cs.flatMap fun c => if c ∈ old then new else [c]

def asBytes (cs : Chars) : Bytes := cs.flatMap String.utf8EncodeChar

theorem asBytes_ofList (cs : Chars) : Text.asBytes (String.ofList cs) = cs.asBytes := by
  rw [Text.asBytes, String.toList_ofList, asBytes]

theorem asBytes_injective : Function.Injective asBytes := by
  intro cs cs' same
  rw [← asBytes_ofList, ← asBytes_ofList] at same
  exact String.ofList_injective (Text.asBytes_injective same)

theorem trimMatches_eq_self {p : Char → Bool} {cs : Chars} (first : ∀ c ∈ cs.head?, p c = false)
    (last : ∀ c ∈ cs.getLast?, p c = false) : trimMatches p cs = cs := by
  have keep : ∀ {l : Chars}, (∀ c ∈ l.head?, p c = false) → l.dropWhile p = l := by
    intro l start
    cases l with
    | nil => rfl
    | cons c l => exact dropWhile_cons_of_neg (by simp [start c (by simp)])
  rw [trimMatches, keep first, keep (by simpa using last), reverse_reverse]

theorem trimMatches_quoted {q : Char} {cs : Chars} (plain : q ∉ cs) :
    trimMatches (· == q) (q :: cs ++ [q]) = cs := by
  have inner : ∀ {l : Chars}, q ∉ l → (l ++ [q]).dropWhile (· == q) =
      l.dropWhile (· == q) ++ if l = [] then [] else [q] := by
    intro l absent
    cases l with
    | nil => simp
    | cons c l =>
      have other : c ≠ q := fun same => absent (same ▸ mem_cons_self)
      simp [other]
  have keep : ∀ {l : Chars}, q ∉ l → l.dropWhile (· == q) = l := by
    intro l absent
    cases l with
    | nil => rfl
    | cons c l =>
      have other : c ≠ q := fun same => absent (same ▸ mem_cons_self)
      simp [other]
  rw [trimMatches, cons_append, dropWhile_cons_of_pos (by simp), inner plain, keep plain]
  by_cases empty : cs = []
  · simp [empty]
  · simp [empty, keep (show q ∉ cs.reverse by simpa using plain)]

theorem filter_dropWhile (p : Char → Bool) (cs : Chars) :
    (cs.dropWhile p).filter (!p ·) = cs.filter (!p ·) := by
  induction cs with
  | nil => rfl
  | cons c cs ih =>
    cases here : p c with
    | true => simp [here, ih]
    | false => simp [here]

theorem filter_trimMatches (p : Char → Bool) (cs : Chars) :
    (trimMatches p cs).filter (!p ·) = cs.filter (!p ·) := by
  rw [trimMatches, filter_reverse, filter_dropWhile, filter_reverse, reverse_reverse,
    filter_dropWhile]

theorem trimMatches_sublist (p : Char → Bool) (cs : Chars) : (trimMatches p cs).Sublist cs := by
  have front := (cs.dropWhile_suffix p).sublist
  have back := ((cs.dropWhile p).reverse.dropWhile_suffix p).sublist
  rw [← reverse_sublist, reverse_reverse] at back
  exact back.trans front

theorem eq_of_flatten_map {β : Type} {f g : β → Chars} {xs : List β}
    (smaller : ∀ x ∈ xs, (f x).Sublist (g x))
    (whole : (xs.map f).flatten = (xs.map g).flatten) : ∀ x ∈ xs, f x = g x := by
  have rest (xs : List β) (smaller : ∀ x ∈ xs, (f x).Sublist (g x)) :
      (xs.map f).flatten.length ≤ (xs.map g).flatten.length := by
    induction xs with
    | nil => simp
    | cons x xs ih =>
      rw [forall_mem_cons] at smaller
      have here := smaller.1.length_le
      have later := ih smaller.2
      simp only [map_cons, flatten_cons, length_append]
      omega
  induction xs with
  | nil => simp
  | cons x xs ih =>
    rw [forall_mem_cons] at smaller ⊢
    have here := smaller.1.length_le
    have later := rest xs smaller.2
    simp only [map_cons, flatten_cons] at whole
    have total := congrArg length whole
    simp only [length_append] at total
    obtain ⟨same, others⟩ := append_inj whole (by omega)
    exact ⟨same, ih smaller.2 others⟩

theorem notMem_of_mem_words {cs word : Chars} {c : Char} (mem : word ∈ words cs)
    (space : Text.isWhitespace c = true) : c ∉ word := by
  intro inside
  have := notMem_splitOnP (mem_of_mem_filter mem) c inside
  rw [space] at this
  cases this

end Chars

section Joined

variable {α : Type}

def marked (x : α) (texts : List (List α)) : List α := texts.flatMap (x :: ·)

@[simp] theorem marked_nil (x : α) : marked x [] = [] := rfl

@[simp] theorem marked_cons (x : α) (text : List α) (texts : List (List α)) :
    marked x (text :: texts) = x :: (text ++ marked x texts) := by
  simp [marked]

theorem cons_intercalate (x : α) (text : List α) (texts : List (List α)) :
    x :: intercalate [x] (text :: texts) = marked x (text :: texts) := by
  induction texts generalizing text with
  | nil => simp
  | cons next rest ih => rw [intercalate_cons_cons, marked_cons, ← ih next]; simp

theorem marked_eq_of_intercalate {x : α} {texts texts' : List (List α)} (nonempty : texts ≠ [])
    (nonempty' : texts' ≠ []) (same : intercalate [x] texts = intercalate [x] texts') :
    marked x texts = marked x texts' := by
  obtain ⟨text, texts, rfl⟩ := exists_cons_of_ne_nil nonempty
  obtain ⟨text', texts', rfl⟩ := exists_cons_of_ne_nil nonempty'
  rw [← cons_intercalate, ← cons_intercalate, same]

def Ends (x : α) (rest : List α) : Prop := ∀ a ∈ rest.head?, a = x

theorem ends_marked (x : α) (texts : List (List α)) : Ends x (marked x texts) := by
  cases texts <;> simp [Ends]

variable [DecidableEq α]

theorem append_eq_of_count {x : α} {a b r s : List α} (same : a ++ r = b ++ s)
    (counts : a.count x = b.count x) (endA : Ends x r) (endB : Ends x s) : a = b ∧ r = s := by
  -- The longer text has more: what is past the shorter one begins with a separator.
  have longer : ∀ {a b r s : List α}, Ends x r → a.count x = b.count x →
      ∀ more, b = a ++ more → r = more ++ s → more = [] := by
    rintro a b r s ends counts more rfl rfl
    cases more with
    | nil => rfl
    | cons m more =>
      obtain rfl : m = x := ends m (by simp)
      simp at counts
  rcases append_eq_append_iff.mp same with ⟨more, eqB, eqR⟩ | ⟨more, eqA, eqS⟩
  · obtain rfl := longer endA counts more eqB eqR
    simp_all
  · obtain rfl := longer endB counts.symm more eqA eqS
    simp_all

/-- A joined text comes from one list only, if it is known how often the separator stands
in each text. -/
theorem marked_injective {x : α} {texts texts' : List (List α)}
    (counts : texts.map (count x) = texts'.map (count x))
    (same : marked x texts = marked x texts') : texts = texts' := by
  induction texts generalizing texts' with
  | nil => simpa using counts.symm
  | cons text texts ih =>
    rcases texts' with _ | ⟨text', texts'⟩
    · cases counts
    · rw [map_cons, map_cons, cons.injEq] at counts
      rw [marked_cons, marked_cons, cons.injEq] at same
      obtain ⟨rfl, rest⟩ := append_eq_of_count same.2 counts.1 (ends_marked x texts)
        (ends_marked x texts')
      rw [ih counts.2 rest]

end Joined

/-- Values as a parser yields them; the fields of an object stand in the order of its map. -/
inductive Json
  | null
  | bool (b : Bool)
  | number (text : Chars)
  | str (s : Chars)
  | arr (items : List Json)
  | obj (fields : List (Chars × Json))

namespace Json

/-- `value[name]`; null where there is no such field, or no object. -/
def get (v : Json) (name : String) : Json :=
  match v with
  | obj fields => (fields.lookup name.toList).getD null
  | _ => null

def asStr : Json → Option Chars
  | str s => some s
  | _ => none

def asObject : Json → Option (List (Chars × Json))
  | obj fields => some fields
  | _ => none

end Json

/-- `serde_json`. -/
structure JsonLib where
  fromSlice : Bytes → Except String Json
  toVec : Json → Bytes

end Stoa
