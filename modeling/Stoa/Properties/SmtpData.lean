import Stoa.Smtp.Session

/-!
A message that is delivered is the one that the data stands for exactly if the data is well formed.

The loop over the bytes is first brought to a run over the pieces between line feeds.
-/
namespace Stoa.Smtp

open List
def IsCrlfLine (line : Bytes) : Prop :=
  ∃ content, line = content ++ crlfBytes ∧ ¬ crlfBytes <:+: content ++ [0x0d]

def unstuffLine (line : Bytes) : Bytes := if line.head? = some 0x2e then line.tail else line

/-- The data has an end, and the body is what stands before it without the stuffed dots. -/
def CompleteMessage (stream body : Bytes) : Prop :=
  ∃ (lines : List Bytes) (rest : Bytes), stream = lines.flatten ++ dotCrlf ++ rest ∧
    (∀ line ∈ lines, IsCrlfLine line ∧ line ≠ dotCrlf) ∧ body = lines.flatMap unstuffLine

def pieces (bytes : Bytes) : List Bytes := splitInclusive 0x0a bytes

def IsEnd (piece : Bytes) : Prop := piece = dotCrlf ∨ piece = dotLf

instance (piece : Bytes) : Decidable (IsEnd piece) :=
  inferInstanceAs (Decidable (piece = dotCrlf ∨ piece = dotLf))

/-- A line that begins with a dot begins with two, and what follows a bare LF in it is neither
an end nor begins with two dots. -/
def Stuffed (line : Bytes) : Prop :=
  (line.head? = some 0x2e → [0x2e, 0x2e] <+: line) ∧
    ∀ piece ∈ (pieces line).tail, ¬ IsEnd piece ∧ ¬ [0x2e, 0x2e] <+: piece

def WellFormedData (stream : Bytes) : Prop :=
  ∃ (lines : List Bytes) (rest : Bytes), stream = lines.flatten ++ dotCrlf ++ rest ∧
    ∀ line ∈ lines, IsCrlfLine line ∧ Stuffed line

def IsPiece (piece : Bytes) : Prop := ∃ content, piece = content ++ [0x0a] ∧ 0x0a ∉ content

theorem pieces_cons {piece : Bytes} (isPiece : IsPiece piece) (rest : Bytes) :
    pieces (piece ++ rest) = piece :: pieces rest := by
  obtain ⟨content, rfl, clean⟩ := isPiece
  rw [append_assoc, singleton_append]
  exact splitInclusive_append clean rest

variable {ps : List Bytes}

theorem pieces_flatten_append (all : ∀ p ∈ ps, IsPiece p) (rest : Bytes) :
    pieces (ps.flatten ++ rest) = ps ++ pieces rest := by
  induction ps with
  | nil => rfl
  | cons p ps ih =>
    rw [forall_mem_cons] at all
    rw [flatten_cons, append_assoc, pieces_cons all.1, ih all.2, cons_append]

theorem flatten_pieces (bytes : Bytes) : (pieces bytes).flatten = bytes :=
  flatten_splitInclusive 0x0a bytes

variable {bytes : Bytes}

theorem pieces_of_clean (clean : 0x0a ∉ bytes) :
    pieces bytes = if bytes = [] then [] else [bytes] := by
  induction bytes with
  | nil => rfl
  | cons b rest ih =>
    rw [mem_cons, not_or] at clean
    rw [pieces, splitInclusive, if_neg (Ne.symm clean.1), ← pieces, ih clean.2]
    cases rest <;> rfl

theorem isPiece_of_mem_pieces (last : bytes.getLast? = some 0x0a) : ∀ p ∈ pieces bytes, IsPiece p := by
  -- By the first line feed: what follows it is shorter and ends in the same way.
  induction n : bytes.length using Nat.strong_induction_on generalizing bytes with
  | _ n ih =>
    obtain ⟨content, rest, rfl, clean⟩ := eq_append_cons_of_mem (mem_of_getLast? last)
    have first : IsPiece (content ++ [0x0a]) := ⟨content, rfl, clean⟩
    have split : pieces (content ++ 0x0a :: rest) = (content ++ [0x0a]) :: pieces rest := by
      rw [← pieces_cons first rest, append_assoc, singleton_append]
    rw [split, forall_mem_cons]
    refine ⟨first, ?_⟩
    cases rest with
    | nil => simp [pieces, splitInclusive]
    | cons b more =>
      refine ih _ ?_ ?_ rfl
      · simp only [← n, length_append, length_cons]
        omega
      · rwa [List.getLast?_append, List.getLast?_cons_cons, Option.or_of_isSome (by simp)] at last

variable {p : Bytes}

theorem IsPiece.ne_nil (isPiece : IsPiece p) : p ≠ [] := by
  obtain ⟨content, rfl, -⟩ := isPiece
  simp

theorem IsPiece.lf_mem (isPiece : IsPiece p) : (0x0a : UInt8) ∈ p := by
  obtain ⟨content, rfl, -⟩ := isPiece
  simp

theorem IsPiece.getLast? (isPiece : IsPiece p) : p.getLast? = some 0x0a := by
  obtain ⟨content, rfl, -⟩ := isPiece
  simp

/-- The body that the reader takes from the pieces. A last piece without line feed is lost. -/
def takenBody : List Bytes → Bytes
  | [] => []
  | p :: ps => if IsEnd p then [] else if p.getLast? = some 0x0a then unstuffDots p ++ takenBody ps
      else []

theorem takenBody_cons (isPiece : IsPiece p) (goesOn : ¬ IsEnd p) (ps : List Bytes) :
    takenBody (p :: ps) = unstuffDots p ++ takenBody ps := by
  rw [takenBody, if_neg goesOn, if_pos isPiece.getLast?]

theorem takenBody_end (isEnd : IsEnd p) (ps : List Bytes) : takenBody (p :: ps) = [] := by
  rw [takenBody, if_pos isEnd]

theorem takenBody_of_clean (clean : 0x0a ∉ bytes) : takenBody (pieces bytes) = [] := by
  rw [pieces_of_clean clean]
  split
  · rfl
  · have noLast : bytes.getLast? ≠ some 0x0a := fun last => clean (mem_of_getLast? last)
    rw [takenBody, if_neg noLast, ite_self]

theorem tooLarge_readDataLoop (maxBytes : Nat) (s : DataLoop) (input : Bytes)
    (large : s.tooLarge = true) : (readDataLoop maxBytes s input).1.2 = true := by
  induction input generalizing s with
  | nil => exact large
  | cons b rest ih =>
    rw [readDataLoop]
    split
    · refine ih _ ?_
      split
      · exact large
      · exact large
    · split
      · dsimp only
        split
        · exact large
        · refine ih _ ?_
          rw [DataLoop.takeLine, if_pos large]
          exact large
      · split
        · exact ih _ rfl
        · exact ih _ large

theorem body_readDataLoop {maxBytes : Nat} {s : DataLoop} {input : Bytes}
    (clean : 0x0a ∉ s.lineBuf) (small : s.tooLarge = false) (reading : s.draining = false)
    (notLarge : (readDataLoop maxBytes s input).1.2 = false) :
    (readDataLoop maxBytes s input).1.1 = s.body ++ takenBody (pieces (s.lineBuf ++ input)) := by
  have stays : ∀ {s' : DataLoop} {rest : Bytes}, (readDataLoop maxBytes s' rest).1.2 = false →
      s'.tooLarge = false := by
    intro s' rest notLarge
    by_contra large
    rw [tooLarge_readDataLoop maxBytes s' rest (by simpa using large)] at notLarge
    cases notLarge
  induction input generalizing s with
  | nil => rw [append_nil, takenBody_of_clean clean, append_nil]; rfl
  | cons b rest ih =>
    rw [readDataLoop, if_neg (by simp [reading])] at notLarge ⊢
    by_cases lf : b = 0x0a
    · subst lf
      have isPiece : IsPiece (s.lineBuf ++ [0x0a]) := ⟨_, rfl, clean⟩
      have split : pieces (s.lineBuf ++ 0x0a :: rest) = (s.lineBuf ++ [0x0a]) :: pieces rest := by
        rw [← pieces_cons isPiece rest, append_assoc, singleton_append]
      rw [if_pos rfl] at notLarge ⊢
      dsimp only at notLarge ⊢
      rw [split]
      change (if IsEnd _ then _ else _ : (Bytes × Bool) × Bytes).1.2 = false at notLarge
      change (if IsEnd _ then _ else _ : (Bytes × Bool) × Bytes).1.1 = _
      by_cases isEnd : IsEnd (s.lineBuf ++ [0x0a])
      · rw [if_pos isEnd, takenBody_end isEnd, append_nil]
      · rw [if_neg isEnd] at notLarge ⊢
        rw [takenBody_cons isPiece isEnd]
        have taken := stays notLarge
        rw [DataLoop.takeLine, small] at notLarge taken ⊢
        simp only [Bool.false_eq_true, if_false] at notLarge taken ⊢
        split at taken
        · cases taken
        · next fits =>
          rw [if_neg fits] at notLarge ⊢
          rw [ih (by simp) rfl rfl notLarge, append_assoc, nil_append]
    · rw [if_neg lf] at notLarge ⊢
      split at notLarge
      · cases stays notLarge
      · next short =>
        have clean' : 0x0a ∉ s.lineBuf ++ [b] := by simp [clean, Ne.symm lf]
        have grown := @ih { s with lineBuf := s.lineBuf ++ [b] } clean' small reading notLarge
        rw [if_neg short, grown, append_assoc, singleton_append]

def Misread (p : Bytes) : Prop := IsEnd p ∨ [0x2e, 0x2e] <+: p

theorem takenBody_append (all : ∀ p ∈ ps, IsPiece p) (plain : ∀ p ∈ ps, ¬ Misread p)
    (qs : List Bytes) : takenBody (ps ++ qs) = ps.flatten ++ takenBody qs := by
  induction ps with
  | nil => rfl
  | cons p ps ih =>
    rw [forall_mem_cons] at all plain
    simp only [Misread, not_or] at plain
    rw [cons_append, takenBody_cons all.1 plain.1.1, ih all.2 (by simpa [Misread] using plain.2),
      unstuffDots, if_neg plain.1.2, flatten_cons, append_assoc]

theorem eq_head_of_cons_append {α : Type} {a : α} {l u v : List α} (same : a :: l ++ u = l ++ v) :
    ∀ x ∈ l, x = a := by
  induction l generalizing a with
  | nil => simp
  | cons b l ih =>
    simp only [cons_append, List.cons.injEq] at same
    obtain ⟨rfl, rest⟩ := same
    rw [forall_mem_cons]
    exact ⟨rfl, ih rest⟩

theorem takenBody_ne_of_misread (all : ∀ p ∈ ps, IsPiece p)
    (misread : ∃ p ∈ ps, Misread p) (qs : List Bytes) (t : Bytes) :
    takenBody (ps ++ qs) ≠ ps.flatten ++ t := by
  induction ps with
  | nil => simp at misread
  | cons p ps ih =>
    rw [forall_mem_cons] at all
    rw [cons_append, flatten_cons, append_assoc]
    by_cases isEnd : IsEnd p
    · rw [takenBody_end isEnd]
      intro same
      exact all.1.ne_nil (append_eq_nil_iff.mp same.symm).1
    rw [takenBody_cons all.1 isEnd, unstuffDots]
    by_cases dots : [0x2e, 0x2e] <+: p
    · -- One dot is missing, so the bodies differ at the first byte that is no dot.
      rw [if_pos dots]
      intro same
      obtain ⟨more, rfl⟩ := dots
      have onlyDots := eq_head_of_cons_append (l := 0x2e :: more) same.symm
      have lf := all.1.lf_mem
      simp only [cons_append, nil_append, mem_cons] at lf
      rcases lf with lf | lf | lf
      · cases lf
      · cases lf
      · cases onlyDots _ (mem_cons_of_mem _ lf)
    · rw [if_neg dots]
      intro same
      refine ih all.2 ?_ (append_cancel_left same)
      obtain ⟨q, member, bad⟩ := misread
      rcases mem_cons.mp member with rfl | later
      · exact absurd bad (by simp [Misread, isEnd, dots])
      · exact ⟨q, later, bad⟩

variable {line : Bytes}

theorem eq_of_crlf_suffix (isLine : IsCrlfLine line)
    (split : line = p ++ ps.flatten) (all : ∀ q ∈ ps, IsPiece q) (crlf : crlfBytes <:+ p) : line = p := by
  cases ps with
  | nil => simpa using split
  | cons q qs =>
    exfalso
    obtain ⟨content, rfl, single⟩ := isLine
    obtain ⟨before, rfl⟩ := crlf
    have more : (q :: qs).flatten ≠ [] := by
      simp [(forall_mem_cons.mp all).1.ne_nil]
    -- Without the last byte, the line still has the CR LF of its first piece.
    have short := congrArg List.dropLast split
    rw [dropLast_append_of_ne_nil more, crlfBytes, dropLast_append_of_ne_nil (by simp)] at short
    exact single ⟨before, (q :: qs).flatten.dropLast, short.symm⟩

theorem IsCrlfLine.exists_pieces (isLine : IsCrlfLine line) :
    ∃ (p : Bytes) (ps : List Bytes), pieces line = p :: ps ∧ line = p ++ ps.flatten ∧ IsPiece p ∧
      (∀ q ∈ ps, IsPiece q) ∧ ∀ rest, pieces (line ++ rest) = p :: (ps ++ pieces rest) := by
  have last : line.getLast? = some 0x0a := by
    obtain ⟨content, rfl, -⟩ := isLine
    simp [crlfBytes]
  have whole := isPiece_of_mem_pieces last
  have flat := flatten_pieces line
  have append := fun rest => pieces_flatten_append whole rest
  rw [flat] at append
  cases split : pieces line with
  | nil =>
    rw [split, flatten_nil] at flat
    subst flat
    simp at last
  | cons p ps =>
    rw [split] at whole flat append
    rw [forall_mem_cons] at whole
    exact ⟨p, ps, rfl, flat.symm, whole.1, whole.2, append⟩

theorem IsPiece.eq_lf_or (isPiece : IsPiece p) : p = [0x0a] ∨ ∃ c d more, p = c :: d :: more := by
  obtain ⟨content, rfl, -⟩ := isPiece
  rcases content with - | ⟨c, - | ⟨d, more⟩⟩
  · exact Or.inl rfl
  · exact Or.inr ⟨c, 0x0a, [], rfl⟩
  · exact Or.inr ⟨c, d, more ++ [0x0a], rfl⟩

theorem IsPiece.begins_iff (isPiece : IsPiece p) (rest : Bytes) :
    ([0x2e, 0x2e] <+: p ++ rest ↔ [0x2e, 0x2e] <+: p) ∧ (p ++ rest).head? = p.head? ∧
      unstuffLine (p ++ rest) = unstuffLine p ++ rest := by
  rcases isPiece.eq_lf_or with rfl | ⟨c, d, more, rfl⟩
  · simp [unstuffLine]
  · refine ⟨by simp, by simp, ?_⟩
    by_cases dot : c = 0x2e <;> simp [unstuffLine, dot]

theorem unstuffDots_eq_unstuffLine (first : p.head? = some 0x2e → [0x2e, 0x2e] <+: p) :
    ¬ IsEnd p ∧ unstuffDots p = unstuffLine p := by
  constructor
  · rintro (rfl | rfl)
    · exact absurd (first rfl) (by decide)
    · exact absurd (first rfl) (by decide)
  · by_cases twoDots : [0x2e, 0x2e] <+: p
    · obtain ⟨more, rfl⟩ := twoDots
      simp [unstuffDots, unstuffLine]
    · rw [unstuffDots, if_neg twoDots, unstuffLine, if_neg (fun dot => twoDots (first dot))]

theorem takenBody_line (isLine : IsCrlfLine line) (stuffed : Stuffed line) (rest : Bytes) :
    takenBody (pieces (line ++ rest)) = unstuffLine line ++ takenBody (pieces rest) := by
  obtain ⟨p, ps, split, rfl, isPiece, all, append⟩ := isLine.exists_pieces
  obtain ⟨dots, head, unstuffed⟩ := isPiece.begins_iff ps.flatten
  obtain ⟨first, later⟩ := stuffed
  rw [dots, head] at first
  rw [split, tail_cons] at later
  obtain ⟨goesOn, same⟩ := unstuffDots_eq_unstuffLine first
  rw [append, takenBody_cons isPiece goesOn, same, unstuffed,
    takenBody_append all (by simpa [Misread] using later), append_assoc]

theorem takenBody_line_ne (isLine : IsCrlfLine line) (inner : line ≠ dotCrlf)
    (unstuffed : ¬ Stuffed line) (rest t : Bytes) :
    takenBody (pieces (line ++ rest)) ≠ unstuffLine line ++ t := by
  obtain ⟨p, ps, split, whole, isPiece, all, append⟩ := isLine.exists_pieces
  obtain ⟨dots, head, unstuff⟩ := isPiece.begins_iff ps.flatten
  rw [append, whole, unstuff, append_assoc]
  by_cases first : p.head? = some 0x2e → [0x2e, 0x2e] <+: p
  · -- The first piece is taken as it is meant, so a later one is not.
    have later : ∃ q ∈ ps, Misread q := by
      by_contra plain
      refine unstuffed ⟨?_, ?_⟩
      · rwa [whole, dots, head]
      · rw [split, tail_cons]
        simpa [Misread] using plain
    obtain ⟨goesOn, same⟩ := unstuffDots_eq_unstuffLine first
    rw [takenBody_cons isPiece goesOn, same]
    intro equal
    exact takenBody_ne_of_misread all later _ _ (append_cancel_left equal)
  · -- The piece begins with one dot, which is kept or ends the data.
    rw [Classical.not_imp] at first
    obtain ⟨dot, single⟩ := first
    by_cases isEnd : IsEnd p
    · rw [takenBody_end isEnd]
      rcases isEnd with rfl | rfl
      · exact absurd (eq_of_crlf_suffix isLine whole all ⟨[0x2e], rfl⟩) inner
      · simp [unstuffLine, dotLf]
    · rw [takenBody_cons isPiece isEnd, unstuffDots, if_neg single, unstuffLine, if_pos dot]
      rcases isPiece.eq_lf_or with rfl | ⟨c, d, more, rfl⟩
      · cases dot
      · simp only [List.head?_cons, Option.some.injEq] at dot
        subst dot
        intro equal
        simp only [cons_append, tail_cons, List.cons.injEq] at equal
        exact single (by simp [← equal.1])

theorem completeMessage_takenBody_iff (stream : Bytes) :
    CompleteMessage stream (takenBody (pieces stream)) ↔ WellFormedData stream := by
  constructor
  · rintro ⟨lines, rest, rfl, all, same⟩
    refine ⟨lines, rest, rfl, ?_⟩
    -- A line that is not stuffed would show, so each line is, one after the other.
    induction lines with
    | nil => simp
    | cons line lines ih =>
      rw [forall_mem_cons] at all ⊢
      rw [flatten_cons, append_assoc, append_assoc, flatMap_cons] at same
      have stuffed : Stuffed line := by
        by_contra unstuffed
        exact takenBody_line_ne all.1.1 all.1.2 unstuffed _ _ same
      rw [takenBody_line all.1.1 stuffed, ← append_assoc lines.flatten] at same
      exact ⟨⟨all.1.1, stuffed⟩, ih all.2 (append_cancel_left same)⟩
  · rintro ⟨lines, rest, rfl, all⟩
    refine ⟨lines, rest, rfl, ?_, ?_⟩
    · intro line member
      refine ⟨(all line member).1, ?_⟩
      rintro rfl
      exact absurd ((all _ member).2.1 rfl) (by decide)
    · induction lines with
      | nil =>
        have isPiece : IsPiece dotCrlf := ⟨[0x2e, 0x0d], rfl, by decide⟩
        rw [flatten_nil, nil_append, pieces_cons isPiece, takenBody_end (Or.inl rfl),
          flatMap_nil]
      | cons line lines ih =>
        rw [forall_mem_cons] at all
        rw [flatten_cons, append_assoc, append_assoc, takenBody_line all.1.1 all.1.2,
          ← append_assoc lines.flatten, ih all.2, flatMap_cons]

theorem body_of_receiveData {maxBytes : Nat} {timedOut : Bool}
    {verifyInbound : Option (Bytes → AuthVerdict)} {stream body : Bytes} {verdict : Option AuthVerdict}
    (received : receiveData maxBytes timedOut verifyInbound stream = .message body verdict) :
    body = takenBody (pieces stream) := by
  rcases read : readDataBody maxBytes stream with ⟨⟨taken, tooLarge⟩, rest⟩
  have loop : tooLarge = false → taken = takenBody (pieces stream) := by
    intro small
    have body := @body_readDataLoop maxBytes .start stream (by simp [DataLoop.start]) rfl rfl
    rw [show readDataLoop maxBytes .start stream = ((taken, tooLarge), rest) from read] at body
    simpa [DataLoop.start] using body small
  unfold receiveData at received
  rw [read] at received
  split at received
  · cases received
  dsimp only at received
  split at received
  · cases received
  next small =>
  split at received
  · cases received
  rw [← loop (by simpa using small)]
  split at received
  · cases received
    rfl
  · split at received
    · cases received
    · cases received
      rfl

/-- A message that is delivered is the one that the data stands for exactly if the data is well
formed: it has an end, and every line before it is stuffed. -/
theorem delivered_complete_iff {maxBytes : Nat} {timedOut : Bool}
    {verifyInbound : Option (Bytes → AuthVerdict)} {stream body : Bytes} {verdict : Option AuthVerdict}
    (received : receiveData maxBytes timedOut verifyInbound stream = .message body verdict) :
    CompleteMessage stream body ↔ WellFormedData stream := by
  rw [body_of_receiveData received]
  exact completeMessage_takenBody_iff stream

namespace Sample

def stuffedData : Bytes := [0x48, 0x69, 0x0d, 0x0a, 0x2e, 0x2e, 0x0d, 0x0a, 0x2e, 0x0d, 0x0a]

def truncatedData : Bytes := [0x48, 0x69, 0x0d, 0x0a]

theorem stuffed_data_delivered : receiveData 1024 false none stuffedData =
        .message [0x48, 0x69, 0x0d, 0x0a, 0x2e, 0x0d, 0x0a] none ∧
      (CompleteMessage stuffedData [0x48, 0x69, 0x0d, 0x0a, 0x2e, 0x0d, 0x0a] ↔
        WellFormedData stuffedData) :=
  ⟨rfl, @delivered_complete_iff 1024 false none stuffedData _ none rfl⟩

theorem truncated_data_delivered : receiveData 1024 false none truncatedData = .message truncatedData none ∧
      ¬ CompleteMessage truncatedData truncatedData := by
  refine ⟨rfl, ?_⟩
  rintro ⟨lines, rest, split, -, -⟩
  have dot : (0x2e : UInt8) ∈ truncatedData := by
    rw [split]
    simp [dotCrlf]
  exact absurd dot (by decide)

end Sample

end Stoa.Smtp
