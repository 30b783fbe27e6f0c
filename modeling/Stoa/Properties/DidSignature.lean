import Stoa.Lib.Words
import Stoa.Reader.Sign
import Stoa.Transit.HeaderFields

/-!
`agrees_iff`: an article that verifies with the value of another one, which holds no line like a
signature field besides its field, agrees with it exactly if it holds no such line either.

The scanner keeps a part of the lines that the intended reading has (`outLines_dropField`); what
it leaves out is at least a line long, so the joined lines differ in length.
-/
namespace Stoa.Post

open Text List

def didSigHeader : String := "X-Stoa-DID-Sig"

def didSigPrefix : String := "x-stoa-did-sig:"

def addPhysicalLine (logicalLines : List Chars) (physicalLine : Chars) : List Chars :=
  let line := physicalLine.rdropWhile (· == '\r')
  if line.head? = some ' ' ∨ line.head? = some '\t' then
    match logicalLines.getLast? with
    | none => logicalLines
    | some last => logicalLines.dropLast ++ [last ++ ' ' :: Chars.trim line]
  else logicalLines ++ [line]

def extractDidSig (articleBytes : Bytes) : Option String := do
  let text ← fromUtf8 (headerSection articleBytes)
  let logicalLines := (text.toList.splitOn '\n').foldl addPhysicalLine []
  let logical ← logicalLines.find? fun logical => didSigPrefix.toList.isPrefixOf logical.toLower
  some (String.ofList (Chars.trim (logical.drop didSigPrefix.length)))

inductive DidSigError
  | invalidFormat (message : String)
  | unsupportedMethod (method : String)
  | invalidKeyEncoding (message : String)
  | invalidSignatureEncoding (message : String)
  deriving DecidableEq, Repr

structure DidLibrary where
  /-- `bs58::decode`, or the text of its error. -/
  base58Decode : String → Except String Bytes
  /-- `VerifyingKey::from_bytes`, or the text of its error. -/
  verifyingKey : FixedBytes 32 → Except String VerifyingKey
  /-- The error text for a signature that is not in base64url. -/
  base64Error : String → String
  /-- `VerifyingKey::verify_strict`. -/
  verifyStrict : VerifyingKey → Bytes → Signature → Bool

section Check

variable (library : DidLibrary)

def multicodecEd25519Pub : Bytes := [0xed, 0x01]

def parseDidKey (didUrl : String) : Except DidSigError VerifyingKey :=
  match stripStart "did:key:" didUrl with
  | none =>
    .error (.unsupportedMethod (((didUrl.toList.splitOn ':')[1]?.map String.ofList).getD "unknown"))
  | some multibaseId =>
    match stripStart "z" multibaseId with
    | none => .error (.invalidKeyEncoding "not base58btc multibase (expected 'z' prefix)")
    | some b58Str => do
      let decoded ← (library.base58Decode b58Str).mapError .invalidKeyEncoding
      if decoded.length < 2 ∨ decoded.take 2 ≠ multicodecEd25519Pub then
        .error (.invalidKeyEncoding
          "not an Ed25519 did:key (multicodec prefix mismatch; only 0xed01 is supported)")
      else
        match FixedBytes.tryFrom 32 (decoded.drop 2) with
        | none => .error (.invalidKeyEncoding
            ("expected 32-byte Ed25519 key, got " ++ toString (decoded.length - 2) ++ " bytes"))
        | some keyBytes => (library.verifyingKey keyBytes).mapError .invalidKeyEncoding

def IsDidSig (line : Bytes) : Prop := hasName didSigPrefix (stripCr line) = true

instance (line : Bytes) : Decidable (IsDidSig line) :=
  inferInstanceAs (Decidable (_ = true))

/-- The lines that stay. `skipContinuations` is set behind a signature line. -/
def outLines : (skipContinuations : Bool) → List Bytes → List Bytes
  | _, [] => []
  | skipContinuations, line :: rest =>
    if Folded (stripCr line) then
      if skipContinuations then outLines true rest else line :: outLines false rest
    else if IsDidSig line then outLines true rest
    else line :: outLines false rest

def joinLines (ls : List Bytes) : Bytes := [0x0a].intercalate ls

def stripDidSigHeader (articleBytes : Bytes) : Bytes := joinLines (outLines false (lines articleBytes))

def readDidSig (headerValue : String) : Except DidSigError (VerifyingKey × Signature) :=
  match splitOnce (· == ' ') headerValue with
  | (_, none) => .error (.invalidFormat "expected '<did-url> <base64url-sig>'")
  | (didUrl, some sigB64) =>
    if trim didUrl = "" ∨ trim sigB64 = "" then .error (.invalidFormat "did-url or signature is empty")
    else
      match Base64.urlSafeNoPad.decode (trim sigB64) with
      | none => .error (.invalidSignatureEncoding (library.base64Error (trim sigB64)))
      | some sigBytes =>
        match FixedBytes.tryFrom 64 sigBytes with
        | none => .error (.invalidSignatureEncoding ("expected 64-byte Ed25519 signature, got " ++
            toString sigBytes.length ++ " bytes"))
        | some signature => do
          let verifyingKey ← parseDidKey library (trim didUrl)
          .ok (verifyingKey, signature)

def verifyDidSig (articleBytes : Bytes) (headerValue : String) : Except DidSigError Bool := do
  let (verifyingKey, signature) ← readDidSig library headerValue
  .ok (library.verifyStrict verifyingKey (stripDidSigHeader articleBytes) signature)

/-- The verdict on a posted article: nothing if it claims no author, and a claim that
cannot be read is a false one. -/
def didSigValid (articleBytes : Bytes) : Option Bool :=
  (extractDidSig articleBytes).map fun headerVal =>
    match verifyDidSig library articleBytes headerVal with
    | .ok valid => valid
    | .error _ => false

end Check

def dropField : List Bytes → List Bytes
  | [] => []
  | line :: rest =>
    if IsDidSig line then rest.dropWhile fun l => decide (Folded (stripCr l)) else line :: dropField rest

def withoutField (articleBytes : Bytes) : Bytes :=
  joinLines (dropField (lines (headerSection articleBytes))) ++ afterHeaders articleBytes

/-- No line starts like a signature field but the one of the header section. -/
def OneField (articleBytes : Bytes) : Prop :=
  (lines (headerSection articleBytes)).countP (fun l => decide (IsDidSig l)) ≤ 1 ∧
    ∀ l ∈ lines (afterHeaders articleBytes), ¬ IsDidSig l

instance (articleBytes : Bytes) : Decidable (OneField articleBytes) :=
  inferInstanceAs (Decidable (_ ∧ _))

theorem joinLines_append (xs : List Bytes) {ys : List Bytes} (some : ys ≠ []) :
    joinLines (xs ++ ys) = xs.flatMap (· ++ [0x0a]) ++ joinLines ys := intercalate_append 0x0a xs some

theorem joinLines_lines (b : Bytes) : joinLines (lines b) = b := intercalate_splitOn 0x0a

theorem joinLines_ne_of_shorter {xs ys : List Bytes}
    (shorter : (xs.flatMap (· ++ [0x0a])).length + 2 ≤ (ys.flatMap (· ++ [(0x0a : UInt8)])).length) :
    joinLines xs ≠ joinLines ys := by
  intro same
  have filled : ys ≠ [] := by
    rintro rfl
    simp at shorter
  rw [flatMap_ended _ filled, ← joinLines, ← same] at shorter
  by_cases none : xs = []
  · subst none
    simp [joinLines] at shorter
  · rw [flatMap_ended _ none, ← joinLines] at shorter
    omega

theorem not_isDidSig_of_folded {line : Bytes} (folded : Folded (stripCr line)) : ¬ IsDidSig line := by
  intro named
  rw [IsDidSig, hasName, Bool.and_eq_true, eqIgnoreAsciiCase, beq_iff_eq] at named
  obtain ⟨first, rest, shape⟩ : ∃ first rest, stripCr line = first :: rest := by
    cases h : stripCr line with
    | nil => simp [h, Folded] at folded
    | cons first rest => exact ⟨first, rest, rfl⟩
  have start := congrArg List.head? named.2
  rw [shape] at folded start
  -- A folded line starts with a blank, the field name with a letter.
  have letter : toAsciiLowercase first = toAsciiLowercase 0x78 := by
    simpa [didSigPrefix, asBytes, String.utf8EncodeChar] using start
  rcases folded with space | tab
  · cases space
    exact absurd letter (by decide)
  · cases tab
    exact absurd letter (by decide)

theorem length_of_isDidSig {line : Bytes} (named : IsDidSig line) : 1 ≤ line.length := by
  rw [IsDidSig, hasName, Bool.and_eq_true, decide_eq_true_eq] at named
  by_contra short
  have empty : line = [] := length_eq_zero_iff.mp (by omega)
  subst empty
  exact absurd named.1 (by decide)

section OutLines

theorem outLines_of_none {ls : List Bytes} (none : ∀ l ∈ ls, ¬ IsDidSig l) : outLines false ls = ls := by
  induction ls with
  | nil => rfl
  | cons l ls ih =>
    rw [forall_mem_cons] at none
    simp [outLines, none.1, ih none.2]

theorem outLines_true (ls : List Bytes) :
    outLines true ls = outLines false (ls.dropWhile fun l => decide (Folded (stripCr l))) := by
  induction ls with
  | nil => rfl
  | cons l ls ih =>
    by_cases folded : Folded (stripCr l)
    · simp [outLines, folded, ih]
    · simp [outLines, folded]

theorem outLines_append {b : Bytes} (blank : stripCr b = []) (skip : Bool) (ls rest : List Bytes) :
    outLines skip (ls ++ b :: rest) = outLines skip ls ++ outLines false (b :: rest) := by
  have plain : ¬ Folded (stripCr b) := by simp [blank, Folded]
  induction ls generalizing skip with
  | nil => simp [outLines, plain]
  | cons l ls ih =>
    simp only [cons_append, outLines, ih]
    split_ifs <;> rfl

theorem dropField_append {b : Bytes} (blank : stripCr b = []) (ls : List Bytes) :
    dropField (ls ++ [b]) = dropField ls ++ [b] := by
  have plain : ¬ Folded (stripCr b) := by simp [blank, Folded]
  have unnamed : ¬ IsDidSig b := by
    rw [IsDidSig, blank]
    decide
  induction ls with
  | nil => simp [dropField, unnamed]
  | cons l ls ih =>
    simp only [cons_append, dropField, ih]
    split_ifs
    · rw [dropWhile_append]
      split_ifs with none
      · simp [isEmpty_iff.mp none, plain]
      · rfl
    · rfl

theorem outLines_length (skip : Bool) (ls : List Bytes) :
    ((outLines skip ls).flatMap (· ++ [0x0a])).length ≤ (ls.flatMap (· ++ [(0x0a : UInt8)])).length := by
  induction ls generalizing skip with
  | nil => simp [outLines]
  | cons l ls ih =>
    have kept := ih false
    have skipped := ih true
    simp only [outLines]
    split_ifs <;> simp only [flatMap_cons, length_append] <;> omega

theorem outLines_shorter (skip : Bool) {ls : List Bytes} (found : ∃ l ∈ ls, IsDidSig l) :
    ((outLines skip ls).flatMap (· ++ [0x0a])).length + 2 ≤
      (ls.flatMap (· ++ [(0x0a : UInt8)])).length := by
  induction ls generalizing skip with
  | nil => simp at found
  | cons l ls ih =>
    by_cases named : IsDidSig l
    · have plain : ¬ Folded (stripCr l) := fun folded => not_isDidSig_of_folded folded named
      have long := length_of_isDidSig named
      have rest := outLines_length true ls
      simp only [outLines, plain, named, if_true, if_false, flatMap_cons, length_append,
        length_singleton]
      omega
    · have later : ∃ l ∈ ls, IsDidSig l := by simpa [named] using found
      have kept := ih false later
      have skipped := ih true later
      simp only [outLines]
      split_ifs <;> simp only [flatMap_cons, length_append] <;> omega

theorem outLines_dropField (ls : List Bytes) : ∃ before after, dropField ls = before ++ after ∧
    outLines false ls = before ++ outLines false after ∧
    (ls.countP (fun l => decide (IsDidSig l)) ≤ 1 ↔ ∀ l ∈ after, ¬ IsDidSig l) := by
  induction ls with
  | nil => exact ⟨[], [], rfl, rfl, by simp⟩
  | cons l ls ih =>
    by_cases named : IsDidSig l
    · have plain : ¬ Folded (stripCr l) := fun folded => not_isDidSig_of_folded folded named
      refine ⟨[], ls.dropWhile fun l => decide (Folded (stripCr l)), ?_, ?_, ?_⟩
      · simp [dropField, named]
      · simp [outLines, plain, named, outLines_true]
      · -- Folded lines are no fields, so only the others count.
        have folds : ∀ m ∈ ls.takeWhile fun l => decide (Folded (stripCr l)), ¬ IsDidSig m :=
          fun m mem => not_isDidSig_of_folded (by simpa using mem_takeWhile_imp mem)
        rw [countP_cons_of_pos (by simpa using named), show ∀ n, n + 1 ≤ 1 ↔ n = 0 by omega,
          countP_eq_zero]
        conv_lhs => rw [← @List.takeWhile_append_dropWhile _ (fun l => decide (Folded (stripCr l))) ls]
        simp only [forall_mem_append, decide_eq_true_eq]
        exact and_iff_right folds
    · obtain ⟨before, after, dropped, out, count⟩ := ih
      refine ⟨l :: before, after, ?_, ?_, ?_⟩
      · simp [dropField, named, dropped]
      · simp [outLines, named, out]
      · simpa [named] using count

end OutLines

variable {articleBytes : Bytes}

theorem exists_blank {bodyStart : Nat} (found : findHeaderBoundary articleBytes = some bodyStart) :
    ∃ head blank rest, headerSection articleBytes = head ++ [0x0a] ∧
      afterHeaders articleBytes = blank ++ 0x0a :: rest ∧ (blank = [] ∨ blank = [0x0d]) := by
  have cut : ∀ head rest, articleBytes = head ++ rest → findHeaderEnd articleBytes = head.length →
      headerSection articleBytes = head ∧ afterHeaders articleBytes = rest := by
    intro head rest shape ends
    rw [headerSection, afterHeaders, ends, shape, take_left, drop_left]
    exact ⟨rfl, rfl⟩
  cases crlf : findInfix blankLine articleBytes with
  | some i =>
    obtain ⟨before, rest, shape, length⟩ := findInfix_some crlf
    have ends : findHeaderEnd articleBytes = (before ++ [0x0d, 0x0a]).length := by
      have sep : sepLen articleBytes (i + 4) = 4 := by
        have here : (articleBytes.take (i + 4)).drop (i + 4 - 4) = blankLine := by
          rw [shape, ← length]
          simp [blankLine, take_append]
        exact if_pos ⟨by omega, here⟩
      simp [findHeaderEnd, findHeaderBoundary, crlf, sep, length]
    obtain ⟨headers, after⟩ := cut (before ++ [0x0d, 0x0a]) ([0x0d, 0x0a] ++ rest)
      (by rw [shape]; simp [blankLine]) ends
    exact ⟨before ++ [0x0d], [0x0d], rest, by rw [headers]; simp, after, .inr rfl⟩
  | none =>
    cases lf : findInfix [0x0a, 0x0a] articleBytes with
    | none => simp [findHeaderBoundary, crlf, lf] at found
    | some i =>
      obtain ⟨before, rest, shape, length⟩ := findInfix_some lf
      have ends : findHeaderEnd articleBytes = (before ++ [0x0a]).length := by
        have sep : sepLen articleBytes (i + 2) = 2 := by
          apply if_neg
          rintro ⟨-, here⟩
          apply findInfix_eq_none.mp crlf
          rw [← here]
          exact (drop_suffix _ _).isInfix.trans ( take_prefix _ _).isInfix
        simp [findHeaderEnd, findHeaderBoundary, crlf, lf, sep, length]
      obtain ⟨headers, after⟩ := cut (before ++ [0x0a]) ([0x0a] ++ rest) (by rw [shape]; simp) ends
      exact ⟨before, [], rest, headers, after, .inl rfl⟩

theorem exists_cut (articleBytes : Bytes) : ∃ ls ms,
    stripDidSigHeader articleBytes = joinLines (outLines false ls ++ outLines false ms) ∧
    withoutField articleBytes = joinLines (dropField ls ++ ms) ∧ (OneField articleBytes ↔
      ls.countP (fun l => decide (IsDidSig l)) ≤ 1 ∧ ∀ m ∈ ms, ¬ IsDidSig m) := by
  cases found : findHeaderBoundary articleBytes with
  | none =>
    -- Without an empty line all of the article is header section.
    have all : headerSection articleBytes = articleBytes := by simp [headerSection, findHeaderEnd, found]
    have nothing : afterHeaders articleBytes = [] := by simp [afterHeaders, findHeaderEnd, found]
    refine ⟨lines articleBytes, [], ?_, ?_, ?_⟩
    · simp [stripDidSigHeader, outLines]
    · simp [withoutField, all, nothing]
    · have unnamed : ∀ l ∈ lines [], ¬ IsDidSig l := by decide
      rw [OneField, all, nothing]
      exact and_congr_right fun _ => iff_of_true unnamed (by simp)
  | some bodyStart =>
    obtain ⟨head, blank, rest, headers, after, empty⟩ := exists_blank found
    have whole : articleBytes = head ++ 0x0a :: (blank ++ 0x0a :: rest) := by
      rw [← after]
      conv_lhs => rw [← take_append_drop (findHeaderEnd articleBytes) articleBytes]
      rw [show articleBytes.take (findHeaderEnd articleBytes) = head ++ [0x0a] from headers]
      simp [afterHeaders]
    have wholeLines : lines articleBytes = lines head ++ lines (afterHeaders articleBytes) := by
      rw [after]
      conv_lhs => rw [whole]
      exact splitOn_append 0x0a head _
    have headerLines : lines (headerSection articleBytes) = lines head ++ [[]] := by
      rw [headers]
      exact splitOn_append 0x0a head []
    have bodyLines : lines (afterHeaders articleBytes) = blank :: lines rest := by
      rw [after, lines, splitOn_append]
      rcases empty with rfl | rfl <;> rfl
    have resets : stripCr blank = [] := by rcases empty with rfl | rfl <;> rfl
    have unnamed : ¬ IsDidSig [] := by decide
    refine ⟨lines head, lines (afterHeaders articleBytes), ?_, ?_, ?_⟩
    · rw [stripDidSigHeader, wholeLines, bodyLines, outLines_append resets]
    · rw [withoutField, headerLines, dropField_append rfl, joinLines_append _ (cons_ne_nil _ _),
        joinLines_append _ (show lines _ ≠ [] from splitOn_ne_nil _ _), joinLines_lines]
      simp [joinLines]
    · simp [OneField, headerLines, unnamed]

theorem stripDidSigHeader_eq_iff (articleBytes : Bytes) :
    stripDidSigHeader articleBytes = withoutField articleBytes ↔ OneField articleBytes := by
  obtain ⟨ls, ms, signed, intended, oneField⟩ := exists_cut articleBytes
  obtain ⟨before, after, dropped, out, count⟩ := outLines_dropField ls
  rw [signed, intended, oneField, count, dropped, out]
  constructor
  · intro same
    by_contra others
    -- A line that is left out makes the text shorter.
    have shorter : ((before ++ outLines false after ++ outLines false ms).flatMap
          (· ++ [0x0a])).length + 2 ≤
        ((before ++ after ++ ms).flatMap (· ++ [(0x0a : UInt8)])).length := by
      have le := outLines_length false after
      have le' := outLines_length false ms
      simp only [flatMap_append, length_append]
      rw [not_and_or] at others
      rcases others with found | found
      · have lt := outLines_shorter false (by simpa using found)
        omega
      · have lt := outLines_shorter false (by simpa using found)
        omega
    exact joinLines_ne_of_shorter shorter same
  · rintro ⟨none, none'⟩
    rw [outLines_of_none none, outLines_of_none none']

variable {library : DidLibrary}

theorem verified_spec (verified : didSigValid library articleBytes = some true) :
    ∃ value key sig, extractDidSig articleBytes = some value ∧ readDidSig library value = .ok (key, sig) ∧
      library.verifyStrict key (stripDidSigHeader articleBytes) sig = true := by
  rw [didSigValid, Option.map_eq_some_iff] at verified
  obtain ⟨value, extracted, valid⟩ := verified
  cases read : readDidSig library value with
  | error e => simp [verifyDidSig, read, bind, Except.bind] at valid
  | ok claim =>
    refine ⟨value, claim.1, claim.2, extracted, read, ?_⟩
    simpa [verifyDidSig, read, bind, Except.bind] using valid

/-- An article that verifies with the value of `original` agrees with it, the signature field
aside, exactly if it has no line that looks like a second signature field. -/
theorem agrees_iff {original articleBytes : Bytes}
    (unique : ∀ key sig message message', library.verifyStrict key message sig = true →
      library.verifyStrict key message' sig = true → message = message')
    (verified : didSigValid library original = some true)
    (verified' : didSigValid library articleBytes = some true)
    (sameValue : extractDidSig articleBytes = extractDidSig original) (oneField : OneField original) :
    withoutField articleBytes = withoutField original ↔ OneField articleBytes := by
  obtain ⟨value, key, sig, extracted, read, accepted⟩ := verified_spec verified
  obtain ⟨value', key', sig', extracted', read', accepted'⟩ := verified_spec verified'
  rw [extracted, extracted', Option.some_inj] at sameValue
  subst sameValue
  rw [read, Except.ok.injEq, Prod.mk.injEq] at read'
  obtain ⟨rfl, rfl⟩ := read'
  have signed := unique key sig _ _ accepted accepted'
  rw [← (stripDidSigHeader_eq_iff original).mpr oneField, signed, ← stripDidSigHeader_eq_iff]
  exact eq_comm

def authorValue (b58 : String) (sig : Signature) : String :=
  "did:key:z" ++ b58 ++ (" " ++ Base64.urlSafeNoPad.encode sig.toBytes)

def Visible (s : String) : Prop := ∀ c ∈ s.toList, isWhitespace c = false

theorem Visible.append {s t : String} (left : Visible s) (right : Visible t) : Visible (s ++ t) := by
  intro c mem
  rw [String.toList_append, mem_append] at mem
  exact mem.elim (left c) (right c)

theorem Visible.trim_eq {s : String} (visible : Visible s) : trim s = s := by
  have keep := @Chars.trimMatches_eq_self isWhitespace s.toList
    (fun c mem => visible c (mem_of_mem_head? mem))
    (fun c mem => visible c (mem_of_mem_getLast? mem))
  rw [trim, ← Chars.trimMatches, keep, String.ofList_toList]

theorem splitOnce_space {s : String} (visible : Visible s) (t : String) :
    splitOnce (· == ' ') (s ++ (" " ++ t)) = (s, some t) := by
  have space : ∀ c ∈ s.toList, (!(c == ' ')) = true := by
    intro c mem
    rw [Bool.not_eq_true', beq_eq_false_iff_ne]
    rintro rfl
    exact absurd (visible _ mem) (by decide)
  have shape : (s ++ (" " ++ t)).toList = s.toList ++ ' ' :: t.toList := by simp
  rw [splitOnce, shape, dropWhile_append_of_pos space, takeWhile_append_of_pos space]
  simp

theorem stripStart_append (start s : String) : stripStart start (start ++ s) = some s := by
  have here : start.toList.isPrefixOf (start ++ s).toList = true := by
    rw [ isPrefixOf_iff_prefix, String.toList_append]
    exact prefix_append _ _
  rw [stripStart, if_pos here, String.toList_append, ← String.length_toList, drop_left,
    String.ofList_toList]

theorem encode_ne_empty (sig : Signature) : Base64.urlSafeNoPad.encode sig.toBytes ≠ "" := by
  intro none
  have decodes := Base64.urlSafeNoPad.decode_encode sig.toBytes
  rw [none] at decodes
  have length := sig.length_toBytes
  rw [show sig.toBytes = [] from (Option.some_inj.mp decodes).symm] at length
  cases length

theorem visible_start : Visible "did:key:z" := by simp [Visible, isWhitespace]

variable {b58 : String}

theorem authorValue_single (visible : Visible b58) (sig : Signature) :
    '\r' ∉ (authorValue b58 sig).toList ∧ '\n' ∉ (authorValue b58 sig).toList := by
  have absent : ∀ c, isWhitespace c = true → c ≠ ' ' → c ∉ (authorValue b58 sig).toList := by
    intro c space other mem
    simp only [authorValue, String.toList_append, mem_append] at mem
    rcases mem with (start | key) | blank | text
    · simp [visible_start c start] at space
    · simp [visible c key] at space
    · exact other (by simpa using blank)
    · simp [encode_visible _ c text] at space
  exact ⟨absent _ (by decide) (by decide), absent _ (by decide) (by decide)⟩

theorem authorValue_trimmed (sig : Signature) :
    Chars.trim (' ' :: (authorValue b58 sig).toList) = (authorValue b58 sig).toList := by
  have text : (Base64.urlSafeNoPad.encode sig.toBytes).toList ≠ [] := by
    simpa using encode_ne_empty sig
  have kept : Chars.trimMatches isWhitespace (authorValue b58 sig).toList =
      (authorValue b58 sig).toList := by
    apply Chars.trimMatches_eq_self
    · intro c mem
      simp only [authorValue, String.toList_append] at mem
      have first : c = 'd' := by simpa [@eq_comm _ 'd' c] using mem
      rw [first]
      decide
    · intro c mem
      simp only [authorValue, String.toList_append] at mem
      rw [← append_assoc, List.getLast?_append_of_ne_nil _ text] at mem
      exact encode_visible _ c (mem_of_getLast? mem)
  rw [Chars.trim, Chars.trimMatches, dropWhile_cons_of_pos (by decide), ← Chars.trimMatches, kept]

theorem readDidSig_authorValue {key : VerifyingKey} (sig : Signature)
    (visible : Visible b58) (decoded : library.base58Decode b58 = .ok (multicodecEd25519Pub ++ key.toBytes))
    (valid : library.verifyingKey key = .ok key) :
    readDidSig library (authorValue b58 sig) = .ok (key, sig) := by
  have url := (visible_start.append visible).trim_eq
  have text := (show Visible (Base64.urlSafeNoPad.encode sig.toBytes) from encode_visible _).trim_eq
  have parsed : parseDidKey library ("did:key:z" ++ b58) = .ok key := by
    have method : stripStart "did:key:" ("did:key:z" ++ b58) = some ("z" ++ b58) := by
      rw [show "did:key:z" ++ b58 = "did:key:" ++ ("z" ++ b58) by rw [← String.append_assoc]; rfl,
        stripStart_append]
    have codec : ¬ ((multicodecEd25519Pub ++ key.toBytes).length < 2 ∨
        (multicodecEd25519Pub ++ key.toBytes).take 2 ≠ multicodecEd25519Pub) := by
      simp [multicodecEd25519Pub]
    have rest : (multicodecEd25519Pub ++ key.toBytes).drop 2 = key.toBytes := rfl
    simp only [parseDidKey, method, stripStart_append, decoded, Except.mapError, bind, Except.bind,
      if_neg codec, rest, FixedBytes.tryFrom_toBytes, valid]
  have named : ¬ ("did:key:z" ++ b58 = "" ∨ Base64.urlSafeNoPad.encode sig.toBytes = "") := by
    rintro (none | none)
    · simpa using congrArg String.toList none
    · exact encode_ne_empty sig none
  rw [readDidSig, authorValue, splitOnce_space (visible_start.append visible)]
  simp only [url, text, if_neg named, Base64.decode_encode, FixedBytes.tryFrom_toBytes, parsed]
  rfl

structure TextLine (line : String) : Prop where
  single : '\r' ∉ line.toList ∧ '\n' ∉ line.toList
  filled : line ≠ ""
  flat : ∀ c ∈ line.toList.head?, c ≠ ' ' ∧ c ≠ '\t'

theorem foldl_addPhysicalLine {ls : List String} (plain : ∀ l ∈ ls, TextLine l) (logical : List Chars) :
    (ls.map fun l => l.toList ++ ['\r']).foldl addPhysicalLine logical =
      logical ++ ls.map String.toList := by
  induction ls generalizing logical with
  | nil => simp
  | cons l ls ih =>
    rw [forall_mem_cons] at plain
    have kept : l.toList.rdropWhile (· == '\r') = l.toList := by
      rw [rdropWhile_eq_self_iff]
      intro filled last
      rw [beq_iff_eq] at last
      exact plain.1.single.1 (last ▸ getLast_mem filled)
    have flat : ¬ (l.toList.head? = some ' ' ∨ l.toList.head? = some '\t') := by
      rintro (space | tab)
      · exact (plain.1.flat _ space).1 rfl
      · exact (plain.1.flat _ tab).2 rfl
    rw [map_cons, foldl_cons, ih plain.2]
    simp [addPhysicalLine, kept, flat]

theorem fromUtf8_asBytes (s : String) : fromUtf8 (asBytes s) = some s := by
  have read := decodeFrom_asBytes s []
  rw [append_nil] at read
  have all : ∀ cs : List Char, (cs.map some).mapM id = some cs := by
    intro cs
    induction cs with
    | nil => rfl
    | cons c cs ih => simp [ih]
  rw [fromUtf8, read]
  simp [decodeFrom, all]

theorem crlf_asBytes (ls : List String) : crlf (ls.map asBytes) =
    asBytes (String.ofList ((ls.map fun l => l.toList ++ ['\r']).flatMap (· ++ ['\n']))) := by
  rw [asBytes, String.toList_ofList]
  induction ls with
  | nil => rfl
  | cons l ls ih =>
    rw [map_cons, crlf_cons, ih]
    simp [asBytes, crlfBytes, String.utf8EncodeChar]

def authorLine (value : String) : String := didSigHeader ++ ": " ++ value

theorem framed_asBytes {ls : List String} (plain : ∀ l ∈ ls, TextLine l) (some : ls ≠ []) (body : Bytes) :
    Framed (ls.map asBytes) (crlfBytes ++ body) where
  clean := by
    intro l mem
    obtain ⟨text, known, rfl⟩ := mem_map.mp mem
    exact oneLine_asBytes (plain text known).single.1 (plain text known).single.2
  nonempty := by
    intro l mem none
    obtain ⟨text, known, rfl⟩ := mem_map.mp mem
    exact (plain text known).filled (asBytes_injective none)
  ends := .inr ⟨by simpa using some, body, rfl⟩

variable {value : String}

theorem extractDidSig_author {hs : List String} (body : Bytes)
    (plain : ∀ l ∈ hs ++ [authorLine value], TextLine l)
    (unsigned : ∀ l ∈ hs, ¬ didSigPrefix.toList <+: Chars.toLower l.toList)
    (trimmed : Chars.trim (' ' :: value.toList) = value.toList) :
    extractDidSig (crlf ((hs ++ [authorLine value]).map asBytes) ++ (crlfBytes ++ body)) = some value := by
  have single : ∀ p ∈ (hs ++ [authorLine value]).map fun l => l.toList ++ ['\r'], '\n' ∉ p := by
    intro p mem
    obtain ⟨l, known, rfl⟩ := mem_map.mp mem
    simpa using (plain l known).single.2
  have shape : (authorLine value).toList = "X-Stoa-DID-Sig:".toList ++ ' ' :: value.toList := by
    simp [authorLine, didSigHeader]
  have named : didSigPrefix.toList.isPrefixOf (Chars.toLower (authorLine value).toList) = true := by
    rw [ isPrefixOf_iff_prefix, shape, Chars.toLower, map_append]
    exact ⟨(' ' :: value.toList).map Char.toLower, by simp [didSigPrefix]⟩
  have found : ((hs ++ [authorLine value]).map String.toList ++ [[]]).find?
      (fun logical => didSigPrefix.toList.isPrefixOf (Chars.toLower logical)) =
        some (authorLine value).toList := by
    have before : (hs.map String.toList).find?
        (fun logical => didSigPrefix.toList.isPrefixOf (Chars.toLower logical)) = none := by
      simpa using unsigned
    rw [map_append, append_assoc, List.find?_append, before]
    simp [named]
  have blank : addPhysicalLine ((hs ++ [authorLine value]).map String.toList) [] =
      (hs ++ [authorLine value]).map String.toList ++ [[]] := by
    simp [addPhysicalLine]
  rw [extractDidSig, (framed_asBytes plain (by simp) body).headerSection_eq, crlf_asBytes,
    fromUtf8_asBytes]
  simp only [Option.bind_eq_bind, Option.bind_some, String.toList_ofList]
  rw [splitOn_flatMap single, foldl_append, foldl_addPhysicalLine plain, nil_append,
    foldl_cons, foldl_nil, blank, found, Option.bind_some, shape]
  have behind : ("X-Stoa-DID-Sig:".toList ++ ' ' :: value.toList).drop didSigPrefix.length =
      ' ' :: value.toList := List.drop_left' (by simp [didSigPrefix, ← String.length_toList])
  rw [behind, trimmed, String.ofList_toList]

theorem plain_authorLine (single : '\r' ∉ value.toList ∧ '\n' ∉ value.toList) :
    TextLine (authorLine value) where
  single := by simpa [authorLine, didSigHeader] using single
  filled := by
    intro none
    simpa [authorLine, didSigHeader] using congrArg String.toList none
  flat := by simp [authorLine, didSigHeader]

theorem TextLine.line {l : String} (plain : TextLine l) : OneLine (asBytes l) ∧ ¬ Folded (asBytes l) := by
  refine ⟨oneLine_asBytes plain.single.1 plain.single.2, ?_⟩
  obtain ⟨c, cs, shape⟩ := exists_cons_of_ne_nil (show l.toList ≠ [] by simpa using plain.filled)
  have blank := plain.flat c (by simp [shape])
  -- A blank in front of the bytes is one in front of the text.
  have first : ∀ x : UInt8, x.toNat < 128 → (asBytes l).head? = some x → c.toNat = x.toNat := by
    intro x small head
    apply eq_of_mem_utf8EncodeChar small
    rw [asBytes, shape, flatMap_cons, List.head?_append_of_ne_nil _ (by simp)] at head
    exact mem_of_mem_head? head
  rintro (space | tab)
  · exact blank.1 (Char.toNat_inj.mp (first 0x20 (by decide) space))
  · exact blank.2 (Char.toNat_inj.mp (first 0x09 (by decide) tab))

theorem hasName_authorLine (value : String) : hasName didSigPrefix (asBytes (authorLine value)) = true := by
  rw [authorLine, asBytes_append]
  simp [hasName, didSigPrefix, didSigHeader, eqIgnoreAsciiCase, asBytes, String.utf8EncodeChar]
  decide

theorem crlf_eq_ended (ls : List Bytes) :
    crlf ls = (ls.map (· ++ [0x0d])).flatMap (· ++ [0x0a]) := by
  simp [crlf, crlfBytes, flatMap_map]

theorem lines_crlf {ls : List Bytes} (clean : ∀ l ∈ ls, OneLine l) :
    lines (crlf ls) = ls.map (· ++ [0x0d]) ++ [[]] := by
  have single : ∀ p ∈ ls.map (· ++ [(0x0d : UInt8)]), (0x0a : UInt8) ∉ p := by
    intro p mem
    obtain ⟨l, known, rfl⟩ := mem_map.mp mem
    simpa using (clean l known).2
  rw [crlf_eq_ended, lines, splitOn_flatMap single]

theorem isDidSig_append_cr (l : Bytes) : IsDidSig (l ++ [0x0d]) ↔ hasName didSigPrefix l = true := by
  simp [IsDidSig, stripCr]

theorem not_isDidSig_nil : ¬ IsDidSig [] := by decide

theorem stripDidSigHeader_crlf {ls : List Bytes} (clean : ∀ l ∈ ls, OneLine l)
    (flat : ∀ l ∈ ls, ¬ Folded l) :
    stripDidSigHeader (crlf ls) = crlf (ls.filter fun l => !hasName didSigPrefix l) := by
  have out : ∀ skip, outLines skip (ls.map (· ++ [0x0d]) ++ [[]]) =
      (ls.filter fun l => !hasName didSigPrefix l).map (· ++ [0x0d]) ++ [[]] := by
    clear clean
    induction ls with
    | nil =>
      intro skip
      simp [outLines, Folded, stripCr, not_isDidSig_nil]
    | cons l ls ih =>
      rw [forall_mem_cons] at flat
      intro skip
      have stripped : stripCr (l ++ [0x0d]) = l := by simp [stripCr]
      cases named : hasName didSigPrefix l with
      | true => simp [outLines, stripped, flat.1, isDidSig_append_cr, named, ih flat.2]
      | false => simp [outLines, stripped, flat.1, isDidSig_append_cr, named, ih flat.2]
  rw [stripDidSigHeader, lines_crlf clean, out, joinLines_append _ (by simp), crlf_eq_ended]
  simp [joinLines]

theorem oneField_crlf {hs bs : List Bytes} (framed : Framed hs (crlfBytes ++ crlf bs))
    (clean : ∀ l ∈ bs, OneLine l) : OneField (crlf hs ++ (crlfBytes ++ crlf bs)) ↔
      hs.countP (hasName didSigPrefix) ≤ 1 ∧ ∀ l ∈ bs, hasName didSigPrefix l = false := by
  have blank : crlfBytes ++ crlf bs = crlf ([] :: bs) := by simp
  have empty : hasName didSigPrefix [] = false := by decide
  rw [OneField, framed.headerSection_eq, framed.afterHeaders_eq, lines_crlf framed.clean, blank,
    lines_crlf (forall_mem_cons.mpr ⟨by decide, clean⟩)]
  simp only [forall_mem_append, forall_mem_map, forall_mem_cons, isDidSig_append_cr]
  simp [not_isDidSig_nil, isDidSig_append_cr, countP_map, Function.comp_def, empty]

theorem didSigValid_eq {key : VerifyingKey} {sig : Signature}
    (extracted : extractDidSig articleBytes = some value)
    (read : readDidSig library value = .ok (key, sig)) : didSigValid library articleBytes =
      some (library.verifyStrict key (stripDidSigHeader articleBytes) sig) := by
  simp [didSigValid, extracted, verifyDidSig, read, bind, Except.bind]

namespace Sample

def authorKey : VerifyingKey :=
  .ofNumber 32 0x03a107bff3ce10be1d70dd18e74bc09967e4d6309ba50d5f1ddc8664125531b8

def authorKey58 : String := "6MkehRgf7yJbgaGfYsdoAsKdBPE3dj2CYhowQdcjqSJgvVd"

def authorSignature : Signature := .ofNumber 64 0x3fe84e6ba641ea96c55e9f648e9597652a400e0878e4f7c57ef8933c96dab59bb70f3e5c6880f44a9db68c16f18977c99fb0249a34e752488ca40e8d9d3dab04

def fields : List String := ["From: alice@example.com", "Subject: DID test"]

def signedText : Bytes := crlf (fields.map asBytes) ++ (crlfBytes ++ crlf [asBytes "Body text."])

def didLibrary : DidLibrary where
  base58Decode text :=
    if text = authorKey58 then .ok (multicodecEd25519Pub ++ authorKey.toBytes)
    else .error "provided string contained invalid character"
  verifyingKey := .ok
  base64Error _ := "Invalid padding"
  verifyStrict key message sig :=
    decide (key = authorKey ∧ message = signedText ∧ sig = authorSignature)

theorem didLibrary_unique (key : VerifyingKey) (sig : Signature) (message message' : Bytes)
    (accepted : didLibrary.verifyStrict key message sig = true)
    (accepted' : didLibrary.verifyStrict key message' sig = true) : message = message' := by
  simp only [didLibrary, decide_eq_true_eq] at accepted accepted'
  rw [accepted.2.1, accepted'.2.1]

def posted (body : List String) : Bytes :=
  crlf ((fields ++ [authorLine (authorValue authorKey58 authorSignature)]).map asBytes) ++
    (crlfBytes ++ crlf (body.map asBytes))

def foreignLine : String := authorLine "send the money to mallory"

theorem visible_key : Visible authorKey58 := by simp [Visible, authorKey58, isWhitespace]

theorem read_value : readDidSig didLibrary (authorValue authorKey58 authorSignature) =
    .ok (authorKey, authorSignature) :=
  readDidSig_authorValue authorSignature visible_key (by simp [didLibrary]) rfl

theorem plain_fields : ∀ l ∈ fields ++ [authorLine (authorValue authorKey58 authorSignature)], TextLine l := by
  intro l mem
  rw [fields, mem_append, mem_singleton] at mem
  rcases mem with field | rfl
  · simp only [mem_cons, not_mem_nil, or_false] at field
    rcases field with rfl | rfl
    · exact ⟨by simp, by simp, by simp⟩
    · exact ⟨by simp, by simp, by simp⟩
  · exact plain_authorLine (authorValue_single visible_key _)

theorem extract_posted (body : List String) :
    extractDidSig (posted body) = some (authorValue authorKey58 authorSignature) := by
  apply extractDidSig_author _ plain_fields
  · simp [fields, didSigPrefix, Chars.toLower]
  · exact authorValue_trimmed _

variable {body : List String}

theorem strip_posted (plain : ∀ l ∈ body, TextLine l) :
    stripDidSigHeader (posted body) = crlf (fields.map asBytes) ++
      (crlfBytes ++ crlf ((body.map asBytes).filter fun l => !hasName didSigPrefix l)) := by
  have line : ∀ l ∈ ((fields ++ [authorLine (authorValue authorKey58 authorSignature)]).map asBytes) ++
      [] :: body.map asBytes, OneLine l ∧ ¬ Folded l := by
    rw [forall_mem_append, forall_mem_cons, forall_mem_map, forall_mem_map]
    exact ⟨fun l mem => (plain_fields l mem).line, by decide, fun l mem => (plain l mem).line⟩
  have whole : posted body = crlf ((fields ++ [authorLine (authorValue authorKey58 authorSignature)]).map
      asBytes ++ [] :: body.map asBytes) := by simp [posted]
  have others : (fields.map asBytes).filter (fun l => !hasName didSigPrefix l) = fields.map asBytes := by
    decide
  have blank : hasName didSigPrefix [] = false := by decide
  rw [whole, stripDidSigHeader_crlf (fun l mem => (line l mem).1) fun l mem => (line l mem).2,
    filter_append, map_append, filter_append, others]
  simp [hasName_authorLine, blank]

theorem verified_posted (signed : stripDidSigHeader (posted body) = signedText) :
    didSigValid didLibrary (posted body) = some true := by
  rw [didSigValid_eq (extract_posted body) read_value, signed]
  simp [didLibrary]

theorem oneField_posted (plain : ∀ l ∈ body, TextLine l) :
    OneField (posted body) ↔ ∀ l ∈ body, hasName didSigPrefix (asBytes l) = false := by
  have others : (fields.map asBytes).countP (hasName didSigPrefix) = 0 := by decide
  rw [posted, oneField_crlf (framed_asBytes plain_fields (by simp) _)
    (forall_mem_map.mpr fun l mem => (plain l mem).line.1), forall_mem_map, map_append,
    countP_append, others]
  simp [hasName_authorLine]

def original : Bytes := posted ["Body text."]

def forged : Bytes := posted ["Body text.", authorLine "send the money to mallory"]

theorem plain_body : TextLine "Body text." := ⟨by simp, by simp, by simp⟩

theorem plain_foreign : TextLine (authorLine "send the money to mallory") := plain_authorLine (by simp)

theorem unnamed_body : hasName didSigPrefix (asBytes "Body text.") = false := by decide

theorem strip_original : stripDidSigHeader original = signedText := by
  rw [original, strip_posted (by simp [plain_body]), signedText]
  simp [unnamed_body]

theorem strip_forged : stripDidSigHeader forged = signedText := by
  rw [forged, strip_posted (by simp [plain_body, plain_foreign]), signedText]
  simp [unnamed_body, hasName_authorLine]

theorem oneField_original : OneField original :=
  (oneField_posted (by simp [plain_body])).mpr (by simp [unnamed_body])

theorem not_oneField_forged : ¬ OneField forged := by
  rw [forged, oneField_posted (by simp [plain_body, plain_foreign])]
  simp [hasName_authorLine]

/-- A copy with a longer body verifies as the author's article. -/
theorem forged_verified : (∀ key sig message message', didLibrary.verifyStrict key message sig = true →
      didLibrary.verifyStrict key message' sig = true → message = message') ∧
    didSigValid didLibrary original = some true ∧ didSigValid didLibrary forged = some true ∧
    extractDidSig forged = extractDidSig original ∧ withoutField forged ≠ withoutField original := by
  refine ⟨didLibrary_unique, verified_posted strip_original, verified_posted strip_forged, ?_, ?_⟩
  · rw [forged, original, extract_posted, extract_posted]
  · intro same
    apply not_oneField_forged
    rw [← stripDidSigHeader_eq_iff, same, strip_forged, ← strip_original]
    exact (stripDidSigHeader_eq_iff original).mpr oneField_original

/-- The author's article agrees with itself, the forged one does not. -/
theorem forged_agrees_iff : (withoutField original = withoutField original ↔ OneField original) ∧
    (withoutField forged = withoutField original ↔ OneField forged) :=
  ⟨agrees_iff didLibrary_unique (verified_posted strip_original) (verified_posted strip_original) rfl
      oneField_original,
    agrees_iff didLibrary_unique (verified_posted strip_original) (verified_posted strip_forged)
      (by rw [forged, original, extract_posted, extract_posted]) oneField_original⟩

end Sample

end Stoa.Post
