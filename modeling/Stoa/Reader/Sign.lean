import Mathlib.Data.List.DropRight
import Stoa.Core.Ipld
import Stoa.Lib.Base64
import Stoa.Reader.Injection

/-! An article is signed as it stands, and the signature goes into a header of its own behind the
others. -/
namespace Stoa.Post

open Text List Base64

inductive IoError
  | invalidData (message : String)
  deriving DecidableEq, Repr

def dotUnstuff (line : Bytes) : Bytes :=
  if [0x2e, 0x2e].isPrefixOf line then line.drop 1 else line

def isEol (b : UInt8) : Bool := b == 0x0d || b == 0x0a

/-- `trim_end_matches(['\r', '\n'])`. -/
def trimEol (line : Bytes) : Bytes := line.rdropWhile isEol

def finishReading (article : Bytes) (tooLarge : Bool) : Except IoError Bytes :=
  if tooLarge then .error (.invalidData "article too large") else .ok article

/-- Read lines up to the terminator. An article that gets too large is read to its end but
not kept. The lines not read are left for the next command. -/
def readLines (maxBytes : Nat) (article : Bytes) (tooLarge : Bool) :
    List Bytes → Except IoError Bytes × List Bytes
  -- The end of the stream ends the article as well.
  | [] => (finishReading article tooLarge, [])
  | line :: rest =>
    if !isUtf8 line then (.error (.invalidData "stream did not contain valid UTF-8"), rest)
    else
      let bare := trimEol line
      if bare = [0x2e] then (finishReading article tooLarge, rest)
      else if tooLarge then readLines maxBytes article true rest
      else
        let content := dotUnstuff bare
        if article.length + content.length + 2 > maxBytes then readLines maxBytes article true rest
        else readLines maxBytes (article ++ content ++ crlfBytes) false rest

def readDotTerminated (maxBytes : Nat) (stream : Bytes) : Except IoError Bytes × Bytes :=
  let (result, rest) := readLines maxBytes [] false (splitInclusive 0x0a stream)
  (result, rest.flatten)

def maxHeaderLineBytes : Nat := 998

/-- Seconds either side of now within which a date is accepted. -/
def dateWindowSecs : Nat := 86400

def checkLineLengths (headerBytes : Bytes) : Except Response Unit :=
  (headerBytes.splitOn 0x0a).forM fun line =>
    let name := if 0x3a ∈ line then fromUtf8Lossy (line.takeWhile (· != 0x3a)) else "(unknown)"
    refuseIf (line.length > maxHeaderLineBytes) (Response.new 441 ("Header field too long: " ++ name))

def parseHeaderMap (mail : Mailparse) (headerBytes : Bytes) :
    Except Response (List (String × String)) :=
  match mail.parseHeaders headerBytes with
  | none => .error (Response.new 441 "Could not parse article headers")
  | some parsed => .ok (parsed.map fun header => (lowercase header.1, header.2))

def missing (name : String) : Response := Response.new 441 ("Missing required header: " ++ name)

def mandatoryHeaders : List String := ["From", "Date", "Message-ID", "Newsgroups", "Subject"]

def checkMandatoryHeaders (headers : List (String × String)) : Except Response Unit :=
  mandatoryHeaders.forM fun name => refuseIf (valuesOf headers (lowercase name) = []) (missing name)

/-- Names between commas, without white space around them. -/
def commaSeparated (value : String) : List String :=
  ((value.toList.splitOn ',').map fun cs => trim (String.ofList cs)).filter (· != "")

def checkNewsgroups (headers : List (String × String)) : Except Response Unit := do
  refuseIf (valuesOf headers "newsgroups" = []) (missing "Newsgroups")
  (valuesOf headers "newsgroups").forM fun value => (commaSeparated value).forM fun name =>
    refuseIf (name.toList.any Char.isUpper ∨ isValidGroupName name = false)
      (Response.new 441 ("Invalid group name in Newsgroups: " ++ name))

def checkDate (mail : Mailparse) (nowSecs : Int) (headers : List (String × String)) :
    Except Response Unit :=
  match (valuesOf headers "date").head? with
  | none => .error (missing "Date")
  | some value =>
    match mail.dateparse value with
    | none => .error (Response.new 441 "Invalid Date header format")
    | some ts => refuseIf ((ts - nowSecs).natAbs > dateWindowSecs)
        (Response.new 441 "Date header out of acceptable range")

def isAsciiWhitespace (c : Char) : Bool :=
  c == ' ' || c == '\t' || c == '\n' || c == '\x0c' || c == '\r'

/-- `<local@domain>`, without white space or further angle brackets. -/
def isValidMessageId (id : String) : Bool :=
  let cs := (trim id).toList
  let inner := (cs.drop 1).dropLast
  let domain := (inner.dropWhile (· != '@')).drop 1
  cs.head? == some '<' && cs.getLast? == some '>' &&
    !(inner.contains '<' || inner.contains '>') &&
    !(inner.any fun c => isAsciiWhitespace c || c == '\x00') &&
    inner.count '@' == 1 && !(inner.takeWhile (· != '@')).isEmpty && !domain.isEmpty

def checkMessageId (headers : List (String × String)) : Except Response Unit :=
  match (valuesOf headers "message-id").head? with
  | none => .error (missing "Message-ID")
  | some value => refuseIf (isValidMessageId value = false)
      (Response.new 441 "Invalid Message-ID format")

def validatePostHeaders (mail : Mailparse) (nowSecs : Int) (headerBytes : Bytes) :
    Except Response Unit := do
  checkLineLengths headerBytes
  let headers ← parseHeaderMap mail headerBytes
  checkMandatoryHeaders headers
  checkNewsgroups headers
  checkDate mail nowSecs headers
  checkMessageId headers

def completePost (mail : Mailparse) (nowSecs : Int) (articleBytes : Bytes) (maxArticleBytes : Nat) :
    Except Response Unit := do
  refuseIf (articleBytes.length > maxArticleBytes) (Response.new 441 "Article too large")
  validatePostHeaders mail nowSecs (splitHeaderBody articleBytes).1

def firstValue (parsed : List (String × String)) (name : String) : Option String :=
  (parsed.find? fun header => lowercase header.1 == name).map Prod.snd

def parseGroups (names : List String) : Except Response (List GroupName) :=
  names.mapM fun s => (GroupName.new s).mapError fun _ =>
    Response.new 441 ("Invalid group name: " ++ s)

def extractPostMetadata (mail : Mailparse) (articleBytes : Bytes) :
    Except Response (String × List GroupName) :=
  let section' := articleBytes.take ((findHeaderBoundary articleBytes).getD articleBytes.length)
  match mail.parseHeaders section' with
  | none => .error (Response.new 441 "Could not parse article headers")
  | some parsed =>
    match firstValue parsed "message-id", firstValue parsed "newsgroups" with
    | none, _ => .error (Response.new 441 "Missing Message-ID header")
    | some _, none => .error (Response.new 441 "Missing Newsgroups header")
    | some messageId, some value => do
      let newsgroups ← parseGroups (commaSeparated value)
      if newsgroups = [] then .error (Response.new 441 "Newsgroups header is empty")
      else .ok (messageId, newsgroups)

theorem lf_notMem_dropLast {l piece : Bytes} (mem : piece ∈ splitInclusive 0x0a l) :
    0x0a ∉ piece.dropLast := by
  induction l generalizing piece with
  | nil => simp [splitInclusive] at mem
  | cons a rest ih =>
    rw [splitInclusive] at mem
    split at mem
    · rcases mem_cons.mp mem with rfl | later
      · simp
      · exact ih later
    · next other =>
      cases pieces : splitInclusive 0x0a rest with
      | nil =>
        rw [pieces] at mem
        simp only [mem_singleton] at mem
        simp [mem]
      | cons first more =>
        rw [pieces] at mem ih
        rcases mem_cons.mp mem with rfl | later
        · cases first with
          | nil => simp
          | cons b first =>
            have tail := ih mem_cons_self
            simp only [dropLast_cons_cons, mem_cons, not_or]
            exact ⟨Ne.symm other, tail⟩
        · exact ih (mem_cons_of_mem _ later)

structure ReceivedLine (l : Bytes) : Prop where
  text : isUtf8 l = true
  noLf : 0x0a ∉ l
  noCrEnd : l.getLast? ≠ some 0x0d

theorem isUtf8_trimEol {line : Bytes} (text : isUtf8 line = true) : isUtf8 (trimEol line) = true := by
  induction line using List.reverseRecOn with
  | nil => rfl
  | append_singleton line b ih =>
    unfold trimEol
    by_cases eol : isEol b = true
    · rw [rdropWhile_concat_pos _ _ _ eol]
      have ascii : b < 0x80 := by
        simp only [isEol, Bool.or_eq_true, beq_iff_eq] at eol
        rcases eol with rfl | rfl <;> decide
      exact ih (isUtf8_of_append_ascii ascii text).1
    · rw [rdropWhile_concat_neg _ _ _ eol]
      exact text

theorem isUtf8_dotUnstuff {line : Bytes} (text : isUtf8 line = true) : isUtf8 (dotUnstuff line) = true := by
  unfold dotUnstuff
  split
  · next dots =>
    obtain ⟨rest, rfl⟩ := isPrefixOf_iff_prefix.mp dots
    exact text
  · exact text

theorem trimEol_ends {line : Bytes} (piece : 0x0a ∉ line.dropLast) :
    0x0a ∉ trimEol line ∧ (trimEol line).getLast? ≠ some 0x0d := by
  induction line using List.reverseRecOn with
  | nil => exact ⟨nofun, nofun⟩
  | append_singleton line b ih =>
    rw [dropLast_concat] at piece
    unfold trimEol
    by_cases eol : isEol b = true
    · rw [rdropWhile_concat_pos _ _ _ eol]
      exact ih fun mem => piece (mem_of_mem_dropLast mem)
    · rw [rdropWhile_concat_neg _ _ _ eol]
      simp only [isEol, Bool.or_eq_true, beq_iff_eq, not_or] at eol
      simp only [mem_append, mem_singleton, not_or, List.getLast?_concat, ne_eq,
        Option.some.injEq]
      exact ⟨⟨piece, Ne.symm eol.2⟩, eol.1⟩

theorem trimEol_append_crlf {l : Bytes} (noCrEnd : l.getLast? ≠ some 0x0d) (noLf : 0x0a ∉ l) :
    trimEol (l ++ crlfBytes) = l := by
  have ends : l ++ crlfBytes = (l ++ [0x0d]) ++ [0x0a] := by simp [crlfBytes]
  rw [trimEol, ends, rdropWhile_concat_pos _ _ _ (by decide),
    rdropWhile_concat_pos _ _ _ (by decide), rdropWhile_eq_self_iff]
  intro present
  simp only [isEol, Bool.or_eq_true, beq_iff_eq, not_or]
  refine ⟨fun last => noCrEnd ?_, fun last => noLf (last ▸ getLast_mem present)⟩
  rw [List.getLast?_eq_some_getLast present, last]

theorem receivedLine_content {line : Bytes} (text : isUtf8 line = true)
    (piece : 0x0a ∉ line.dropLast) : ReceivedLine (dotUnstuff (trimEol line)) := by
  obtain ⟨noLf, noCrEnd⟩ := trimEol_ends piece
  refine ⟨isUtf8_dotUnstuff (isUtf8_trimEol text), ?_, ?_⟩
  · unfold dotUnstuff
    split
    · exact fun mem => noLf (mem_of_mem_drop mem)
    · exact noLf
  · unfold dotUnstuff
    split
    · next dots =>
      obtain ⟨rest, shape⟩ := isPrefixOf_iff_prefix.mp dots
      rw [← shape] at noCrEnd ⊢
      simpa using noCrEnd
    · exact noCrEnd

theorem readLines_ok {maxBytes : Nat} {start article : Bytes} {tooLarge : Bool}
    {lines rest : List Bytes} (pieces : ∀ line ∈ lines, 0x0a ∉ line.dropLast)
    (read : readLines maxBytes start tooLarge lines = (.ok article, rest)) :
    ∃ ls, article = start ++ crlf ls ∧ ∀ l ∈ ls, ReceivedLine l := by
  have finished : ∀ {rest' : List Bytes} {start : Bytes} {tooLarge : Bool},
      (finishReading start tooLarge, rest') = (Except.ok article, rest) → article = start := by
    intro rest' start tooLarge ends
    unfold finishReading at ends
    split at ends
    · cases ends
    · cases ends
      rfl
  induction lines generalizing start tooLarge with
  | nil => exact ⟨[], by simp [finished read], nofun⟩
  | cons line lines ih =>
    rw [forall_mem_cons] at pieces
    rw [readLines] at read
    dsimp only at read
    split at read
    · cases read
    · next text =>
      split at read
      · exact ⟨[], by simp [finished read], nofun⟩
      · split at read
        · exact ih pieces.2 read
        · split at read
          · exact ih pieces.2 read
          · -- The line is kept; the rest follows it.
            obtain ⟨ls, shape, received⟩ := ih pieces.2 read
            refine ⟨dotUnstuff (trimEol line) :: ls, by simp [shape], ?_⟩
            rw [forall_mem_cons]
            exact ⟨receivedLine_content (by simpa using text) pieces.1, received⟩

theorem readDotTerminated_ok {maxBytes : Nat} {stream article rest : Bytes}
    (read : readDotTerminated maxBytes stream = (.ok article, rest)) :
    ∃ ls, article = crlf ls ∧ ∀ l ∈ ls, ReceivedLine l := by
  unfold readDotTerminated at read
  rcases loop : readLines maxBytes [] false (splitInclusive 0x0a stream) with ⟨result, left⟩
  rw [loop] at read
  cases read
  simpa using readLines_ok (fun line mem => lf_notMem_dropLast mem) loop

theorem checkMandatoryHeaders_nil : checkMandatoryHeaders [] ≠ .ok () := by
  unfold checkMandatoryHeaders
  rw [ne_eq, forM_eq_ok]
  intro all
  have first := all "From" (by simp [mandatoryHeaders])
  simp [valuesOf] at first

theorem completePost_of_noHeaders {mail : Mailparse} {nowSecs : Int} {articleBytes : Bytes}
    {maxArticleBytes : Nat} (none : (splitHeaderBody articleBytes).1 = [] ∨
      (splitHeaderBody articleBytes).1.head? = some 0x0d) :
    completePost mail nowSecs articleBytes maxArticleBytes ≠ .ok () := by
  intro accepted
  simp only [completePost, validatePostHeaders, andThen_eq_ok] at accepted
  obtain ⟨-, -, accepted⟩ := accepted
  unfold parseHeaderMap at accepted
  cases parsed : mail.parseHeaders (splitHeaderBody articleBytes).1 with
  | none =>
    rw [parsed] at accepted
    cases accepted
  | some headers =>
    have empty := mail.noHeaders _ headers none parsed
    subst empty
    rw [parsed] at accepted
    have checks : (checkMandatoryHeaders [] >>= fun _ => checkNewsgroups [] >>= fun _ =>
        checkDate mail nowSecs [] >>= fun _ => checkMessageId []) = .ok () := accepted
    exact checkMandatoryHeaders_nil (andThen_eq_ok.mp checks).1

theorem completePost_of_blank {mail : Mailparse} {nowSecs : Int} {articleBytes : Bytes}
    {maxArticleBytes : Nat} (blank : articleBytes = [] ∨ crlfBytes <+: articleBytes) :
    completePost mail nowSecs articleBytes maxArticleBytes ≠ .ok () := by
  refine completePost_of_noHeaders ?_
  rcases blank with rfl | ⟨rest, rfl⟩
  · exact .inl rfl
  · unfold splitHeaderBody
    split
    · next bodyStart found =>
      cases bodyStart - sepLen (crlfBytes ++ rest) bodyStart with
      | zero => exact .inl rfl
      | succ n => exact .inr rfl
    · exact .inr rfl

def operatorSigHeader : String := "X-Stoa-Sig"

def sigHeader (sig : Signature) : String :=
  operatorSigHeader ++ ": " ++ Base64.urlSafeNoPad.encode sig.toBytes

/-- The article with its signature, and the signature itself. Without an empty line there
is no place for the header, and the article stays as it is. -/
def signArticle (ed : Ed25519) (key : SigningKey) (articleBytes : Bytes) : Bytes × Bytes :=
  let sig := ed.sign key articleBytes
  let out := match findHeaderBoundary articleBytes with
    | some bodyStart =>
      let insertAt := bodyStart - sepLen articleBytes bodyStart / 2
      articleBytes.take insertAt ++ headerLine (sigHeader sig) ++ articleBytes.drop insertAt
    | none => articleBytes
  (out, sig.toBytes)

/-- Why a signature is refused; the details that the libraries add are left out. -/
inductive SigError
  | noSeparator
  | notUtf8
  | notFound
  | notBase64
  | invalidSignature
  | verificationFailed
  deriving DecidableEq, Repr

def sigPrefix : Bytes := asBytes (operatorSigHeader ++ ":")

/-- The line is a signature header, in exactly this spelling. -/
def isSigLine (line : Bytes) : Bool := sigPrefix.isPrefixOf (trimEol line)

def sigValue (line : Bytes) : String := trim (fromUtf8Lossy ((trimEol line).drop sigPrefix.length))

def extractSigHeader (articleBytes : Bytes) : Except SigError (Bytes × Bytes) :=
  match findHeaderBoundary articleBytes with
  | none => .error .noSeparator
  | some bodyStart =>
    let section' := articleBytes.take bodyStart
    if !isUtf8 section' then .error .notUtf8
    else
      let lines := splitInclusive 0x0a section'
      match lines.find? isSigLine with
      | none => .error .notFound
      | some line =>
        match Base64.urlSafeNoPad.decode (sigValue line) with
        | none => .error .notBase64
        | some sigBytes =>
          let start := (lines.takeWhile fun l => !isSigLine l).flatten.length
          .ok (sigBytes, articleBytes.take start ++ articleBytes.drop (start + line.length))

def verifyArticleSig (ed : Ed25519) (pubkey : VerifyingKey) (articleBytes : Bytes) :
    Except SigError Unit :=
  match extractSigHeader articleBytes with
  | .error e => .error e
  | .ok (sigBytes, articleWithoutSig) =>
    match FixedBytes.tryFrom 64 sigBytes with
    | none => .error .invalidSignature
    | some sig =>
      match ed.verify pubkey articleWithoutSig sig with
      | .error _ => .error .verificationFailed
      | .ok _ => .ok ()

theorem signArticle_framed {hs : List Bytes} {tail : Bytes} (ed : Ed25519) (key : SigningKey)
    (framed : Framed hs tail) : (signArticle ed key (crlf hs ++ tail)).1 =
      if tail = [] then crlf hs
      else crlf (hs ++ [asBytes (sigHeader (ed.sign key (crlf hs ++ tail)))]) ++ tail := by
  have position := framed.findHeaderEnd_eq
  unfold findHeaderEnd at position
  unfold signArticle
  rw [framed.findHeaderBoundary_eq] at position ⊢
  rcases framed.ends with rfl | ⟨present, body, rfl⟩
  · simp
  · rw [if_neg (by simp [crlfBytes])] at position ⊢
    simp only at position
    simp only [position, take_left, drop_left]
    simp [headerLine, crlfBytes]

theorem trimEol_crlf {l : Bytes} (clean : OneLine l) : trimEol (l ++ crlfBytes) = l :=
  trimEol_append_crlf (fun last => clean.1 (mem_of_getLast? last)) clean.2

theorem isSigLine_crlf {l : Bytes} (clean : OneLine l) :
    isSigLine (l ++ crlfBytes) = sigPrefix.isPrefixOf l := by
  rw [isSigLine, trimEol_crlf clean]

theorem splitInclusive_section {hs : List Bytes} (clean : ∀ l ∈ hs, OneLine l) :
    splitInclusive 0x0a (crlf hs ++ crlfBytes) = hs.map (· ++ crlfBytes) ++ [crlfBytes] :=
  splitInclusive_crlf (fun l mem => (clean l mem).2) crlfBytes

theorem take_boundary (hs : List Bytes) (body : Bytes) :
    (crlf hs ++ (crlfBytes ++ body)).take ((crlf hs).length + 2) = crlf hs ++ crlfBytes := by
  rw [take_append, take_of_length_le (by omega)]
  simp [crlfBytes]

section Extract

variable {hs : List Bytes} {body : Bytes}

theorem extractSigHeader_none (framed : Framed hs (crlfBytes ++ body))
    (text : isUtf8 (crlf hs ++ crlfBytes) = true) (unsigned : ∀ l ∈ hs, ¬ sigPrefix <+: l) :
    extractSigHeader (crlf hs ++ (crlfBytes ++ body)) = .error .notFound := by
  have absent : (hs.map (· ++ crlfBytes) ++ [crlfBytes]).find? isSigLine = none := by
    rw [List.find?_eq_none]
    simp only [mem_append, mem_map, mem_singleton]
    rintro line (⟨l, mem, rfl⟩ | rfl)
    · rw [isSigLine_crlf (framed.clean l mem), isPrefixOf_iff_prefix]
      exact unsigned l mem
    · decide
  rw [extractSigHeader, framed.findHeaderBoundary_eq, if_neg (by simp [crlfBytes])]
  simp [take_boundary, text, splitInclusive_section framed.clean, absent]

theorem extractSigHeader_first {before after : List Bytes} {l : Bytes}
    (framed : Framed (before ++ l :: after) (crlfBytes ++ body))
    (text : isUtf8 (crlf (before ++ l :: after) ++ crlfBytes) = true)
    (unsigned : ∀ m ∈ before, ¬ sigPrefix <+: m) (signed : sigPrefix <+: l) :
    extractSigHeader (crlf (before ++ l :: after) ++ (crlfBytes ++ body)) =
      match urlSafeNoPad.decode (trim (fromUtf8Lossy (l.drop sigPrefix.length))) with
      | none => .error .notBase64
      | some sigBytes => .ok (sigBytes, crlf (before ++ after) ++ (crlfBytes ++ body)) := by
  have clean : OneLine l := framed.clean l (by simp)
  have first : isSigLine (l ++ crlfBytes) = true := by
    rw [isSigLine_crlf clean, isPrefixOf_iff_prefix]
    exact signed
  have others : ∀ m ∈ before.map (· ++ crlfBytes), isSigLine m = false := by
    simp only [mem_map]
    rintro line ⟨m, mem, rfl⟩
    rw [isSigLine_crlf (framed.clean m (by simp [mem])), ← Bool.not_eq_true,
      isPrefixOf_iff_prefix]
    exact unsigned m mem
  have lines : (before ++ l :: after).map (· ++ crlfBytes) ++ [crlfBytes] =
      before.map (· ++ crlfBytes) ++ (l ++ crlfBytes) :: (after.map (· ++ crlfBytes) ++ [crlfBytes]) := by
    simp
  have found : ((before ++ l :: after).map (· ++ crlfBytes) ++ [crlfBytes]).find? isSigLine =
      some (l ++ crlfBytes) := by
    rw [lines, List.find?_append, List.find?_eq_none.mpr (by simpa using others)]
    simp [first]
  have start : (((before ++ l :: after).map (· ++ crlfBytes) ++ [crlfBytes]).takeWhile
      fun l => !isSigLine l).flatten = crlf before := by
    rw [lines, takeWhile_append_of_pos (by simpa using others),
      takeWhile_cons_of_neg (by simp [first])]
    simp [crlf, List.flatMap]
  rw [extractSigHeader, framed.findHeaderBoundary_eq, if_neg (by simp [crlfBytes])]
  simp only [take_boundary, text, Bool.not_true, Bool.false_eq_true, if_false,
    splitInclusive_section framed.clean, found, start, sigValue, trimEol_crlf clean]
  cases urlSafeNoPad.decode (trim (fromUtf8Lossy (l.drop sigPrefix.length))) with
  | none => rfl
  | some sigBytes =>
    -- What is cut out is the line with its line end.
    have cut : crlf (before ++ l :: after) ++ (crlfBytes ++ body) =
        crlf before ++ ((l ++ crlfBytes) ++ (crlf after ++ (crlfBytes ++ body))) := by
      simp
    simp only [Except.ok.injEq, Prod.mk.injEq, true_and]
    rw [cut, take_left, ← drop_drop, drop_left, drop_left]
    simp

end Extract

theorem trim_of_visible {cs : List Char} (visible : ∀ c ∈ cs, isWhitespace c = false) :
    trim (String.ofList (' ' :: cs)) = String.ofList cs := by
  have keep : ∀ l : List Char, (∀ c ∈ l, isWhitespace c = false) → l.dropWhile isWhitespace = l := by
    intro l visible
    cases l with
    | nil => rfl
    | cons c l => exact dropWhile_cons_of_neg (by simp [visible c mem_cons_self])
  rw [trim, String.toList_ofList, dropWhile_cons_of_pos (by decide), keep cs visible,
    keep cs.reverse fun c mem => visible c (mem_reverse.mp mem), reverse_reverse]

theorem encode_visible (b : Bytes) :
    ∀ c ∈ (urlSafeNoPad.encode b).toList, isWhitespace c = false := by
  have visible : ∀ c ∈ urlSafeNoPad.symbols, isWhitespace c = false := by
    have all : urlSafeNoPad.symbols.all (fun c => !isWhitespace c) = true := by decide
    simpa using all
  have unpadded : ∀ n, urlSafeNoPad.padding n = [] := fun _ => rfl
  intro c mem
  rw [encode, String.toList_ofList, unpadded, append_nil] at mem
  obtain ⟨n, known, rfl⟩ := mem_map.mp mem
  exact visible _ (urlSafeNoPad.symbol_mem (sextets_lt b n known))

theorem oneLine_sigHeader (sig : Signature) : OneLine (asBytes (sigHeader sig)) := by
  have noSpace : ∀ c, isWhitespace c = true → c ∉ (urlSafeNoPad.encode sig.toBytes).toList :=
    fun c space mem => by simp [encode_visible _ c mem] at space
  rw [sigHeader, asBytes_append, oneLine_append]
  exact ⟨by decide, oneLine_asBytes (noSpace _ (by decide)) (noSpace _ (by decide))⟩

theorem sigHeader_starts (sig : Signature) : sigPrefix <+: asBytes (sigHeader sig) := by
  refine ⟨asBytes (" " ++ urlSafeNoPad.encode sig.toBytes), ?_⟩
  simp [sigPrefix, sigHeader, asBytes]

theorem decode_sigHeader (sig : Signature) : urlSafeNoPad.decode
      (trim (fromUtf8Lossy ((asBytes (sigHeader sig)).drop sigPrefix.length))) = some sig.toBytes := by
  have shape : asBytes (sigHeader sig) =
      sigPrefix ++ asBytes (" " ++ urlSafeNoPad.encode sig.toBytes) := by
    simp [sigPrefix, sigHeader, asBytes]
  have blank : " " ++ urlSafeNoPad.encode sig.toBytes =
      String.ofList (' ' :: (urlSafeNoPad.encode sig.toBytes).toList) := by
    apply String.toList_injective
    simp
  rw [shape, drop_left, fromUtf8Lossy_asBytes, blank, trim_of_visible (encode_visible _),
    String.ofList_toList, decode_encode]

end Stoa.Post
