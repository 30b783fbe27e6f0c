import Stoa.Core.Util
import Stoa.Reader.LogAppend

/-! Where the headers of an article end, and the rewrites that a post goes through before it is
checked: the headers only the server may write are taken out, and the ones it owes are put in. -/
namespace Stoa.Post

open Text List Function

def blankLine : Bytes := [0x0d, 0x0a, 0x0d, 0x0a]

/-- The position of the first byte of the body: after the first empty line in CR LF form
or, if there is none, after the first one in LF form. -/
def findHeaderBoundary (bytes : Bytes) : Option Nat :=
  match findInfix blankLine bytes with
  | some i => some (i + 4)
  | none => (findInfix [0x0a, 0x0a] bytes).map (· + 2)

/-- The length of the separator that ends at `bodyStart`. -/
def sepLen (bytes : Bytes) (bodyStart : Nat) : Nat :=
  if bodyStart ≥ 4 ∧ (bytes.take bodyStart).drop (bodyStart - 4) = blankLine then 4 else 2

def splitHeaderBody (bytes : Bytes) : Bytes × Bytes :=
  match findHeaderBoundary bytes with
  | some bodyStart => (bytes.take (bodyStart - sepLen bytes bodyStart), bytes.drop bodyStart)
  | none => (bytes, [])

def findHeaderEnd (articleBytes : Bytes) : Nat :=
  match findHeaderBoundary articleBytes with
  | some bodyStart => bodyStart - sepLen articleBytes bodyStart / 2
  | none => articleBytes.length

/-- The header lines with their line ends. The section ends behind a line end or with the
article, so no line end reaches past it. -/
def headerSection (articleBytes : Bytes) : Bytes := articleBytes.take (findHeaderEnd articleBytes)

def afterHeaders (articleBytes : Bytes) : Bytes := articleBytes.drop (findHeaderEnd articleBytes)

def hasName (name : String) (line : Bytes) : Bool :=
  decide (line.length ≥ (asBytes name).length) &&
    eqIgnoreAsciiCase (line.take (asBytes name).length) (asBytes name)

def stripAllOccurrences (articleBytes : Bytes) (name : String) : Bytes :=
  ((rawLines (headerSection articleBytes)).filter fun line =>
    !hasName name line.content).flatMap RawLine.raw ++ afterHeaders articleBytes

def stripServerSynthesizedHeaders (articleBytes : Bytes) : Bytes :=
  ["x-stoa-did-verified:", "x-stoa-verified:", "x-stoa-cid:"].foldl stripAllOccurrences articleBytes

def injectionSourceHeader : String := "x-stoa-injection-source:"

def parseInjectionSource (line : Bytes) : InjectionSource :=
  let value := line.drop (asBytes injectionSourceHeader).length
  let text := (asBytes (trim ((fromUtf8 value).getD ""))).map toAsciiLowercase
  if text = asBytes "smtpnewsgroups" then .smtpNewsgroups
  else if text = asBytes "smtpsieve" then .smtpSieve
  else if text = asBytes "smtplistid" then .smtpListId
  -- `nntppost`, and every value that is not known.
  else .nntpPost

def extractInjectionSource (articleBytes : Bytes) : InjectionSource × Bytes :=
  let lines := rawLines (headerSection articleBytes)
  match lines.find? fun line => hasName injectionSourceHeader line.content with
  | none => (.nntpPost, articleBytes)
  | some line => (parseInjectionSource line.content,
      (lines.eraseP fun line => hasName injectionSourceHeader line.content).flatMap RawLine.raw ++
        afterHeaders articleBytes)

def headerLine (text : String) : Bytes := asBytes text ++ crlfBytes

def insertHeader (articleBytes : Bytes) (text : String) : Bytes :=
  headerSection articleBytes ++ headerLine text ++ afterHeaders articleBytes

def rewritePath (hostname : String) (line : RawLine) : Bytes :=
  if hasName "path:" line.content then
    headerLine ("Path: " ++ hostname ++ "!" ++ trim (fromUtf8Lossy (line.content.drop 5)))
  else line.raw

/-- Prepend the host to the `Path:` headers, or add one. -/
def prependPathHeader (articleBytes : Bytes) (hostname : String) : Bytes :=
  let lines := rawLines (headerSection articleBytes)
  let pathFound := lines.any fun line => hasName "path:" line.content
  lines.flatMap (rewritePath hostname) ++
    (if pathFound then [] else headerLine ("Path: " ++ hostname)) ++ afterHeaders articleBytes

structure MessageIdSeed where
  /-- The time as `YYYYMMDDHHMMSS`. -/
  datetime : String
  seq : UInt64
  pid : UInt32

def messageIdHeader (seed : MessageIdSeed) (hostname : String) : String :=
  "Message-ID: <" ++ seed.datetime ++ "." ++ toString seed.seq ++ "." ++ toString seed.pid ++ "@" ++
    hostname ++ ">"

def injectMessageId (articleBytes : Bytes) (seed : MessageIdSeed) (hostname : String) : Bytes :=
  if (rawLines (headerSection articleBytes)).any fun line => hasName "message-id:" line.content
  then articleBytes
  else insertHeader articleBytes (messageIdHeader seed hostname)

def injectionInfo (clientIp : String) (username mailComplaintsTo : Option String) : String :=
  "Injection-Info: posting-host=\"" ++ clientIp ++ "\"" ++
    (match username with | some u => "; posting-account=\"" ++ u ++ "\"" | none => "") ++
    (match mailComplaintsTo with | some a => "; mail-complaints-to=\"" ++ a ++ "\"" | none => "")

def injectInjectionInfo (articleBytes : Bytes) (clientIp : String)
    (username mailComplaintsTo : Option String) : Bytes :=
  insertHeader articleBytes (injectionInfo clientIp username mailComplaintsTo)

/-- The time in the first `Date:` header, as `mailparse::dateparse` reads it. -/
def articleDate (dateparse : String → Option Int) (articleBytes : Bytes) : Option Int := do
  let line ← (rawLines (headerSection articleBytes)).find? fun line => hasName "date:" line.content
  let text ← fromUtf8 (line.content.drop 5)
  dateparse (trim text)

def injectInjectionDate (dateparse : String → Option Int) (articleBytes : Bytes)
    (maxClockSkewSecs : Option UInt64) (nowSecs : Int) : Bytes :=
  match maxClockSkewSecs with
  | none => articleBytes
  | some limit =>
    let needsInjection := match articleDate dateparse articleBytes with
      | none => true
      | some ts => decide ((ts - nowSecs).natAbs > limit.toInt64.toInt)
    if needsInjection then
      insertHeader articleBytes ("Injection-Date: " ++ epochToRfc2822 nowSecs)
    else articleBytes

/-- Header lines without stray line ends, none of them empty, and behind them the end of
the article or an empty line and the body. -/
structure Framed (hs : List Bytes) (tail : Bytes) : Prop where
  clean : ∀ l ∈ hs, OneLine l
  nonempty : ∀ l ∈ hs, l ≠ []
  ends : tail = [] ∨ hs ≠ [] ∧ ∃ body, tail = crlfBytes ++ body

theorem findInfix_blankLine_line {l rest : Bytes} (clean : OneLine l) (more : ¬ crlfBytes <+: rest) :
    findInfix blankLine (l ++ crlfBytes ++ rest) =
      (findInfix blankLine rest).map (· + (l.length + 2)) := by
  have notHere : ¬ blankLine <+: 0x0d :: 0x0a :: rest := fun here =>
    more (cons_prefix_cons.mp (cons_prefix_cons.mp here).2).2
  have notNext : ¬ blankLine <+: 0x0a :: rest := fun here =>
    absurd (cons_prefix_cons.mp here).1 (by decide)
  rw [append_assoc, blankLine, findInfix_append_of_notMem clean.1]
  change (findInfix blankLine (0x0d :: 0x0a :: rest)).map _ = _
  rw [findInfix_cons_of_not notHere, findInfix_cons_of_not notNext, Option.map_map, Option.map_map]
  congr 1
  funext n
  simp only [comp_apply]
  omega

theorem findInfix_lfLf_line {l rest : Bytes} (clean : OneLine l) (more : ¬ [0x0a] <+: rest) :
    findInfix [0x0a, 0x0a] (l ++ crlfBytes ++ rest) =
      (findInfix [0x0a, 0x0a] rest).map (· + (l.length + 2)) := by
  have absent : (0x0a : UInt8) ∉ l ++ [0x0d] := by
    simp only [mem_append, mem_singleton, not_or]
    exact ⟨clean.2, by decide⟩
  have notHere : ¬ [0x0a, 0x0a] <+: 0x0a :: rest := fun here =>
    more (cons_prefix_cons.mp here).2
  have shape : l ++ crlfBytes ++ rest = (l ++ [0x0d]) ++ 0x0a :: rest := by simp [crlfBytes]
  rw [shape, findInfix_append_of_notMem absent, findInfix_cons_of_not notHere, Option.map_map]
  congr 1
  funext n
  simp only [comp_apply, length_append, length_singleton]
  omega

theorem not_prefix_of_clean {b : UInt8} {needle l : Bytes} {rest : Bytes} (lineEnd : b ∉ l)
    (present : l ≠ []) : ¬ b :: needle <+: l ++ rest := by
  cases l with
  | nil => exact absurd rfl present
  | cons c l =>
    intro here
    exact lineEnd ((cons_prefix_cons.mp here).1 ▸ mem_cons_self)

theorem findInfix_blankLine_crlf {hs : List Bytes} (clean : ∀ l ∈ hs, OneLine l)
    (nonempty : ∀ l ∈ hs, l ≠ []) (present : hs ≠ []) (body : Bytes) :
    findInfix blankLine (crlf hs ++ (crlfBytes ++ body)) = some ((crlf hs).length - 2) := by
  induction hs with
  | nil => exact absurd rfl present
  | cons l ls ih =>
    rw [forall_mem_cons] at clean nonempty
    cases ls with
    | nil =>
      have here : findInfix blankLine (blankLine ++ body) = some 0 :=
        findInfix_start (prefix_append _ _)
      have shape : crlf [l] ++ (crlfBytes ++ body) = l ++ (blankLine ++ body) := by
        simp [crlfBytes, blankLine]
      rw [shape, blankLine, findInfix_append_of_notMem clean.1.1]
      change (findInfix blankLine (blankLine ++ body)).map _ = _
      rw [here]
      simp [crlfBytes]
    | cons m ms =>
      have next := nonempty.2
      rw [forall_mem_cons] at next
      have cleanNext := clean.2
      rw [forall_mem_cons] at cleanNext
      have more : ¬ crlfBytes <+: crlf (m :: ms) ++ (crlfBytes ++ body) := by
        rw [crlf_cons, append_assoc, append_assoc]
        exact not_prefix_of_clean cleanNext.1.1 next.1
      rw [crlf_cons, append_assoc (l ++ crlfBytes), findInfix_blankLine_line clean.1 more,
        ih clean.2 nonempty.2 (by simp)]
      simp only [Option.map_some, Option.some.injEq, crlf_cons, length_append, crlfBytes,
        length_cons, length_nil]
      omega

theorem findHeaderBoundary_crlf {hs : List Bytes} (clean : ∀ l ∈ hs, OneLine l)
    (nonempty : ∀ l ∈ hs, l ≠ []) : findHeaderBoundary (crlf hs) = none := by
  have none : findInfix blankLine (crlf hs) = none ∧ findInfix [0x0a, 0x0a] (crlf hs) = none := by
    induction hs with
    | nil => exact ⟨rfl, rfl⟩
    | cons l ls ih =>
      rw [forall_mem_cons] at clean nonempty
      have more : ¬ crlfBytes <+: crlf ls ∧ ¬ [0x0a] <+: crlf ls := by
        cases ls with
        | nil => exact ⟨by decide, by decide⟩
        | cons m ms =>
          have next := nonempty.2
          rw [forall_mem_cons] at next
          have cleanNext := clean.2
          rw [forall_mem_cons] at cleanNext
          rw [crlf_cons, append_assoc]
          exact ⟨not_prefix_of_clean cleanNext.1.1 next.1, not_prefix_of_clean cleanNext.1.2 next.1⟩
      obtain ⟨first, second⟩ := ih clean.2 nonempty.2
      rw [crlf_cons, findInfix_blankLine_line clean.1 more.1, findInfix_lfLf_line clean.1 more.2,
        first, second]
      exact ⟨rfl, rfl⟩
  simp [findHeaderBoundary, none]

namespace Framed

variable {hs : List Bytes} {tail : Bytes}

theorem two_le_length (present : hs ≠ []) : 2 ≤ (crlf hs).length := by
  cases hs with
  | nil => exact absurd rfl present
  | cons l ls =>
    simp only [crlf_cons, length_append, crlfBytes, length_cons, length_nil]
    omega

theorem crlf_eq_dropLast (present : hs ≠ []) :
    crlf hs = (crlf hs).take ((crlf hs).length - 2) ++ crlfBytes := by
  obtain ⟨ls, l, rfl⟩ := eq_nil_or_concat hs |>.resolve_left present
  have shape : crlf (ls.concat l) = (crlf ls ++ l) ++ crlfBytes := by
    simp [concat_eq_append]
  have length : (crlf (ls.concat l)).length - 2 = (crlf ls ++ l).length := by
    rw [shape]
    simp only [length_append, crlfBytes, length_cons, length_nil]
    omega
  rw [length, shape, take_left]

theorem findHeaderBoundary_eq (framed : Framed hs tail) : findHeaderBoundary (crlf hs ++ tail) =
      if tail = [] then none else some ((crlf hs).length + 2) := by
  rcases framed.ends with rfl | ⟨present, body, rfl⟩
  · simpa using findHeaderBoundary_crlf framed.clean framed.nonempty
  · have long := two_le_length present
    rw [findHeaderBoundary, findInfix_blankLine_crlf framed.clean framed.nonempty present]
    simp only [crlfBytes, cons_append, reduceCtorEq, if_false, Option.some.injEq]
    omega

theorem sepLen_eq (present : hs ≠ []) (body : Bytes) :
    sepLen (crlf hs ++ (crlfBytes ++ body)) ((crlf hs).length + 2) = 4 := by
  have long := two_le_length present
  have upTo : (crlf hs ++ (crlfBytes ++ body)).take ((crlf hs).length + 2) =
      (crlf hs).take ((crlf hs).length - 2) ++ blankLine := by
    rw [take_append, take_of_length_le (by omega)]
    conv_lhs => rw [crlf_eq_dropLast present]
    simp [crlfBytes, blankLine]
  rw [sepLen, if_pos]
  refine ⟨by omega, ?_⟩
  rw [upTo, drop_append_of_le_length (by simp), drop_eq_nil_of_le (by simp)]
  rfl

theorem findHeaderEnd_eq (framed : Framed hs tail) :
    findHeaderEnd (crlf hs ++ tail) = (crlf hs).length := by
  rw [findHeaderEnd, framed.findHeaderBoundary_eq]
  rcases framed.ends with rfl | ⟨present, body, rfl⟩
  · simp
  · rw [if_neg (by simp [crlfBytes])]
    simp only [sepLen_eq present]
    omega

@[simp] theorem headerSection_eq (framed : Framed hs tail) : headerSection (crlf hs ++ tail) = crlf hs := by
  rw [headerSection, framed.findHeaderEnd_eq, take_left]

@[simp] theorem afterHeaders_eq (framed : Framed hs tail) : afterHeaders (crlf hs ++ tail) = tail := by
  rw [afterHeaders, framed.findHeaderEnd_eq, drop_left]

theorem rawLines_eq (framed : Framed hs tail) :
    rawLines (headerSection (crlf hs ++ tail)) = hs.map (⟨·, crlfBytes⟩) := by
  rw [framed.headerSection_eq, rawLines_crlf framed.clean]

/-! The rewrites as operations on the list of header lines. -/

theorem stripAllOccurrences_eq (framed : Framed hs tail) (name : String) :
    stripAllOccurrences (crlf hs ++ tail) name = crlf (hs.filter fun l => !hasName name l) ++ tail := by
  rw [stripAllOccurrences, framed.rawLines_eq, framed.afterHeaders_eq, filter_map,
    flatMap_raw_crlf]
  rfl

theorem extractInjectionSource_eq (framed : Framed hs tail) : (extractInjectionSource (crlf hs ++ tail)).2 =
      crlf (hs.eraseP (hasName injectionSourceHeader)) ++ tail := by
  unfold extractInjectionSource
  dsimp only
  rw [framed.rawLines_eq, framed.afterHeaders_eq, List.find?_map, eraseP_map]
  cases found : hs.find? (hasName injectionSourceHeader) with
  | none =>
    have absent := List.find?_eq_none.mp found
    have unchanged : hs.eraseP (hasName injectionSourceHeader) = hs :=
      eraseP_of_forall_not absent
    simp [comp_def, found, unchanged]
  | some line => simp [comp_def, found, flatMap_raw_crlf]

theorem insertHeader_eq (framed : Framed hs tail) (text : String) :
    insertHeader (crlf hs ++ tail) text = crlf (hs ++ [asBytes text]) ++ tail := by
  rw [insertHeader, framed.headerSection_eq, framed.afterHeaders_eq]
  simp [headerLine]

/-- The `Path:` line that replaces `l`. -/
def pathLine (hostname : String) (l : Bytes) : Bytes :=
  if hasName "path:" l then
    asBytes ("Path: " ++ hostname ++ "!" ++ trim (fromUtf8Lossy (l.drop 5)))
  else l

theorem prependPathHeader_eq (framed : Framed hs tail) (hostname : String) :
    prependPathHeader (crlf hs ++ tail) hostname = crlf (hs.map (pathLine hostname) ++
        if hs.any (hasName "path:") then [] else [asBytes ("Path: " ++ hostname)]) ++ tail := by
  have rewritten : (hs.map (⟨·, crlfBytes⟩)).flatMap (rewritePath hostname) =
      crlf (hs.map (pathLine hostname)) := by
    rw [crlf, flatMap_map, flatMap_map]
    congr 1
    funext l
    simp only [rewritePath, pathLine, RawLine.raw]
    split <;> rfl
  rw [prependPathHeader, framed.rawLines_eq, framed.afterHeaders_eq, rewritten, crlf_append,
    any_map]
  cases found : hs.any (hasName "path:") <;> simp [Function.comp_def, found, headerLine]

end Framed

theorem two_le_findHeaderEnd (rest : Bytes) : 2 ≤ findHeaderEnd (crlfBytes ++ rest) := by
  have short : ∀ n, sepLen (crlfBytes ++ rest) n ≤ 2 ∨ n ≥ 4 ∧ sepLen (crlfBytes ++ rest) n = 4 := by
    intro n
    unfold sepLen
    split
    · next long => exact .inr ⟨long.1, rfl⟩
    · exact .inl le_rfl
  unfold findHeaderEnd findHeaderBoundary
  cases findInfix blankLine (crlfBytes ++ rest) with
  | some i =>
    rcases short (i + 4) with h | h <;> simp only <;> omega
  | none =>
    -- The first byte is not LF, so an LF pair stands further on.
    have later : findInfix [0x0a, 0x0a] (crlfBytes ++ rest) =
        (findInfix [0x0a, 0x0a] (0x0a :: rest)).map (· + 1) :=
      findInfix_cons_of_not fun here => absurd (cons_prefix_cons.mp here).1 (by decide)
    rw [later]
    cases findInfix [0x0a, 0x0a] (0x0a :: rest) with
    | none =>
      simp only [Option.map_none, length_append, crlfBytes, length_cons, length_nil]
      omega
    | some i =>
      rcases short (i + 1 + 2) with h | h <;> simp only [Option.map_some] <;> omega

theorem headerSection_of_blank {b : Bytes} (blank : crlfBytes <+: b) :
    ∃ rest, headerSection b = crlfBytes ++ rest := by
  obtain ⟨rest, rfl⟩ := blank
  obtain ⟨n, length⟩ := Nat.exists_eq_add_of_le (two_le_findHeaderEnd rest)
  refine ⟨rest.take n, ?_⟩
  rw [headerSection, length, take_append, take_of_length_le (by simp [crlfBytes])]
  simp [crlfBytes]

theorem rawLines_of_blank {b : Bytes} (blank : crlfBytes <+: b) :
    ∃ lines, rawLines (headerSection b) = ⟨[], crlfBytes⟩ :: lines := by
  obtain ⟨rest, start⟩ := headerSection_of_blank blank
  exact ⟨rawLines rest, by rw [start]; rfl⟩

theorem stripAllOccurrences_of_blank {b : Bytes} (blank : crlfBytes <+: b) {name : String}
    (named : hasName name [] = false) : crlfBytes <+: stripAllOccurrences b name := by
  obtain ⟨lines, start⟩ := rawLines_of_blank blank
  simp [stripAllOccurrences, start, named, RawLine.raw]

theorem extractInjectionSource_of_blank {b : Bytes} (blank : crlfBytes <+: b) :
    crlfBytes <+: (extractInjectionSource b).2 := by
  obtain ⟨lines, start⟩ := rawLines_of_blank blank
  have named : hasName injectionSourceHeader [] = false := by decide
  unfold extractInjectionSource
  dsimp only
  split
  · exact blank
  · simp [start, named, RawLine.raw]

theorem prependPathHeader_of_blank {b : Bytes} (blank : crlfBytes <+: b) (hostname : String) :
    crlfBytes <+: prependPathHeader b hostname := by
  obtain ⟨lines, start⟩ := rawLines_of_blank blank
  have named : hasName "path:" [] = false := by decide
  simp [prependPathHeader, start, rewritePath, named, RawLine.raw]

theorem insertHeader_of_blank {b : Bytes} (blank : crlfBytes <+: b) (text : String) :
    crlfBytes <+: insertHeader b text := by
  obtain ⟨rest, start⟩ := headerSection_of_blank blank
  simp [insertHeader, start]

end Stoa.Post
