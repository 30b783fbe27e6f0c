import Mathlib.Data.List.TakeWhile
import Stoa.Lib.Lines

/-! Two facts about every header block: which of its lines make a scan panic, and what the
Message-ID field is, before and after the daemon has added itself to `Path`. -/
namespace Stoa

open Text

def lines (articleBytes : Bytes) : List Bytes := articleBytes.splitOn 0x0a

def stripCr (line : Bytes) : Bytes := if line.getLast? = some 0x0d then line.dropLast else line

/-- The lines before the first blank one, each without its carriage return. -/
def headerLines (articleBytes : Bytes) : List Bytes :=
  ((lines articleBytes).map stripCr).takeWhile (· ≠ [])

def Folded (line : Bytes) : Prop := line.head? = some 0x20 ∨ line.head? = some 0x09

instance (line : Bytes) : Decidable (Folded line) :=
  inferInstanceAs (Decidable (line.head? = some 0x20 ∨ line.head? = some 0x09))

def prependPathLines (hostname : String) : (pathFound inBody : Bool) → List Bytes → Bytes
  | _, _, [] => []
  | pathFound, inBody, line :: rest =>
    -- What follows the last line break is no line when it is empty.
    if line = [] ∧ rest = [] then []
    else if inBody then line ++ [0x0a] ++ prependPathLines hostname pathFound true rest
    else
      let trimmed := stripCr line
      if trimmed = [] then
        (if pathFound then [] else asBytes ("Path: " ++ hostname ++ "\r\n")) ++ asBytes "\r\n" ++
          prependPathLines hostname pathFound true rest
      else if 5 ≤ trimmed.length ∧ eqIgnoreAsciiCase (trimmed.take 5) (asBytes "path:") = true then
        let oldVal := trim (fromUtf8Lossy (trimmed.drop 5))
        asBytes ("Path: " ++ hostname ++ "!" ++ oldVal ++ "\r\n") ++
          prependPathLines hostname true false rest
      else trimmed ++ asBytes "\r\n" ++ prependPathLines hostname pathFound false rest

def prependPathHeader (articleBytes : Bytes) (hostname : String) : Bytes :=
  prependPathLines hostname false false (lines articleBytes)

/-- The header whose value may go on in the next line. -/
inductive CurrentHeader
  | none
  | messageId
  | newsgroups
  deriving DecidableEq

structure HeaderScan where
  messageId : Option String
  newsgroupsVal : Option String
  current : CurrentHeader

structure CharBoundaryPanic where
  line : Bytes

def startsWithName (line : Bytes) (name : String) : Except CharBoundaryPanic Bool :=
  let name := asBytes name
  if line.length < name.length then .ok false
  else if isCharBoundary line name.length then
    .ok (eqIgnoreAsciiCase (line.take name.length) name)
  else .error ⟨line⟩

namespace HeaderScan

def start : HeaderScan := ⟨none, none, .none⟩

def continued (scan : HeaderScan) (cont : String) : HeaderScan :=
  match scan.current with
  | .messageId => { scan with messageId := scan.messageId.map (· ++ trim cont) }
  | .newsgroups => { scan with newsgroupsVal := scan.newsgroupsVal.map (· ++ "," ++ trim cont) }
  | .none => scan

/-- The value of a header line whose name has `n` bytes. -/
def value (line : Bytes) (n : Nat) : String := trim (fromUtf8Lossy (line.drop n))

def headerLine (scan : HeaderScan) (line : Bytes) : Except CharBoundaryPanic HeaderScan := do
  let isMessageId ←
    if scan.messageId.isNone then startsWithName line "message-id:" else pure false
  if isMessageId then
    return { scan with messageId := some (value line 11), current := .messageId }
  else
    let isNewsgroups ←
      if scan.newsgroupsVal.isNone then startsWithName line "newsgroups:" else pure false
    if isNewsgroups then
      return { scan with newsgroupsVal := some (value line 11), current := .newsgroups }
    else return { scan with current := .none }

def scanLines : HeaderScan → List Bytes → Except CharBoundaryPanic HeaderScan
  | scan, [] => .ok scan
  | scan, line :: rest =>
    let trimmed := stripCr line
    if trimmed = [] then .ok scan
    else if trimmed.head? = some 0x20 ∨ trimmed.head? = some 0x09 then
      match fromUtf8 trimmed with
      | none => scanLines { scan with current := .none } rest
      | some cont => scanLines (scan.continued cont) rest
    else if scan.current = .none ∧ scan.messageId.isSome ∧ scan.newsgroupsVal.isSome then .ok scan
    else
      match fromUtf8 trimmed with
      | none => scanLines { scan with current := .none } rest
      | some _ =>
        match scan.headerLine trimmed with
        | .error panic => .error panic
        | .ok scan => scanLines scan rest

end HeaderScan

/-- The names in a `Newsgroups` value. -/
def splitNewsgroups (value : String) : List String :=
  ((value.toList.splitOn ',').map fun name => trim (String.ofList name)).filter fun s => !s.isEmpty

/-- `None` when there is no Message-ID. -/
def parseMessageIdAndNewsgroups (articleBytes : Bytes) :
    Except CharBoundaryPanic (Option (String × List String)) := do
  let scan ← HeaderScan.scanLines .start (lines articleBytes)
  return scan.messageId.map fun mid => (mid, splitNewsgroups (scan.newsgroupsVal.getD ""))

open List HeaderScan

/-! Both scans of header lines slice a line after eleven bytes as long as they look for one
of two names of that length.
-/

structure IsField (name : String) (line : Bytes) : Prop where
  starts : ¬ Folded line
  text : (fromUtf8 line).isSome
  named : startsWithName line name = .ok true

/-- A line of text that starts a field and has a character across its first eleven bytes. -/
structure Cut (line : Bytes) : Prop where
  starts : ¬ Folded line
  text : (fromUtf8 line).isSome
  long : 11 ≤ line.length
  inside : isCharBoundary line 11 = false

/-- No line is cut before a field of each of the names has come. -/
def Uncut (names : List String) (header : List Bytes) : Prop :=
  ∀ before line after, header = before ++ line :: after →
    (∃ name ∈ names, ∀ l ∈ before, ¬ IsField name l) → ¬ Cut line

theorem uncut_nil (names : List String) : Uncut names [] := by
  intro before line after split
  simp at split

theorem uncut_of_none (header : List Bytes) : Uncut [] header := by
  rintro before line after - ⟨name, member, -⟩
  simp at member

open Classical in
theorem uncut_cons (names : List String) (line : Bytes) (rest : List Bytes) : Uncut names (line :: rest) ↔
      (names ≠ [] → ¬ Cut line) ∧ Uncut (names.filter fun name => ¬ IsField name line) rest := by
  constructor
  · intro uncut
    constructor
    · intro looked
      obtain ⟨name, member⟩ := exists_mem_of_ne_nil names looked
      exact uncut [] line rest rfl ⟨name, member, by simp⟩
    · rintro before l after rfl ⟨name, member, missing⟩
      rw [mem_filter, decide_eq_true_eq] at member
      apply uncut (line :: before) l after rfl
      exact ⟨name, member.1, forall_mem_cons.mpr ⟨member.2, missing⟩⟩
  · rintro ⟨first, others⟩ before l after split ⟨name, member, missing⟩
    cases before with
    | nil =>
      cases split
      exact first (ne_nil_of_mem member)
    | cons head before =>
      cases split
      rw [forall_mem_cons] at missing
      refine others before l after rfl ⟨name, ?_, missing.2⟩
      rw [mem_filter, decide_eq_true_eq]
      exact ⟨member, missing.1⟩

variable {line : Bytes}

theorem uncut_cons_of_not_field {names : List String} {rest : List Bytes}
    (uncut : ¬ Cut line) (other : ∀ name ∈ names, ¬ IsField name line) :
    Uncut names (line :: rest) ↔ Uncut names rest := by
  classical
  have same : (names.filter fun name => ¬ IsField name line) = names := by
    rw [filter_eq_self]
    intro name member
    simpa using other name member
  rw [uncut_cons, same]
  exact ⟨fun h => h.2, fun h => ⟨fun _ => uncut, h⟩⟩

theorem uncut_congr {names names' : List String} (same : ∀ name, name ∈ names ↔ name ∈ names')
    (header : List Bytes) : Uncut names header ↔ Uncut names' header := by
  simp only [Uncut, same]

theorem startsWithName_eq_error {name : String} (eleven : (asBytes name).length = 11) :
    startsWithName line name = .error ⟨line⟩ ↔ 11 ≤ line.length ∧ isCharBoundary line 11 = false := by
  simp only [startsWithName, eleven]
  split
  · next short =>
    simp only [reduceCtorEq, false_iff]
    omega
  · next long =>
    have enough : 11 ≤ line.length := by omega
    split <;> simp_all

theorem panic_startsWithName {name : String} {panic : CharBoundaryPanic}
    (error : startsWithName line name = .error panic) : panic = ⟨line⟩ := by
  simp only [startsWithName] at error
  split at error
  · cases error
  · split at error
    · cases error
    · exact (Except.error.inj error).symm

theorem startsWithName_eq_ok {name : String} (named : startsWithName line name = .ok true) :
    (line.take (asBytes name).length).map toAsciiLowercase = (asBytes name).map toAsciiLowercase := by
  simp only [startsWithName] at named
  split at named
  · cases named
  · split at named
    · simpa [eqIgnoreAsciiCase] using named
    · cases named

theorem startsWithName_unique {name other : String}
    (first : startsWithName line name = .ok true) (second : startsWithName line other = .ok true)
    (same : (asBytes name).length = (asBytes other).length) :
    (asBytes name).map toAsciiLowercase = (asBytes other).map toAsciiLowercase := by
  rw [← startsWithName_eq_ok first, ← startsWithName_eq_ok second, same]

theorem length_messageId : (asBytes "message-id:").length = 11 := by decide

theorem length_newsgroups : (asBytes "newsgroups:").length = 11 := by decide

namespace HeaderScan

/-- `scanLines` on lines that are stripped already and stop before the blank one. -/
def scanHeader : HeaderScan → List Bytes → Except CharBoundaryPanic HeaderScan
  | scan, [] => .ok scan
  | scan, trimmed :: rest =>
    if Folded trimmed then
      match fromUtf8 trimmed with
      | none => scanHeader { scan with current := .none } rest
      | some cont => scanHeader (scan.continued cont) rest
    else if scan.current = .none ∧ scan.messageId.isSome ∧ scan.newsgroupsVal.isSome then .ok scan
    else
      match fromUtf8 trimmed with
      | none => scanHeader { scan with current := .none } rest
      | some _ =>
        match scan.headerLine trimmed with
        | .error panic => .error panic
        | .ok scan => scanHeader scan rest

theorem scanLines_eq (scan : HeaderScan) (ls : List Bytes) :
    scanLines scan ls = scanHeader scan ((ls.map stripCr).takeWhile (· ≠ [])) := by
  induction ls generalizing scan with
  | nil => rfl
  | cons line rest ih =>
    rw [scanLines, map_cons]
    by_cases blank : stripCr line = []
    · simp [blank, scanHeader]
    · rw [takeWhile_cons_of_pos (by simpa using blank)]
      simp only [blank, if_false, scanHeader, ih]
      rfl

def missing (scan : HeaderScan) : List String :=
  (if scan.messageId.isNone then ["message-id:"] else []) ++
    if scan.newsgroupsVal.isNone then ["newsgroups:"] else []

theorem missing_start : start.missing = ["message-id:", "newsgroups:"] := rfl

@[simp] theorem missing_current (scan : HeaderScan) (current : CurrentHeader) :
    missing { scan with current } = scan.missing := rfl

@[simp] theorem missing_continued (scan : HeaderScan) (cont : String) :
    (scan.continued cont).missing = scan.missing := by
  rcases scan with ⟨_ | mid, _ | groups, _ | _ | _⟩ <;> rfl

@[simp] theorem current_continued (scan : HeaderScan) (cont : String) :
    (scan.continued cont).current = scan.current := by
  rcases scan with ⟨mid, groups, _ | _ | _⟩ <;> rfl

theorem messageId_continued {scan : HeaderScan} (elsewhere : scan.current ≠ .messageId)
    (cont : String) : (scan.continued cont).messageId = scan.messageId := by
  rcases scan with ⟨mid, groups, _ | _ | _⟩
  · rfl
  · exact absurd rfl elsewhere
  · rfl

theorem continued_messageId {scan : HeaderScan} {mid : String} (read : scan.messageId = some mid)
    (here : scan.current = .messageId) (cont : String) :
    scan.continued cont = { scan with messageId := some (mid ++ trim cont) } := by
  simp [continued, here, read]

theorem missing_eq_nil (scan : HeaderScan) :
    scan.missing = [] ↔ scan.messageId.isSome ∧ scan.newsgroupsVal.isSome := by
  rcases scan with ⟨_ | mid, _ | groups, current⟩ <;> simp [missing]

theorem not_named_both {line : Bytes} (messageId : startsWithName line "message-id:" = .ok true) :
    startsWithName line "newsgroups:" ≠ .ok true := by
  intro newsgroups
  have same := startsWithName_unique messageId newsgroups (by decide)
  exact absurd same (by decide)

theorem startsWithName_of_not_cut {line : Bytes} {name : String} (eleven : (asBytes name).length = 11)
    (whole : ¬ (11 ≤ line.length ∧ isCharBoundary line 11 = false)) :
    ∃ found, startsWithName line name = .ok found := by
  cases looked : startsWithName line name with
  | ok found => exact ⟨found, rfl⟩
  | error panic =>
    obtain rfl := panic_startsWithName looked
    exact absurd ((startsWithName_eq_error eleven).mp looked) whole

def headed (scan : HeaderScan) (line : Bytes) (isMessageId isNewsgroups : Bool) : HeaderScan :=
  if scan.messageId.isNone && isMessageId then
    { scan with messageId := some (value line 11), current := .messageId }
  else if scan.newsgroupsVal.isNone && isNewsgroups then
    { scan with newsgroupsVal := some (value line 11), current := .newsgroups }
  else { scan with current := .none }

theorem headerLine_eq (scan : HeaderScan) {line : Bytes} {isMessageId isNewsgroups : Bool}
    (mid : startsWithName line "message-id:" = .ok isMessageId)
    (groups : startsWithName line "newsgroups:" = .ok isNewsgroups) :
    scan.headerLine line = .ok (scan.headed line isMessageId isNewsgroups) := by
  rcases scan with ⟨_ | messageId, _ | newsgroups, current⟩ <;>
    cases isMessageId <;> cases isNewsgroups <;> simp only [headerLine, mid, groups] <;> rfl

/-- What a line of text that starts a field does: it is cut while a name is looked for, or it is
looked at and the names it gives are no longer missing. -/
theorem headerLine_cases (scan : HeaderScan) {line : Bytes} (starts : ¬ Folded line)
    (text : (fromUtf8 line).isSome) :
    (scan.missing ≠ [] ∧ Cut line ∧ scan.headerLine line = .error ⟨line⟩) ∨
    (scan.missing ≠ [] → ¬ Cut line) ∧ ∃ scan', scan.headerLine line = .ok scan' ∧
      ∀ name, name ∈ scan'.missing ↔ name ∈ scan.missing ∧ ¬ IsField name line := by
  classical
  have cut_iff : Cut line ↔ 11 ≤ line.length ∧ isCharBoundary line 11 = false :=
    ⟨fun cut => ⟨cut.long, cut.inside⟩, fun cut => ⟨starts, text, cut.1, cut.2⟩⟩
  have field_iff (name : String) : IsField name line ↔ startsWithName line name = .ok true :=
    ⟨IsField.named, fun named => ⟨starts, text, named⟩⟩
  simp only [field_iff]
  by_cases cut : Cut line
  · -- Both names are as long, so both slices panic.
    have mid := (startsWithName_eq_error length_messageId).mpr (cut_iff.mp cut)
    have groups := (startsWithName_eq_error length_newsgroups).mpr (cut_iff.mp cut)
    rcases scan with ⟨_ | messageId, _ | newsgroups, current⟩
    · left; exact ⟨by simp [missing], cut, by simp [headerLine, mid]; rfl⟩
    · left; exact ⟨by simp [missing], cut, by simp [headerLine, mid]; rfl⟩
    · left; exact ⟨by simp [missing], cut, by simp [headerLine, groups]; rfl⟩
    · right
      refine ⟨by simp [missing], ⟨some messageId, some newsgroups, .none⟩, rfl, by simp [missing]⟩
  · right
    refine ⟨fun _ => cut, ?_⟩
    rw [cut_iff] at cut
    obtain ⟨isMessageId, mid⟩ := startsWithName_of_not_cut length_messageId cut
    obtain ⟨isNewsgroups, groups⟩ := startsWithName_of_not_cut length_newsgroups cut
    have either : ¬ (isMessageId = true ∧ isNewsgroups = true) := by
      rintro ⟨rfl, rfl⟩
      exact not_named_both mid groups
    refine ⟨_, headerLine_eq scan mid groups, fun name => ?_⟩
    rcases scan with ⟨_ | messageId, _ | newsgroups, current⟩ <;>
      cases isMessageId <;> cases isNewsgroups <;> simp_all [headed, missing] <;> grind

theorem scanHeader_returns_iff (scan : HeaderScan) (header : List Bytes) :
    (∃ scan', scan.scanHeader header = .ok scan') ↔ Uncut scan.missing header := by
  classical
  induction header generalizing scan with
  | nil => simp [scanHeader, uncut_nil]
  | cons line rest ih =>
    -- A line that is folded or no text is neither sliced nor a field.
    have skipped (plain : Folded line ∨ fromUtf8 line = none) :
        Uncut scan.missing (line :: rest) ↔ Uncut scan.missing rest := by
      apply uncut_cons_of_not_field
      · rintro ⟨starts, text, -, -⟩
        simp_all
      · rintro name - ⟨starts, text, -⟩
        simp_all
    rw [scanHeader]
    by_cases folded : Folded line
    · rw [if_pos folded, skipped (.inl folded)]
      cases text : fromUtf8 line with
      | none => simpa using ih { scan with current := .none }
      | some cont => simpa using ih (scan.continued cont)
    · rw [if_neg folded]
      by_cases both : scan.current = .none ∧ scan.messageId.isSome ∧ scan.newsgroupsVal.isSome
      · rw [if_pos both, (missing_eq_nil scan).mpr both.2]
        simp [uncut_of_none]
      · rw [if_neg both]
        cases text : fromUtf8 line with
        | none =>
          rw [skipped (.inr text)]
          simpa using ih { scan with current := .none }
        | some cont =>
          rcases headerLine_cases scan folded (by simp [text]) with
            ⟨looked, cut, panics⟩ | ⟨whole, scan', looked, names⟩
          · simp only [panics, reduceCtorEq, exists_false, false_iff]
            exact fun uncut => (uncut_cons _ _ _ |>.mp uncut).1 looked cut
          · simp only [looked]
            rw [ih scan', uncut_cons, and_iff_right whole]
            apply uncut_congr
            simpa using names

end HeaderScan

theorem parseMessageIdAndNewsgroups_returns_iff (articleBytes : Bytes) :
    (∃ parsed, parseMessageIdAndNewsgroups articleBytes = .ok parsed) ↔
      Uncut ["message-id:", "newsgroups:"] (headerLines articleBytes) := by
  rw [← missing_start, headerLines, ← scanHeader_returns_iff,
    ← scanLines_eq, parseMessageIdAndNewsgroups]
  cases scanLines .start (lines articleBytes) with
  | error panic => simp [bind, Except.bind]
  | ok scan => simp [bind, Except.bind, pure, Except.pure]

theorem fromUtf8_eq_some {bytes : Bytes} {s : String} (text : fromUtf8 bytes = some s) :
    s = fromUtf8Lossy bytes := by
  have chars (read : List (Option Char)) (cs : List Char) (all : read.mapM id = some cs) :
      cs = read.map fun c => c.getD '\uFFFD' := by
    induction read generalizing cs with
    | nil => simpa using all.symm
    | cons c read ih =>
      simp only [mapM_cons, id_eq, Option.bind_eq_bind, Option.bind_eq_some_iff,
        Option.pure_def, Option.some.injEq] at all
      obtain ⟨c', rfl, later, rest, rfl⟩ := all
      simp [← ih later rest]
  rw [fromUtf8, Option.map_eq_some_iff] at text
  obtain ⟨cs, all, rfl⟩ := text
  rw [fromUtf8Lossy, chars _ cs all]

structure MessageIdField (header : List Bytes) (line : Bytes) (folds : List Bytes) : Prop where
  field : IsField "message-id:" line
  folded : ∀ l ∈ folds, Folded l
  first : ∃ before after, header = before ++ line :: (folds ++ after) ∧
    (∀ l ∈ before, ¬ IsField "message-id:" l) ∧ ∀ l ∈ after.head?, ¬ Folded l

theorem exists_messageIdField {header : List Bytes} {l : Bytes} (member : l ∈ header)
    (field : IsField "message-id:" l) : ∃ line folds, MessageIdField header line folds := by
  classical
  induction header with
  | nil => simp at member
  | cons head rest ih =>
    by_cases here : IsField "message-id:" head
    · refine ⟨head, rest.takeWhile (Folded ·), here, fun l member => ?_, [],
        rest.dropWhile (Folded ·), by simp, by simp, fun l member => ?_⟩
      · simpa using mem_takeWhile_imp member
      · have stops := List.head?_dropWhile_not (Folded ·) rest
        rw [Option.mem_def.mp member] at stops
        simpa using stops
    · have later : l ∈ rest := by
        rcases mem_cons.mp member with rfl | later
        · exact absurd field here
        · exact later
      obtain ⟨line, folds, isField, folded, before, after, rfl, none, stops⟩ := ih later
      exact ⟨line, folds, isField, folded, head :: before, after, rfl,
        forall_mem_cons.mpr ⟨here, none⟩, stops⟩

namespace HeaderScan

variable {scan scan' : HeaderScan}

inductive Next (scan : HeaderScan) (line : Bytes) : HeaderScan → Prop
  | folded (goesOn : Folded line) (text : (fromUtf8 line).isSome) :
    Next scan line (scan.continued (fromUtf8Lossy line))
  | found (missing : scan.messageId = none) (field : IsField "message-id:" line) :
    Next scan line { scan with messageId := some (value line 11), current := .messageId }
  | other {next : HeaderScan} (same : next.messageId = scan.messageId)
    (elsewhere : next.current ≠ .messageId)
    (unnamed : scan.messageId = none → ¬ IsField "message-id:" line) : Next scan line next

theorem headerLine_next {line : Bytes} {next : HeaderScan} (starts : ¬ Folded line)
    (text : (fromUtf8 line).isSome) (looked : scan.headerLine line = .ok next) : Next scan line next := by
  rcases scan with ⟨_ | mid, groups, current⟩
  · rcases named : startsWithName line "message-id:" with panic | _ | _
    · simp only [headerLine, named] at looked
      cases looked
    · have unnamed : ¬ IsField "message-id:" line := fun field => by simp [field.named] at named
      rcases groups with _ | groups
      · rcases namedToo : startsWithName line "newsgroups:" with panic | _ | _ <;>
          simp only [headerLine, named, namedToo] at looked <;> cases looked
        · exact .other rfl (by simp) fun _ => unnamed
        · exact .other rfl (by simp) fun _ => unnamed
      · simp only [headerLine, named] at looked
        cases looked
        exact .other rfl (by simp) fun _ => unnamed
    · simp only [headerLine, named] at looked
      cases looked
      exact .found rfl ⟨starts, text, named⟩
  · rcases groups with _ | groups
    · rcases named : startsWithName line "newsgroups:" with panic | _ | _ <;>
        simp only [headerLine, named] at looked <;> cases looked
      · exact .other rfl (by simp) (by simp)
      · exact .other rfl (by simp) (by simp)
    · cases looked
      exact .other rfl (by simp) (by simp)

theorem scanHeader_cons {line : Bytes} {rest : List Bytes}
    (run : scan.scanHeader (line :: rest) = .ok scan') : (scan' = scan ∧ scan.messageId.isSome) ∨
      ∃ next, Next scan line next ∧ next.scanHeader rest = .ok scan' := by
  have skipped (plain : fromUtf8 line = none) : Next scan line { scan with current := .none } :=
    .other rfl (by simp) fun _ field => by simpa [plain] using field.text
  rw [scanHeader] at run
  split at run
  · next folded =>
    right
    split at run
    · next plain => exact ⟨_, skipped plain, run⟩
    · next cont text =>
      obtain rfl := fromUtf8_eq_some text
      exact ⟨_, .folded folded (by simp [text]), run⟩
  · next folded =>
    split at run
    · next both =>
      left
      exact ⟨(Except.ok.inj run).symm, both.2.1⟩
    · right
      split at run
      · next plain => exact ⟨_, skipped plain, run⟩
      · next cont text =>
        split at run
        · cases run
        · next next looked => exact ⟨next, headerLine_next folded (by simp [text]) looked, run⟩

theorem scanHeader_before {before rest : List Bytes} (missing : scan.messageId = none)
    (other : ∀ l ∈ before, ¬ IsField "message-id:" l)
    (run : scan.scanHeader (before ++ rest) = .ok scan') :
    ∃ next : HeaderScan, next.messageId = none ∧ next.scanHeader rest = .ok scan' := by
  induction before generalizing scan with
  | nil => exact ⟨scan, missing, run⟩
  | cons line before ih =>
    rw [forall_mem_cons] at other
    rcases scanHeader_cons run with ⟨-, known⟩ | ⟨next, step, run⟩
    · simp [missing] at known
    · cases step with
      | folded goesOn text =>
        have still : (scan.continued (fromUtf8Lossy line)).messageId = none := by
          rcases scan with ⟨_ | _, groups, _ | _ | _⟩ <;> simp_all [continued]
        exact ih still other.2 run
      | found missing field => exact absurd field other.1
      | other same => exact ih (same.trans missing) other.2 run

theorem scanHeader_field {line : Bytes} {rest : List Bytes} (missing : scan.messageId = none)
    (field : IsField "message-id:" line) :
    scan.scanHeader (line :: rest) =
      scanHeader { scan with messageId := some (value line 11), current := .messageId } rest := by
  obtain ⟨s, text⟩ := Option.isSome_iff_exists.mp field.text
  rw [scanHeader, if_neg field.starts]
  simp [missing, text, headerLine, field.named]
  rfl

theorem scanHeader_folds {folds rest : List Bytes} {mid : String}
    (read : scan.messageId = some mid) (here : scan.current = .messageId)
    (folded : ∀ l ∈ folds, Folded l) (text : ∀ l ∈ folds, (fromUtf8 l).isSome) :
    scan.scanHeader (folds ++ rest) = scanHeader { scan with
      messageId := some (mid ++ String.join (folds.map fun l => trim (fromUtf8Lossy l))) } rest := by
  induction folds generalizing scan mid with
  | nil => simp [← read]
  | cons line folds ih =>
    rw [forall_mem_cons] at folded text
    obtain ⟨s, isText⟩ := Option.isSome_iff_exists.mp text.1
    obtain rfl := fromUtf8_eq_some isText
    rw [cons_append, scanHeader, if_pos folded.1]
    simp only [isText, continued_messageId read here]
    have later := @ih { scan with messageId := some (mid ++ trim (fromUtf8Lossy line)) } _ rfl here
      folded.2 text.2
    rw [later]
    simp [String.append_assoc]

theorem scanHeader_after {header : List Bytes} {mid : String} (read : scan.messageId = some mid)
    (elsewhere : scan.current ≠ .messageId) (run : scan.scanHeader header = .ok scan') :
    scan'.messageId = some mid := by
  induction header generalizing scan with
  | nil =>
    cases run
    exact read
  | cons line rest ih =>
    rcases scanHeader_cons run with ⟨rfl, -⟩ | ⟨next, step, run⟩
    · exact read
    · cases step with
      | folded goesOn text =>
        exact ih ((messageId_continued elsewhere _).trans read) (by simpa using elsewhere) run
      | found missing => simp [read] at missing
      | other same elsewhere => exact ih (same.trans read) elsewhere run

theorem scanHeader_stops {header : List Bytes} {mid : String} (read : scan.messageId = some mid)
    (stops : ∀ l ∈ header.head?, ¬ Folded l) (run : scan.scanHeader header = .ok scan') :
    scan'.messageId = some mid := by
  cases header with
  | nil =>
    cases run
    exact read
  | cons line rest =>
    rcases scanHeader_cons run with ⟨rfl, -⟩ | ⟨next, step, run⟩
    · exact read
    · cases step with
      | folded goesOn => exact absurd goesOn (stops line (by simp))
      | found missing => simp [read] at missing
      | other same elsewhere => exact scanHeader_after (same.trans read) elsewhere run

theorem scanHeader_messageId {header : List Bytes} {line : Bytes} {folds : List Bytes}
    (field : MessageIdField header line folds) (text : ∀ l ∈ folds, (fromUtf8 l).isSome)
    (run : start.scanHeader header = .ok scan') : scan'.messageId =
      some (value line 11 ++ String.join (folds.map fun l => trim (fromUtf8Lossy l))) := by
  obtain ⟨before, after, rfl, other, stops⟩ := field.first
  obtain ⟨next, missing, run⟩ := scanHeader_before rfl other run
  have folds := @scanHeader_folds
    { next with messageId := some (value line 11), current := .messageId } folds after _ rfl rfl
    field.folded text
  rw [scanHeader_field missing field.field, folds] at run
  exact scanHeader_stops rfl stops run

end HeaderScan

theorem messageId_of_parse {articleBytes : Bytes} {folds : List Bytes}
    (field : MessageIdField (headerLines articleBytes) line folds)
    (text : ∀ l ∈ folds, (fromUtf8 l).isSome) {parsed : Option (String × List String)}
    (run : parseMessageIdAndNewsgroups articleBytes = .ok parsed) :
    ∃ names, parsed = some (trim (fromUtf8Lossy (line.drop 11)) ++
      String.join (folds.map fun l => trim (fromUtf8Lossy l)), names) := by
  rw [parseMessageIdAndNewsgroups, scanLines_eq, ← headerLines] at run
  cases scanned : scanHeader .start (headerLines articleBytes) with
  | error panic => simp [scanned, bind, Except.bind] at run
  | ok scan =>
    have read := scanHeader_messageId field text scanned
    simp only [scanned, bind, Except.bind, pure, Except.pure, read, Option.map_some] at run
    exact ⟨_, (Except.ok.inj run).symm⟩

def IsPath (line : Bytes) : Prop :=
  5 ≤ line.length ∧ eqIgnoreAsciiCase (line.take 5) (asBytes "path:") = true

instance (line : Bytes) : Decidable (IsPath line) := instDecidableAnd

def pathLine (hostname : String) (line : Bytes) : Bytes :=
  if IsPath line then
    asBytes ("Path: " ++ hostname ++ "!" ++ trim (fromUtf8Lossy (line.drop 5)))
  else line

theorem lines_append (single : (0x0a : UInt8) ∉ line) (rest : Bytes) :
    lines (line ++ 0x0a :: rest) = line :: lines rest := by
  rw [lines, lines, splitOn_eq_splitOnP, splitOn_eq_splitOnP]
  apply splitOnP_append_cons_of_forall_mem
  · intro b member
    rw [beq_eq_false_iff_ne]
    rintro rfl
    exact single member
  · simp

theorem stripCr_append (line : Bytes) : stripCr (line ++ [0x0d]) = line := by simp [stripCr]

theorem headerLines_append (single : (0x0a : UInt8) ∉ line) (filled : line ≠ [])
    (rest : Bytes) : headerLines (line ++ asBytes "\r\n" ++ rest) = line :: headerLines rest := by
  have split : lines (line ++ asBytes "\r\n" ++ rest) = (line ++ [0x0d]) :: lines rest := by
    have next := @lines_append (line ++ [0x0d]) (by simpa using single) rest
    rw [← next, show asBytes "\r\n" = [0x0d, 0x0a] by decide]
    simp
  rw [headerLines, split, map_cons, stripCr_append,
    takeWhile_cons_of_pos (by simpa using filled), headerLines]

theorem headerLines_blank (rest : Bytes) : headerLines (asBytes "\r\n" ++ rest) = [] := by
  have split := @lines_append [0x0d] (by decide) rest
  rw [headerLines, show asBytes "\r\n" ++ rest = [0x0d] ++ 0x0a :: rest from rfl, split]
  rfl

variable {hostname : String}

theorem notMem_pathLine (single : '\n' ∉ hostname.toList)
    (each : (0x0a : UInt8) ∉ line) : (0x0a : UInt8) ∉ pathLine hostname line := by
  rw [pathLine]
  split
  · have value : '\n' ∉ (trim (fromUtf8Lossy (line.drop 5))).toList :=
      notMem_trim (notMem_fromUtf8Lossy (by decide) fun member => each (mem_of_mem_drop member))
    have whole : '\n' ∉ ("Path: " ++ hostname ++ "!" ++ trim (fromUtf8Lossy (line.drop 5))).toList := by
      simp [single, value]
    exact notMem_asBytes (by decide) whole
  · exact each

theorem pathLine_ne_nil (filled : line ≠ []) : pathLine hostname line ≠ [] := by
  rw [pathLine]
  split
  · simp [asBytes]
  · exact filled

theorem prependPathLines_cons (hostname : String) (pathFound : Bool)
    (rest : List Bytes) (filled : stripCr line ≠ []) :
    prependPathLines hostname pathFound false (line :: rest) =
      pathLine hostname (stripCr line) ++ asBytes "\r\n" ++
        prependPathLines hostname (pathFound || decide (IsPath (stripCr line))) false rest := by
  have inner : ¬ (line = [] ∧ rest = []) := by
    rintro ⟨rfl, -⟩
    exact filled rfl
  rw [prependPathLines, if_neg inner]
  simp only [Bool.false_eq_true, if_false, filled, pathLine]
  by_cases path : IsPath (stripCr line)
  · have same : 5 ≤ (stripCr line).length ∧
      eqIgnoreAsciiCase ((stripCr line).take 5) (asBytes "path:") = true := path
    simp [same, path, asBytes_append]
  · have same : ¬ (5 ≤ (stripCr line).length ∧
      eqIgnoreAsciiCase ((stripCr line).take 5) (asBytes "path:") = true) := path
    simp [same, path]

theorem headerLines_prependPathLines (single : '\n' ∉ hostname.toList)
    (pathFound : Bool) (ls : List Bytes) (each : ∀ l ∈ ls, (0x0a : UInt8) ∉ l) :
    ∃ added : List Bytes, (∀ l ∈ added, l = asBytes ("Path: " ++ hostname)) ∧
      headerLines (prependPathLines hostname pathFound false ls) =
        ((ls.map stripCr).takeWhile (· ≠ [])).map (pathLine hostname) ++ added := by
  induction ls generalizing pathFound with
  | nil => exact ⟨[], by simp, by simp [prependPathLines, headerLines, lines, stripCr]⟩
  | cons line rest ih =>
    rw [forall_mem_cons] at each
    by_cases blank : stripCr line = []
    · rw [prependPathLines]
      by_cases last : line = [] ∧ rest = []
      · rw [if_pos last]
        exact ⟨[], by simp, by simp [last, headerLines, lines, stripCr]⟩
      · -- The blank line: `Path` is put in front of it if there was none.
        rw [if_neg last]
        simp only [map_cons, blank, ne_eq, not_true_eq_false, decide_false, Bool.false_eq_true,
          not_false_eq_true, takeWhile_cons_of_neg, map_nil, nil_append, if_false,
          if_true]
        cases pathFound with
        | true => exact ⟨[], by simp, headerLines_blank _⟩
        | false =>
          refine ⟨[asBytes ("Path: " ++ hostname)], by simp, ?_⟩
          have unbroken : (0x0a : UInt8) ∉ asBytes ("Path: " ++ hostname) :=
            notMem_asBytes (c := '\n') (by decide) (by simp [single])
          have new := headerLines_append unbroken (by simp [asBytes]) (asBytes "\r\n" ++
            prependPathLines hostname false true rest)
          rw [headerLines_blank] at new
          simpa only [asBytes_append, append_assoc, Bool.false_eq_true, if_false] using new
    · have unbroken : (0x0a : UInt8) ∉ stripCr line := by
        rw [stripCr]
        split
        · exact fun member => each.1 (dropLast_subset line member)
        · exact each.1
      obtain ⟨added, new, written⟩ := ih (pathFound || decide (IsPath (stripCr line))) each.2
      refine ⟨added, new, ?_⟩
      rw [prependPathLines_cons hostname pathFound rest blank,
        headerLines_append (notMem_pathLine single unbroken) (pathLine_ne_nil blank), written,
        map_cons, takeWhile_cons_of_pos (by simpa using blank), map_cons,
        cons_append]

theorem headerLines_prependPathHeader (single : '\n' ∉ hostname.toList) (articleBytes : Bytes) :
    ∃ added : List Bytes, (∀ l ∈ added, l = asBytes ("Path: " ++ hostname)) ∧
      headerLines (prependPathHeader articleBytes hostname) =
        (headerLines articleBytes).map (pathLine hostname) ++ added := by
  apply headerLines_prependPathLines single
  intro l member inside
  rw [lines, splitOn_eq_splitOnP] at member
  simpa using notMem_splitOnP member _ inside

theorem IsPath.head (path : IsPath line) : line.head?.map toAsciiLowercase = some 0x70 := by
  obtain ⟨long, named⟩ := path
  cases line with
  | nil => simp at long
  | cons b rest =>
    simp only [eqIgnoreAsciiCase, beq_iff_eq, take_succ_cons, map_cons] at named
    have first := congrArg List.head? named
    simpa [show ((asBytes "path:").map toAsciiLowercase).head? = some 0x70 by decide] using first

theorem IsField.head (field : IsField "message-id:" line) :
    line.head?.map toAsciiLowercase = some 0x6d := by
  have named := congrArg List.head? (startsWithName_eq_ok field.named)
  rw [length_messageId, show ((asBytes "message-id:").map toAsciiLowercase).head? = some 0x6d by
    decide] at named
  cases line with
  | nil => simp at named
  | cons b rest => simpa using named

theorem Folded.not_isPath (folded : Folded line) : ¬ IsPath line := by
  intro path
  have first := path.head
  rcases folded with space | tab
  · simp [space, toAsciiLowercase] at first
  · simp [tab, toAsciiLowercase] at first

theorem head_pathLine (path : IsPath line) : (pathLine hostname line).head? = some 0x50 := by
  rw [pathLine, if_pos path]
  simp [asBytes]
  decide

theorem not_isField_of_head (capital : line.head? = some 0x50) :
    ¬ IsField "message-id:" line := by
  intro field
  have first := field.head
  simp [capital, toAsciiLowercase] at first

theorem not_folded_of_head (capital : line.head? = some 0x50) : ¬ Folded line := by
  simp [Folded, capital]

theorem MessageIdField.prependPath (single : '\n' ∉ hostname.toList)
    {articleBytes : Bytes} {folds : List Bytes}
    (field : MessageIdField (headerLines articleBytes) line folds) :
    MessageIdField (headerLines (prependPathHeader articleBytes hostname)) line folds := by
  obtain ⟨isField, folded, before, after, header, other, stops⟩ := field
  obtain ⟨added, new, rewritten⟩ := headerLines_prependPathHeader single articleBytes
  have sameLine : pathLine hostname line = line := by
    refine if_neg fun path => ?_
    simpa [isField.head] using path.head
  have sameFolds : folds.map (pathLine hostname) = folds := by
    conv_rhs => rw [← map_id folds]
    exact map_congr_left fun l member => if_neg (folded l member).not_isPath
  refine ⟨isField, folded, before.map (pathLine hostname), after.map (pathLine hostname) ++ added,
    ?_, ?_, ?_⟩
  · simp [rewritten, header, sameLine, sameFolds]
  · intro l member
    obtain ⟨l, inside, rfl⟩ := mem_map.mp member
    by_cases path : IsPath l
    · exact not_isField_of_head (head_pathLine path)
    · rw [pathLine, if_neg path]
      exact other l inside
  · intro l member
    cases after with
    | nil =>
      obtain rfl := new l (mem_of_mem_head? (by simpa using member))
      exact not_folded_of_head (by simp [asBytes]; decide)
    | cons next after =>
      simp only [map_cons, cons_append, List.head?_cons, Option.mem_some_iff] at member
      subst member
      by_cases path : IsPath next
      · exact not_folded_of_head (head_pathLine path)
      · rw [pathLine, if_neg path]
        exact stops next (by simp)

end Stoa
