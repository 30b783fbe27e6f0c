import Mathlib.Data.List.DropRight
import Stoa.Lib.Runs
import Stoa.Transit.Ingestion

/-!
- `inSync_iff`: the session stays in step with the peer exactly if every TAKETHIS is
  written with a space and comes in streaming mode, and no article that gets as far as the
  scan for its Message-ID makes that scan panic.
-/
namespace Stoa.Peering

open Text

inductive PeeringMode
  | ihave
  | streaming
  deriving DecidableEq, Repr

def handleModeStream (_currentMode : PeeringMode) : String × PeeringMode :=
  ("203 Streaming permitted\r\n", .streaming)

def capabilitiesResponse : String :=
  "101 Capability list:\r\nVERSION 2\r\nIHAVE\r\nSTREAMING\r\n.\r\n"

def ihaveResponse : IngestResult → String
  | .accepted => "235 Article transferred OK\r\n"
  | .duplicate => "435 Duplicate\r\n"
  | .rejected _ => "437 Article rejected\r\n"
  | .transientError _ => "436 Transfer failed, try again later\r\n"

def takethisResponse : IngestResult → String
  | .accepted => "239 Article transferred OK\r\n"
  | .duplicate => "438 Already have it\r\n"
  | .rejected _ => "439 Article not wanted\r\n"
  | .transientError _ => "431 Try sending it again later\r\n"

def checkResponse : IngestResult → String
  | .accepted => "238 Send it\r\n"
  | .duplicate => "438 Already have it\r\n"
  | .rejected _ => "438 Article not wanted\r\n"
  | .transientError _ => "431 Try sending it again later\r\n"

def checkModeGuard : PeeringMode → Option String
  | .streaming => none
  | .ihave => some "401 This command is only allowed in streaming mode\r\n"

def takethisModeGuard : PeeringMode → Option String
  | .streaming => none
  | .ihave => some "500 Command not available in current mode\r\n"

def withMsgid (response absent msgid : String) : String :=
  (asciiWords response).head?.getD absent ++ " " ++ msgid ++ "\r\n"

def sendIt : String := "335 Send it\r\n"

/-- Only a code that begins with 3 leaves the command open. -/
def Final (response : String) : Prop := response.toList.head? ≠ some '3'

instance (response : String) : Decidable (Final response) :=
  inferInstanceAs (Decidable (_ ≠ _))

/-- The queries of a session to the shared state. Other sessions and the workers change that
state in between: what a query leaves need not be what the next one finds. -/
class PeeringShared (σ : Type) where
  msgidMap : σ → MsgIdMap
  setMsgidMap : MsgIdMap → σ → σ
  /-- The rate limiter lets the article pass. -/
  admits : σ → Bool × σ
  /-- The article is staged or queued; there may be no room for it. -/
  enqueueArticle : String → Bytes → σ → Bool × σ
  recordAccepted : σ → σ
  recordAndMaybeBlacklist : σ → σ

def checkMsgidOnly (msgid : String) : Prog MsgIdMap CharBoundaryPanic IngestResult :=
  match validateMessageId msgid with
  | .error _ => pure (.rejected "invalid Message-ID")
  | .ok () => do
    match ← Prog.attempt (MsgIdMap.lookupByMsgid msgid) with
    | .error e => return .transientError e.toString
    | .ok (some _) => return .duplicate
    | .ok none => return .accepted

theorem checkMsgidOnly_returns (msgid : String) (map : MsgIdMap) :
    ∃ result, ((checkMsgidOnly msgid).exec map).1 = .ok result := by
  rw [checkMsgidOnly]
  split
  · exact ⟨_, rfl⟩
  · rw [Prog.exec_bind, Prog.exec_attempt]
    rcases (MsgIdMap.lookupByMsgid msgid).exec map with ⟨e | _ | cid, map'⟩
    · exact ⟨_, rfl⟩
    · exact ⟨_, rfl⟩
    · exact ⟨_, rfl⟩

/-- `trim_end_matches(['\r', '\n'])`. -/
def trimEol (line : String) : String :=
  String.ofList (line.toList.rdropWhile fun c => c == '\r' || c == '\n')

inductive DotStuffedResult
  | data (bytes : Bytes)
  | tooLarge
  deriving DecidableEq, Repr

/-- Where the loop of `read_dot_stuffed` stands. -/
structure DotStuffed where
  buf : Bytes
  tooLarge : Bool

def outputLine (trimmed : String) : String :=
  match stripStart ".." trimmed with
  | some rest => "." ++ rest ++ "\r\n"
  | none => trimmed ++ "\r\n"

/-- The loop body of `read_dot_stuffed`: the result, or where the loop stands next. -/
def DotStuffed.readLine (s : DotStuffed) (line : String) : DotStuffedResult ⊕ DotStuffed :=
  let trimmed := trimEol line
  if trimmed = "." then .inl (if s.tooLarge then .tooLarge else .data s.buf)
  -- Drain mode: the terminator is still looked for, but nothing is kept.
  else if s.tooLarge then .inr s
  else
    let output := asBytes (outputLine trimmed)
    if s.buf.length + output.length > maxIngestBytes then .inr { s with tooLarge := true }
    else .inr { s with buf := s.buf ++ output }

inductive Transfer
  | takethis
  | ihave
  deriving DecidableEq, Repr

inductive Reading
  | command
  | article (transfer : Transfer) (msgid : String) (soFar : DotStuffed)
  /-- The loop was left, or the task has panicked. -/
  | closed

structure PeeringSession (σ : Type) where
  mode : PeeringMode
  reading : Reading
  shared : σ

def PeeringSession.start {σ : Type} (shared : σ) : PeeringSession σ := ⟨.ihave, .command, shared⟩

/-- The texts of a transfer: the response to a result, that to an article for which there is
no room now, and that to one that is too large. -/
def Transfer.response (transfer : Transfer) (msgid : String) (result : IngestResult) : String :=
  match transfer with
  | .takethis => withMsgid (takethisResponse result) "431" msgid
  | .ihave => ihaveResponse result

def Transfer.later (transfer : Transfer) (msgid : String) : String :=
  match transfer with
  | .takethis => withMsgid "436 Transfer not possible; try again later" "431" msgid
  | .ihave => "436 Transfer failed, try again later\r\n"

def Transfer.large (transfer : Transfer) (msgid : String) : String :=
  match transfer with
  | .takethis => "439 " ++ msgid ++ " Article too large\r\n"
  | .ihave => "437 Article too large\r\n"

section Loop

variable {σ : Type} [PeeringShared σ]

open PeeringShared

def query (p : Prog MsgIdMap CharBoundaryPanic IngestResult) (shared : σ) :
    Except CharBoundaryPanic IngestResult × σ :=
  let (result, map) := p.exec (msgidMap shared)
  (result, setMsgidMap map shared)

def admitArticle (transfer : Transfer) (msgid : String) (bytes : Bytes) (shared : σ) : String × σ :=
  let (admitted, shared) := admits shared
  if admitted then
    let (queued, shared) := enqueueArticle msgid bytes shared
    if queued then (transfer.response msgid .accepted, recordAccepted shared)
    else (transfer.later msgid, shared)
  else (transfer.later msgid, recordAndMaybeBlacklist shared)

/-- The response to an article that has been read; none if the task panics. -/
def receiveArticle (transfer : Transfer) (msgid : String) (result : DotStuffedResult) (shared : σ) :
    Option String × σ :=
  match result with
  | .tooLarge => (some (transfer.large msgid), shared)
  | .data bytes =>
    match query (checkIngest msgid bytes) shared with
    | (.error _, shared) => (none, shared)
    | (.ok .accepted, shared) =>
      let (response, shared) := admitArticle transfer msgid bytes shared
      (some response, shared)
    | (.ok (.rejected reason), shared) =>
      (some (transfer.response msgid (.rejected reason)), recordAndMaybeBlacklist shared)
    | (.ok result, shared) => (some (transfer.response msgid result), shared)

inductive PeeringVerb
  | capabilities
  | modeStream
  | quit
  | check
  | takethis
  | ihave
  | xcid
  | unknown (verb : String)
  deriving DecidableEq, Repr

def parseVerb (verb arg : String) : PeeringVerb :=
  match verb with
  | "CAPABILITIES" => .capabilities
  | "MODE" => if sameIgnoringCase arg "STREAM" then .modeStream else .unknown verb
  | "QUIT" => .quit
  | "CHECK" => .check
  | "TAKETHIS" => .takethis
  | "IHAVE" => .ihave
  | "XCID" => .xcid
  | _ => .unknown verb

def verbOf (cmdStr : String) : String := toAsciiUppercase (splitOnce (· == ' ') cmdStr).1

def argOf (cmdStr : String) : String := trim ((splitOnce (· == ' ') cmdStr).2.getD "")

def runCommand (cmdStr : String) (s : PeeringSession σ) : List String × PeeringSession σ :=
  let arg := argOf cmdStr
  match parseVerb (verbOf cmdStr) arg with
  | .capabilities => ([capabilitiesResponse], s)
  | .modeStream =>
    let (response, mode) := handleModeStream s.mode
    ([response], { s with mode })
  | .quit => (["205 Closing connection\r\n"], { s with reading := .closed })
  | .check =>
    match checkModeGuard s.mode with
    | some response => ([response], s)
    | none =>
      match query (checkMsgidOnly arg) s.shared with
      -- Not taken: the check has no slices.
      | (.error _, shared) => ([], { s with reading := .closed, shared })
      | (.ok result, shared) => ([withMsgid (checkResponse result) "438" arg], { s with shared })
  | .takethis =>
    match takethisModeGuard s.mode with
    | some response => ([response], s)
    | none => ([], { s with reading := .article .takethis arg ⟨[], false⟩ })
  | .ihave =>
    match query (checkMsgidOnly arg) s.shared with
    | (.error _, shared) => ([], { s with reading := .closed, shared })
    | (.ok .accepted, shared) =>
      ([sendIt], { s with reading := .article .ihave arg ⟨[], false⟩, shared })
    | (.ok .duplicate, shared) => (["435 Duplicate\r\n"], { s with shared })
    | (.ok (.transientError _), shared) =>
      (["436 Transfer failed, try again later\r\n"], { s with shared })
    | (.ok (.rejected _), shared) => (["437 Article rejected\r\n"], { s with shared })
  | .xcid => (["502 Command unavailable\r\n"], s)
  | .unknown verb => (["500 Unknown command: " ++ verb ++ "\r\n"], s)

/-- What a line leads to: the commands it was executed as, and the responses. -/
structure Turn where
  executed : List String
  written : List String
  deriving DecidableEq, Repr

def finishArticle (transfer : Transfer) (msgid : String) (result : DotStuffedResult)
    (s : PeeringSession σ) : Turn × PeeringSession σ :=
  match receiveArticle transfer msgid result s.shared with
  | (some response, shared) => (⟨[], [response]⟩, { s with reading := .command, shared })
  | (none, shared) => (⟨[], []⟩, { s with reading := .closed, shared })

def onLine (line : String) (s : PeeringSession σ) : Turn × PeeringSession σ :=
  match s.reading with
  | .closed => (⟨[], []⟩, s)
  | .command =>
    let cmdStr := trimEol line
    if cmdStr = "" then (⟨[], []⟩, s)
    else
      let (written, s) := runCommand cmdStr s
      (⟨[cmdStr], written⟩, s)
  | .article transfer msgid soFar =>
    match soFar.readLine line with
    | .inr soFar => (⟨[], []⟩, { s with reading := .article transfer msgid soFar })
    | .inl result => finishArticle transfer msgid result s

def onLines : List String → PeeringSession σ → Turn × PeeringSession σ
  | [], s => (⟨[], []⟩, s)
  | line :: lines, s =>
    let (turn, s) := onLine line s
    let (rest, s) := onLines lines s
    (⟨turn.executed ++ rest.executed, turn.written ++ rest.written⟩, s)

end Loop

open String PeeringSession PeeringShared DotStuffed

structure PeerCommand where
  line : String
  article : List String
  oneLine : '\n' ∉ line.toList
  content : trimEol line ≠ ""
  articleLines : ∀ l ∈ article, '\n' ∉ l.toList

def stuffLine (line : String) : String :=
  (if line.toList.head? = some '.' then "." ++ line else line) ++ "\r\n"

def stuffed (article : List String) : List String := article.map stuffLine ++ [".\r\n"]

/-- The article without the carriage returns at the ends of its lines. -/
def received (article : List String) : Bytes :=
  article.flatMap fun line => asBytes (trimEol line ++ "\r\n")

def keywordOf (cmdStr : String) : String :=
  toAsciiUppercase (splitOnce (fun c => c == ' ' || c == '\t') cmdStr).1

namespace PeerCommand

def cmdStr (c : PeerCommand) : String := trimEol c.line

def keyword (c : PeerCommand) : String := keywordOf c.cmdStr

/-- The lines after the command: the article at once for TAKETHIS, and for IHAVE if asked. -/
def follows (c : PeerCommand) (written : List String) : List String :=
  if c.keyword = "TAKETHIS" then stuffed c.article
  else if c.keyword = "IHAVE" ∧ sendIt ∈ written then stuffed c.article
  else []

end PeerCommand

def QuitsLast : List PeerCommand → Prop
  | [] => True
  | c :: cs => (c.keyword = "QUIT" → cs = []) ∧ QuitsLast cs

section Conversation

variable {σ : Type} [PeeringShared σ]

def peerStep (c : PeerCommand) (s : PeeringSession σ) : Turn × PeeringSession σ :=
  let (turn, s) := onLine (c.line ++ "\r\n") s
  let (rest, s) := onLines (c.follows turn.written) s
  (⟨turn.executed ++ rest.executed, turn.written ++ rest.written⟩, s)

/-- The command is executed, nothing else is, and there is one final response. -/
structure InSync (c : PeerCommand) (s : PeeringSession σ) : Prop where
  executed : (peerStep c s).1.executed = [c.cmdStr]
  written : (peerStep c s).1.written.countP (fun r => decide (Final r)) = 1

def Transfers (c : PeerCommand) (s : PeeringSession σ) : Prop :=
  c.keyword = "TAKETHIS" ∨ verbOf c.cmdStr = "IHAVE" ∧
    ((checkMsgidOnly (argOf c.cmdStr)).exec (PeeringShared.msgidMap s.shared)).1 = .ok .accepted

def Scannable (msgid : String) (article : List String) : Prop :=
  (received article).length ≤ maxIngestBytes → validateMessageId msgid = .ok () →
    Uncut ["message-id:"] (headerLines (received article))

structure Served (c : PeerCommand) (s : PeeringSession σ) : Prop where
  framed : c.keyword = "TAKETHIS" → verbOf c.cmdStr = "TAKETHIS" ∧ s.mode = .streaming
  scanned : Transfers c s → Scannable (argOf c.cmdStr) c.article

end Conversation

theorem rdropWhile_cons_of_not {α : Type} {p : α → Bool} {x : α} (keeps : p x = false) (xs : List α) :
    (x :: xs).rdropWhile p = x :: xs.rdropWhile p := by
  simp only [List.rdropWhile, List.reverse_cons, List.dropWhile_append]
  split
  · next none => simp_all
  · simp

@[simp] theorem trimEol_crlf (s : String) : trimEol (s ++ "\r\n") = trimEol s := by
  simp [trimEol, List.rdropWhile]

theorem trimEol_dot (s : String) : trimEol ("." ++ s) = "." ++ trimEol s := by
  apply toList_injective
  simp only [trimEol, toList_ofList, toList_append]
  exact rdropWhile_cons_of_not rfl s.toList

theorem head_trimEol {s : String} : (trimEol s).toList.head? = some '.' ↔ s.toList.head? = some '.' := by
  rw [trimEol, toList_ofList]
  cases cs : s.toList with
  | nil => simp
  | cons c rest =>
    by_cases dot : c = '.'
    · subst dot
      simp [rdropWhile_cons_of_not]
    · obtain ⟨dropped, whole⟩ := List.rdropWhile_prefix (fun c => c == '\r' || c == '\n') (c :: rest)
      cases kept : (c :: rest).rdropWhile (fun c => c == '\r' || c == '\n') with
      | nil => simp [dot]
      | cons d rest' =>
        rw [kept, List.cons_append] at whole
        simp [List.head_eq_of_cons_eq whole]

theorem outputLine_stuffLine (line : String) :
    outputLine (trimEol (stuffLine line)) = trimEol line ++ "\r\n" := by
  rw [stuffLine, trimEol_crlf]
  split
  · next dot =>
    -- The line had a dot, and got another one that is taken off again.
    rw [trimEol_dot]
    have first := head_trimEol.mpr dot
    generalize trimEol line = trimmed at first
    obtain ⟨rest, shape⟩ := List.head?_eq_some_iff.mp first
    have strip : stripStart ".." ("." ++ trimmed) = some (String.ofList rest) := by
      simp only [stripStart, toList_append, shape]
      rfl
    apply toList_injective
    simp [outputLine, strip, shape]
  · next plain =>
    have first := mt head_trimEol.mp plain
    generalize trimEol line = trimmed at first
    have strip : stripStart ".." trimmed = none := by
      cases shape : trimmed.toList with
      | nil => simp [stripStart, shape]
      | cons c rest =>
        rw [shape] at first
        have other : ¬ '.' = c := by simpa [eq_comm] using first
        simp [stripStart, shape, other]
    rw [outputLine, strip]

theorem trimEol_stuffLine_ne (line : String) : trimEol (stuffLine line) ≠ "." := by
  rw [stuffLine, trimEol_crlf]
  split
  · next dot =>
    rw [trimEol_dot]
    intro same
    obtain ⟨rest, shape⟩ := List.head?_eq_some_iff.mp (head_trimEol.mpr dot)
    simpa [shape] using congrArg String.toList same
  · next plain =>
    intro same
    exact plain (head_trimEol.mp (by rw [same]; rfl))

theorem readLine_stuffLine (buf : Bytes) (line : String) :
    (mk buf false).readLine (stuffLine line) =
      if maxIngestBytes < buf.length + (asBytes (trimEol line ++ "\r\n")).length then .inr ⟨buf, true⟩
      else .inr ⟨buf ++ asBytes (trimEol line ++ "\r\n"), false⟩ := by
  simp [readLine, trimEol_stuffLine_ne, outputLine_stuffLine]

theorem readLine_drain (buf : Bytes) (line : String) :
    (mk buf true).readLine (stuffLine line) = .inr ⟨buf, true⟩ := by
  simp [readLine, trimEol_stuffLine_ne]

theorem readLine_end (s : DotStuffed) :
    s.readLine ".\r\n" = .inl (if s.tooLarge then .tooLarge else .data s.buf) := by
  have terminator : trimEol ".\r\n" = "." := rfl
  simp [readLine, terminator]

section Loop

variable {σ : Type} [PeeringShared σ]

def PeeringSession.inArticle (s : PeeringSession σ) (transfer : Transfer) (msgid : String)
    (soFar : DotStuffed) : PeeringSession σ := { s with reading := .article transfer msgid soFar }

theorem onLines_more (s : PeeringSession σ) (transfer : Transfer) (msgid : String)
    {soFar soFar' : DotStuffed} {line : String} (read : soFar.readLine line = .inr soFar')
    (lines : List String) : onLines (line :: lines) (s.inArticle transfer msgid soFar) =
      onLines lines (s.inArticle transfer msgid soFar') := by
  simp [onLines, onLine, inArticle, read]

theorem onLines_end (s : PeeringSession σ) (transfer : Transfer) (msgid : String) (soFar : DotStuffed) :
    onLines [".\r\n"] (s.inArticle transfer msgid soFar) = finishArticle transfer msgid
      (if soFar.tooLarge then .tooLarge else .data soFar.buf) s := by
  simp [onLines, onLine, inArticle, readLine_end, finishArticle]

theorem stuffed_cons (line : String) (article : List String) :
    stuffed (line :: article) = stuffLine line :: stuffed article := rfl

theorem onLines_drain (s : PeeringSession σ) (transfer : Transfer) (msgid : String) (buf : Bytes)
    (article : List String) : onLines (stuffed article) (s.inArticle transfer msgid ⟨buf, true⟩) =
      finishArticle transfer msgid .tooLarge s := by
  induction article with
  | nil => exact onLines_end s transfer msgid ⟨buf, true⟩
  | cons line article ih => rw [stuffed_cons, onLines_more _ _ _ (readLine_drain buf line), ih]

theorem onLines_stuffed (s : PeeringSession σ) (transfer : Transfer) (msgid : String) {buf : Bytes}
    (fits : buf.length ≤ maxIngestBytes) (article : List String) :
    onLines (stuffed article) (s.inArticle transfer msgid ⟨buf, false⟩) = finishArticle transfer msgid
      (if maxIngestBytes < (buf ++ received article).length then .tooLarge
        else .data (buf ++ received article)) s := by
  induction article generalizing buf with
  | nil =>
    rw [received, List.flatMap_nil, List.append_nil, if_neg (by omega)]
    exact onLines_end s transfer msgid ⟨buf, false⟩
  | cons line article ih =>
    have next := readLine_stuffLine buf line
    have parts : buf ++ received (line :: article) =
        (buf ++ asBytes (trimEol line ++ "\r\n")) ++ received article := by
      simp [received]
    rw [stuffed_cons, parts]
    split at next
    · -- Too large now, so too large in the end.
      rw [onLines_more _ _ _ next, onLines_drain, if_pos]
      simp only [List.length_append] at *
      omega
    · rw [onLines_more _ _ _ next, ih]
      rw [List.length_append]
      omega

variable {s : PeeringSession σ}

theorem executed_stuffed (article : List String)
    (waiting : s.reading = .command) : (onLines (stuffed article) s).1.executed ≠ [] := by
  induction article with
  | nil => simp [stuffed, onLines, onLine, waiting, show trimEol ".\r\n" = "." from rfl]
  | cons line article ih =>
    rw [stuffed_cons, onLines, onLine, waiting]
    by_cases blank : trimEol (stuffLine line) = ""
    · simpa [blank] using ih
    · simp [blank]

omit [PeeringShared σ]

theorem final_append {code : String} (final : Final code) (nonempty : code ≠ "") (rest : String) :
    Final (code ++ rest) := by
  rw [Final, toList_append, List.head?_append_of_ne_nil]
  · exact final
  · simpa using nonempty

theorem final_withMsgid {response absent msgid : String}
    (final : Final ((asciiWords response).head?.getD absent))
    (nonempty : (asciiWords response).head?.getD absent ≠ "") :
    Final (withMsgid response absent msgid) := by
  rw [withMsgid, append_assoc, append_assoc]
  exact final_append final nonempty _

theorem final_response (transfer : Transfer) (msgid : String) (result : IngestResult) :
    Final (transfer.response msgid result) := by
  cases transfer with
  | takethis =>
    apply final_withMsgid
    · cases result <;> simp only [takethisResponse] <;> decide
    · cases result <;> simp only [takethisResponse] <;> decide
  | ihave => cases result <;> simp only [Transfer.response, ihaveResponse] <;> decide

theorem final_later (transfer : Transfer) (msgid : String) : Final (transfer.later msgid) := by
  cases transfer with
  | takethis => exact final_withMsgid (by decide) (by decide)
  | ihave => exact (by decide : Final "436 Transfer failed, try again later\r\n")

theorem final_large (transfer : Transfer) (msgid : String) : Final (transfer.large msgid) := by
  cases transfer with
  | takethis =>
    rw [Transfer.large, append_assoc]
    exact final_append (by decide) (by decide) _
  | ihave => exact (by decide : Final "437 Article too large\r\n")

variable [PeeringShared σ]

theorem final_admitArticle (transfer : Transfer) (msgid : String) (bytes : Bytes) (shared : σ) :
    Final (admitArticle transfer msgid bytes shared).1 := by
  simp only [admitArticle]
  split
  · split
    · exact final_response transfer msgid .accepted
    · exact final_later transfer msgid
  · exact final_later transfer msgid

theorem receiveArticle_outcome (transfer : Transfer) (msgid : String) (result : DotStuffedResult)
    (shared : σ) :
    (∃ response, (receiveArticle transfer msgid result shared).1 = some response ∧ Final response ∧
      ∀ bytes, result = .data bytes → validateMessageId msgid = .ok () →
        bytes.length ≤ maxIngestBytes → Uncut ["message-id:"] (headerLines bytes)) ∨
    (receiveArticle transfer msgid result shared).1 = none ∧ ∃ bytes, result = .data bytes ∧
      ¬ (validateMessageId msgid = .ok () → bytes.length ≤ maxIngestBytes →
        Uncut ["message-id:"] (headerLines bytes)) := by
  cases result with
  | tooLarge => exact .inl ⟨_, rfl, final_large transfer msgid, by simp⟩
  | data bytes =>
    have returns := checkIngest_returns_iff msgid bytes (msgidMap shared)
    cases checked : ((checkIngest msgid bytes).exec (msgidMap shared)).1 with
    | error panic =>
      refine .inr ⟨by simp [receiveArticle, query, checked], bytes, rfl, ?_⟩
      simp [← returns, checked]
    | ok verdict =>
      have scanned := returns.mp ⟨verdict, checked⟩
      have about : ∀ bytes', DotStuffedResult.data bytes = .data bytes' →
          validateMessageId msgid = .ok () → bytes'.length ≤ maxIngestBytes →
          Uncut ["message-id:"] (headerLines bytes') := by
        rintro _ ⟨⟩
        exact scanned
      left
      simp only [receiveArticle, query, checked]
      cases verdict with
      | accepted => exact ⟨_, rfl, final_admitArticle transfer msgid bytes _, about⟩
      | duplicate => exact ⟨_, rfl, final_response transfer msgid _, about⟩
      | rejected reason => exact ⟨_, rfl, final_response transfer msgid _, about⟩
      | transientError message => exact ⟨_, rfl, final_response transfer msgid _, about⟩

structure Answered (cmdStr : String) (s : PeeringSession σ) (next : List String × PeeringSession σ) :
    Prop where
  written : ∃ response, next.1 = [response] ∧ Final response
  reading : parseVerb (verbOf cmdStr) (argOf cmdStr) ≠ .quit → next.2.reading = s.reading

omit [PeeringShared σ] in
theorem answered_of_final {cmdStr response : String} {s' : PeeringSession σ}
    (final : Final response) (reading : s'.reading = s.reading) : Answered cmdStr s ([response], s') :=
  ⟨⟨response, rfl, final⟩, fun _ => reading⟩

theorem runCommand_takethis {cmdStr : String}
    (verb : parseVerb (verbOf cmdStr) (argOf cmdStr) = .takethis) (mode : s.mode = .streaming) :
    runCommand cmdStr s = ([], s.inArticle .takethis (argOf cmdStr) ⟨[], false⟩) := by
  simp [runCommand, verb, mode, takethisModeGuard, inArticle]

theorem runCommand_ihave {cmdStr : String} (verb : parseVerb (verbOf cmdStr) (argOf cmdStr) = .ihave)
    (wanted : ((checkMsgidOnly (argOf cmdStr)).exec (msgidMap s.shared)).1 =
      .ok .accepted) : ∃ shared, runCommand cmdStr s =
      ([sendIt], inArticle { s with shared } .ihave (argOf cmdStr) ⟨[], false⟩) := by
  simp [runCommand, verb, query, wanted, inArticle]

theorem runCommand_answered {cmdStr : String}
    (notTaken : parseVerb (verbOf cmdStr) (argOf cmdStr) = .takethis → s.mode ≠ .streaming)
    (unwanted : parseVerb (verbOf cmdStr) (argOf cmdStr) = .ihave →
      ((checkMsgidOnly (argOf cmdStr)).exec (msgidMap s.shared)).1 ≠ .ok .accepted) :
    Answered cmdStr s (runCommand cmdStr s) := by
  obtain ⟨result, checked⟩ := checkMsgidOnly_returns (argOf cmdStr) (msgidMap s.shared)
  rw [runCommand]
  cases verb : parseVerb (verbOf cmdStr) (argOf cmdStr) with
  | capabilities => exact answered_of_final (by decide) rfl
  | modeStream => exact answered_of_final (by decide) rfl
  | quit => exact ⟨⟨_, rfl, by decide⟩, absurd verb⟩
  | check =>
    cases mode : s.mode with
    | ihave => exact answered_of_final (by decide) rfl
    | streaming =>
      simp only [checkModeGuard, query, checked]
      refine answered_of_final (final_withMsgid ?_ ?_) rfl
      · cases result <;> simp only [checkResponse] <;> decide
      · cases result <;> simp only [checkResponse] <;> decide
  | takethis =>
    cases mode : s.mode with
    | ihave => exact answered_of_final (by decide) rfl
    | streaming => exact absurd mode (notTaken verb)
  | ihave =>
    simp only [query, checked]
    cases result with
    | accepted => exact absurd checked (unwanted verb)
    | duplicate => exact answered_of_final (by decide) rfl
    | rejected reason => exact answered_of_final (by decide) rfl
    | transientError message => exact answered_of_final (by decide) rfl
  | xcid => exact answered_of_final (by decide) rfl
  | unknown text =>
    refine answered_of_final ?_ rfl
    rw [append_assoc]
    exact final_append (by decide) (by decide) _

end Loop

def PeeringVerb.name : PeeringVerb → String
  | .capabilities => "CAPABILITIES"
  | .modeStream => "MODE"
  | .quit => "QUIT"
  | .check => "CHECK"
  | .takethis => "TAKETHIS"
  | .ihave => "IHAVE"
  | .xcid => "XCID"
  | .unknown verb => verb

theorem name_parseVerb (verb arg : String) : (parseVerb verb arg).name = verb := by
  unfold parseVerb
  split <;> try rfl
  split <;> rfl

theorem parseVerb_eq_takethis {verb arg : String} :
    parseVerb verb arg = .takethis ↔ verb = "TAKETHIS" := by
  refine ⟨fun parsed => ?_, by rintro rfl; rfl⟩
  rw [← name_parseVerb verb arg, parsed, PeeringVerb.name]

theorem parseVerb_eq_ihave {verb arg : String} : parseVerb verb arg = .ihave ↔ verb = "IHAVE" := by
  refine ⟨fun parsed => ?_, by rintro rfl; rfl⟩
  rw [← name_parseVerb verb arg, parsed, PeeringVerb.name]

theorem splitOnce_fst (p : Char → Bool) (s : String) :
    (splitOnce p s).1 = String.ofList (s.toList.takeWhile (!p ·)) := by
  rw [splitOnce]
  split
  · next rest =>
    have all := List.takeWhile_append_dropWhile (p := (!p ·)) (l := s.toList)
    rw [rest, List.append_nil] at all
    rw [all, ofList_toList]
  · rfl

theorem keywordOf_eq_verbOf {cmdStr : String} (plain : '\t' ∉ (verbOf cmdStr).toList) :
    keywordOf cmdStr = verbOf cmdStr := by
  rw [verbOf, toAsciiUppercase, splitOnce_fst, toList_ofList, toList_ofList] at plain
  rw [keywordOf, verbOf, splitOnce_fst, splitOnce_fst]
  have untabbed : ∀ c ∈ cmdStr.toList.takeWhile (!(· == ' ') ·), (!(c == '\t')) = true := by
    intro c mem
    rw [Bool.not_eq_true', beq_eq_false_iff_ne]
    rintro rfl
    exact plain (List.mem_map.mpr ⟨'\t', mem, rfl⟩)
  rw [← List.takeWhile_eq_self_iff.mpr untabbed, List.takeWhile_takeWhile]
  simp [Bool.and_comm, Bool.beq_eq_decide_eq]

section Conversation

variable {σ : Type} [PeeringShared σ]

variable {c : PeerCommand}

theorem keyword_of_verb {word : String} (verb : verbOf c.cmdStr = word)
    (plain : '\t' ∉ word.toList) : c.keyword = word := by
  rw [PeerCommand.keyword, keywordOf_eq_verbOf (verb ▸ plain), verb]

variable {s : PeeringSession σ}

theorem onLine_command (c : PeerCommand) (waiting : s.reading = .command) :
    onLine (c.line ++ "\r\n") s = (⟨[c.cmdStr], (runCommand c.cmdStr s).1⟩, (runCommand c.cmdStr s).2) := by
  simp [onLine, waiting, c.content, PeerCommand.cmdStr]

theorem peerStep_eq {s' s'' : PeeringSession σ} {written : List String} {rest : Turn}
    (waiting : s.reading = .command) (run : runCommand c.cmdStr s = (written, s'))
    (lines : onLines (c.follows written) s' = (rest, s'')) :
    peerStep c s = (⟨c.cmdStr :: rest.executed, written ++ rest.written⟩, s'') := by
  simp [peerStep, onLine_command c waiting, run, lines]

theorem inSync_transfer {s' : PeeringSession σ} {transfer : Transfer}
    {written : List String} (waiting : s.reading = .command)
    (run : runCommand c.cmdStr s = (written, s'.inArticle transfer (argOf c.cmdStr) ⟨[], false⟩))
    (unanswered : written.countP (fun r => decide (Final r)) = 0)
    (sent : c.follows written = stuffed c.article) : (InSync c s ↔ Scannable (argOf c.cmdStr) c.article) ∧
      (InSync c s → (peerStep c s).2.reading = .command) := by
  have lines := @onLines_stuffed σ _ s' transfer (argOf c.cmdStr) [] (by simp) c.article
  rw [← sent, List.nil_append, finishArticle] at lines
  have outcome := receiveArticle_outcome transfer (argOf c.cmdStr)
    (if maxIngestBytes < (received c.article).length then .tooLarge else .data (received c.article))
    s'.shared
  generalize receiveArticle transfer (argOf c.cmdStr) _ s'.shared = answer at lines outcome
  obtain ⟨said, shared⟩ := answer
  rcases outcome with ⟨response, rfl, final, scanned⟩ | ⟨rfl, bytes, data, unscannable⟩
  · have step := peerStep_eq waiting run lines
    have scannable : Scannable (argOf c.cmdStr) c.article := by
      intro fits valid
      exact scanned _ (if_neg (by omega)) valid fits
    have inSync : InSync c s := ⟨by rw [step], by simp [step, unanswered, final]⟩
    exact ⟨iff_of_true inSync scannable, fun _ => by rw [step]⟩
  · -- The panic ends the session without a response.
    have step := peerStep_eq waiting run lines
    have lost : ¬ InSync c s := by
      intro inSync
      simpa [step, unanswered] using inSync.written
    refine ⟨iff_of_false lost fun scannable => ?_, fun inSync => absurd inSync lost⟩
    split at data
    · cases data
    · cases data
      exact unscannable fun valid fits => scannable fits valid

omit [PeeringShared σ] in
theorem Answered.waiting {next : List String × PeeringSession σ}
    (answered : Answered c.cmdStr s next) (waiting : s.reading = .command)
    (notQuit : c.keyword ≠ "QUIT") : next.2.reading = .command := by
  refine (answered.reading fun quit => notQuit ?_).trans waiting
  have verb := name_parseVerb (verbOf c.cmdStr) (argOf c.cmdStr)
  rw [quit, PeeringVerb.name] at verb
  exact keyword_of_verb verb.symm (by decide)

theorem inSync_answered (waiting : s.reading = .command)
    (answered : Answered c.cmdStr s (runCommand c.cmdStr s)) (bare : c.keyword ≠ "TAKETHIS") :
    InSync c s ∧ (c.keyword ≠ "QUIT" → (peerStep c s).2.reading = .command) := by
  rcases run : runCommand c.cmdStr s with ⟨written, s'⟩
  rw [run] at answered
  obtain ⟨response, rfl, final⟩ := answered.written
  have follows : c.follows [response] = [] := by
    have notAsked : ¬ sendIt = response := by
      rintro rfl
      exact absurd final (by decide)
    simp [PeerCommand.follows, bare, notAsked]
  have step := peerStep_eq waiting run (by rw [follows, onLines])
  refine ⟨⟨by rw [step], by simp [step, final]⟩, fun notQuit => ?_⟩
  rw [step]
  exact answered.waiting waiting notQuit

theorem not_inSync_answered (waiting : s.reading = .command)
    (answered : Answered c.cmdStr s (runCommand c.cmdStr s)) (keyword : c.keyword = "TAKETHIS") :
    ¬ InSync c s := by
  intro inSync
  rcases run : runCommand c.cmdStr s with ⟨written, s'⟩
  rw [run] at answered
  rcases lines : onLines (c.follows written) s' with ⟨rest, s''⟩
  have executed := inSync.executed
  rw [peerStep_eq waiting run lines] at executed
  have waits := answered.waiting waiting (by rw [keyword]; decide)
  have more := @executed_stuffed σ _ s' c.article waits
  rw [PeerCommand.follows, if_pos keyword] at lines
  rw [lines] at more
  exact more (List.cons_eq_cons.mp executed).2

theorem inSync_iff_served (waiting : s.reading = .command) : (InSync c s ↔ Served c s) ∧
      (InSync c s → c.keyword ≠ "QUIT" → (peerStep c s).2.reading = .command) := by
  by_cases taken : verbOf c.cmdStr = "TAKETHIS" ∧ s.mode = .streaming
  · have keyword := keyword_of_verb taken.1 (by decide)
    have transfer := inSync_transfer waiting
      (runCommand_takethis (parseVerb_eq_takethis.mpr taken.1) taken.2) rfl (if_pos keyword)
    refine ⟨transfer.1.trans ⟨fun scannable => ⟨fun _ => taken, fun _ => scannable⟩,
      fun served => served.scanned (.inl keyword)⟩, fun inSync _ => transfer.2 inSync⟩
  · by_cases wanted : verbOf c.cmdStr = "IHAVE" ∧ ((checkMsgidOnly (argOf c.cmdStr)).exec
        (msgidMap s.shared)).1 = .ok .accepted
    · have keyword := keyword_of_verb wanted.1 (by decide)
      have notTaken : c.keyword ≠ "TAKETHIS" := by
        rw [keyword]
        decide
      obtain ⟨shared, run⟩ := runCommand_ihave (parseVerb_eq_ihave.mpr wanted.1) wanted.2
      have transfer := inSync_transfer waiting run (by decide)
        (by simp [PeerCommand.follows, keyword])
      refine ⟨transfer.1.trans ⟨fun scannable => ⟨fun taken => absurd taken notTaken,
        fun _ => scannable⟩, fun served => served.scanned (.inr wanted)⟩,
        fun inSync _ => transfer.2 inSync⟩
    · have answered := runCommand_answered
        (fun verb mode => taken ⟨parseVerb_eq_takethis.mp verb, mode⟩)
        (fun verb accepted => wanted ⟨parseVerb_eq_ihave.mp verb, accepted⟩)
      by_cases keyword : c.keyword = "TAKETHIS"
      · have lost := not_inSync_answered waiting answered keyword
        exact ⟨iff_of_false lost fun served => taken (served.framed keyword),
          fun inSync => absurd inSync lost⟩
      · have inSync := inSync_answered waiting answered keyword
        refine ⟨iff_of_true inSync.1 ⟨fun taken => absurd taken keyword, ?_⟩, fun _ => inSync.2⟩
        rintro (taken | asked)
        · exact absurd taken keyword
        · exact absurd asked wanted

/-- The session stays in step with a peer exactly if every command is one it can serve. -/
theorem inSync_iff {commands : List PeerCommand} (quitsLast : QuitsLast commands) (shared : σ) :
    AlongRun peerStep InSync commands (.start shared) ↔
      AlongRun peerStep Served commands (.start shared) := by
  have waiting : (start shared).reading = .command := rfl
  generalize start shared = s at waiting
  induction commands generalizing s with
  | nil => exact Iff.rfl
  | cons c cs ih =>
    obtain ⟨same, next⟩ := @inSync_iff_served σ _ c s waiting
    rw [AlongRun, AlongRun, ← same]
    refine and_congr_right fun inSync => ?_
    by_cases quit : c.keyword = "QUIT"
    · rw [quitsLast.1 quit]
      exact Iff.rfl
    · exact ih quitsLast.2 _ (next inSync quit)

end Conversation

namespace Sample

structure Quiet where
  msgidMap : MsgIdMap

instance : PeeringShared Quiet where
  msgidMap := Quiet.msgidMap
  setMsgidMap map _ := ⟨map⟩
  admits s := (true, s)
  enqueueArticle _ _ s := (true, s)
  recordAccepted s := s
  recordAndMaybeBlacklist s := s

def quiet : Quiet := ⟨.new⟩

def unannounced : PeerCommand :=
  ⟨"TAKETHIS <1@a>", ["QUIT"], by decide, by decide, by decide⟩

theorem peerStep_unannounced : (peerStep unannounced (.start quiet)).1 =
    ⟨["TAKETHIS <1@a>", "QUIT"],
      ["500 Command not available in current mode\r\n", "205 Closing connection\r\n"]⟩ := by
  rfl

theorem unannounced_executed : ¬ AlongRun peerStep InSync [unannounced] (.start quiet) := by
  rintro ⟨inSync, -⟩
  have executed := inSync.executed
  rw [peerStep_unannounced] at executed
  exact absurd executed (by decide)

def modeStream : PeerCommand := ⟨"MODE STREAM", [], by decide, by decide, by decide⟩

theorem scannable_unannounced : Scannable (argOf unannounced.cmdStr) unannounced.article := by
  intro _ _
  exact (extractMsgidFrom_returns_iff _).mp ⟨none, rfl⟩

theorem announced_inSync : verbOf unannounced.cmdStr = "TAKETHIS" ∧
    AlongRun peerStep InSync [modeStream, unannounced] (.start quiet) := by
  have mode : (peerStep modeStream (.start quiet)).2.mode = .streaming := rfl
  have quitsLast : QuitsLast [modeStream, unannounced] :=
    ⟨fun quit => absurd quit (by decide), fun quit => absurd quit (by decide), trivial⟩
  refine ⟨rfl, (inSync_iff quitsLast quiet).mpr ?_⟩
  refine ⟨⟨fun keyword => absurd keyword (by decide), ?_⟩, ⟨fun _ => ⟨rfl, mode⟩, fun _ => scannable_unannounced⟩, trivial⟩
  rintro (keyword | ⟨verb, -⟩)
  · exact absurd keyword (by decide)
  · exact absurd verb (by decide)

end Sample

end Stoa.Peering
