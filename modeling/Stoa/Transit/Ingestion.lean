import Stoa.Core.MsgIdMap
import Stoa.Core.Validation
import Stoa.Transit.HeaderFields

/-! The envelope Message-ID and the size come first, then the lookup of the Message-ID that the
article itself carries, then the mandatory headers. -/
namespace Stoa

open Text List

def maxIngestBytes : Nat := 1048576

inductive IngestResult
  | accepted
  | duplicate
  | rejected (reason : String)
  | transientError (message : String)
  deriving DecidableEq, Repr

open MsgIdMap in
def ValidationError.toString : ValidationError → String
  | invalidGroupName name => "invalid group name: " ++ debugStr name
  | invalidMessageId id => "invalid message-id: " ++ debugStr id
  | missingMandatoryHeader header => "missing mandatory header: " ++ header
  | headerFieldTooLong field len limit =>
    "header field " ++ debugStr field ++ " too long: " ++ len.repr ++ " > " ++ limit.repr ++ " bytes"
  | articleTooBig size limit =>
    "article too large: " ++ size.repr ++ " bytes (limit " ++ limit.repr ++ ")"
  | dateOutOfRange date => "date out of acceptable range: " ++ date
  | invalidGroupInNewsgroups group => "invalid group in Newsgroups: " ++ debugStr group
  | emptyNewsgroups => "Newsgroups header is empty"
  | tooManyNewsgroups count limit =>
    "too many Newsgroups entries: " ++ count.repr ++ " (limit " ++ limit.repr ++ ")"
  | invalidHeaderValue field reason =>
    "invalid header value in " ++ debugStr field ++ ": " ++ reason

/-- The value with the folded lines after it; `none` when one of them is no text. -/
def withFoldedLines (value : String) : List Bytes → Option String
  | [] => some value
  | ct :: rest =>
    if Folded ct then
      match fromUtf8 ct with
      | none => none
      | some cs => withFoldedLines (value ++ trimAscii cs) rest
    else some value

/-- The scan of `extractBodyMsgid` over the header lines. -/
def extractMsgidFrom : List Bytes → Except CharBoundaryPanic (Option String)
  | [] => .ok none
  | trimmed :: rest =>
    if Folded trimmed then extractMsgidFrom rest
    else
      match fromUtf8 trimmed with
      -- A line that is no text is skipped, a Message-ID line too.
      | none => extractMsgidFrom rest
      | some _ =>
        match startsWithName trimmed "message-id:" with
        | .error panic => .error panic
        | .ok false => extractMsgidFrom rest
        | .ok true =>
          let value := trimAsciiStart (fromUtf8Lossy (trimmed.drop 11))
          .ok ((withFoldedLines value rest).map trimAscii)

def extractBodyMsgid (articleBytes : Bytes) : Except CharBoundaryPanic (Option String) :=
  extractMsgidFrom (headerLines articleBytes)

def hasHeader (articleBytes : Bytes) (name : String) : Bool :=
  let nameBytes := asBytes name
  (headerLines articleBytes).any fun trimmed =>
    decide (nameBytes.length < trimmed.length) &&
      eqIgnoreAsciiCase (trimmed.take nameBytes.length) nameBytes &&
      trimmed[nameBytes.length]? == some 0x3a

section Extract

variable {line : Bytes} {rest : List Bytes}

theorem extractMsgidFrom_cut (cut : Cut line) : extractMsgidFrom (line :: rest) = .error ⟨line⟩ := by
  obtain ⟨s, text⟩ := Option.isSome_iff_exists.mp cut.text
  have panics := (startsWithName_eq_error length_messageId).mpr ⟨cut.long, cut.inside⟩
  simp only [extractMsgidFrom, cut.starts, if_false, text, panics]

theorem extractMsgidFrom_field (field : IsField "message-id:" line) :
    extractMsgidFrom (line :: rest) =
      .ok ((withFoldedLines (trimAsciiStart (fromUtf8Lossy (line.drop 11))) rest).map trimAscii) := by
  obtain ⟨s, text⟩ := Option.isSome_iff_exists.mp field.text
  simp only [extractMsgidFrom, field.starts, if_false, text, field.named]

theorem extractMsgidFrom_other (uncut : ¬ Cut line) (other : ¬ IsField "message-id:" line) :
    extractMsgidFrom (line :: rest) = extractMsgidFrom rest := by
  by_cases folded : Folded line
  · simp only [extractMsgidFrom, folded, if_true]
  · cases text : fromUtf8 line with
    | none => simp only [extractMsgidFrom, folded, if_false, text]
    | some s =>
      have isText : (fromUtf8 line).isSome := by simp [text]
      cases named : startsWithName line "message-id:" with
      | error panic =>
        obtain rfl := panic_startsWithName named
        obtain ⟨long, inside⟩ := (startsWithName_eq_error length_messageId).mp named
        exact absurd ⟨folded, isText, long, inside⟩ uncut
      | ok isMessageId =>
        cases isMessageId with
        | true => exact absurd ⟨folded, isText, named⟩ other
        | false => simp only [extractMsgidFrom, folded, if_false, text, named]

theorem extractMsgidFrom_returns_iff (header : List Bytes) :
    (∃ extracted, extractMsgidFrom header = .ok extracted) ↔ Uncut ["message-id:"] header := by
  classical
  induction header with
  | nil => simp [extractMsgidFrom, uncut_nil]
  | cons line rest ih =>
    by_cases cut : Cut line
    · simp [extractMsgidFrom_cut cut, uncut_cons, cut]
    · by_cases field : IsField "message-id:" line
      · -- Nothing after the Message-ID is looked at.
        simp [extractMsgidFrom_field field, uncut_cons, cut, field, uncut_of_none]
      · rw [extractMsgidFrom_other cut field, ih,
          uncut_cons_of_not_field cut (by simpa using field)]

theorem exists_field_of_extract {header : List Bytes} {id : String}
    (extracted : extractMsgidFrom header = .ok (some id)) :
    ∃ l ∈ header, IsField "message-id:" l := by
  induction header with
  | nil => simp [extractMsgidFrom] at extracted
  | cons line rest ih =>
    by_cases field : IsField "message-id:" line
    · exact ⟨line, by simp, field⟩
    · have uncut : ¬ Cut line := fun cut => by simp [extractMsgidFrom_cut cut] at extracted
      rw [extractMsgidFrom_other uncut field] at extracted
      obtain ⟨l, member, named⟩ := ih extracted
      exact ⟨l, by simp [member], named⟩

theorem withFoldedLines_eq {folds after : List Bytes} (value : String)
    (folded : ∀ l ∈ folds, Folded l) (stops : ∀ l ∈ after.head?, ¬ Folded l) :
    withFoldedLines value (folds ++ after) = if ∀ l ∈ folds, (fromUtf8 l).isSome then
      some (value ++ String.join (folds.map fun l => trimAscii (fromUtf8Lossy l))) else none := by
  induction folds generalizing value with
  | nil =>
    cases after with
    | nil => simp [withFoldedLines]
    | cons next after => simp [withFoldedLines, stops next (by simp)]
  | cons line folds ih =>
    rw [forall_mem_cons] at folded
    rw [cons_append, withFoldedLines, if_pos folded.1]
    cases text : fromUtf8 line with
    | none => simp [text]
    | some s =>
      obtain rfl := fromUtf8_eq_some text
      simp only [ih _ folded.2, forall_mem_cons, text, Option.isSome_some, true_and,
        map_cons, String.join_cons, String.append_assoc]

theorem extractMsgidFrom_eq {header : List Bytes} {folds : List Bytes}
    (field : MessageIdField header line folds) (uncut : Uncut ["message-id:"] header) :
    extractMsgidFrom header = .ok (if ∀ l ∈ folds, (fromUtf8 l).isSome then
      some (trimAscii (trimAsciiStart (fromUtf8Lossy (line.drop 11)) ++
        String.join (folds.map fun l => trimAscii (fromUtf8Lossy l)))) else none) := by
  obtain ⟨isField, folded, before, after, rfl, other, stops⟩ := field
  induction before with
  | nil =>
    rw [nil_append, extractMsgidFrom_field isField, withFoldedLines_eq _ folded stops]
    split <;> rfl
  | cons head before ih =>
    rw [forall_mem_cons] at other
    classical
    rw [cons_append, uncut_cons] at uncut
    have whole := uncut.1 (by simp)
    rw [cons_append, extractMsgidFrom_other whole other.1]
    exact ih (by simpa [other.1] using uncut.2) other.2

end Extract

def mandatoryHeaders : List String := ["From", "Date", "Message-ID", "Newsgroups", "Subject"]

def checkMandatoryHeaders (articleBytes : Bytes) : IngestResult :=
  match mandatoryHeaders.find? fun name => !hasHeader articleBytes name with
  | some name => .rejected ("missing mandatory header: " ++ name)
  | none => .accepted

/-- The lookup of a Message-ID that is not empty: whether the article goes on to the last check. -/
def checkDuplicate (bodyMsgid : String) (articleBytes : Bytes) :
    Prog MsgIdMap CharBoundaryPanic IngestResult := do
  if bodyMsgid = "" then return checkMandatoryHeaders articleBytes
  else
    match ← Prog.attempt (MsgIdMap.lookupByMsgid bodyMsgid) with
    | .error e => return .transientError ("storage error during duplicate check: " ++ e.toString)
    | .ok (some _) => return .duplicate
    | .ok none => return checkMandatoryHeaders articleBytes

def checkIngest (envelopeMsgid : String) (articleBytes : Bytes) :
    Prog MsgIdMap CharBoundaryPanic IngestResult := do
  match validateMessageId envelopeMsgid with
  | .error e => return .rejected ("invalid envelope Message-ID format: " ++ e.toString)
  | .ok () =>
    if maxIngestBytes < articleBytes.length then
      return .rejected ("article too large: " ++ articleBytes.length.repr ++ " bytes (limit " ++
        maxIngestBytes.repr ++ ")")
    else
      let bodyMsgid ← Prog.ofExcept (extractBodyMsgid articleBytes)
      checkDuplicate (bodyMsgid.getD "") articleBytes

theorem checkDuplicate_returns (bodyMsgid : String) (articleBytes : Bytes) (map : MsgIdMap) :
    ∃ result, ((checkDuplicate bodyMsgid articleBytes).exec map).1 = .ok result := by
  rw [checkDuplicate]
  split
  · exact ⟨_, rfl⟩
  · rw [Prog.exec_bind, Prog.exec_attempt]
    rcases (MsgIdMap.lookupByMsgid bodyMsgid).exec map with ⟨e | _ | cid, map'⟩
    · exact ⟨_, rfl⟩
    · exact ⟨_, rfl⟩
    · exact ⟨_, rfl⟩

theorem checkIngest_returns_iff (envelopeMsgid : String) (articleBytes : Bytes) (map : MsgIdMap) :
    (∃ result, ((checkIngest envelopeMsgid articleBytes).exec map).1 = .ok result) ↔
      (validateMessageId envelopeMsgid = .ok () → articleBytes.length ≤ maxIngestBytes →
        Uncut ["message-id:"] (headerLines articleBytes)) := by
  rw [checkIngest]
  cases valid : validateMessageId envelopeMsgid with
  | error e => simp
  | ok _ =>
    by_cases large : maxIngestBytes < articleBytes.length
    · simp only [large, if_true, Prog.exec_pure, Except.ok.injEq, exists_eq', true_iff]
      omega
    · have fits : articleBytes.length ≤ maxIngestBytes := by omega
      simp only [large, if_false, fits, forall_const]
      rw [← extractMsgidFrom_returns_iff, ← extractBodyMsgid, Prog.exec_bind, Prog.exec_ofExcept]
      cases extractBodyMsgid articleBytes with
      | error panic => simp
      | ok bodyMsgid => simp [checkDuplicate_returns]

end Stoa
