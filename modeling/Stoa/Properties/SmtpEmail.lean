import Stoa.Lib.Words

/-! `fromSmtpMessage_returns_iff`: a stored message becomes an email unless the last `>` of its From
value stands before the last `<`. -/
namespace Stoa.SmtpEmail

open Text List

structure EmailAddress where
  name : Option Chars
  email : Chars
  deriving DecidableEq

structure Email where
  id : String
  mailboxIds : List String
  receivedAt : Chars
  size : Nat
  sender : Option (List EmailAddress)
  subject : Option Chars
  messageId : Option (List Chars)

/-- `str::rfind`, in characters: the brackets are ASCII. -/
def rfind (c : Char) : Chars → Option Nat
  | [] => none
  | d :: rest => match rfind c rest with
    | some i => some (i + 1)
    | none => if d = c then some 0 else none

/-- The text from `a` up to `b`; no result if the slice panics. -/
def slice (cs : Chars) (a b : Nat) : Option Chars :=
  if a ≤ b ∧ b ≤ cs.length then some ((cs.take b).drop a) else none

def displayName (text : Chars) : Option Chars :=
  let n := Chars.trimMatches (· == '"') text.trim
  if n = [] then none else some n

def parseFrom (f : Chars) : Option EmailAddress :=
  let addr := f.trim
  let email := match rfind '<' addr, rfind '>' addr with
    | some lt, some gt => (slice addr (lt + 1) gt).map Chars.trim
    | _, _ => some addr
  email.map (⟨(rfind '<' addr).bind fun lt => displayName (addr.take lt), ·⟩)

def toRfc3339 (receivedAt : Chars) : Chars :=
  if 'T' ∈ receivedAt then
    if receivedAt.getLast? = some 'Z' then receivedAt else receivedAt ++ ['Z']
  else List.replace receivedAt ' ' 'T' ++ ['Z']

def header (parsed : Option (List (String × Chars))) (name : String) : Option Chars :=
  parsed.bind fun headers => (headers.find? (sameIgnoringCase ·.1 name)).map (·.2)

/-- `from_smtp_message`; `parsed` is what mailparse returns for `raw`. -/
def fromSmtpMessage (parsed : Option (List (String × Chars))) (smtpId : String) (raw : Bytes)
    (mailboxId : String) (receivedAt : Chars) : Option Email :=
  let sender := match header parsed "From" with
    | none => some none
    | some f => (parseFrom f).map fun address => some [address]
  sender.map fun sender =>
    { id := smtpId, mailboxIds := [mailboxId], receivedAt := toRfc3339 receivedAt, size := raw.length
      sender, subject := header parsed "Subject"
      messageId := (header parsed "Message-ID").map ([·]) }

variable {c : Char} {cs before after addr : Chars}

theorem rfind_none (absent : c ∉ cs) : rfind c cs = none := by
  induction cs with
  | nil => rfl
  | cons d cs ih =>
    rw [mem_cons, not_or] at absent
    simp [rfind, ih absent.2, Ne.symm absent.1]

theorem rfind_last (last : c ∉ after) : rfind c (before ++ c :: after) = some before.length := by
  induction before with
  | nil => simp [rfind, rfind_none last]
  | cons d before ih => simp [rfind, ih]

theorem exists_last (mem : c ∈ cs) : ∃ before after, cs = before ++ c :: after ∧ c ∉ after := by
  obtain ⟨after, before, shape, last⟩ := eq_append_cons_of_mem (mem_reverse.mpr mem)
  exact ⟨before.reverse, after.reverse, by simpa using congrArg reverse shape, by simpa using last⟩

theorem last_unique {before' after' : Chars} (same : before ++ c :: after = before' ++ c :: after')
    (last : c ∉ after) (last' : c ∉ after') : before = before' ∧ after = after' := by
  have found := @rfind_last c before after last
  rw [same, rfind_last last', Option.some_inj] at found
  obtain ⟨rfl, tails⟩ := append_inj same found.symm
  exact ⟨rfl, (cons.inj tails).2⟩

/-- A `>` before the last `<` means that one comes behind it as well. -/
def Closes (addr : Chars) : Prop :=
  ∀ before after, addr = before ++ '<' :: after → '<' ∉ after → '>' ∈ before → '>' ∈ after

theorem closes_iff (last : '<' ∉ after) :
    Closes (before ++ '<' :: after) ↔ ('>' ∈ before → '>' ∈ after) := by
  refine ⟨fun closes => closes _ _ rfl last, fun closes before' after' same last' => ?_⟩
  obtain ⟨rfl, rfl⟩ := last_unique same last last'
  exact closes

theorem parseFrom_bracketed {f address rest : Chars}
    (shape : f.trim = before ++ '<' :: (address ++ '>' :: rest)) (lastOpen : '<' ∉ address ++ '>' :: rest)
    (lastClose : '>' ∉ rest) : parseFrom f = some ⟨displayName before, address.trim⟩ := by
  have opened : rfind '<' f.trim = some before.length := by rw [shape, rfind_last lastOpen]
  have split : f.trim = before ++ ['<'] ++ address ++ '>' :: rest := by simp [shape]
  have closed : rfind '>' f.trim = some (before ++ ['<'] ++ address).length := by
    rw [split, rfind_last lastClose]
  have inside : slice f.trim (before.length + 1) (before ++ ['<'] ++ address).length = some address := by
    rw [slice, if_pos (by rw [split]; simp), split, take_left, drop_left' (by simp)]
  simp only [parseFrom, opened, closed, inside]
  simp [shape]

theorem parseFrom_ne_none_iff (f : Chars) : parseFrom f ≠ none ↔ Closes f.trim := by
  by_cases opens : '<' ∈ f.trim
  · obtain ⟨before, after, shape, last⟩ := exists_last opens
    rw [shape, closes_iff last]
    by_cases behind : '>' ∈ after
    · obtain ⟨address, rest, rfl, lastClose⟩ := exists_last behind
      simp [parseFrom_bracketed shape last lastClose]
    have opened : rfind '<' f.trim = some before.length := by rw [shape, rfind_last last]
    by_cases ahead : '>' ∈ before
    · obtain ⟨start, rest, rfl, lastClose⟩ := exists_last ahead
      have closed : rfind '>' f.trim = some start.length := by
        rw [shape, append_assoc, cons_append, rfind_last (by simp [lastClose, behind])]
      have backwards : slice f.trim ((start ++ '>' :: rest).length + 1) start.length = none :=
        if_neg (by rw [length_append]; omega)
      simp only [parseFrom, opened, closed, backwards]
      simp [behind]
    · have closed : rfind '>' f.trim = none := rfind_none (by simp [shape, ahead, behind])
      simp [parseFrom, opened, closed, ahead]
  · have closes : Closes f.trim := fun _ _ shape => absurd (shape ▸ by simp) opens
    simp [parseFrom, rfind_none opens, closes]

/-- The second part: a name, and an address in the only brackets. -/
theorem fromSmtpMessage_returns_iff (parsed : Option (List (String × Chars))) (smtpId : String)
    (raw : Bytes) (mailboxId : String) (receivedAt : Chars) :
    ((fromSmtpMessage parsed smtpId raw mailboxId receivedAt).isSome ↔
      ∀ f, header parsed "From" = some f → Closes f.trim) ∧
    ∀ f name address : Chars, header parsed "From" = some f → f.trim = name ++ '<' :: address ++ ['>'] →
      (∀ c ∈ name ++ address, c ≠ '<' ∧ c ≠ '>') →
      (fromSmtpMessage parsed smtpId raw mailboxId receivedAt).bind (·.sender) =
        some [⟨displayName name, address.trim⟩] := by
  unfold fromSmtpMessage
  cases found : header parsed "From" with
  | none => simp
  | some f =>
    refine ⟨?_, ?_⟩
    · have returns := parseFrom_ne_none_iff f
      cases result : parseFrom f <;> simp_all
    · rintro _ name address ⟨⟩ shape only
      have clean : '<' ∉ address ++ ['>'] := by
        simp only [mem_append, mem_singleton, not_or]
        exact ⟨fun mem => (only '<' (by simp [mem])).1 rfl, by decide⟩
      simp [parseFrom_bracketed (by simpa using shape) clean (by simp)]

namespace Sample

def fromHeader (value : String) : Option (List (String × Chars)) := some [("From", value.toList)]

theorem stored_message_returns : ('>' ∉ "\"A\" ".toList) ∧
    (fromSmtpMessage (fromHeader "\"A\" <a@b>") "smtp:1" [] "inbox" []).bind (·.sender) =
      some [⟨some ['A'], "a@b".toList⟩] :=
  ⟨by decide, (fromSmtpMessage_returns_iff (fromHeader "\"A\" <a@b>") "smtp:1" [] "inbox" []).2
    "\"A\" <a@b>".toList "\"A\" ".toList "a@b".toList (by decide) (by decide) (by simp)⟩

/-- The closing bracket comes first. -/
theorem stored_message_panics : ¬ ∀ parsed smtpId raw mailboxId receivedAt,
    (fromSmtpMessage parsed smtpId raw mailboxId receivedAt).isSome := by
  intro returns
  exact absurd (returns (fromHeader ">a<") "smtp:1" [] "inbox" []) (by decide)

end Sample

end Stoa.SmtpEmail
