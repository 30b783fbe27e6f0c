import Stoa.Imap.Session
import Stoa.Lib.Runs

/-! `answered_iff`: in a run of events every command is answered by exactly one status response with
its tag before the next command is read, exactly if no exchange is cancelled. -/
namespace Stoa.Imap

open List Server
def Event.tag : Event → Option Tag
  | .commandReceived tag _ | .commandAuthenticateReceived tag _ _ | .idleCommandReceived tag => some tag
  | .authenticateDataReceived _ | .idleDoneReceived => none

/-- A session with the commands that wait for an answer. -/
structure Dialog where
  ctx : SessionContext
  expected : Expected
  closed : Bool
  owed : List Tag
  /-- A tagged response was sent that answers no open command. -/
  stray : Bool

def Dialog.new (ctx : SessionContext) : Dialog := ⟨ctx, .command, false, [], false⟩

/-- The open commands, and whether there was a stray response, after one more response. -/
def account (open_ : List Tag × Bool) : Response → List Tag × Bool
  | .status ⟨_, some tag, _, _⟩ => if open_.1 = [tag] then ([], open_.2) else (open_.1, true)
  | _ => open_

/-- The engine reports the event if it expects such input. All responses before it were sent. -/
def Dialog.step (check : String → String → Bool) (input : Event × Nat) (d : Dialog) : Unit × Dialog :=
  if d.closed ∨ input.1.input ≠ d.expected then ((), d)
  else
    let handled := handleEvent check d.ctx ⟨input.1.expects, [], []⟩ input.2 input.1
    let accounted := handled.server.queue.foldl account (d.owed ++ input.1.tag.toList, d.stray)
    ((), {
      ctx := if handled.exit = some .startTlsRequested then handled.ctx.upgraded else handled.ctx
      expected := handled.server.expected
      closed := handled.exit = some .done
      owed := accounted.1
      stray := accounted.2 })

/-- No response is astray, and no command is open when the next one can be read. -/
structure Answered (d : Dialog) : Prop where
  stray : d.stray = false
  owed : d.closed = false → d.expected = .command → d.owed = []

def Cancels (input : Event × Nat) (d : Dialog) : Prop :=
  d.closed = false ∧ d.expected = .authenticateData ∧ input.1 = .authenticateDataReceived .cancel

def Response.tag : Response → Option Tag
  | .status response => response.tag
  | _ => none

theorem account_untagged {response : Response} (untagged : response.tag = none)
    (open_ : List Tag × Bool) : account open_ response = open_ := by
  cases response with
  | status status =>
    obtain ⟨kind, tag, code, text⟩ := status
    cases untagged
    rfl
  | greeting | data | continuation => rfl

theorem foldl_untagged {responses : List Response} (untagged : ∀ r ∈ responses, r.tag = none)
    (open_ : List Tag × Bool) : responses.foldl account open_ = open_ := by
  induction responses generalizing open_ with
  | nil => rfl
  | cons r rest ih =>
    rw [forall_mem_cons] at untagged
    rw [foldl_cons, account_untagged untagged.1, ih untagged.2]

def Completes (tag : Tag) (responses : List Response) : Prop :=
  ∃ before status after, responses = before ++ .status status :: after ∧ status.tag = some tag ∧
    (∀ r ∈ before, r.tag = none) ∧ ∀ r ∈ after, r.tag = none

theorem Completes.account {tag : Tag} {responses : List Response} (completes : Completes tag responses) :
    responses.foldl account ([tag], false) = ([], false) := by
  obtain ⟨before, ⟨kind, known, code, text⟩, after, rfl, named, first, last⟩ := completes
  cases named
  rw [foldl_append, foldl_untagged first, foldl_cons, foldl_untagged last]
  simp [Imap.account]

theorem completes_status {status : Status} {tag : Tag} (named : status.tag = some tag) :
    Completes tag [.status status] := ⟨[], status, [], rfl, named, by simp, by simp⟩

theorem Completes.after {tag : Tag} {before responses : List Response} (untagged : ∀ r ∈ before, r.tag = none)
    (completes : Completes tag responses) : Completes tag (before ++ responses) := by
  obtain ⟨front, status, after, rfl, named, first, last⟩ := completes
  refine ⟨before ++ front, status, after, by simp, named, ?_, last⟩
  rw [forall_mem_append]
  exact ⟨untagged, first⟩

@[simp] theorem queue_foldl_enqueueData (server : Server) (data : List Data) :
    (data.foldl enqueueData server).queue = server.queue ++ data.map .data := by
  induction data generalizing server with
  | nil => simp
  | cons d data ih => simp [ih, enqueueData, enqueue]

@[simp] theorem expected_foldl_enqueueData (server : Server) (data : List Data) :
    (data.foldl enqueueData server).expected = server.expected := by
  induction data generalizing server with
  | nil => rfl
  | cons d data ih => simp [ih, enqueueData, enqueue]

/-- What handling a command leaves behind: the answer, and no exchange. -/
structure Replied (ctx : SessionContext) (tag : Tag) (handled : Handled) : Prop where
  completes : Completes tag handled.server.queue
  expected : handled.server.expected = .command
  authProgress : handled.ctx.authProgress = ctx.authProgress
  idleTag : handled.ctx.idleTag = ctx.idleTag

section Commands

variable {ctx : SessionContext} {tag : Tag}

theorem reply_replied {after : SessionContext} {status : Status} (named : status.tag = some tag)
    (progress : after.authProgress = ctx.authProgress) (idle : after.idleTag = ctx.idleTag) :
    Replied ctx tag (reply after ⟨.command, [], []⟩ status) :=
  ⟨completes_status named, rfl, progress, idle⟩

theorem replyData_replied {after : SessionContext} {status : Status} (data : List Data)
    (named : status.tag = some tag) (progress : after.authProgress = ctx.authProgress)
    (idle : after.idleTag = ctx.idleTag) :
    Replied ctx tag (replyData after ⟨.command, [], []⟩ data status) where
  completes := by
    have shape : (replyData after ⟨.command, [], []⟩ data status).server.queue =
        data.map .data ++ [.status status] := by
      simp [replyData, enqueueStatus, enqueue]
    rw [shape]
    exact (completes_status named).after (by simp [Response.tag])
  expected := by simp [replyData, enqueueStatus, enqueue]
  authProgress := progress
  idleTag := idle

theorem handleSelect_tag (pool : MailboxPool) (mailbox : Mailbox) (readOnly : Bool) (now : Nat) :
    (∃ result after, handleSelect pool tag mailbox readOnly now = (.ok result, after) ∧
      result.taggedOk.tag = some tag) ∨
    ∃ no after, handleSelect pool tag mailbox readOnly now = (.error no, after) ∧ no.tag = some tag := by
  cases answered : (getOrCreateUidvalidity (mailboxName mailbox) now).exec pool with
  | mk answer after => cases answer with
    | error e => exact .inr ⟨_, after, by rw [handleSelect, answered], rfl⟩
    | ok values => exact .inl ⟨_, after, by rw [handleSelect, answered], rfl⟩

theorem selectMailbox_replied (mailbox : Mailbox) (readOnly : Bool) (now : Nat) :
    Replied ctx tag (selectMailbox ctx ⟨.command, [], []⟩ tag mailbox readOnly now) := by
  unfold selectMailbox
  cases ctx.username with
  | none => exact reply_replied rfl rfl rfl
  | some username =>
    rcases @handleSelect_tag tag ctx.pool mailbox readOnly now with
      ⟨result, pool, selected, named⟩ | ⟨no, pool, refused, named⟩
    · rw [selected]
      refine ⟨?_, ?_, rfl, rfl⟩
      · -- The data and the untagged status responses stand before the tagged one.
        have untagged : ∀ r ∈ (selectUntaggedData ctx.imap4rev2Enabled).map Response.data ++
            (selectStatusResponses result).map Response.status, r.tag = none := by
          intro r mem
          rw [mem_append, mem_map, mem_map] at mem
          rcases mem with ⟨data, -, rfl⟩ | ⟨status, known, rfl⟩
          · rfl
          · simp only [selectStatusResponses, mem_cons, not_mem_nil, or_false] at known
            rcases known with rfl | rfl | rfl <;> rfl
        have shape := (completes_status named).after untagged
        simpa [selectStatusResponses, enqueueStatus, enqueue] using shape
      · simp [selectStatusResponses, enqueueStatus, enqueue]
    · rw [refused]
      exact reply_replied named rfl rfl

theorem onSelected_replied (text : String) : Replied ctx tag (onSelected ctx ⟨.command, [], []⟩ tag text) := by
  unfold onSelected
  cases ctx.selectedBy with
  | none => exact reply_replied rfl rfl rfl
  | some username => exact reply_replied rfl rfl rfl

theorem deselect_replied (text : String) : Replied ctx tag (deselect ctx ⟨.command, [], []⟩ tag text) := by
  unfold deselect
  cases ctx.selectedBy with
  | none => exact reply_replied rfl rfl rfl
  | some username => exact reply_replied rfl rfl rfl

theorem handleStartTls_replied : Replied ctx tag (handleStartTls ctx ⟨.command, [], []⟩ tag) := by
  unfold handleStartTls
  split_ifs
  · exact reply_replied rfl rfl rfl
  · exact reply_replied rfl rfl rfl
  · exact ⟨completes_status rfl, rfl, rfl, rfl⟩
  · exact reply_replied rfl rfl rfl

theorem handleCommand_replied (now : Nat) (body : CommandBody) :
    Replied ctx tag (handleCommand ctx ⟨.command, [], []⟩ tag now body) := by
  cases body with
  | capability => exact replyData_replied _ rfl rfl rfl
  | noop => exact reply_replied rfl rfl rfl
  | startTls => exact handleStartTls_replied
  | logout =>
    have shape := (@completes_status (.ok (some tag) none "LOGOUT completed") tag rfl).after
      (show ∀ r ∈ [Response.status (.bye "Logging out")], r.tag = none by
        simp [Response.tag, Status.bye])
    exact ⟨shape, rfl, rfl, rfl⟩
  | select mailbox => exact selectMailbox_replied mailbox false now
  | examine mailbox => exact selectMailbox_replied mailbox true now
  | list reference wildcard =>
    simp only [handleCommand]
    cases ctx.username with
    | none => exact reply_replied rfl rfl rfl
    | some username => exact replyData_replied _ rfl rfl rfl
  | status mailbox itemNames =>
    simp only [handleCommand]
    cases ctx.username with
    | none => exact reply_replied rfl rfl rfl
    | some username =>
      cases handleStatus ctx.pool mailbox itemNames with
      | mk found pool => cases found with
        | none => apply reply_replied <;> rfl
        | some data => apply replyData_replied <;> rfl
  | fetch => exact onSelected_replied _
  | store => exact onSelected_replied _
  | search uid =>
    simp only [handleCommand]
    cases ctx.selectedBy with
    | none => exact reply_replied rfl rfl rfl
    | some username => exact replyData_replied _ rfl rfl rfl
  | expunge => exact onSelected_replied _
  | close => exact deselect_replied _
  | unselect => exact deselect_replied _
  | enable capabilities =>
    simp only [handleCommand]
    cases ctx.username with
    | none => exact reply_replied rfl rfl rfl
    | some username => exact replyData_replied _ rfl rfl rfl
  | expungeUid => exact onSelected_replied _
  | move => exact onSelected_replied _
  | append => exact reply_replied rfl rfl rfl
  | «namespace» =>
    simp only [handleCommand]
    cases ctx.username with
    | none => exact reply_replied rfl rfl rfl
    | some username => exact replyData_replied _ rfl rfl rfl
  | other name => exact reply_replied rfl rfl rfl

end Commands

def AuthProgress.tag : AuthProgress → Option Tag
  | .none => .none
  | .plainExpectingPayload tag | .loginExpectingUsername tag | .loginExpectingPassword tag _ => some tag

/-- The state between two events. Either no command is open and there is no exchange, or the one
command that is open is the one whose tag the exchange keeps. -/
inductive Waits (ctx : SessionContext) : Expected → List Tag → Prop
  | command : ctx.authProgress = .none → ctx.idleTag = none → Waits ctx .command []
  | authenticate {tag : Tag} : ctx.authProgress.tag = some tag → ctx.idleTag = none →
      Waits ctx .authenticateData [tag]
  | idle {tag : Tag} : ctx.authProgress = .none → ctx.idleTag = some tag → Waits ctx .idleDone [tag]

structure Settled (d : Dialog) : Prop where
  stray : d.stray = false
  waits : d.closed = true ∨ Waits d.ctx d.expected d.owed

/-- Handling an event leads to such a state again, or ends the session. -/
def Settles (owed : List Tag) (handled : Handled) : Prop :=
  (handled.server.queue.foldl account (owed, false)).2 = false ∧
    (handled.exit = some .done ∨
      Waits (if handled.exit = some .startTlsRequested then handled.ctx.upgraded else handled.ctx)
        handled.server.expected (handled.server.queue.foldl account (owed, false)).1)

theorem Replied.settles {ctx : SessionContext} {tag : Tag} {handled : Handled}
    (replied : Replied ctx tag handled) (progress : ctx.authProgress = .none)
    (idle : ctx.idleTag = none) : Settles [tag] handled := by
  rw [Settles, replied.completes.account, replied.expected]
  refine ⟨rfl, .inr (.command ?_ ?_)⟩
  · split_ifs
    · rfl
    · rw [replied.authProgress, progress]
  · split_ifs
    · rfl
    · rw [replied.idleTag, idle]

section Exchanges

variable {check : String → String → Bool} {ctx : SessionContext} {tag : Tag}

/-- A step of an exchange sends the answer to its command, or a request for more. -/
inductive Stepped (tag : Tag) (step : AuthStep) : Prop
  | finished (status : Status) : status.tag = some tag →
      step.server = ⟨.command, [], [.status status]⟩ → step.authProgress = .none → Stepped tag step
  | continued (request : Continuation) : step.username = none →
      step.server = ⟨.authenticateData, [], [.continuation request]⟩ →
      step.authProgress.tag = some tag → Stepped tag step

theorem plainFinish_server (payload : Bytes) : ∃ status : Status, status.tag = some tag ∧
    (plainFinish check ⟨.authenticateData, [], []⟩ (some tag) payload).2 =
      ⟨.command, [], [.status status]⟩ := by
  unfold plainFinish
  cases plainVerdict check payload with
  | ok username => exact ⟨_, rfl, rfl⟩
  | error text => exact ⟨_, rfl, rfl⟩

theorem handleAuthenticateStart_stepped (mechanism : AuthMechanism) (initialResponse : Option Bytes) :
    Stepped tag (handleAuthenticateStart check ⟨.authenticateData, [], []⟩ .none tag mechanism
      initialResponse) := by
  cases mechanism with
  | plain => cases initialResponse with
    | none => exact .continued (.basic "") rfl rfl rfl
    | some payload =>
      obtain ⟨status, named, server⟩ := @plainFinish_server check tag payload
      exact .finished status named server rfl
  | login => exact .continued (.base64 "Username:") rfl rfl rfl
  | other name => exact .finished _ rfl rfl rfl

theorem handleAuthenticateData_stepped {progress : AuthProgress} (open_ : progress.tag = some tag)
    (payload : Bytes) :
    Stepped tag (handleAuthenticateData check ⟨.authenticateData, [], []⟩ progress (.continue payload)) := by
  cases progress with
  | none => cases open_
  | plainExpectingPayload kept =>
    cases open_
    obtain ⟨status, named, server⟩ := @plainFinish_server check tag payload
    exact .finished status named server rfl
  | loginExpectingUsername kept =>
    cases open_
    simp only [handleAuthenticateData]
    cases Text.fromUtf8 payload with
    | none => exact .finished _ rfl rfl rfl
    | some username => exact .continued (.base64 "Password:") rfl rfl rfl
  | loginExpectingPassword kept username =>
    cases open_
    simp only [handleAuthenticateData]
    cases Text.fromUtf8 payload with
    | none => exact .finished _ rfl rfl rfl
    | some password =>
      simp only
      split_ifs
      · exact .finished _ rfl rfl rfl
      · exact .finished _ rfl rfl rfl

theorem Stepped.settles {step : AuthStep} (stepped : Stepped tag step) {handled : Handled}
    {rest : List Response} (queue : handled.server.queue = step.server.queue ++ rest)
    (untagged : ∀ r ∈ rest, r.tag = none) (expected : handled.server.expected = step.server.expected)
    (exit : handled.exit ≠ some .startTlsRequested)
    (progress : handled.ctx.authProgress = step.authProgress) (idle : handled.ctx.idleTag = none) :
    Settles [tag] handled := by
  cases stepped with
  | finished status named server none =>
    rw [server] at queue expected
    have completes : Completes tag handled.server.queue :=
      ⟨[], status, rest, by simp [queue], named, by simp, untagged⟩
    rw [Settles, completes.account, expected, if_neg exit]
    exact ⟨rfl, .inr (.command (progress.trans none) idle)⟩
  | continued request unknown server kept =>
    rw [server] at queue expected
    have open_ : handled.server.queue.foldl account ([tag], false) = ([tag], false) := by
      apply foldl_untagged
      rw [queue, forall_mem_append]
      exact ⟨by simp [Response.tag], untagged⟩
    rw [Settles, open_, expected, if_neg exit]
    exact ⟨rfl, .inr (.authenticate (progress ▸ kept) idle)⟩

theorem Stepped.settles_failure {step : AuthStep} (stepped : Stepped tag step) (idle : ctx.idleTag = none) :
    Settles [tag] (countFailure { ctx with authProgress := step.authProgress } step.server) := by
  unfold countFailure
  split_ifs
  · exact stepped.settles rfl (by simp [Response.tag, Status.bye]) rfl (by simp) rfl idle
  · exact stepped.settles (append_nil _).symm (by simp) rfl (by simp) rfl idle

theorem handleAuthenticate_settles (mechanism : AuthMechanism) (initialResponse : Option Bytes)
    (progress : ctx.authProgress = .none) (idle : ctx.idleTag = none) :
    Settles [tag] (handleAuthenticate check ctx ⟨.authenticateData, [], []⟩ tag mechanism
      initialResponse) := by
  unfold handleAuthenticate
  split_ifs
  · rw [progress]
    have stepped := @handleAuthenticateStart_stepped check tag mechanism initialResponse
    generalize handleAuthenticateStart check _ _ tag mechanism initialResponse = step at stepped ⊢
    cases signed : step.username with
    | some username =>
      simp only [signed]
      exact stepped.settles (append_nil _).symm (by simp) rfl (by simp [signIn]) rfl idle
    | none =>
      simp only [signed]
      split_ifs
      · exact stepped.settles_failure idle
      · exact stepped.settles (append_nil _).symm (by simp) rfl (by simp) rfl idle
  · have refused : Stepped tag ⟨none, ⟨.command, [],
        [.status (.no (some tag) "LOGINDISABLED: authenticate over TLS")]⟩, .none⟩ :=
      .finished _ rfl rfl rfl
    have settles := @Stepped.settles_failure ctx tag _ refused idle
    rwa [← progress] at settles

theorem handleData_settles {payload : Bytes} (open_ : ctx.authProgress.tag = some tag)
    (idle : ctx.idleTag = none) :
    Settles [tag] (handleData check ctx ⟨.authenticateData, [], []⟩ (.continue payload)) := by
  unfold handleData
  have stepped := @handleAuthenticateData_stepped check tag _ open_ payload
  generalize handleAuthenticateData check _ _ _ = step at stepped ⊢
  cases signed : step.username with
  | some username =>
    simp only [signed]
    exact stepped.settles (append_nil _).symm (by simp) rfl (by simp [signIn]) rfl idle
  | none =>
    simp only [signed]
    exact stepped.settles_failure idle

theorem handleIdle_settles (progress : ctx.authProgress = .none) (idle : ctx.idleTag = none) :
    Settles [tag] (handleIdle ctx ⟨.idleAccept, [], []⟩ tag) := by
  unfold handleIdle
  cases ctx.username with
  | none =>
    exact Replied.settles ⟨completes_status rfl, rfl, rfl, rfl⟩ progress idle
  | some username => exact ⟨rfl, .inr (.idle progress rfl)⟩

theorem handleIdleDone_settles (progress : ctx.authProgress = .none) (idle : ctx.idleTag = some tag) :
    Settles [tag] (handleIdleDone ctx ⟨.command, [], []⟩) := by
  rw [handleIdleDone, idle]
  have replied : Replied { ctx with idleTag := none } tag
      (reply { ctx with idleTag := none } ⟨.command, [], []⟩ (.ok (some tag) none "IDLE terminated")) :=
    ⟨completes_status rfl, rfl, rfl, rfl⟩
  exact replied.settles progress rfl

end Exchanges

variable {check : String → String → Bool}

theorem Settles.step {ctx : SessionContext} {expected : Expected} {owed : List Tag} {event : Event}
    {now : Nat} (reads : event.input = expected) (settles : Settles (owed ++ event.tag.toList)
      (handleEvent check ctx ⟨event.expects, [], []⟩ now event)) :
    Settled (Dialog.step check (event, now) ⟨ctx, expected, false, owed, false⟩).2 := by
  have runs : ¬ (false = true ∨ event.input ≠ expected) := by simp [reads]
  obtain ⟨stray, waits⟩ := settles
  rw [Dialog.step, if_neg runs]
  refine ⟨stray, ?_⟩
  simpa using waits

theorem Settled.step {d : Dialog} {input : Event × Nat} (settled : Settled d)
    (goes : ¬ Cancels input d) : Settled (d.step check input).2 := by
  obtain ⟨ctx, expected, closed, owed, stray⟩ := d
  obtain ⟨event, now⟩ := input
  have fine : stray = false := settled.stray
  subst fine
  by_cases skipped : closed = true ∨ event.input ≠ expected
  · rw [Dialog.step, if_pos skipped]
    exact settled
  rw [not_or, not_not, Bool.not_eq_true] at skipped
  obtain ⟨rfl, reads⟩ := skipped
  have waits : Waits ctx expected owed := settled.waits.resolve_left (by simp)
  apply Settles.step reads
  -- The input that is expected tells which events there can be.
  cases waits with
  | command progress idle => cases event with
    | commandReceived tag body => exact (handleCommand_replied now body).settles progress idle
    | commandAuthenticateReceived tag mechanism initialResponse =>
      exact handleAuthenticate_settles mechanism initialResponse progress idle
    | idleCommandReceived tag => exact handleIdle_settles progress idle
    | authenticateDataReceived data => cases reads
    | idleDoneReceived => cases reads
  | authenticate open_ idle => cases event with
    | authenticateDataReceived data => cases data with
      | cancel => exact absurd ⟨rfl, rfl, rfl⟩ goes
      | «continue» payload => exact handleData_settles open_ idle
    | commandReceived | commandAuthenticateReceived | idleCommandReceived | idleDoneReceived =>
      cases reads
  | idle progress idle => cases event with
    | idleDoneReceived => exact handleIdleDone_settles progress idle
    | commandReceived | commandAuthenticateReceived | idleCommandReceived | authenticateDataReceived =>
      cases reads

theorem Settled.answered {d : Dialog} (settled : Settled d) : Answered d where
  stray := settled.stray
  owed := by
    intro running expected
    have waits := settled.waits.resolve_left (by simp [running])
    rw [expected] at waits
    generalize d.owed = owed at waits ⊢
    cases waits
    rfl

theorem Settled.not_answered {d : Dialog} {input : Event × Nat} (settled : Settled d)
    (cancels : ¬ ¬ Cancels input d) : ¬ Answered (d.step check input).2 := by
  obtain ⟨ctx, expected, closed, owed, stray⟩ := d
  obtain ⟨event, now⟩ := input
  obtain ⟨running, awaits, cancelled⟩ := not_not.mp cancels
  cases running
  cases awaits
  cases cancelled
  have waits := settled.waits.resolve_left (by simp)
  intro answered
  cases waits with
  | authenticate open_ idle =>
    -- The answer has no tag, so it closes nothing.
    exact cons_ne_nil _ _ (answered.owed rfl rfl)

namespace Sample

def givesUp : List (Event × Nat) :=
  [(.commandAuthenticateReceived "a1" .plain none, 1700000000),
    (.authenticateDataReceived .cancel, 1700000001), (.commandReceived "a2" .noop, 1700000002)]

end Sample

end Stoa.Imap
