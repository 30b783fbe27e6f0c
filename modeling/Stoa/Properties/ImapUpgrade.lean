import Stoa.Imap.Session

/-! `same_after_upgrade`: after two plain legs that leave the same bytes in the engine, in
particular none, every TLS leg goes the same way. -/
namespace Stoa.Imap

structure Plain (pool : MailboxPool) (ctx : SessionContext) : Prop where
  tls : ctx.tls = false
  state : ctx.state = .notAuthenticated
  pool : ctx.pool = pool

variable {pool : MailboxPool} {ctx : SessionContext} {tag : Tag}

theorem Plain.username_eq (plain : Plain pool ctx) : ctx.username = none := by
  simp [SessionContext.username, plain.state]

theorem Plain.selectedBy_eq (plain : Plain pool ctx) : ctx.selectedBy = none := by
  simp [SessionContext.selectedBy, plain.state]

/-- What a round on the plain leg leads to: the leg goes on, or ends with the database as it was. -/
structure StaysPlain (pool : MailboxPool) (handled : Handled) : Prop where
  expected : handled.server.expected = .command
  ctx : handled.exit = none → Plain pool handled.ctx
  pool : handled.ctx.pool = pool

theorem reply_staysPlain (plain : Plain pool ctx) {server : Server} (expected : server.expected = .command)
    (status : Status) : StaysPlain pool (reply ctx server status) :=
  ⟨expected, fun _ => plain, plain.pool⟩

theorem countFailure_staysPlain (plain : Plain pool ctx) {server : Server}
    (expected : server.expected = .command) : StaysPlain pool (countFailure ctx server) := by
  unfold countFailure
  split_ifs
  · exact ⟨expected, by simp, plain.pool⟩
  · exact ⟨expected, fun _ => ⟨plain.tls, plain.state, plain.pool⟩, plain.pool⟩

theorem handleCommand_staysPlain (plain : Plain pool ctx) {server : Server}
    (expected : server.expected = .command) (now : Nat) (body : CommandBody) :
    StaysPlain pool (handleCommand ctx server tag now body) := by
  cases body with
  | startTls =>
    simp only [handleCommand, handleStartTls]
    split_ifs
    · exact reply_staysPlain plain expected _
    · exact reply_staysPlain plain expected _
    · exact ⟨expected, by simp, plain.pool⟩
    · exact reply_staysPlain plain expected _
  | logout => exact ⟨expected, by simp [handleCommand], plain.pool⟩
  | capability => exact ⟨expected, fun _ => plain, plain.pool⟩
  | noop | append | other => exact reply_staysPlain plain expected _
  | select | examine =>
    simp only [handleCommand, selectMailbox, plain.username_eq]
    exact reply_staysPlain plain expected _
  | list | status | enable | «namespace» =>
    simp only [handleCommand, plain.username_eq]
    exact reply_staysPlain plain expected _
  | fetch | store | expunge | expungeUid | move => exact reply_staysPlain plain expected _
  | search =>
    simp only [handleCommand, plain.selectedBy_eq]
    exact reply_staysPlain plain expected _
  | close | unselect =>
    simp only [handleCommand, deselect, plain.selectedBy_eq]
    exact reply_staysPlain plain expected _

theorem handleEvent_staysPlain (check : String → String → Bool) (plain : Plain pool ctx) {server : Server}
    {event : Event} (reads : event.input = .command) (expected : server.expected = event.expects)
    (now : Nat) : StaysPlain pool (handleEvent check ctx server now event) := by
  cases event with
  | commandReceived tag body => exact handleCommand_staysPlain plain expected now body
  | commandAuthenticateReceived tag mechanism initialResponse =>
    simp only [handleEvent, handleAuthenticate, plain.tls]
    apply countFailure_staysPlain plain
    simp [Server.authenticateFinish, expected, Event.expects]
  | idleCommandReceived tag =>
    simp only [handleEvent, handleIdle, plain.username_eq]
    refine ⟨?_, fun _ => plain, plain.pool⟩
    simp [Server.idleReject, expected, Event.expects]
  | authenticateDataReceived => cases reads
  | idleDoneReceived => cases reads

theorem next_event {env : Environment} {server after : Server} {input rest : List Arrival} {event : Event}
    (next : server.next env input = .event event after rest) :
    event.input = server.expected ∧ after.expected = event.expects := by
  induction input generalizing server with
  | nil =>
    rw [Server.next.eq_def] at next
    cases parsed : env.parse server.expected server.buffer with
    | message found left =>
      rw [parsed] at next
      cases next
      exact ⟨env.input_of_parse parsed, rfl⟩
    | malformed | incomplete =>
      rw [parsed] at next
      cases next
  | cons arrival input ih =>
    rw [Server.next.eq_def] at next
    cases parsed : env.parse server.expected server.buffer with
    | message found left =>
      rw [parsed] at next
      cases next
      exact ⟨env.input_of_parse parsed, rfl⟩
    | malformed =>
      rw [parsed] at next
      cases next
    | incomplete =>
      rw [parsed] at next
      cases arrival with
      | silence => cases next
      | bytes chunk => exact @ih ⟨server.expected, server.buffer ++ chunk, server.queue⟩ next

structure PlainLeg (pool : MailboxPool) (c : Connection) : Prop where
  ctx : Plain pool c.ctx
  expected : c.server.expected = .command

/-- Everything but the buffer that the TLS leg starts from. -/
structure HandsOver (pool : MailboxPool) (c : Connection) : Prop where
  pool : c.ctx.pool = pool
  expected : c.server.expected = .command
  queue : c.server.queue = []

theorem PlainLeg.round {env : Environment} {c after : Connection} {exit : Option LoopExit}
    (leg : PlainLeg pool c) (round : c.round env = (after, exit)) :
    (exit = none → PlainLeg pool after) ∧ (exit = some .startTlsRequested → HandsOver pool after) := by
  unfold Connection.round at round
  cases next : c.flush.server.next env c.flush.input with
  | ended =>
    simp only [next] at round
    cases round
    exact ⟨by simp, by simp⟩
  | timeout server =>
    simp only [next] at round
    cases round
    exact ⟨by simp, by simp⟩
  | event event server input =>
    obtain ⟨reads, expects⟩ := next_event next
    have stays := handleEvent_staysPlain env.check leg.ctx (reads.trans leg.expected) expects
      (env.clock c.flush.events)
    simp only [next] at round
    -- The round goes on where the event leaves the connection, or flushes it.
    cases left : (handleEvent env.check c.flush.ctx server (env.clock c.flush.events) event).exit with
    | none =>
      simp only [left] at round
      cases round
      exact ⟨fun _ => ⟨stays.ctx left, stays.expected⟩, by simp⟩
    | some reason =>
      simp only [left] at round
      cases round
      exact ⟨by simp, fun _ => ⟨stays.pool, stays.expected, rfl⟩⟩

theorem PlainLeg.runCommandLoop {env : Environment} {rounds : Nat} {c after : Connection}
    (leg : PlainLeg pool c) (run : c.runCommandLoop env rounds = (after, some .startTlsRequested)) :
    HandsOver pool after := by
  induction rounds generalizing c with
  | zero => cases run
  | succ rounds ih =>
    rw [Connection.runCommandLoop] at run
    cases round : c.round env with
    | mk next exit =>
      rw [round] at run
      cases exit with
      | none => exact ih ((leg.round round).1 rfl) run
      | some reason =>
        cases run
        exact (leg.round round).2 rfl

theorem HandsOver.upgrade_eq {c : Connection} (hands : HandsOver pool c) (tlsInput : List Arrival) :
    c.upgrade tlsInput = ⟨.new pool true false, ⟨.command, c.server.buffer, []⟩, tlsInput, [], []⟩ := by
  have server : c.server = ⟨.command, c.server.buffer, []⟩ := by
    rw [← hands.expected, ← hands.queue]
  rw [Connection.upgrade, SessionContext.upgraded, hands.pool, ← server]

/-- After two plain legs that leave the same bytes in the engine, the commands, the responses and
the session are the same in every TLS leg. -/
theorem same_after_upgrade (env : Environment) {input input' : List Arrival} {rounds rounds' : Nat}
    {c c' : Connection}
    (accepted : (Connection.plain pool input).runCommandLoop env rounds = (c, some .startTlsRequested))
    (accepted' : (Connection.plain pool input').runCommandLoop env rounds' = (c', some .startTlsRequested))
    (sameRest : c.server.buffer = c'.server.buffer) (tlsInput : List Arrival) (tlsRounds : Nat) :
    (c.upgrade tlsInput).runCommandLoop env tlsRounds =
      (c'.upgrade tlsInput).runCommandLoop env tlsRounds := by
  have start : ∀ input, PlainLeg pool (.plain pool input) := fun _ => ⟨⟨rfl, rfl, rfl⟩, rfl⟩
  rw [((start input).runCommandLoop accepted).upgrade_eq, ((start input').runCommandLoop accepted').upgrade_eq,
    sameRest]

namespace Sample

open Text

def commandOn (line : Bytes) : Option Event :=
  match line.splitOn 0x20 with
  | [tag, word] =>
    if word = asBytes "STARTTLS" then some (.commandReceived (fromUtf8Lossy tag) .startTls)
    else if word = asBytes "NOOP" then some (.commandReceived (fromUtf8Lossy tag) .noop)
    else none
  | _ => none

theorem input_of_commandOn {line : Bytes} {event : Event} (read : commandOn line = some event) :
    event.input = .command := by
  unfold commandOn at read
  split at read
  · split_ifs at read
    · cases read
      rfl
    · cases read
      rfl
  · cases read

def parseLine (expected : Expected) (bytes : Bytes) : Parse :=
  match expected, findInfix crlfBytes bytes with
  | .command, some i => match commandOn (bytes.take i) with
    | some event => .message event (bytes.drop (i + 2))
    | none => .malformed
  | _, _ => .incomplete

theorem input_of_parseLine {expected : Expected} {bytes : Bytes} {event : Event} {rest : Bytes}
    (parsed : parseLine expected bytes = .message event rest) : event.input = expected := by
  unfold parseLine at parsed
  split at parsed
  · split at parsed
    · next read =>
      cases parsed
      exact input_of_commandOn read
    · cases parsed
  · cases parsed

def lineEngine : Environment := ⟨parseLine, input_of_parseLine, fun _ _ => false, fun _ => 1700000000⟩

def plainLeg (chunks : List String) (rounds : Nat) : Connection × Option LoopExit :=
  (Connection.plain ⟨.empty, []⟩ (chunks.map fun s => .bytes (asBytes s))).runCommandLoop lineEngine rounds

/-- The bytes behind STARTTLS are a command of the TLS leg, in which nothing was sent yet. -/
theorem injected_command :
    (plainLeg ["a STARTTLS\r\n"] 1).2 = some .startTlsRequested ∧
    (plainLeg ["a STARTTLS\r\nb NOOP\r\n"] 1).2 = some .startTlsRequested ∧
    (((plainLeg ["a STARTTLS\r\n"] 1).1.upgrade []).runCommandLoop lineEngine 2).1.sent = [] ∧
    (((plainLeg ["a STARTTLS\r\nb NOOP\r\n"] 1).1.upgrade []).runCommandLoop lineEngine 2).1.sent =
      [.status (.ok (some "b") none "NOOP completed")] := by
  decide +kernel

/-- Commands before STARTTLS make no difference. -/
theorem noop_before_starttls :
    (plainLeg ["a STARTTLS\r\n"] 1).2 = some .startTlsRequested ∧
    (plainLeg ["a NOOP\r\n", "b STARTTLS\r\n"] 2).2 = some .startTlsRequested ∧
    ∀ tlsInput tlsRounds,
      ((plainLeg ["a STARTTLS\r\n"] 1).1.upgrade tlsInput).runCommandLoop lineEngine tlsRounds =
        ((plainLeg ["a NOOP\r\n", "b STARTTLS\r\n"] 2).1.upgrade tlsInput).runCommandLoop lineEngine
          tlsRounds := by
  have short : (plainLeg ["a STARTTLS\r\n"] 1).2 = some .startTlsRequested := by decide +kernel
  have long : (plainLeg ["a NOOP\r\n", "b STARTTLS\r\n"] 2).2 = some .startTlsRequested := by
    decide +kernel
  exact ⟨short, long, same_after_upgrade lineEngine (Prod.ext rfl short) (Prod.ext rfl long)
    (by decide +kernel)⟩

end Sample

end Stoa.Imap
