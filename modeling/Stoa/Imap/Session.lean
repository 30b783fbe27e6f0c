import Stoa.Imap.Mailbox

/-! The command loop of a connection over the protocol engine. -/
namespace Stoa.Imap

open Text

inductive Continuation
  | basic (text : String)
  | base64 (text : String)
  deriving DecidableEq, Repr

inductive Response
  | greeting (text : String)
  | status (status : Status)
  | data (data : Data)
  | continuation (request : Continuation)
  deriving DecidableEq, Repr

inductive Expected
  | command
  /-- An AUTHENTICATE command was received and is not finished. -/
  | authenticateData
  /-- An IDLE command was received and is neither accepted nor rejected. -/
  | idleAccept
  | idleDone
  deriving DecidableEq, Repr

/-- `imap_next::server::Server`. -/
structure Server where
  expected : Expected
  /-- Bytes of the client that no message was parsed from yet. -/
  buffer : Bytes
  /-- Responses that were not sent yet. -/
  queue : List Response
  deriving DecidableEq, Repr

namespace Server

def enqueue (server : Server) (response : Response) : Server :=
  { server with queue := server.queue ++ [response] }

def enqueueStatus (server : Server) (status : Status) : Server := server.enqueue (.status status)

def enqueueData (server : Server) (data : Data) : Server := server.enqueue (.data data)

def authenticateContinue (server : Server) (request : Continuation) : Option Server :=
  if server.expected = .authenticateData then some (server.enqueue (.continuation request)) else none

/-- The session ignores the error of a finish outside of an exchange. -/
def authenticateFinish (server : Server) (status : Status) : Server :=
  if server.expected = .authenticateData then { server.enqueueStatus status with expected := .command }
  else server

def idleAccept (server : Server) (request : Continuation) : Option Server :=
  if server.expected = .idleAccept then
    some { server.enqueue (.continuation request) with expected := .idleDone }
  else none

def idleReject (server : Server) (status : Status) : Server :=
  if server.expected = .idleAccept then { server.enqueueStatus status with expected := .command }
  else server

end Server

inductive AuthMechanism
  | plain
  | login
  | other (name : String)
  deriving DecidableEq, Repr

inductive AuthenticateData
  | cancel
  | continue (payload : Bytes)
  deriving DecidableEq, Repr

inductive CommandBody
  | capability
  | noop
  | startTls
  | logout
  | select (mailbox : Mailbox)
  | examine (mailbox : Mailbox)
  | list (reference : Mailbox) (wildcard : String)
  | status (mailbox : Mailbox) (itemNames : List StatusDataItemName)
  | fetch
  | store
  | search (uid : Bool)
  | expunge
  | close
  | unselect
  | enable (capabilities : List String)
  | expungeUid
  | move
  | append
  | namespace
  /-- LOGIN, COPY, RENAME and the other commands that are not implemented. -/
  | other (name : String)
  deriving DecidableEq, Repr

inductive Event
  | commandReceived (tag : Tag) (body : CommandBody)
  | commandAuthenticateReceived (tag : Tag) (mechanism : AuthMechanism)
      (initialResponse : Option Bytes)
  | authenticateDataReceived (data : AuthenticateData)
  | idleCommandReceived (tag : Tag)
  | idleDoneReceived
  deriving DecidableEq, Repr

def Event.input : Event → Expected
  | .commandReceived .. | .commandAuthenticateReceived .. | .idleCommandReceived _ => .command
  | .authenticateDataReceived _ => .authenticateData
  | .idleDoneReceived => .idleDone

def Event.expects : Event → Expected
  | .commandReceived .. => .command
  | .commandAuthenticateReceived .. | .authenticateDataReceived _ => .authenticateData
  | .idleCommandReceived _ => .idleAccept
  | .idleDoneReceived => .command

inductive AuthProgress
  | none
  | plainExpectingPayload (tag : Tag)
  | loginExpectingUsername (tag : Tag)
  | loginExpectingPassword (tag : Tag) (username : String)
  deriving DecidableEq, Repr

/-- What a step of an exchange leaves behind: the user if it succeeded, the engine and the state
of the exchange. -/
structure AuthStep where
  username : Option String
  server : Server
  authProgress : AuthProgress

section Authenticate

-- `CredentialStore::check`
variable (check : String → String → Bool)

/-- The three parts of `authzid NUL authcid NUL passwd`; the password may hold further NULs. -/
def plainParts (payload : Bytes) : Option (Bytes × Bytes × Bytes) :=
  match payload.dropWhile (· != 0x00) with
  | [] => none
  | _ :: rest => match rest.dropWhile (· != 0x00) with
    | [] => none
    | _ :: password =>
      some (payload.takeWhile (· != 0x00), rest.takeWhile (· != 0x00), password)

def plainVerdict (payload : Bytes) : Except String String :=
  match plainParts payload with
  | none => .error "Invalid PLAIN payload format"
  | some (authzid, authcid, passwd) =>
    match fromUtf8 authcid with
    | none => .error "Invalid UTF-8 in PLAIN username"
    | some username =>
      match fromUtf8 passwd with
      | none => .error "Invalid UTF-8 in PLAIN password"
      | some password =>
        if authzid ≠ [] ∧ fromUtf8 authzid = none then .error "Invalid UTF-8 in PLAIN authzid"
        else if authzid ≠ [] ∧ fromUtf8 authzid ≠ some username then
          .error "Authorization identity not supported"
        else if check username password then .ok username
        else .error "Invalid credentials"

def plainFinish (server : Server) (tag : Option Tag) (payload : Bytes) : Option String × Server :=
  match plainVerdict check payload with
  | .ok username =>
    (some username, server.authenticateFinish (.ok tag none "Authentication successful"))
  | .error text => (none, server.authenticateFinish (.no tag text))

def handlePlainStart (server : Server) (authProgress : AuthProgress) (tag : Tag)
    (initialResponse : Option Bytes) : AuthStep :=
  match initialResponse with
  | some payload =>
    ⟨(plainFinish check server (some tag) payload).1, (plainFinish check server (some tag) payload).2,
      authProgress⟩
  | none => match server.authenticateContinue (.basic "") with
    | some server => ⟨none, server, .plainExpectingPayload tag⟩
    | none => ⟨none, server, authProgress⟩

def handleLoginStart (server : Server) (authProgress : AuthProgress) (tag : Tag) : AuthStep :=
  match server.authenticateContinue (.base64 "Username:") with
  | some server => ⟨none, server, .loginExpectingUsername tag⟩
  | none => ⟨none, server, authProgress⟩

def handleAuthenticateStart (server : Server) (authProgress : AuthProgress) (tag : Tag)
    (mechanism : AuthMechanism) (initialResponse : Option Bytes) : AuthStep :=
  match mechanism with
  | .plain => handlePlainStart check server authProgress tag initialResponse
  | .login => handleLoginStart server authProgress tag
  | .other _ =>
    ⟨none, server.authenticateFinish (.no (some tag) "Unsupported authentication mechanism"),
      authProgress⟩

def handleAuthenticateData (server : Server) (authProgress : AuthProgress) (data : AuthenticateData) :
    AuthStep :=
  match authProgress, data with
  -- The tag of the command is not in the answer to a cancelled exchange.
  | _, .cancel => ⟨none, server.authenticateFinish (.no none "Authentication cancelled"), .none⟩
  | .plainExpectingPayload tag, .continue payload =>
    ⟨(plainFinish check server (some tag) payload).1, (plainFinish check server (some tag) payload).2,
      .none⟩
  | .loginExpectingUsername tag, .continue payload =>
    match fromUtf8 payload with
    | none => ⟨none, server.authenticateFinish (.no (some tag) "Invalid UTF-8 in username"), .none⟩
    | some username => match server.authenticateContinue (.base64 "Password:") with
      | some server => ⟨none, server, .loginExpectingPassword tag username⟩
      | none => ⟨none, server, .none⟩
  | .loginExpectingPassword tag username, .continue payload =>
    match fromUtf8 payload with
    | none => ⟨none, server.authenticateFinish (.no (some tag) "Invalid UTF-8 in password"), .none⟩
    | some password =>
      if check username password then
        ⟨some username, server.authenticateFinish (.ok (some tag) none "Authentication successful"),
          .none⟩
      else ⟨none, server.authenticateFinish (.no (some tag) "Invalid credentials"), .none⟩
  | .none, .continue _ =>
    ⟨none, server.authenticateFinish (.bad none "Internal authentication error"), .none⟩

end Authenticate

inductive ImapState
  | notAuthenticated
  | authenticated (username : String)
  | selected (username mailbox : String) (readOnly : Bool)
  | logout
  deriving DecidableEq, Repr

structure SessionContext where
  pool : MailboxPool
  tls : Bool
  /-- Whether there is an acceptor for an upgrade. -/
  tlsAcceptor : Bool
  state : ImapState
  authProgress : AuthProgress
  idleTag : Option Tag
  authFailures : Nat
  imap4rev2Enabled : Bool

def SessionContext.new (pool : MailboxPool) (tls tlsAcceptor : Bool) : SessionContext where
  pool := pool
  tls := tls
  tlsAcceptor := tlsAcceptor
  state := .notAuthenticated
  authProgress := .none
  idleTag := none
  authFailures := 0
  imap4rev2Enabled := false

def SessionContext.username (ctx : SessionContext) : Option String :=
  match ctx.state with
  | .authenticated username | .selected username _ _ => some username
  | .notAuthenticated | .logout => none

def SessionContext.selectedBy (ctx : SessionContext) : Option String :=
  match ctx.state with
  | .selected username _ _ => some username
  | .authenticated _ | .notAuthenticated | .logout => none

def maxAuthFailures : Nat := 3

/-- Why the loop is left. The responses in the queue are sent before. -/
inductive LoopExit
  | done
  | startTlsRequested
  deriving DecidableEq, Repr

structure Handled where
  ctx : SessionContext
  server : Server
  exit : Option LoopExit

def capabilityList (tls tlsAvailable : Bool) : List String :=
  ["IMAP4rev1"] ++
    (if tls then ["AUTH=PLAIN", "AUTH=LOGIN", "IDLE", "UIDPLUS", "MOVE", "SASL-IR"]
      else if tlsAvailable then ["STARTTLS"] else []) ++
    ["ENABLE", "UNSELECT", "IMAP4rev2", "NAMESPACE", "SPECIAL-USE"]

def handleEnable (cap : String) (imap4rev2Enabled : Bool) : Bool :=
  sameIgnoringCase cap "IMAP4rev2" && !imap4rev2Enabled

/-- The capabilities that ENABLE reports: the first mention of the only known one, unless it is
active already. -/
def newlyEnabled (capabilities : List String) (imap4rev2Enabled : Bool) : List String :=
  if capabilities.any (handleEnable · imap4rev2Enabled) then ["IMAP4rev2"] else []

section Loop

-- `CredentialStore::check`
variable (check : String → String → Bool)

def reply (ctx : SessionContext) (server : Server) (status : Status) : Handled :=
  ⟨ctx, server.enqueueStatus status, none⟩

def replyData (ctx : SessionContext) (server : Server) (data : List Data) (status : Status) : Handled :=
  ⟨ctx, (data.foldl Server.enqueueData server).enqueueStatus status, none⟩

def selectMailbox (ctx : SessionContext) (server : Server) (tag : Tag) (mailbox : Mailbox)
    (readOnly : Bool) (now : Nat) : Handled :=
  match ctx.username with
  | none => reply ctx server (.no (some tag) "Not in authenticated state")
  | some username =>
    match handleSelect ctx.pool tag mailbox readOnly now with
    | (.error no, pool) => reply { ctx with pool := pool } server no
    | (.ok result, pool) =>
      let withData := (selectUntaggedData ctx.imap4rev2Enabled).foldl Server.enqueueData server
      let withStatus := (selectStatusResponses result).foldl Server.enqueueStatus withData
      ⟨{ ctx with pool := pool, state := .selected username result.mailboxName readOnly },
        withStatus.enqueueStatus result.taggedOk, none⟩

def onSelected (ctx : SessionContext) (server : Server) (tag : Tag) (text : String) : Handled :=
  reply ctx server (match ctx.selectedBy with
    | some _ => .ok (some tag) none text
    | none => .no (some tag) "Not in selected state")

def deselect (ctx : SessionContext) (server : Server) (tag : Tag) (text : String) : Handled :=
  match ctx.selectedBy with
  | some username =>
    reply { ctx with state := .authenticated username } server (.ok (some tag) none text)
  | none => reply ctx server (.no (some tag) "Not in selected state")

def handleStartTls (ctx : SessionContext) (server : Server) (tag : Tag) : Handled :=
  if ctx.tls then reply ctx server (.bad (some tag) "Already in TLS")
  else if ctx.state ≠ .notAuthenticated then
    reply ctx server (.bad (some tag) "STARTTLS not permitted in authenticated state")
  else if ctx.tlsAcceptor then
    ⟨{ ctx with tlsAcceptor := false },
      server.enqueueStatus (.ok (some tag) none "Begin TLS negotiation now"), some .startTlsRequested⟩
  else reply ctx server (.bad (some tag) "STARTTLS not available")

/-- `now` is the time that SELECT may read. -/
def handleCommand (ctx : SessionContext) (server : Server) (tag : Tag) (now : Nat) : CommandBody → Handled
  | .capability =>
    replyData ctx server [.capability (capabilityList ctx.tls ctx.tlsAcceptor)]
      (.ok (some tag) none "CAPABILITY complete")
  | .noop => reply ctx server (.ok (some tag) none "NOOP completed")
  | .startTls => handleStartTls ctx server tag
  | .logout =>
    ⟨{ ctx with state := .logout },
      (server.enqueueStatus (.bye "Logging out")).enqueueStatus (.ok (some tag) none "LOGOUT completed"),
      some .done⟩
  | .select mailbox => selectMailbox ctx server tag mailbox false now
  | .examine mailbox => selectMailbox ctx server tag mailbox true now
  | .list reference wildcard =>
    match ctx.username with
    | some _ =>
      replyData { ctx with pool := (handleList ctx.pool reference wildcard).2 } server
        (handleList ctx.pool reference wildcard).1 (.ok (some tag) none "LIST complete")
    | none => reply ctx server (.no (some tag) "Not in authenticated state")
  | .status mailbox itemNames =>
    match ctx.username with
    | some _ => match handleStatus ctx.pool mailbox itemNames with
      | (some data, pool) =>
        replyData { ctx with pool := pool } server [data] (.ok (some tag) none "STATUS complete")
      | (none, pool) => reply { ctx with pool := pool } server (.no (some tag) "No such mailbox")
    | none => reply ctx server (.no (some tag) "Not in authenticated state")
  | .fetch => onSelected ctx server tag "FETCH complete"
  | .store => onSelected ctx server tag "STORE complete"
  | .search uid =>
    match ctx.selectedBy with
    | some _ => replyData ctx server [.search []]
        (.ok (some tag) none (if uid then "UID SEARCH complete" else "SEARCH complete"))
    | none => reply ctx server (.no (some tag) "Not in selected state")
  | .expunge => onSelected ctx server tag "EXPUNGE complete"
  | .close => deselect ctx server tag "CLOSE complete"
  | .unselect => deselect ctx server tag "UNSELECT complete"
  | .enable capabilities =>
    match ctx.username with
    | some _ =>
      let enabled := newlyEnabled capabilities ctx.imap4rev2Enabled
      replyData { ctx with imap4rev2Enabled := ctx.imap4rev2Enabled || enabled ≠ [] } server
        [.enabled enabled] (.ok (some tag) none "ENABLE complete")
    | none => reply ctx server (.no (some tag) "Not in authenticated state")
  | .expungeUid => onSelected ctx server tag "UID EXPUNGE complete"
  | .move => onSelected ctx server tag "MOVE complete"
  | .append => reply ctx server (.no (some tag) "APPEND not yet supported")
  | .namespace =>
    match ctx.username with
    | some _ => replyData ctx server [handleNamespace] (.ok (some tag) none "NAMESPACE complete")
    | none => reply ctx server (.no (some tag) "not authenticated")
  | .other _ =>
    reply ctx server (.bad (some tag) "Command not yet implemented in this server version")

def countFailure (ctx : SessionContext) (server : Server) : Handled :=
  let failed := { ctx with authFailures := ctx.authFailures + 1 }
  if ctx.authFailures + 1 ≥ maxAuthFailures then
    ⟨failed, server.enqueueStatus (.bye "Too many authentication failures"), some .done⟩
  else ⟨failed, server, none⟩

def signIn (ctx : SessionContext) (server : Server) (username : String) : Handled :=
  ⟨{ ctx with authFailures := 0, state := .authenticated username }, server, none⟩

def handleAuthenticate (ctx : SessionContext) (server : Server) (tag : Tag) (mechanism : AuthMechanism)
    (initialResponse : Option Bytes) : Handled :=
  if ctx.tls then
    let step := handleAuthenticateStart check server ctx.authProgress tag mechanism initialResponse
    let after := { ctx with authProgress := step.authProgress }
    match step.username with
    | some username => signIn after step.server username
    | none =>
      -- Without an exchange in progress the attempt has failed.
      if step.authProgress = .none then countFailure after step.server
      else ⟨after, step.server, none⟩
  else
    countFailure ctx
      (server.authenticateFinish (.no (some tag) "LOGINDISABLED: authenticate over TLS"))

def handleData (ctx : SessionContext) (server : Server) (data : AuthenticateData) : Handled :=
  let step := handleAuthenticateData check server ctx.authProgress data
  let after := { ctx with authProgress := step.authProgress }
  match step.username with
  | some username => signIn after step.server username
  | none => if data = .cancel then ⟨after, step.server, none⟩ else countFailure after step.server

def handleIdle (ctx : SessionContext) (server : Server) (tag : Tag) : Handled :=
  match ctx.username with
  | some _ => match server.idleAccept (.basic "idling") with
    | some server => ⟨{ ctx with idleTag := some tag }, server, none⟩
    | none => ⟨ctx, server, none⟩
  | none => ⟨ctx, server.idleReject (.no (some tag) "Not in authenticated state"), none⟩

def handleIdleDone (ctx : SessionContext) (server : Server) : Handled :=
  match ctx.idleTag with
  | some tag => reply { ctx with idleTag := none } server (.ok (some tag) none "IDLE terminated")
  | none => ⟨ctx, server, none⟩

/-- One round of the loop, for an event about client input. -/
def handleEvent (ctx : SessionContext) (server : Server) (now : Nat) : Event → Handled
  | .commandReceived tag body => handleCommand ctx server tag now body
  | .commandAuthenticateReceived tag mechanism initialResponse =>
    handleAuthenticate check ctx server tag mechanism initialResponse
  | .authenticateDataReceived data => handleData check ctx server data
  | .idleCommandReceived tag => handleIdle ctx server tag
  | .idleDoneReceived => handleIdleDone ctx server

def SessionContext.upgraded (ctx : SessionContext) : SessionContext := .new ctx.pool true false

end Loop

inductive Parse
  | incomplete
  | malformed
  | message (event : Event) (rest : Bytes)

/-- The codec of the engine, and what else the loop depends on. -/
structure Environment where
  parse : Expected → Bytes → Parse
  /-- The engine reads what it expects. -/
  input_of_parse : ∀ {expected bytes event rest}, parse expected bytes = .message event rest →
    event.input = expected
  check : String → String → Bool
  /-- The Unix time after these events of the connection. -/
  clock : List Event → Nat

inductive Arrival
  | bytes (chunk : Bytes)
  /-- Nothing until the idle timeout. -/
  | silence

structure Connection where
  ctx : SessionContext
  server : Server
  /-- What the client is going to send. -/
  input : List Arrival
  sent : List Response
  events : List Event

inductive Next
  | event (event : Event) (server : Server) (input : List Arrival)
  | timeout (server : Server)
  | ended

/-- Read until a message is complete. Bytes stay in the buffer until a message was parsed from
them, and messages are parsed in the order of the bytes. -/
def Server.next (env : Environment) (server : Server) (input : List Arrival) : Next :=
  match env.parse server.expected server.buffer with
  | .message event rest => .event event { server with expected := event.expects, buffer := rest } input
  | .malformed => .ended
  | .incomplete => match input with
    | [] => .ended
    | .silence :: _ => .timeout server
    | .bytes chunk :: input => next env { server with buffer := server.buffer ++ chunk } input

/-- A queued response is reported as sent before more input is parsed. -/
def Connection.flush (c : Connection) : Connection :=
  { c with server := { c.server with queue := [] }, sent := c.sent ++ c.server.queue }

def Connection.round (env : Environment) (c : Connection) : Connection × Option LoopExit :=
  let c := c.flush
  match c.server.next env c.input with
  | .ended => (c, some .done)
  | .timeout server =>
    ({ c with server := server.enqueueStatus (.bye "Idle timeout — connection closed") }.flush, some .done)
  | .event event server input =>
    let handled := handleEvent env.check c.ctx server (env.clock c.events) event
    let after : Connection :=
      { c with ctx := handled.ctx, server := handled.server, input := input, events := c.events ++ [event] }
    match handled.exit with
    | none => (after, none)
    | some exit => (after.flush, some exit)

/-- At most this many rounds of `run_command_loop`. -/
def Connection.runCommandLoop (env : Environment) : Nat → Connection → Connection × Option LoopExit
  | 0, c => (c, none)
  | rounds + 1, c => match c.round env with
    | (c, none) => runCommandLoop env rounds c
    | (c, some exit) => (c, some exit)

def Connection.plain (pool : MailboxPool) (input : List Arrival) : Connection where
  ctx := .new pool false true
  server := ⟨.command, [], [.greeting "IMAP4rev1 stoa-imap server ready"]⟩
  input := input
  sent := []
  events := []

/-- The connection after the TLS handshake. The engine is the one of the plain connection. -/
def Connection.upgrade (c : Connection) (input : List Arrival) : Connection where
  ctx := c.ctx.upgraded
  server := c.server
  input := input
  sent := []
  events := []

end Stoa.Imap
