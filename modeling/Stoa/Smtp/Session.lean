import Stoa.Lib.Base64
import Stoa.Smtp.Delivery

/-! The command loop of the server. Each turn of the loop reads a line, answers it and moves the
session on, or ends it. -/
namespace Stoa.Smtp

def dotCrlf : Bytes := [0x2e, 0x0d, 0x0a]

def dotLf : Bytes := [0x2e, 0x0a]

def unstuffDots (line : Bytes) : Bytes := if [0x2e, 0x2e] <+: line then line.drop 1 else line

/-- Where the loop over the bytes stands: the body so far, whether it is too large, the line so
far, and whether the rest of the line is skipped. -/
structure DataLoop where
  body : Bytes
  tooLarge : Bool
  lineBuf : Bytes
  draining : Bool

namespace DataLoop

def start : DataLoop := ⟨[], false, [], false⟩

def takeLine (maxBytes : Nat) (s : DataLoop) (line : Bytes) : DataLoop :=
  if s.tooLarge then { s with lineBuf := [] }
  else if maxBytes < (s.body ++ unstuffDots line).length then ⟨[], true, [], false⟩
  else ⟨s.body ++ unstuffDots line, false, [], false⟩

end DataLoop

/-- The loop, from a state and the bytes that are still to come; the end of the bytes is the end
of the connection, or an error. The result is the body, whether it is too large, and the bytes
that were not read. -/
def readDataLoop (maxBytes : Nat) : DataLoop → Bytes → (Bytes × Bool) × Bytes
  | s, [] => ((s.body, s.tooLarge), [])
  | s, b :: rest =>
    if s.draining then
      readDataLoop maxBytes (if b = 0x0a then { s with draining := false } else s) rest
    else if b = 0x0a then
      let line := s.lineBuf ++ [b]
      if line = dotCrlf ∨ line = dotLf then ((s.body, s.tooLarge), rest)
      else readDataLoop maxBytes (s.takeLine maxBytes line) rest
    else if maxBytes < (s.lineBuf ++ [b]).length then
      readDataLoop maxBytes ⟨[], true, [], true⟩ rest
    else readDataLoop maxBytes { s with lineBuf := s.lineBuf ++ [b] } rest

def readDataBody (maxBytes : Nat) (input : Bytes) : (Bytes × Bool) × Bytes :=
  readDataLoop maxBytes .start input

/-- The number of `Received:` headers. -/
def countReceivedHeaders (msg : Bytes) : Nat :=
  ((msg.take (headerSectionEnd msg)).splitOn 0x0a).countP fun line =>
    Text.eqIgnoreAsciiCase ((line.take 9)) (Text.asBytes "received:")

def maxHops : Nat := 25

/-- What the checks of the sender's domain say about a message. -/
structure AuthVerdict where
  dmarcReject : Bool
  header : String

/-- What becomes of the data: a reply that refuses it, or the body to deliver, with the verdict. -/
inductive DataOutcome
  | timeout
  | tooLarge
  | tooManyHops
  | dmarcReject
  | message (body : Bytes) (verdict : Option AuthVerdict)

/-- Read the data and check it. `timedOut` says that the time is over before its end, and
`verifyInbound` is the authenticator, if there is one. -/
def receiveData (maxBytes : Nat) (timedOut : Bool) (verifyInbound : Option (Bytes → AuthVerdict))
    (input : Bytes) : DataOutcome :=
  if timedOut then .timeout
  else
    let (body, tooLarge) := (readDataBody maxBytes input).1
    if tooLarge then .tooLarge
    else if maxHops ≤ countReceivedHeaders body then .tooManyHops
    else match verifyInbound with
      | none => .message body none
      | some verify =>
        if (verify body).dmarcReject then .dmarcReject else .message body (some (verify body))

inductive CmdLine
  | line (text : String)
  | eof
  | tooLong
  | timeout

inductive Verb
  | ehlo
  | helo
  | auth
  | mail
  | rcpt
  | data
  | rset
  | noop
  | quit
  | starttls
  | unknown
  deriving DecidableEq, Repr

def Verb.ofText (text : String) : Verb :=
  if text = "EHLO" then .ehlo
  else if text = "HELO" then .helo
  else if text = "AUTH" then .auth
  else if text = "MAIL" then .mail
  else if text = "RCPT" then .rcpt
  else if text = "DATA" then .data
  else if text = "RSET" then .rset
  else if text = "NOOP" then .noop
  else if text = "QUIT" then .quit
  else if text = "STARTTLS" then .starttls
  else .unknown

structure Command where
  verb : Verb
  args : String
  deriving DecidableEq, Repr

def trimLineEnd (text : String) : String :=
  String.ofList (text.toList.reverse.dropWhile fun c => c == '\r' || c == '\n').reverse

def parseCommand (text : String) : Command :=
  match Text.splitOnce Text.isAsciiSpace (trimLineEnd text) with
  | (verb, some args) => ⟨.ofText (Text.toAsciiUppercase verb), Text.trim args⟩
  | (verb, none) => ⟨.ofText (Text.toAsciiUppercase verb), ""⟩

def parseAngleAddr (args : String) : String :=
  let afterColon := (Text.splitOnce (· == ':') args).2.getD args
  let trimmed := Text.trim afterColon
  match (Text.splitOnce (· == '<') trimmed).2 with
  | none => trimmed
  | some inside => match Text.splitOnce (· == '>') inside with
    | (addr, some _) => addr
    | (_, none) => trimmed

def hasRequiretlsParam (args : String) : Bool :=
  let params := (Text.splitOnce (· == '>') args).2.getD args
  (Text.asciiWords params).any (Text.sameIgnoringCase · "REQUIRETLS")

inductive Reply
  | greeting (hostname : String)
  | ehlo (hostname : String) (maxMessageBytes : Nat) (starttls auth requiretls : Bool)
  | helo (hostname : String)
  | ok
  | lineTooLong
  | timeout
  | syntaxError
  | starttlsFirst
  | encryptionRequired
  | alreadyAuthenticated
  | challenge
  | authInvalid
  | authCancelled
  | authSuccess
  | tooManyAuthFailures
  | unknownMechanism
  | badSequence
  | authRequired
  | requiretlsNeedsTls
  | tooManyRecipients
  | startData
  | messageTooLarge
  | tooManyHops
  | dmarcReject
  | recipientPolicy
  | queueFailed
  | mailboxUnavailable
  | bye
  | tlsActive
  | tlsUnavailable
  | readyForTls
  | unrecognized
  deriving DecidableEq, Repr

def Reply.text : Reply → String
  | .greeting hostname => "220 " ++ hostname ++ " ESMTP stoa-smtp\r\n"
  | .ehlo hostname maxMessageBytes starttls auth requiretls =>
    "250-" ++ hostname ++ "\r\n250-SIZE " ++ toString maxMessageBytes ++
      "\r\n250-8BITMIME\r\n250-SMTPUTF8\r\n250-PIPELINING\r\n" ++
      (if starttls then "250-STARTTLS\r\n" else "") ++ (if auth then "250-AUTH PLAIN\r\n" else "") ++
      (if requiretls then "250-REQUIRETLS\r\n" else "") ++ "250 OK\r\n"
  | .helo hostname => "250 " ++ hostname ++ "\r\n"
  | .ok => "250 OK\r\n"
  | .lineTooLong => "500 Line too long\r\n"
  | .timeout => "421 4.4.2 Timeout - closing connection\r\n"
  | .syntaxError => "501 5.5.2 Syntax error in parameters\r\n"
  | .starttlsFirst => "530 5.7.0 Must issue a STARTTLS command first\r\n"
  | .encryptionRequired => "534 5.7.9 Encryption required for requested authentication mechanism\r\n"
  | .alreadyAuthenticated => "503 5.5.1 Already authenticated\r\n"
  | .challenge => "334 \r\n"
  | .authInvalid => "535 5.7.8 Authentication credentials invalid\r\n"
  | .authCancelled => "501 5.7.0 Authentication exchange cancelled\r\n"
  | .authSuccess => "235 2.7.0 Authentication successful\r\n"
  | .tooManyAuthFailures => "535 5.7.8 Too many authentication failures\r\n"
  | .unknownMechanism => "504 5.5.4 Unrecognized authentication type\r\n"
  | .badSequence => "503 Bad sequence of commands\r\n"
  | .authRequired => "530 5.7.0 Authentication required\r\n"
  | .requiretlsNeedsTls => "530 5.7.0 REQUIRETLS requires TLS\r\n"
  | .tooManyRecipients => "452 Too many recipients\r\n"
  | .startData => "354 End data with <CR><LF>.<CR><LF>\r\n"
  | .messageTooLarge => "552 Message too large\r\n"
  | .tooManyHops => "554 5.4.6 Too many hops - mail loop detected\r\n"
  | .dmarcReject => "550 5.7.1 Message rejected due to DMARC policy\r\n"
  | .recipientPolicy => dataReply (.rejected "")
  | .queueFailed => dataReply (.accepted true)
  | .mailboxUnavailable => dataReply .transientError
  | .bye => "221 Bye\r\n"
  | .tlsActive => "503 5.5.1 STARTTLS already active\r\n"
  | .tlsUnavailable => "454 TLS not available\r\n"
  | .readyForTls => "220 Ready to start TLS\r\n"
  | .unrecognized => "500 Command unrecognized\r\n"

def Reply.ofOutcome : SieveOutcome → Reply
  | .rejected _ => .recipientPolicy
  | .accepted true => .queueFailed
  | .accepted false => .ok
  | .transientError => .mailboxUnavailable

theorem text_ofOutcome (outcome : SieveOutcome) : (Reply.ofOutcome outcome).text = dataReply outcome := by
  rcases outcome with reason | (_ | _) | _ <;> rfl

/-- Users with the hashes of their passwords, and a hash for everybody else. -/
structure CredentialStore where
  entries : List (String × String)
  dummyHash : String

/-- Check a password; `bcryptVerify` compares it with a hash. -/
def CredentialStore.check (store : CredentialStore) (bcryptVerify : String → String → Bool)
    (username password : String) : Bool :=
  bcryptVerify password
    ((store.entries.lookup (String.ofList (username.toList.map Char.toLower))).getD store.dummyHash)

def plainCredentials (b64 : String) : Option (String × String) := do
  let decoded ← Base64.standard.decode (Text.trim b64)
  match decoded.splitOn 0 with
  | authzid :: authcid :: passwd :: more =>
    let authzid ← Text.fromUtf8 authzid
    let authcid ← Text.fromUtf8 authcid
    -- The password is the rest, with the zeros that it has.
    let passwd ← Text.fromUtf8 (List.intercalate [0] (passwd :: more))
    if authcid = "" then none
    else if authzid ≠ "" then none
    else some (authcid, passwd)
  | _ => none

def verifySaslPlain (store : CredentialStore) (bcryptVerify : String → String → Bool) (b64 : String) :
    Option String :=
  match plainCredentials b64 with
  | none => none
  | some (authcid, passwd) =>
    if store.check bcryptVerify authcid passwd then
      some (String.ofList (authcid.toList.map Char.toLower))
    else none

inductive SessionState
  | fresh
  | greeted (ehloDomain : String)
  | mail (ehloDomain mailFrom : String) (requireTls : Bool)
  | rcpt (ehloDomain mailFrom : String) (rcptTo : List String) (requireTls : Bool)
  deriving DecidableEq

structure Server where
  hostname : String
  maxMessageBytes : Nat
  maxRecipients : Nat
  isSubmission : Bool
  credentialStore : CredentialStore
  bcryptVerify : String → String → Bool
  clientIp : String
  /-- The checks of the sender's domain, for a name given at the greeting and a sender. -/
  verifyInbound : Option (String → String → Bytes → AuthVerdict)
  delivery : DeliveryEnv

structure Session where
  state : SessionState
  authenticatedUser : Option String
  authFailures : Nat
  isTls : Bool
  /-- Can the connection be upgraded? -/
  tlsAcceptor : Bool

def Session.start (isTls tlsAcceptor : Bool) : Session := ⟨.fresh, none, 0, isTls, tlsAcceptor⟩

/-- What the client and the network do in one turn of the loop, and what a delivery finds. -/
structure Turn where
  line : CmdLine
  /-- The answer to a challenge. -/
  response : CmdLine
  data : Bytes
  dataTimeout : Bool
  date : String
  actions : List SieveAction
  stores : DeliveryStores
  /-- Does the TLS handshake succeed? -/
  handshake : Bool
  /-- Can the reply that asks for more be written? -/
  prompted : Bool
  /-- Can the last reply be written? -/
  written : Bool

structure Envelope where
  mailFrom : String
  rcptTo : List String
  requireTls : Bool
  deriving DecidableEq

structure Answer where
  replies : List Reply
  /-- The credentials that were looked at. -/
  credentials : Option String
  /-- The envelope, once DATA is accepted. -/
  envelope : Option Envelope
  next : Option Session

section Handlers

variable (server : Server) (turn : Turn) (s : Session)

/-- Reply and go on as `next`; the session ends if the reply cannot be written. -/
def say (reply : Reply) (next : Session) : Answer :=
  if turn.written then ⟨[reply], none, none, some next⟩ else ⟨[], none, none, none⟩

def sayLast (reply : Reply) : Answer := ⟨if turn.written then [reply] else [], none, none, none⟩

def hasLineBreak (args : String) : Bool :=
  args.toList.any fun c => c == '\r' || c == '\n' || c == '\x00'

def handleEhlo (args : String) : Answer :=
  if hasLineBreak args then say turn .syntaxError s
  else say turn (.ehlo server.hostname server.maxMessageBytes (!s.isTls && s.tlsAcceptor)
    ((s.isTls || server.isSubmission) && !server.credentialStore.entries.isEmpty) s.isTls)
    { s with state := .greeted args }

def handleHelo (args : String) : Answer :=
  if hasLineBreak args then say turn .syntaxError s
  else say turn (.helo server.hostname) { s with state := .greeted args }

def checkPlain (b64 : String) : Answer :=
  let answer := match verifySaslPlain server.credentialStore server.bcryptVerify b64 with
    | some username => say turn .authSuccess { s with authenticatedUser := some username, authFailures := 0 }
    | none =>
      if 3 ≤ s.authFailures + 1 then sayLast turn .tooManyAuthFailures
      else say turn .authInvalid { s with authFailures := s.authFailures + 1 }
  { answer with credentials := some b64 }

/-- The second step of an AUTH command without credentials. -/
def answerChallenge : Answer :=
  let answer := match turn.response with
    | .line text =>
      if trimLineEnd text = "*" then say turn .authCancelled s
      else checkPlain server turn s (trimLineEnd text)
    | _ => sayLast turn .authInvalid
  { answer with replies := .challenge :: answer.replies }

def handleAuth (args : String) : Answer :=
  if !s.isTls && !server.isSubmission then
    sayLast turn (if s.tlsAcceptor then .starttlsFirst else .encryptionRequired)
  else if s.authenticatedUser.isSome then say turn .alreadyAuthenticated s
  else
    let mechanism := Text.toAsciiUppercase args
    if mechanism = "PLAIN" ∨ (Text.stripStart "PLAIN " mechanism).isSome then
      let initialResponse := Text.trim (String.ofList (args.toList.drop 5))
      if initialResponse ≠ "" then checkPlain server turn s initialResponse
      else if !turn.prompted then ⟨[], none, none, none⟩
      else answerChallenge server turn s
    else say turn .unknownMechanism s

def handleMail (args : String) : Answer :=
  match s.state with
  | .greeted ehloDomain =>
    if !server.credentialStore.entries.isEmpty && s.authenticatedUser.isNone then
      say turn .authRequired s
    else if hasRequiretlsParam args && !s.isTls then say turn .requiretlsNeedsTls s
    else say turn .ok
      { s with state := .mail ehloDomain (parseAngleAddr args) (hasRequiretlsParam args) }
  | _ => say turn .badSequence s

def handleRcpt (args : String) : Answer :=
  match s.state with
  | .mail ehloDomain mailFrom requireTls =>
    say turn .ok { s with state := .rcpt ehloDomain mailFrom [parseAngleAddr args] requireTls }
  | .rcpt ehloDomain mailFrom rcptTo requireTls =>
    if server.maxRecipients ≤ rcptTo.length then say turn .tooManyRecipients s
    else say turn .ok
      { s with state := .rcpt ehloDomain mailFrom (rcptTo ++ [parseAngleAddr args]) requireTls }
  | _ => say turn .badSequence s

def traceHeaders (ehloDomain : String) (requireTls : Bool) (verdict : Option AuthVerdict) : String :=
  let withClause := if s.isTls then (if requireTls then "ESMTPS (REQUIRETLS)" else "ESMTPS") else "ESMTP"
  "Received: from " ++ ehloDomain ++ " ([" ++ server.clientIp ++ "]) by " ++ server.hostname ++
    " with " ++ withClause ++ "; " ++ turn.date ++ "\r\n" ++
    match verdict with
    | some verdict => "Authentication-Results: " ++ verdict.header ++ "\r\n"
    | none => ""

/-- The reply to the message itself; a time-out ends the session. -/
def handleMessage (ehloDomain : String) (envelope : Envelope) : Answer :=
  let next := { s with state := .greeted ehloDomain }
  match receiveData server.maxMessageBytes turn.dataTimeout
      (server.verifyInbound.map fun verify => verify ehloDomain envelope.mailFrom) turn.data with
  | .timeout => sayLast turn .timeout
  | .tooLarge => say turn .messageTooLarge next
  | .tooManyHops => say turn .tooManyHops next
  | .dmarcReject => say turn .dmarcReject next
  | .message body verdict =>
    let rawBytes := Text.asBytes (traceHeaders server turn s ehloDomain envelope.requireTls verdict) ++ body
    let inbound : Inbound := ⟨envelope.mailFrom, envelope.rcptTo.headD "", rawBytes⟩
    say turn (.ofOutcome (deliverByActions server.delivery inbound turn.actions turn.stores).1) next

def handleData : Answer :=
  match s.state with
  | .rcpt ehloDomain mailFrom rcptTo requireTls =>
    if rcptTo.isEmpty then say turn .badSequence s
    else if !turn.prompted then ⟨[], none, none, none⟩
    else
      let envelope := ⟨mailFrom, rcptTo, requireTls⟩
      let answer := handleMessage server turn s ehloDomain envelope
      { answer with replies := .startData :: answer.replies, envelope := some envelope }
  | _ => say turn .badSequence s

def handleRset : Answer :=
  match s.state with
  | .fresh => say turn .badSequence s
  | .greeted ehloDomain | .mail ehloDomain _ _ | .rcpt ehloDomain _ _ _ =>
    say turn .ok { s with state := .greeted ehloDomain }

/-- After the handshake a new session begins, on the same connection. -/
def handleStarttls : Answer :=
  if s.isTls then say turn .tlsActive s
  else if !s.tlsAcceptor then say turn .tlsUnavailable s
  else if !turn.prompted then ⟨[], none, none, none⟩
  else if !turn.handshake then ⟨[.readyForTls], none, none, none⟩
  else
    let answer := say turn (.greeting server.hostname) (.start true false)
    { answer with replies := .readyForTls :: answer.replies }

def handleCommand (command : Command) : Answer :=
  match command.verb with
  | .ehlo => handleEhlo server turn s command.args
  | .helo => handleHelo server turn s command.args
  | .auth => handleAuth server turn s command.args
  | .mail => handleMail server turn s command.args
  | .rcpt => handleRcpt server turn s command.args
  | .data => handleData server turn s
  | .rset => handleRset turn s
  | .noop => say turn .ok s
  | .quit => sayLast turn .bye
  | .starttls => handleStarttls server turn s
  | .unknown => say turn .unrecognized s

structure Exchange where
  command : Option Command
  isTls : Bool
  replies : List Reply
  credentials : Option String
  envelope : Option Envelope

def seen (command : Option Command) (answer : Answer) : Exchange :=
  ⟨command, s.isTls, answer.replies, answer.credentials, answer.envelope⟩

def takeTurn : Exchange × Option Session :=
  match turn.line with
  | .line text =>
    let command := parseCommand text
    let answer := handleCommand server turn s command
    (seen s (some command) answer, answer.next)
  | .eof => (seen s none ⟨[], none, none, none⟩, none)
  | .tooLong => (seen s none (sayLast turn .lineTooLong), none)
  | .timeout => (seen s none (sayLast turn .timeout), none)

end Handlers

def step (server : Server) (turn : Turn) : Option Session → Option Exchange × Option Session
  | none => (none, none)
  | some s => ((takeTurn server turn s).1, (takeTurn server turn s).2)

def runSession (server : Server) (isTls tlsAcceptor : Bool) (turns : List Turn) : List Exchange :=
  (runAll (step server) turns (some (.start isTls tlsAcceptor))).1.filterMap id

end Stoa.Smtp
