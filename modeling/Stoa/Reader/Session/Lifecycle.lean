import Stoa.Core.Validation
import Stoa.Reader.PostPipeline
import Stoa.Reader.Session.Dispatch

/-! One turn of the loop reads a line and answers it. Before the login every command goes to the
dispatcher. -/
namespace Stoa.Session

open Text Post

inductive Part
  | article | head | body | stat
  deriving DecidableEq

structure ArticleContent where
  articleNumber : Nat
  messageId : String
  wireBytes : Bytes
  cid : Cid

inductive Query
  | byMsgid (part : Part) (msgid : String)
  | byCid (part : Part) (cid : String)
  | content (part : Part) (content : ArticleContent)
  | xverify (messageId expectedCid : String) (verifySig : Bool)
  | xget (cid : String)
  | listActive (wildmat : Option String)
  | newnews (wildmat date time : String)
  | overByMsgid (msgid : String)
  | overRange (group : String) (low high : Nat)
  | hdrByMsgid (field msgid : String)
  | hdrRange (field group : String) (low high : Nat)
  | search (group : String) (key : SearchKey) (value : String)

structure Stores where
  certs : CertStores
  /-- Does the credential store accept this user and password? -/
  credentialCheck : String → String → Bool
  /-- The user of a valid token, if providers are configured. -/
  oidcStore : Option (String → Except String String)
  lookupByMsgid : String → Except String (Option Cid)
  lookupCid : String → Nat → Except String (Option Cid)
  groupRange : String → Except String (Nat × Nat)
  nextAfter : String → Nat → Except String (Option (Nat × Cid))
  prevBefore : String → Nat → Except String (Option (Nat × Cid))
  fetchArticleWireBytes : Cid → Except String Bytes
  /-- The Message-ID of the overview record of an article, if there is one. -/
  overviewMsgid : String → Nat → Option String
  /-- The Message-ID read from the article itself, empty if it has none. -/
  headerMsgid : Bytes → String
  answer : Query → Response
  runPostPipeline : PostRequest → Response

structure Config where
  auth : AuthConfig
  readOnly : Bool
  maxArticleBytes : Nat

inductive CommandLoopExit
  | done
  | startTlsRequested
  | panicked
  deriving DecidableEq, Repr

/-- Reading a line: too slow, broken or not text, or a line, empty at the end of the stream. -/
inductive ReadLine
  | timedOut
  | failed
  | line (text : String)

/-- Reading an article after the invitation to send it. -/
inductive Upload
  | timedOut
  | failed
  | stream (bytes : Bytes)

structure Turn where
  stores : Stores
  read : ReadLine
  upload : Upload
  /-- Has the client sent more than the line? -/
  pipelined : Bool

structure Outcome where
  sent : List Response
  ctx : SessionContext
  exit : Option CommandLoopExit

def answered (response : Response) (ctx : SessionContext) : Outcome := ⟨[response], ctx, none⟩

@[simp] theorem answered_ctx (response : Response) (ctx : SessionContext) :
    (answered response ctx).ctx = ctx := rfl

section Handlers

variable (stores : Stores) (ctx : SessionContext)

def lookupArticleContentByNumber (number : Nat) : Except Response ArticleContent × SessionContext :=
  match ctx.selectedGroup with
  | none => (.error .noNewsgroupSelected, ctx)
  | some sg =>
    let group := sg.name.asStr
    match stores.lookupCid group number with
    | .error _ => (.error .programFault, ctx)
    | .ok none => (.error .noArticleWithNumber, ctx)
    | .ok (some cid) =>
      match stores.fetchArticleWireBytes cid with
      | .error _ => (.error .programFault, ctx)
      | .ok wireBytes =>
        let messageId := (stores.overviewMsgid group number).getD (stores.headerMsgid wireBytes)
        (.ok ⟨number, messageId, wireBytes, cid⟩, ctx.pointAt number)

def fetchByNumber (part : Part) (number : Nat) : Outcome :=
  match lookupArticleContentByNumber stores ctx number with
  | (.error response, ctx) => answered response ctx
  | (.ok content, ctx) =>
    match part with
    | .stat => answered (.articleExists content.articleNumber content.messageId) ctx
    | part => answered (stores.answer (.content part content)) ctx

def fetch (part : Part) : Option ArticleRef → Outcome
  | some (.messageId msgid) => answered (stores.answer (.byMsgid part msgid)) ctx
  | some (.cid cid) => answered (stores.answer (.byCid part cid)) ctx
  | some (.number n) => fetchByNumber stores ctx part n
  | none =>
    match ctx.selectedGroup with
    | none => answered .noNewsgroupSelected ctx
    | some sg =>
      match sg.articleNumber with
      | none => answered .currentArticleInvalid ctx
      | some n => fetchByNumber stores ctx part n

def handleGroupLive (name : String) : Response × SessionContext :=
  match GroupName.new name with
  | .error _ => (.noSuchNewsgroup, ctx)
  | .ok groupName =>
    match stores.groupRange name with
    | .error _ => (.programFault, ctx)
    | .ok (low, high) =>
      if low > high then (.noSuchNewsgroup, ctx)
      else
        let count := high - low + 1
        (.groupSelected name count low high,
          { ctx with
            selectedGroup := some ⟨groupName, if count > 0 then some low else none⟩
            state := .groupSelected })

/-- NEXT and LAST differ in the neighbour they ask for and in the answer if there is none. -/
def handleStepLive (neighbour : String → Nat → Except String (Option (Nat × Cid)))
    (nowhere : Response) : Response × SessionContext :=
  match ctx.selectedGroup with
  | none => (.noNewsgroupSelected, ctx)
  | some sg =>
    match sg.articleNumber with
    | none => (.currentArticleInvalid, ctx)
    | some current =>
      match neighbour sg.name.asStr current with
      | .error _ => (.programFault, ctx)
      | .ok none => (nowhere, ctx)
      | .ok (some (number, _)) =>
        let msgid := (stores.overviewMsgid sg.name.asStr number).getD ""
        (.articleExists number msgid, ctx.pointAt number)

def handleNextLive : Response × SessionContext :=
  handleStepLive stores ctx stores.nextAfter .noNextArticle

def handleLastLive : Response × SessionContext :=
  handleStepLive stores ctx stores.prevBefore .noPreviousArticle

def resolveRange (group : String) : ArticleRange → Except Response (Nat × Nat)
  | .single n => .ok (n, n)
  | .from n =>
    match stores.groupRange group with
    | .error _ => .error .programFault
    | .ok (_, high) => .ok (n, high)
  | .range low high => .ok (low, high)

def selectedRange (range : Option ArticleRange) (found : String → Nat → Nat → Query) : Response :=
  if ctx.state ≠ .groupSelected then .noNewsgroupSelected
  else
    match ctx.selectedGroup with
    | none => .noNewsgroupSelected
    | some sg =>
      match range with
      | none =>
        match sg.articleNumber with
        | none => .currentArticleInvalid
        | some n => stores.answer (found sg.name.asStr n n)
      | some range =>
        match resolveRange stores sg.name.asStr range with
        | .error response => response
        | .ok (low, high) => stores.answer (found sg.name.asStr low high)

def handleOverLive : Option OverArg → Response
  | some (.messageId msgid) => stores.answer (.overByMsgid msgid)
  | some (.range range) => selectedRange stores ctx (some range) .overRange
  | none => selectedRange stores ctx none .overRange

def hdrFields : List String :=
  ["subject", "from", "date", "message-id", "references", ":bytes", ":lines"]

def handleHdrLive (field : String) (rangeOrMsgid : Option String) : Response :=
  if !hdrFields.contains (String.ofList (field.toList.map Char.toLower)) then
    Response.new 501 "Field not supported"
  else
    match rangeOrMsgid with
    | none => selectedRange stores ctx none (.hdrRange field)
    | some arg =>
      if startsWithAngle arg then stores.answer (.hdrByMsgid field arg)
      else selectedRange stores ctx (some (parseRange arg)) (.hdrRange field)

def handleXcid (arg : Option String) : Response :=
  match arg with
  | some msgid =>
    match stores.lookupByMsgid msgid with
    | .error _ => .programFault
    | .ok none => .noArticleWithMessageId
    | .ok (some cid) => .xcid cid
  | none =>
    match ctx.selectedGroup with
    | none => .noNewsgroupSelected
    | some sg =>
      match sg.articleNumber with
      | none => .currentArticleInvalid
      | some n =>
        match stores.lookupCid sg.name.asStr n with
        | .error _ => .programFault
        | .ok none => .currentArticleInvalid
        | .ok (some cid) => .xcid cid

def handleNntpSearch (key : SearchKey) (value : String) : Response :=
  match ctx.selectedGroup with
  | none => .noNewsgroupSelected
  | some sg => stores.answer (.search sg.name.asStr key value)

end Handlers

def rejectLogin (ctx : SessionContext) : Outcome :=
  let ctx := { ctx with authFailureCount := ctx.authFailureCount + 1 }
  if maxAuthFailures ≤ ctx.authFailureCount then
    ⟨[Response.new 400 "Too many authentication failures"], ctx, some .done⟩
  else answered .authenticationFailed ctx

variable (config : Config) (turn : Turn)

/-- Is this the account of the queue that posts for mail? -/
def AuthConfig.isDrainUser (auth : AuthConfig) (username : String) : Bool :=
  (auth.drainUsername.map fun dn => sameIgnoringCase dn username).getD false

def acceptsPassword (username password : String) : Bool :=
  config.auth.isDevMode || turn.stores.credentialCheck username password

def handleAuthinfoPass (ctx : SessionContext) (password : String) : Outcome :=
  if config.auth.required && !ctx.tlsActive then answered .encryptionRequired ctx
  else
    match ctx.pendingAuthUser with
    | none => answered .authenticationOutOfSequence ctx
    | some username =>
      -- The name is taken, whatever comes of it.
      let ctx := { ctx with pendingAuthUser := none }
      if acceptsPassword config turn username password then
        answered .authenticationAccepted
          { ctx with
            state := .active
            isDrainSession := config.auth.isDrainUser username
            authenticatedUser := some username
            authFailureCount := 0 }
      else rejectLogin ctx

/-- The token after `auth=Bearer `, up to the next separator. -/
def extractOauthbearerToken (b64 : String) : Option String := do
  let decoded ← Base64.standard.decode (trim b64)
  let text ← fromUtf8 decoded
  let start ← findInfix "auth=Bearer ".toList text.toList
  let token := (text.toList.drop (start + 12)).takeWhile (· != '\x01')
  if token.isEmpty then none else some (String.ofList token)

def handleAuthinfoSasl (ctx : SessionContext) (initialResponse : String) : Outcome :=
  if config.auth.required && !ctx.tlsActive then answered .encryptionRequired ctx
  else
    match turn.stores.oidcStore with
    | none => answered (Response.new 503 "SASL OAUTHBEARER not configured on this server") ctx
    | some validateJwt =>
      if initialResponse.isEmpty then
        answered (Response.new 481 "Authentication failed: OAUTHBEARER initial response required") ctx
      else
        match extractOauthbearerToken initialResponse with
        | none =>
          answered (Response.new 481
            "Authentication failed: malformed OAUTHBEARER initial response") ctx
        | some token =>
          match validateJwt token with
          | .ok username =>
            answered .authenticationAccepted
              { ctx with
                state := .active
                authenticatedUser := some username
                authFailureCount := 0 }
          | .error _ => rejectLogin ctx

def receiveIhave (ctx : SessionContext) (messageId : String) : Outcome :=
  if (validateMessageId messageId).isOk then
    let invitation := Response.new 335 "Send it; end with <CR-LF>.<CR-LF>"
    match turn.upload with
    | .timedOut =>
      ⟨[invitation, Response.new 400 "Timeout - closing connection"], ctx, some .done⟩
    | .failed => ⟨[invitation], ctx, some .done⟩
    | .stream bytes =>
      match (readDotTerminated config.maxArticleBytes bytes).1 with
      | .ok _ => ⟨[invitation, Response.new 437 "Article rejected"], ctx, none⟩
      | .error (.invalidData _) => ⟨[invitation, Response.new 437 "Article too large"], ctx, none⟩
  else answered .syntaxError ctx

def postRequest (ctx : SessionContext) (articleBytes : Bytes) : PostRequest where
  articleBytes := articleBytes
  maxArticleBytes := config.maxArticleBytes
  isDrainSession := ctx.isDrainSession
  clientIp := ctx.peerIp
  authenticatedUser := ctx.authenticatedUser

def receivePost (ctx : SessionContext) (invitation : Response) : Outcome :=
  match turn.upload with
  | .timedOut => ⟨[invitation, Response.new 400 "Timeout - closing connection"], ctx, some .done⟩
  | .failed => ⟨[invitation], ctx, some .done⟩
  | .stream bytes =>
    match (readDotTerminated config.maxArticleBytes bytes).1 with
    | .ok articleBytes =>
      ⟨[invitation, turn.stores.runPostPipeline (postRequest config ctx articleBytes)], ctx, none⟩
    | .error (.invalidData _) => ⟨[invitation, Response.new 441 "Article too large"], ctx, none⟩

/-- The dispatcher's answer; QUIT ends the session, and POST goes on with the article. -/
def dispatched (ctx : SessionContext) (cmd : Command) : Outcome :=
  match dispatch turn.stores.certs config.auth ctx cmd with
  | none => ⟨[], ctx, some .panicked⟩
  | some (response, ctx) =>
    match cmd with
    | .quit => ⟨[response], ctx, some .done⟩
    | .post => if response.code = 340 then receivePost config turn ctx response
               else answered response ctx
    | _ => answered response ctx

def handleActive (ctx : SessionContext) (cmd : Command) : Outcome :=
  match cmd with
  | .article ref => fetch turn.stores ctx .article ref
  | .head ref => fetch turn.stores ctx .head ref
  | .body ref => fetch turn.stores ctx .body ref
  | .stat ref => fetch turn.stores ctx .stat ref
  | .xcid arg =>
    if (arg.map fun msgid => (validateMessageId msgid).isOk).getD true then
      answered (handleXcid turn.stores ctx arg) ctx
    else answered .syntaxError ctx
  | .xverify messageId expectedCid verifySig =>
    if (validateMessageId messageId).isOk then
      answered (turn.stores.answer (.xverify messageId expectedCid verifySig)) ctx
    else answered .syntaxError ctx
  | .xget cid => answered (turn.stores.answer (.xget cid)) ctx
  | .next => answered (handleNextLive turn.stores ctx).1 (handleNextLive turn.stores ctx).2
  | .last => answered (handleLastLive turn.stores ctx).1 (handleLastLive turn.stores ctx).2
  | .ihave messageId => receiveIhave config turn ctx messageId
  | .group name =>
    answered (handleGroupLive turn.stores ctx name).1 (handleGroupLive turn.stores ctx name).2
  | .list (.active wildmat) => answered (turn.stores.answer (.listActive wildmat)) ctx
  | .newnews wildmat date time => answered (turn.stores.answer (.newnews wildmat date time)) ctx
  | .over arg => answered (handleOverLive turn.stores ctx arg) ctx
  | .hdr field rangeOrMsgid => answered (handleHdrLive turn.stores ctx field rangeOrMsgid) ctx
  | .startTls =>
    if ctx.starttlsAvailable && !ctx.tlsActive then
      if turn.pipelined then ⟨[.commandUnavailable], ctx, some .done⟩
      else ⟨[.starttlsReady], ctx, some .startTlsRequested⟩
    else dispatched config turn ctx cmd
  | .authinfoPass password => handleAuthinfoPass config turn ctx password
  | .search key value => answered (handleNntpSearch turn.stores ctx key value) ctx
  | .authinfoSaslOauthbearer initialResponse => handleAuthinfoSasl config turn ctx initialResponse
  | cmd => dispatched config turn ctx cmd

/-- The gate: before the login only the dispatcher answers, and the loop goes on even after QUIT. -/
def handleCommand (ctx : SessionContext) (cmd : Command) : Outcome :=
  if ctx.state = .authenticating then
    let (response, ctx) := dispatchAuthenticating turn.stores.certs config.auth ctx cmd
    answered response ctx
  else handleActive config turn ctx cmd

structure Loop where
  ctx : SessionContext
  exit : Option CommandLoopExit

def Turn.command (turn : Turn) : Option Command :=
  match turn.read with
  | .line text => if text.isEmpty then none else (parseCommand (trimLineEnd text)).toOption
  | .timedOut | .failed => none

/-- The answers to one line, and the session after it. Nothing happens after the end. -/
def runTurn (turn : Turn) (loop : Loop) : List Response × Loop :=
  match loop.exit with
  | some _ => ([], loop)
  | none =>
    match turn.read with
    | .timedOut =>
      ([Response.new 400 "Timeout - closing connection"], { loop with exit := some .done })
    | .failed => ([], { loop with exit := some .done })
    | .line text =>
      if text.isEmpty then ([], { loop with exit := some .done })
      else
        match turn.command with
        | none => ([.unknownCommand], loop)
        | some cmd =>
          let outcome := handleCommand config turn loop.ctx cmd
          (outcome.sent, ⟨outcome.ctx, outcome.exit⟩)

/-- What is known when the loop starts: after the connection, or after STARTTLS. -/
structure Connection where
  peerIp : String
  tlsActive : Bool
  starttlsAvailable : Bool
  searchAvailable : Bool
  clientCertFingerprint : Option String
  clientCertDer : Option Bytes
  knownGroups : List GroupInfo

def Connection.start (config : Config) (conn : Connection) : Loop where
  ctx :=
    { SessionContext.new conn.peerIp ⟨config.auth.required, !config.readOnly, conn.tlsActive⟩ with
      starttlsAvailable := conn.starttlsAvailable
      searchAvailable := conn.searchAvailable
      clientCertFingerprint := conn.clientCertFingerprint
      clientCertDer := conn.clientCertDer
      knownGroups := conn.knownGroups }
  exit := none

end Stoa.Session
