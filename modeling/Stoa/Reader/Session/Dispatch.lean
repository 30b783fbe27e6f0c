import Mathlib.Data.List.SplitBy
import Stoa.Core.Wildmat
import Stoa.Reader.LogAppend

/-! The commands that need no article store. -/
namespace Stoa.Session

open Text

def maxLineBytes : Nat := 510

inductive ArticleRef
  | messageId (id : String)
  | number (n : Nat)
  | cid (locator : String)
  deriving DecidableEq, Repr

/-- `from n` means article `n` and all higher ones; a range includes its ends. -/
inductive ArticleRange
  | single (n : Nat)
  | from (n : Nat)
  | range (low high : Nat)
  deriving DecidableEq, Repr

inductive ListSubcommand
  | active (wildmat : Option String)
  | newsgroups
  | overviewFmt
  deriving DecidableEq, Repr

inductive SearchKey
  | subject | from | body | text | since | before
  deriving DecidableEq, Repr

def SearchKey.fromStr (s : String) : Option SearchKey :=
  match toAsciiUppercase s with
  | "SUBJECT" => some .subject
  | "FROM" => some .from
  | "BODY" => some .body
  | "TEXT" => some .text
  | "SINCE" => some .since
  | "BEFORE" => some .before
  | _ => none

inductive OverArg
  | range (r : ArticleRange)
  | messageId (id : String)
  deriving DecidableEq, Repr

inductive Command
  | capabilities
  | modeReader
  | quit
  | list (sub : ListSubcommand)
  | newgroups (date time : String)
  | newnews (wildmat date time : String)
  | group (name : String)
  | next
  | last
  | article (ref : Option ArticleRef)
  | head (ref : Option ArticleRef)
  | body (ref : Option ArticleRef)
  | stat (ref : Option ArticleRef)
  | over (arg : Option OverArg)
  | post
  | ihave (messageId : String)
  | authinfoUser (username : String)
  | authinfoPass (password : String)
  | authinfoSaslOauthbearer (initialResponse : String)
  | startTls
  | xcid (messageId : Option String)
  | xget (cid : String)
  | xverify (messageId expectedCid : String) (verifySig : Bool)
  | hdr (field : String) (rangeOrMsgid : Option String)
  | search (key : SearchKey) (value : String)
  | unknown (line : String)
  deriving DecidableEq, Repr

inductive ParseError
  | lineTooLong
  | unknown (command : String)
  deriving DecidableEq, Repr

def startsWithAngle (s : String) : Bool := s.toList.head? == some '<'

/-- A Message-ID, a locator `cid:`, or a number; anything else counts as no argument. -/
def parseArticleRef (s : String) : Option ArticleRef :=
  if s.isEmpty then none
  else if startsWithAngle s then some (.messageId s)
  else
    match stripStart "cid:" s with
    | some cid => some (.cid cid)
    | none => (parseU64 s).map .number

/-- `n`, `n-` or `n-m`. A number that cannot be read is article 0, which does not exist. -/
def parseRange (s : String) : ArticleRange :=
  match splitOnce (· == '-') s with
  | (low, some high) =>
    let low := (parseU64 low).getD 0
    if high.isEmpty then .from low else .range low ((parseU64 high).getD low)
  | (_, none) => .single ((parseU64 s).getD 0)

/-- The first three words of `splitn(3, char::is_whitespace)`, the last one with all that follows. -/
def splitThree (s : String) : String × String × String :=
  let (first, rest) := splitOnce isWhitespace s
  let (second, rest) := splitOnce isWhitespace (rest.getD "")
  (first, second, rest.getD "")

def parseList (line rest : String) : Command :=
  let words := asciiWords rest
  match (words.head?.map toAsciiUppercase).getD "ACTIVE" with
  | "ACTIVE" => .list (.active (words.drop 1).head?)
  | "NEWSGROUPS" => .list .newsgroups
  | "OVERVIEW.FMT" => .list .overviewFmt
  | _ => .unknown line

def parseNewnews (rest : String) : Command :=
  let (wildmat, date, time) := splitThree rest
  if date.isEmpty then .newnews wildmat "" ""
  -- A trailing GMT is dropped with everything after the first word.
  else .newnews wildmat date ((asciiWords time).head?.getD "")

def parseSearch (rest : String) : Except ParseError Command :=
  let (key, value) := match splitOnce isAsciiSpace rest with
    | (key, some value) => (trim key, trim value)
    | (_, none) => (trim rest, "")
  match SearchKey.fromStr key with
  | none => .error (.unknown ("unknown search key: " ++ key))
  | some searchKey =>
    if value.isEmpty then .error (.unknown "SEARCH requires a value argument")
    else .ok (.search searchKey value)

def parseXverify (rest : String) : Command :=
  let (messageId, expectedCid, sig) := splitThree rest
  .xverify messageId expectedCid (toAsciiUppercase (trim sig) == "SIG")

def parseHdr (rest : String) : Command :=
  let (field, arg) := splitOnce isWhitespace rest
  .hdr field ((arg.map trim).filter (! ·.isEmpty))

def parseOver (rest : String) : Command :=
  if rest.isEmpty then .over none
  else if startsWithAngle rest then .over (some (.messageId rest))
  else .over (some (.range (parseRange rest)))

def parseAuthinfo (line rest : String) : Command :=
  let (sub, arg) := splitOnce isWhitespace rest
  let arg := trim (arg.getD "")
  match toAsciiUppercase sub with
  | "USER" => .authinfoUser arg
  | "PASS" => .authinfoPass arg
  | "SASL" =>
    let (mechanism, initialResponse) := splitOnce isWhitespace arg
    match toAsciiUppercase mechanism with
    | "OAUTHBEARER" => .authinfoSaslOauthbearer (trim (initialResponse.getD ""))
    | _ => .unknown line
  | _ => .unknown line

/-- `trim_end_matches(['\r', '\n'])`. -/
def trimLineEnd (line : String) : String :=
  String.ofList (line.toList.reverse.dropWhile fun c => c == '\r' || c == '\n').reverse

def parseCommand (line : String) : Except ParseError Command :=
  if len line > maxLineBytes then .error .lineTooLong
  else
    let line := trimLineEnd line
    let (verb, rest) := splitOnce (fun c => c == ' ' || c == '\t') line
    let verb := toAsciiUppercase verb
    let rest := trim (rest.getD "")
    match verb with
    | "CAPABILITIES" => .ok .capabilities
    | "QUIT" => .ok .quit
    | "NEXT" => .ok .next
    | "LAST" => .ok .last
    | "POST" => .ok .post
    | "STARTTLS" => .ok .startTls
    | "MODE" => .ok (if toAsciiUppercase rest = "READER" then .modeReader else .unknown line)
    | "LIST" => .ok (parseList line rest)
    | "NEWGROUPS" =>
      let words := asciiWords rest
      .ok (.newgroups (words.head?.getD "") ((words.drop 1).head?.getD ""))
    | "NEWNEWS" => .ok (parseNewnews rest)
    | "GROUP" => .ok (.group rest)
    | "ARTICLE" => .ok (.article (parseArticleRef rest))
    | "HEAD" => .ok (.head (parseArticleRef rest))
    | "BODY" => .ok (.body (parseArticleRef rest))
    | "STAT" => .ok (.stat (parseArticleRef rest))
    | "SEARCH" => parseSearch rest
    | "XCID" => .ok (.xcid (if rest.isEmpty then none else some rest))
    | "XGET" => .ok (.xget rest)
    | "XVERIFY" => .ok (parseXverify rest)
    | "HDR" => .ok (parseHdr rest)
    | "OVER" | "XOVER" => .ok (parseOver rest)
    | "IHAVE" => .ok (.ihave rest)
    | "AUTHINFO" => .ok (parseAuthinfo line rest)
    | _ => .error (.unknown verb)

end Stoa.Session

namespace Stoa

namespace Response

def multi (code : UInt16) (text : String) (body : List String) : Response := ⟨code, text, body, true⟩

def serviceAvailablePostingAllowed : Response := new 200 "Service available, posting allowed"
def serviceAvailablePostingProhibited : Response := new 201 "Service available, posting prohibited"
def starttlsReady : Response := new 382 "Continue with TLS negotiation"
def closingConnection : Response := new 205 "Closing connection"
def groupSelected (group : String) (count low high : Nat) : Response :=
  new 211 (toString count ++ " " ++ toString low ++ " " ++ toString high ++ " " ++ group)
def articleExists (number : Nat) (msgid : String) : Response :=
  new 223 (toString number ++ " " ++ msgid ++ " Article exists")
def overviewFollows : Response := new 224 "Overview info follows"
def hdrFollows (body : List String) : Response := multi 225 "headers follow" body
def authenticationAccepted : Response := new 281 "Authentication accepted"
def sendArticle : Response := new 340 "Send article to be posted"
def enterPassword : Response := new 381 "Enter password"
def noSuchNewsgroup : Response := new 411 "No such newsgroup"
def noNewsgroupSelected : Response := new 412 "No newsgroup selected"
def currentArticleInvalid : Response := new 420 "Current article number is invalid"
def noNextArticle : Response := new 421 "No next article"
def noPreviousArticle : Response := new 422 "No previous article"
def noArticleWithNumber : Response := new 423 "No article with that number"
def noArticleWithMessageId : Response := new 430 "No article with that message-ID"
def postingNotPermitted : Response := new 440 "Posting not permitted"
def authenticationRequired : Response := new 480 "Authentication required"
def authenticationFailed : Response := new 481 "Authentication failed"
def authenticationOutOfSequence : Response :=
  new 482 "Authentication commands issued out of sequence"
def encryptionRequired : Response := new 483 "Encryption required for authentication"
def unknownCommand : Response := new 500 "Unknown command"
def syntaxError : Response := new 501 "Syntax error in command"
def commandUnavailable : Response := new 502 "Command unavailable"
def programFault : Response := new 503 "Program fault"
def xcid (cid : Cid) : Response := new 290 cid.toString

/-- The capabilities that are always there, and the ones that depend on the session. -/
def capabilitiesWithCtx (postingAllowed authRequired starttlsAvailable saslOauthbearer
    searchAvailable : Bool) : Response :=
  multi 101 "Capability list follows"
    (["VERSION 2", "READER", "OVER", "HDR", "LIST ACTIVE NEWSGROUPS", "XCID", "XVERIFY", "XGET",
        "X-CID-LOCATOR", "X-USENET-IPFS-DID-VERIFIED"] ++
      (if searchAvailable then ["SEARCH"] else []) ++
      (if starttlsAvailable then ["STARTTLS"] else []) ++
      (if postingAllowed then ["POST"] else []) ++
      (if authRequired then ["AUTHINFO USER"] else []) ++
      (if saslOauthbearer then ["SASL OAUTHBEARER"] else []))

end Response

namespace Session

structure GroupInfo where
  name : String
  high : Nat
  low : Nat
  postingAllowed : Bool
  description : String
  deriving DecidableEq

/-- Name, last and first number, and whether posting is allowed. -/
def GroupInfo.activeLine (g : GroupInfo) : String :=
  g.name ++ " " ++ toString g.high ++ " " ++ toString g.low ++ " " ++
    (if g.postingAllowed then "y" else "n")

def listActive (groups : List GroupInfo) (wildmat : Option String) : Response :=
  .multi 215 "list of newsgroups follows"
    ((groups.filter fun g => wildmat.all (matchesWildmat g.name)).map GroupInfo.activeLine)

def listNewsgroups (groups : List GroupInfo) : Response :=
  .multi 215 "descriptions of newsgroups follow" (groups.map fun g => g.name ++ " " ++ g.description)

def newgroups (groups : List GroupInfo) : Response :=
  .multi 231 "list of new newsgroups follows" (groups.map GroupInfo.activeLine)

def listOverviewFmt : Response :=
  .multi 215 "Order of fields in overview database."
    ["Subject:", "From:", "Date:", "Message-ID:", "References:", ":bytes", ":lines"]

inductive SessionState
  | authenticating
  | active
  | groupSelected
  deriving DecidableEq, Repr

structure SelectedGroup where
  name : GroupName
  articleNumber : Option Nat
  deriving DecidableEq

structure SessionContext where
  state : SessionState
  authenticatedUser : Option String
  tlsActive : Bool
  clientCertFingerprint : Option String
  clientCertDer : Option Bytes
  pendingAuthUser : Option String
  selectedGroup : Option SelectedGroup
  /-- The address without the port. -/
  peerIp : String
  postingAllowed : Bool
  knownGroups : List GroupInfo
  authFailureCount : Nat
  isDrainSession : Bool
  starttlsAvailable : Bool
  searchAvailable : Bool
  deriving DecidableEq

def maxAuthFailures : Nat := 5

structure SessionFlags where
  authRequired : Bool
  postingAllowed : Bool
  tlsActive : Bool

namespace SessionContext

def new (peerIp : String) (flags : SessionFlags) : SessionContext where
  state := if flags.authRequired then .authenticating else .active
  authenticatedUser := none
  tlsActive := flags.tlsActive
  clientCertFingerprint := none
  clientCertDer := none
  pendingAuthUser := none
  selectedGroup := none
  peerIp := peerIp
  postingAllowed := flags.postingAllowed
  knownGroups := []
  authFailureCount := 0
  isDrainSession := false
  starttlsAvailable := false
  searchAvailable := false

def pointAt (ctx : SessionContext) (number : Nat) : SessionContext :=
  { ctx with selectedGroup := ctx.selectedGroup.map fun sg =>
      { sg with articleNumber := some number } }

def articleNumber (ctx : SessionContext) : Option Nat := ctx.selectedGroup.bind (·.articleNumber)

end SessionContext

end Session

end Stoa

namespace Stoa.Session

open Text

structure UserCredential where
  username : String
  password : String

structure ClientCertEntry where
  sha256Fingerprint : String
  username : String

structure OidcProviderConfig where
  issuer : String
  audience : String
  usernameClaim : String

structure AuthConfig where
  required : Bool
  users : List UserCredential
  credentialFile : Option String
  clientCerts : List ClientCertEntry
  /-- Paths of the certificates of trusted issuers. -/
  trustedIssuers : List String
  oidcProviders : List OidcProviderConfig
  drainUsername : Option String

/-- Nothing is configured and no login is required: every password is accepted. -/
def AuthConfig.isDevMode (auth : AuthConfig) : Bool :=
  !auth.required && auth.users.isEmpty && auth.credentialFile.isNone && auth.oidcProviders.isEmpty &&
    auth.clientCerts.isEmpty && auth.trustedIssuers.isEmpty

def normalise (fingerprint : String) : String :=
  let lower := String.ofList (fingerprint.toList.map Char.toLower)
  "sha256:" ++ (stripStart "sha256:" lower).getD lower

def lookupClientCert (entries : List ClientCertEntry) (fingerprint : String) : Option String :=
  (entries.reverse.find? fun e => normalise e.sha256Fingerprint == normalise fingerprint).map fun e =>
    String.ofList (e.username.toList.map Char.toLower)

/-- What tells users from certificates: the pinned fingerprints, the common name that a
trusted issuer vouches for, and the lower case of the standard library. -/
structure CertStores where
  clientCerts : List ClientCertEntry
  verifyAndExtractCn : Bytes → Except String (Option String)
  toLowercase : String → String

variable (certs : CertStores)

def pinnedUser (ctx : SessionContext) (username : String) : Option String := do
  let user ← lookupClientCert certs.clientCerts (← ctx.clientCertFingerprint)
  if sameIgnoringCase user username then some (certs.toLowercase user) else none

/-- The common name of a certificate from a trusted issuer, if it is the one asked for. -/
def issuedUser (ctx : SessionContext) (username : String) : Option String := do
  match certs.verifyAndExtractCn (← ctx.clientCertDer) with
  | .ok (some cn) => if sameIgnoringCase cn username then some (certs.toLowercase cn) else none
  | .ok none | .error _ => none

def tryCertAuth (ctx : SessionContext) (username : String) : Option String :=
  pinnedUser certs ctx username <|> issuedUser certs ctx username

/-- AUTHINFO USER: a certificate logs in at once, otherwise the password is asked for. -/
def authinfoUser (auth : AuthConfig) (ctx : SessionContext) (username : String)
    (loggedIn : String → SessionContext) : Response × SessionContext :=
  if auth.required && !ctx.tlsActive then (.encryptionRequired, ctx)
  else
    match tryCertAuth certs ctx username with
    | some user => (.authenticationAccepted, loggedIn user)
    | none => (.enterPassword, { ctx with pendingAuthUser := some username })

def dispatchAuthenticating (auth : AuthConfig) (ctx : SessionContext) :
    Command → Response × SessionContext
  | .capabilities =>
    (.capabilitiesWithCtx ctx.postingAllowed true (ctx.starttlsAvailable && !ctx.tlsActive)
      (!auth.oidcProviders.isEmpty) ctx.searchAvailable, ctx)
  | .quit => (.closingConnection, ctx)
  -- Whether or not a user name came before.
  | .authinfoPass _ => (.authenticationOutOfSequence, ctx)
  | .authinfoUser username =>
    authinfoUser certs auth ctx username fun user =>
      { ctx with state := .active, authenticatedUser := some user }
  | .startTls => (.commandUnavailable, ctx)
  | _ => (.authenticationRequired, ctx)

def dispatchAsk (auth : AuthConfig) (ctx : SessionContext) : Command → Response
  | .capabilities =>
    .capabilitiesWithCtx ctx.postingAllowed false (ctx.starttlsAvailable && !ctx.tlsActive)
      (!auth.oidcProviders.isEmpty) ctx.searchAvailable
  | .modeReader =>
    if ctx.postingAllowed then .serviceAvailablePostingAllowed
    else .serviceAvailablePostingProhibited
  | .quit => .closingConnection
  | .next | .last =>
    if ctx.state ≠ .groupSelected then .noNewsgroupSelected
    else if ctx.articleNumber.isNone then .currentArticleInvalid
    else .noArticleWithNumber
  | .over (some (.messageId _)) => .overviewFollows
  | .over none =>
    if ctx.state ≠ .groupSelected then .noNewsgroupSelected
    else if ctx.articleNumber.isNone then .currentArticleInvalid
    else .overviewFollows
  | .over (some (.range _)) =>
    if ctx.state ≠ .groupSelected then .noNewsgroupSelected else .overviewFollows
  | .hdr _ rangeOrMsgid =>
    if (rangeOrMsgid.map startsWithAngle).getD false then .hdrFollows []
    else if ctx.state ≠ .groupSelected then .noNewsgroupSelected
    else .hdrFollows []
  | .post => if ctx.postingAllowed then .sendArticle else .postingNotPermitted
  | .startTls => .commandUnavailable
  | .list (.active wildmat) => listActive ctx.knownGroups wildmat
  | .list .newsgroups => listNewsgroups ctx.knownGroups
  | .list .overviewFmt => listOverviewFmt
  | .newgroups _ _ => newgroups ctx.knownGroups
  | .newnews _ _ _ => .multi 230 "list of new articles follows" []
  | .article (some (.messageId _)) | .head (some (.messageId _)) | .body (some (.messageId _))
  | .stat (some (.messageId _)) => .noArticleWithMessageId
  | .article _ | .head _ | .body _ | .stat _ =>
    if ctx.state ≠ .groupSelected then .noNewsgroupSelected else .noArticleWithNumber
  | _ => .unknownCommand

/-- After the login. GROUP and SEARCH must have been answered before: for them, `none`, the
task panics. -/
def dispatchActive (auth : AuthConfig) (ctx : SessionContext) :
    Command → Option (Response × SessionContext)
  | .group _ | .search _ _ => none
  | .authinfoUser username =>
    some (authinfoUser certs auth ctx username fun user =>
      { ctx with authenticatedUser := some user })
  | cmd => some (dispatchAsk auth ctx cmd, ctx)

def dispatch (auth : AuthConfig) (ctx : SessionContext) (cmd : Command) :
    Option (Response × SessionContext) :=
  if ctx.state = .authenticating then some (dispatchAuthenticating certs auth ctx cmd)
  else dispatchActive certs auth ctx cmd

end Stoa.Session
