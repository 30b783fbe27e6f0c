import Stoa.Lib.Runs
import Stoa.Reader.Session.Lifecycle

/-! Session state and selected group, trust in the source and user, and accepted passwords and
logins agree throughout a session, exactly if no login of the kinds that reset a part of the state
only comes at the wrong time. -/
namespace Stoa.Session

open Text Post

variable (config : Config) (turn : Turn)

inductive Login
  | password (user : String)
  | oauthbearer (user : String)
  | certificate (user : String)
  deriving DecidableEq

def Login.user : Login → String
  | password user | oauthbearer user | certificate user => user

def Login.apply (auth : AuthConfig) (ctx : SessionContext) : Login → SessionContext
  | password user =>
    { ctx with
      pendingAuthUser := none
      state := .active
      isDrainSession := auth.isDrainUser user
      authenticatedUser := some user
      authFailureCount := 0 }
  | oauthbearer user =>
    { ctx with state := .active, authenticatedUser := some user, authFailureCount := 0 }
  | certificate user =>
    { ctx with
      state := if ctx.state = .authenticating then .active else ctx.state
      authenticatedUser := some user }

@[simp] theorem Login.apply_selectedGroup (auth : AuthConfig) (ctx : SessionContext) (login : Login) :
    (login.apply auth ctx).selectedGroup = ctx.selectedGroup := by
  cases login <;> rfl

def needsEncryption (ctx : SessionContext) : Bool := config.auth.required && !ctx.tlsActive

def bearerUser (initialResponse : String) : Option String := do
  let validateJwt ← turn.stores.oidcStore
  if initialResponse.isEmpty then none
  else (validateJwt (← extractOauthbearerToken initialResponse)).toOption

def loginOfCommand (ctx : SessionContext) : Command → Option Login
  | .authinfoPass password =>
    if ctx.state = .authenticating ∨ needsEncryption config ctx then none
    else (ctx.pendingAuthUser.filter (acceptsPassword config turn · password)).map .password
  | .authinfoSaslOauthbearer initialResponse =>
    if ctx.state = .authenticating ∨ needsEncryption config ctx then none
    else (bearerUser turn initialResponse).map .oauthbearer
  | .authinfoUser username =>
    if needsEncryption config ctx then none
    else (tryCertAuth turn.stores.certs ctx username).map .certificate
  | _ => none

def loginOf (turn : Turn) (loop : Loop) : Option Login :=
  if loop.exit.isSome then none else turn.command.bind (loginOfCommand config turn loop.ctx)

/-- User and trust stay; state and selection stay as they are or are set together. -/
structure Browses (ctx ctx' : SessionContext) : Prop where
  user : ctx'.authenticatedUser = ctx.authenticatedUser
  drain : ctx'.isDrainSession = ctx.isDrainSession
  selection : (ctx'.state = ctx.state ∧ ctx'.selectedGroup.isSome = ctx.selectedGroup.isSome) ∨
    (ctx'.state = .groupSelected ∧ ctx'.selectedGroup.isSome = true)

theorem Browses.refl (ctx : SessionContext) : Browses ctx ctx := ⟨rfl, rfl, .inl ⟨rfl, rfl⟩⟩

theorem browses_pointAt (ctx : SessionContext) (number : Nat) : Browses ctx (ctx.pointAt number) :=
  ⟨rfl, rfl, .inl ⟨rfl, by simp [SessionContext.pointAt]⟩⟩

def Settles (auth : AuthConfig) (login : Option Login) (ctx ctx' : SessionContext) : Prop :=
  match login with
  | some login => ctx' = login.apply auth ctx
  | none => Browses ctx ctx'

theorem fetchByNumber_browses (stores : Stores) (ctx : SessionContext) (part : Part) (n : Nat) :
    Browses ctx (fetchByNumber stores ctx part n).ctx := by
  unfold fetchByNumber lookupArticleContentByNumber
  cases ctx.selectedGroup with
  | none => exact .refl ctx
  | some sg =>
    dsimp only
    rcases stores.lookupCid sg.name.asStr n with _ | _ | cid
    · exact .refl ctx
    · exact .refl ctx
    · rcases wire : stores.fetchArticleWireBytes cid with _ | bytes
      · simpa only [wire, answered_ctx] using Browses.refl ctx
      · cases part <;> simpa only [wire, answered_ctx] using browses_pointAt ctx n

theorem fetch_browses (stores : Stores) (ctx : SessionContext) (part : Part)
    (ref : Option ArticleRef) : Browses ctx (fetch stores ctx part ref).ctx := by
  match ref with
  | some (.messageId _) => exact .refl ctx
  | some (.cid _) => exact .refl ctx
  | some (.number n) => exact fetchByNumber_browses stores ctx part n
  | none =>
    unfold fetch
    dsimp only
    split
    · exact .refl ctx
    · split
      · exact .refl ctx
      · exact fetchByNumber_browses stores ctx part _

theorem handleGroupLive_browses (stores : Stores) (ctx : SessionContext) (name : String) :
    Browses ctx (handleGroupLive stores ctx name).2 := by
  unfold handleGroupLive
  split
  · exact .refl ctx
  · split
    · exact .refl ctx
    · split_ifs
      · exact .refl ctx
      -- State and selection are set together.
      · exact ⟨rfl, rfl, .inr ⟨rfl, rfl⟩⟩

theorem handleStepLive_browses (stores : Stores) (ctx : SessionContext)
    (neighbour : String → Nat → Except String (Option (Nat × Cid))) (nowhere : Response) :
    Browses ctx (handleStepLive stores ctx neighbour nowhere).2 := by
  unfold handleStepLive
  split
  · exact .refl ctx
  · split
    · exact .refl ctx
    · split
      · exact .refl ctx
      · exact .refl ctx
      · exact browses_pointAt ctx _

variable {ctx : SessionContext}

theorem rejectLogin_browses {ctx' : SessionContext} (browses : Browses ctx ctx') :
    Browses ctx (rejectLogin ctx').ctx := by
  unfold rejectLogin
  dsimp only
  split_ifs
  · exact ⟨browses.user, browses.drain, browses.selection⟩
  · exact ⟨browses.user, browses.drain, browses.selection⟩

theorem authinfoUser_settles (certs : CertStores) (ctx : SessionContext) (username : String)
    (loggedIn : String → SessionContext)
    (applies : ∀ user, loggedIn user = (Login.certificate user).apply config.auth ctx) : Settles config.auth
      (if needsEncryption config ctx then none else (tryCertAuth certs ctx username).map .certificate)
      ctx (authinfoUser certs config.auth ctx username loggedIn).2 := by
  unfold authinfoUser needsEncryption
  split_ifs
  · exact .refl ctx
  · cases tryCertAuth certs ctx username with
    | none => exact ⟨rfl, rfl, .inl ⟨rfl, rfl⟩⟩
    | some user => exact applies user

theorem handleAuthinfoPass_settles (ctx : SessionContext) (password : String)
    (past : ctx.state ≠ .authenticating) :
    Settles config.auth (loginOfCommand config turn ctx (.authinfoPass password)) ctx
      (handleAuthinfoPass config turn ctx password).ctx := by
  simp only [loginOfCommand, past, false_or]
  unfold handleAuthinfoPass needsEncryption
  split_ifs
  · exact .refl ctx
  · cases pending : ctx.pendingAuthUser with
    | none => exact .refl ctx
    | some username =>
      have taken : Browses ctx { ctx with pendingAuthUser := none } :=
        ⟨rfl, rfl, .inl ⟨rfl, rfl⟩⟩
      simp only [Option.filter_some]
      cases acceptsPassword config turn username password with
      | true => rfl
      | false => exact rejectLogin_browses taken

theorem handleAuthinfoSasl_settles (ctx : SessionContext) (initialResponse : String)
    (past : ctx.state ≠ .authenticating) : Settles config.auth
      (loginOfCommand config turn ctx (.authinfoSaslOauthbearer initialResponse)) ctx
      (handleAuthinfoSasl config turn ctx initialResponse).ctx := by
  simp only [loginOfCommand, past, false_or]
  unfold handleAuthinfoSasl needsEncryption bearerUser
  by_cases plain : (config.auth.required && !ctx.tlsActive) = true
  · rw [if_pos plain, if_pos plain]
    exact .refl ctx
  rw [if_neg plain, if_neg plain]
  cases turn.stores.oidcStore with
  | none => exact .refl ctx
  | some validateJwt =>
    simp only [Option.bind_eq_bind, Option.bind_some]
    cases initialResponse.isEmpty with
    | true => exact .refl ctx
    | false =>
      cases extractOauthbearerToken initialResponse with
      | none => exact .refl ctx
      | some token =>
        simp only [Bool.false_eq_true, if_false, Option.bind_some]
        cases validateJwt token with
        | ok user => rfl
        | error e => exact rejectLogin_browses (Browses.refl ctx)

theorem receiveIhave_ctx (ctx : SessionContext) (messageId : String) :
    (receiveIhave config turn ctx messageId).ctx = ctx := by
  unfold receiveIhave
  split
  · split
    · rfl
    · rfl
    · split <;> rfl
  · rfl

theorem receivePost_ctx (ctx : SessionContext) (invitation : Response) :
    (receivePost config turn ctx invitation).ctx = ctx := by
  unfold receivePost
  split
  · rfl
  · rfl
  · split <;> rfl

theorem dispatched_ctx (past : ctx.state ≠ .authenticating) {cmd : Command} {response : Response}
    (asks : dispatchActive turn.stores.certs config.auth ctx cmd = some (response, ctx)) :
    (dispatched config turn ctx cmd).ctx = ctx := by
  simp only [dispatched, dispatch, if_neg past, asks]
  cases cmd with
  | post =>
    dsimp only
    split_ifs
    · exact receivePost_ctx config turn ctx response
    · rfl
  | _ => rfl

theorem dispatched_authinfoUser (username : String) (past : ctx.state ≠ .authenticating) :
    (dispatched config turn ctx (.authinfoUser username)).ctx =
      (authinfoUser turn.stores.certs config.auth ctx username fun user =>
        { ctx with authenticatedUser := some user }).2 := by
  simp only [dispatched, dispatch, if_neg past, dispatchActive, answered_ctx]

theorem handleActive_settles (past : ctx.state ≠ .authenticating) (cmd : Command) :
    Settles config.auth (loginOfCommand config turn ctx cmd) ctx
      (handleActive config turn ctx cmd).ctx := by
  -- What the dispatcher answers without a change to the session.
  have asks (cmd : Command) (response : Response)
      (asks : dispatchActive turn.stores.certs config.auth ctx cmd = some (response, ctx)) :
      Browses ctx (dispatched config turn ctx cmd).ctx := by
    rw [dispatched_ctx config turn past asks]
    exact .refl ctx
  cases cmd with
  | article ref => exact fetch_browses _ _ _ ref
  | head ref => exact fetch_browses _ _ _ ref
  | body ref => exact fetch_browses _ _ _ ref
  | stat ref => exact fetch_browses _ _ _ ref
  | next => exact handleStepLive_browses _ _ _ _
  | last => exact handleStepLive_browses _ _ _ _
  | group name => exact handleGroupLive_browses _ _ name
  | ihave messageId =>
    show Browses ctx (receiveIhave config turn ctx messageId).ctx
    rw [receiveIhave_ctx]
    exact .refl ctx
  | authinfoPass password => exact handleAuthinfoPass_settles config turn ctx password past
  | authinfoSaslOauthbearer response =>
    exact handleAuthinfoSasl_settles config turn ctx response past
  | authinfoUser username =>
    show Settles _ _ ctx (dispatched config turn ctx (.authinfoUser username)).ctx
    rw [dispatched_authinfoUser config turn username past]
    exact authinfoUser_settles config _ ctx username _ fun user => by simp [Login.apply, past]
  | startTls =>
    unfold handleActive
    dsimp only
    split_ifs
    · exact .refl ctx
    · exact .refl ctx
    · exact asks _ _ rfl
  | list sub =>
    cases sub with
    | active wildmat => exact .refl ctx
    | newsgroups => exact asks _ _ rfl
    | overviewFmt => exact asks _ _ rfl
  | xcid arg =>
    unfold handleActive
    dsimp only
    split_ifs <;> exact .refl ctx
  | xverify messageId expectedCid verifySig =>
    unfold handleActive
    dsimp only
    split_ifs <;> exact .refl ctx
  | xget | newnews | «over» | hdr | search => exact .refl ctx
  | capabilities | modeReader | quit | newgroups | post | unknown =>
    exact asks _ _ rfl

theorem dispatchAuthenticating_settles (waiting : ctx.state = .authenticating) (cmd : Command) :
    Settles config.auth (loginOfCommand config turn ctx cmd) ctx
      (dispatchAuthenticating turn.stores.certs config.auth ctx cmd).2 := by
  cases cmd with
  | authinfoUser username =>
    exact authinfoUser_settles config _ ctx username _ fun user => by simp [Login.apply, waiting]
  | authinfoPass password =>
    rw [loginOfCommand, if_pos (.inl waiting)]
    exact .refl ctx
  | authinfoSaslOauthbearer response =>
    rw [loginOfCommand, if_pos (.inl waiting)]
    exact .refl ctx
  | _ => exact .refl ctx

theorem handleCommand_settles (ctx : SessionContext) (cmd : Command) :
    Settles config.auth (loginOfCommand config turn ctx cmd) ctx
      (handleCommand config turn ctx cmd).ctx := by
  unfold handleCommand
  split_ifs with waiting
  · exact dispatchAuthenticating_settles config turn waiting cmd
  · exact handleActive_settles config turn waiting cmd

theorem runTurn_command {loop : Loop} (going : loop.exit = none) {cmd : Command}
    (reads : turn.command = some cmd) : runTurn config turn loop =
      ((handleCommand config turn loop.ctx cmd).sent, ⟨(handleCommand config turn loop.ctx cmd).ctx,
          (handleCommand config turn loop.ctx cmd).exit⟩) := by
  have reads' := reads
  unfold Turn.command at reads'
  unfold runTurn
  rw [going]
  cases read : turn.read with
  | timedOut => simp [read] at reads'
  | failed => simp [read] at reads'
  | line text =>
    rw [read] at reads'
    dsimp only at reads' ⊢
    split_ifs at reads' with empty
    rw [if_neg empty, reads]

theorem runTurn_noCommand {loop : Loop} (reads : turn.command = none) :
    (runTurn config turn loop).2.ctx = loop.ctx := by
  unfold runTurn
  rw [reads]
  split
  · rfl
  · split
    · rfl
    · rfl
    · split_ifs <;> rfl

theorem runTurn_settles (loop : Loop) :
    Settles config.auth (loginOf config turn loop) loop.ctx (runTurn config turn loop).2.ctx := by
  unfold loginOf
  cases going : loop.exit with
  | some exit =>
    have ended : runTurn config turn loop = ([], loop) := by
      unfold runTurn
      rw [going]
    rw [ended]
    exact .refl loop.ctx
  | none =>
    cases reads : turn.command with
    | none =>
      rw [runTurn_noCommand config turn reads]
      exact .refl loop.ctx
    | some cmd =>
      rw [runTurn_command config turn going reads]
      exact handleCommand_settles config turn loop.ctx cmd

def SelectionAgrees (ctx : SessionContext) : Prop :=
  ctx.state = .groupSelected ↔ ctx.selectedGroup.isSome = true

instance (ctx : SessionContext) : Decidable (SelectionAgrees ctx) :=
  inferInstanceAs (Decidable (_ ↔ _))

/-- No password and no token is accepted while a group is selected. -/
def LoginsWithoutGroup (turn : Turn) (loop : Loop) : Prop :=
  ∀ user, loginOf config turn loop = some (.password user) ∨
    loginOf config turn loop = some (.oauthbearer user) → loop.ctx.selectedGroup = none

theorem selectionAgrees_active (active : ctx.state = .active) :
    SelectionAgrees ctx ↔ ctx.selectedGroup = none := by
  simp [SelectionAgrees, active]

theorem SelectionAgrees.browses {ctx' : SessionContext} (agrees : SelectionAgrees ctx)
    (browses : Browses ctx ctx') : SelectionAgrees ctx' := by
  unfold SelectionAgrees at *
  rcases browses.selection with ⟨state, selected⟩ | ⟨state, selected⟩
  · rw [state, selected]
    exact agrees
  · exact iff_of_true state selected

theorem SelectionAgrees.certificate (agrees : SelectionAgrees ctx) (auth : AuthConfig) (user : String) :
    SelectionAgrees ((Login.certificate user).apply auth ctx) := by
  unfold SelectionAgrees Login.apply at *
  dsimp only
  split_ifs with waiting
  · -- Nothing is selected before the login.
    simpa [waiting] using agrees
  · exact agrees

theorem runTurn_selection (loop : Loop) (agrees : SelectionAgrees loop.ctx) :
    SelectionAgrees (runTurn config turn loop).2.ctx ↔ LoginsWithoutGroup config turn loop := by
  have settles := runTurn_settles config turn loop
  unfold LoginsWithoutGroup
  cases login : loginOf config turn loop with
  | none =>
    rw [login] at settles
    simpa using agrees.browses settles
  | some made =>
    rw [login] at settles
    simp only [Settles] at settles
    rw [settles]
    cases made with
    | certificate user => simpa using agrees.certificate config.auth user
    | password user =>
      rw [selectionAgrees_active rfl]
      simp
    | oauthbearer user =>
      rw [selectionAgrees_active rfl]
      simp

/-! One account with a password, one token, and one group of one article. -/
namespace Sample

def auth (required : Bool) : AuthConfig where
  required := required
  users := [⟨"drain", "$2b$12$x"⟩]
  credentialFile := none
  clientCerts := []
  trustedIssuers := []
  oidcProviders := [⟨"https://idp", "stoa", "email"⟩]
  drainUsername := some "Drain"

def server (required : Bool) : Config := ⟨auth required, false, 1000⟩

def stores : Stores where
  certs := ⟨[], fun _ => .ok none, id⟩
  credentialCheck := fun user password => user == "drain" && password == "pw"
  oidcStore := some fun token => if token == "t" then .ok "eve" else .error "invalid"
  lookupByMsgid := fun _ => .ok none
  lookupCid := fun _ _ => .ok none
  groupRange := fun group => .ok (if group == "a.b" then (1, 1) else (1, 0))
  nextAfter := fun _ _ => .ok none
  prevBefore := fun _ _ => .ok none
  fetchArticleWireBytes := fun _ => .error "not found"
  overviewMsgid := fun _ _ => none
  headerMsgid := fun _ => ""
  answer := fun _ => .programFault
  runPostPipeline := fun _ => .programFault

def sends (text : String) : Turn := ⟨stores, .line (text ++ "\r\n"), .failed, false⟩

/-- The token `t` in the framing of the mechanism. -/
def bearer : Turn := sends "AUTHINFO SASL OAUTHBEARER biwsAWF1dGg9QmVhcmVyIHQBAQ=="

def connection : Connection := ⟨"192.0.2.1", true, false, false, none, none, []⟩

end Sample

/-- State and selection agree throughout a session exactly if every password and every token is
accepted without a selected group. -/
theorem selection_agrees_iff (conn : Connection) (turns : List Turn) :
    Throughout (runTurn config) (fun loop => SelectionAgrees loop.ctx) turns (conn.start config) ↔
      AlongRun (runTurn config) (LoginsWithoutGroup config) turns (conn.start config) := by
  have start : SelectionAgrees (conn.start config).ctx := by
    unfold SelectionAgrees Connection.start SessionContext.new
    dsimp only
    split_ifs <;> simp
  exact throughout_iff (fun turn loop => runTurn_selection config turn loop) start

/-- A login after the choice of a group. -/
theorem Sample.login_after_group_disagrees : ¬ ∀ (config : Config) (conn : Connection) (turns : List Turn),
      Throughout (runTurn config) (fun loop => SelectionAgrees loop.ctx) turns (conn.start config) := by
  intro all
  have broken : ¬ Throughout (runTurn (server false)) (fun loop => SelectionAgrees loop.ctx)
      [sends "GROUP a.b", sends "AUTHINFO USER drain", sends "AUTHINFO PASS pw"]
      (connection.start (server false)) := by decide +kernel
  exact broken (all _ _ _)

def IsDrainUser (ctx : SessionContext) : Prop :=
  ∃ user name, ctx.authenticatedUser = some user ∧ config.auth.drainUsername = some name ∧
    sameIgnoringCase user name = true

theorem isDrainUser_iff (user : String) (authenticated : ctx.authenticatedUser = some user) :
    IsDrainUser config ctx ↔ config.auth.isDrainUser user = true := by
  unfold IsDrainUser AuthConfig.isDrainUser
  rw [authenticated]
  cases config.auth.drainUsername with
  | none => simp
  | some name => simp [sameIgnoringCase_comm name user]

structure DrainPrivilege (ctx : SessionContext) : Prop where
  session : ctx.isDrainSession = true → IsDrainUser config ctx
  header : ∀ bytes, injectionSource (postRequest config ctx bytes) ≠ .nntpPost →
    IsDrainUser config ctx

theorem drainPrivilege_iff (ctx : SessionContext) :
    DrainPrivilege config ctx ↔ (ctx.isDrainSession = true → IsDrainUser config ctx) := by
  refine ⟨fun privilege => privilege.session, fun session => ⟨session, fun bytes believed => ?_⟩⟩
  apply session
  by_contra untrusted
  apply believed
  simp [injectionSource, postRequest, untrusted]

def LoginsKeepTrust (turn : Turn) (loop : Loop) : Prop :=
  loop.ctx.isDrainSession = true →
    ∀ user, loginOf config turn loop = some (.oauthbearer user) ∨
      loginOf config turn loop = some (.certificate user) → config.auth.isDrainUser user = true

theorem runTurn_privilege (loop : Loop) (privilege : DrainPrivilege config loop.ctx) :
    DrainPrivilege config (runTurn config turn loop).2.ctx ↔ LoginsKeepTrust config turn loop := by
  have settles := runTurn_settles config turn loop
  rw [drainPrivilege_iff] at privilege ⊢
  unfold LoginsKeepTrust
  cases login : loginOf config turn loop with
  | none =>
    rw [login] at settles
    have same : IsDrainUser config (runTurn config turn loop).2.ctx ↔ IsDrainUser config loop.ctx := by
      unfold IsDrainUser
      rw [settles.user]
    rw [settles.drain, same]
    simpa using privilege
  | some made =>
    rw [login] at settles
    simp only [Settles] at settles
    rw [settles]
    cases made with
    -- A password sets user and trust together, the other ways leave the trust as it was.
    | password user =>
      rw [isDrainUser_iff config user rfl]
      simp [Login.apply]
    | oauthbearer user =>
      rw [isDrainUser_iff config user rfl]
      simp [Login.apply]
    | certificate user =>
      rw [isDrainUser_iff config user rfl]
      simp [Login.apply]

/-- The privilege follows the user throughout a session exactly if, while it is in force, every
token and every certificate is the privileged user's. -/
theorem drain_privilege_iff (conn : Connection) (turns : List Turn) :
    Throughout (runTurn config) (fun loop => DrainPrivilege config loop.ctx) turns (conn.start config) ↔
      AlongRun (runTurn config) (LoginsKeepTrust config) turns (conn.start config) := by
  have start : DrainPrivilege config (conn.start config).ctx := by
    rw [drainPrivilege_iff]
    intro trusted
    simp [Connection.start, SessionContext.new] at trusted
  exact throughout_iff (fun turn loop => runTurn_privilege config turn loop) start

/-- A token of another user after the password of the trusted one. -/
theorem Sample.token_inherits_trust : ¬ ∀ (config : Config) (conn : Connection) (turns : List Turn),
      Throughout (runTurn config) (fun loop => DrainPrivilege config loop.ctx) turns
        (conn.start config) := by
  intro all
  have final := (all (server false) connection
    [sends "AUTHINFO USER drain", sends "AUTHINFO PASS pw", bearer]).last
  have trusted : (runAll (runTurn (server false))
      [sends "AUTHINFO USER drain", sends "AUTHINFO PASS pw", bearer]
      (connection.start (server false))).2.ctx.isDrainSession = true ∧
    (runAll (runTurn (server false))
      [sends "AUTHINFO USER drain", sends "AUTHINFO PASS pw", bearer]
      (connection.start (server false))).2.ctx.authenticatedUser = some "eve" ∧
    (server false).auth.isDrainUser "eve" = false := by decide +kernel
  obtain ⟨session, user, other⟩ := trusted
  have drain := (isDrainUser_iff (server false) "eve" user).mp (final.session session)
  rw [other] at drain
  cases drain

def LogsIn (userTurn passTurn : Turn) (loop : Loop) (user : String) : Prop :=
  let final := runTurn config passTurn (runTurn config userTurn loop).2
  final.2.ctx.state = .active ∧ final.2.ctx.authenticatedUser = some user ∧
    final.1 = [.authenticationAccepted]

instance (userTurn passTurn : Turn) (loop : Loop) (user : String) :
    Decidable (LogsIn config userTurn passTurn loop user) := inferInstanceAs (Decidable (_ ∧ _ ∧ _))

theorem handleCommand_user (tls : ctx.tlsActive = true) {user : String}
    (noCertificate : tryCertAuth turn.stores.certs ctx user = none) :
    handleCommand config turn ctx (.authinfoUser user) =
      answered .enterPassword { ctx with pendingAuthUser := some user } := by
  have asks (loggedIn : String → SessionContext) :
      authinfoUser turn.stores.certs config.auth ctx user loggedIn =
        (.enterPassword, { ctx with pendingAuthUser := some user }) := by
    simp [authinfoUser, tls, noCertificate]
  unfold handleCommand
  split_ifs with waiting
  · simp only [dispatchAuthenticating, asks]
  · simp only [handleActive, dispatched, dispatch, if_neg waiting, dispatchActive, asks]

theorem handleCommand_pass_waiting (waiting : ctx.state = .authenticating) (password : String) :
    handleCommand config turn ctx (.authinfoPass password) = answered .authenticationOutOfSequence ctx := by
  unfold handleCommand
  rw [if_pos waiting]
  rfl

theorem handleCommand_pass (past : ctx.state ≠ .authenticating)
    (tls : ctx.tlsActive = true) {user password : String} (pending : ctx.pendingAuthUser = some user)
    (accepted : turn.stores.credentialCheck user password = true) :
    handleCommand config turn ctx (.authinfoPass password) =
      answered .authenticationAccepted ((Login.password user).apply config.auth ctx) := by
  unfold handleCommand
  rw [if_neg past]
  simp [handleActive, handleAuthinfoPass, tls, pending, acceptsPassword, accepted, Login.apply]

/-- On an encrypted connection, an accepted user name and password log in exactly if the session
is not waiting for a login. -/
theorem password_logs_in_iff (loop : Loop) (going : loop.exit = none)
    (tls : loop.ctx.tlsActive = true) (userTurn passTurn : Turn) (user password : String)
    (sendsUser : userTurn.command = some (.authinfoUser user))
    (sendsPassword : passTurn.command = some (.authinfoPass password))
    (noCertificate : tryCertAuth userTurn.stores.certs loop.ctx user = none)
    (accepted : passTurn.stores.credentialCheck user password = true) :
    LogsIn config userTurn passTurn loop user ↔ loop.ctx.state ≠ .authenticating := by
  have asked : (runTurn config userTurn loop).2 =
      ⟨{ loop.ctx with pendingAuthUser := some user }, none⟩ := by
    rw [runTurn_command config userTurn going sendsUser,
      handleCommand_user config userTurn tls noCertificate]
    rfl
  unfold LogsIn
  rw [asked, runTurn_command config passTurn rfl sendsPassword]
  constructor
  · rintro ⟨_, _, answer⟩ waiting
    rw [handleCommand_pass_waiting config passTurn (by exact waiting)] at answer
    exact absurd answer
      (by decide : [Response.authenticationOutOfSequence] ≠ [Response.authenticationAccepted])
  · intro past
    rw [handleCommand_pass config passTurn (by exact past) (by exact tls) rfl accepted]
    exact ⟨rfl, rfl, rfl⟩

/-- A session that need not log in. -/
theorem Sample.drain_logs_in :
    LogsIn (server false) (sends "AUTHINFO USER drain") (sends "AUTHINFO PASS pw")
      (connection.start (server false)) "drain" :=
  (password_logs_in_iff (server false) (connection.start (server false)) rfl rfl
    (sends "AUTHINFO USER drain") (sends "AUTHINFO PASS pw") "drain" "pw" (by decide +kernel)
    (by decide +kernel) rfl (by decide +kernel)).mpr (by decide +kernel)

/-- A new session of a server that requires a login. -/
theorem Sample.waiting_session_refuses_password :
    ∃ (config : Config) (conn : Connection) (userTurn passTurn : Turn) (user password : String),
      config.auth.required = true ∧ (conn.start config).ctx.tlsActive = true ∧
      (conn.start config).ctx.state = .authenticating ∧ userTurn.command = some (.authinfoUser user) ∧
      passTurn.command = some (.authinfoPass password) ∧
      tryCertAuth userTurn.stores.certs (conn.start config).ctx user = none ∧
      passTurn.stores.credentialCheck user password = true ∧
      ¬ LogsIn config userTurn passTurn (conn.start config) user := by
  refine ⟨server true, connection, sends "AUTHINFO USER drain", sends "AUTHINFO PASS pw", "drain",
    "pw", ?_⟩
  decide +kernel

end Stoa.Session
