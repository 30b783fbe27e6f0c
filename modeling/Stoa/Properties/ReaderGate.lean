import Stoa.Properties.ReaderSession

/-! Before the first 281 the answers are the same whatever the article stores hold; and what is posted
is what was sent exactly if a complete line with a single dot comes and no line before it ends in a
second CR. -/
namespace Stoa.Session

open Text Post

variable (config : Config)

def postedBy (turn : Turn) (ctx : SessionContext) : Command → Option PostRequest
  | .post =>
    match dispatch turn.stores.certs config.auth ctx .post, turn.upload with
    | some (response, ctx), .stream bytes =>
      if response.code = 340 then
        (readDotTerminated config.maxArticleBytes bytes).1.toOption.map (postRequest config ctx)
      else none
    | _, _ => none
  | _ => none

def posted (turn : Turn) (loop : Loop) : Option PostRequest :=
  match loop.exit, turn.command with
  | none, some cmd =>
    if loop.ctx.state = .authenticating then none else postedBy config turn loop.ctx cmd
  | _, _ => none

def Turn.withPipeline (turn : Turn) (pipeline : PostRequest → Response) : Turn :=
  { turn with stores := { turn.stores with runPostPipeline := pipeline } }

theorem handleActive_congr_pipeline (turn : Turn) (ctx : SessionContext) (cmd : Command)
    (pipeline : PostRequest → Response) (same : ∀ request ∈ postedBy config turn ctx cmd,
      pipeline request = turn.stores.runPostPipeline request) :
    handleActive config (turn.withPipeline pipeline) ctx cmd = handleActive config turn ctx cmd := by
  cases cmd with
  | post =>
    -- The one command that reaches the pipeline, with the article that `postedBy` names.
    simp only [handleActive, dispatched, Turn.withPipeline]
    cases answers : dispatch turn.stores.certs config.auth ctx .post with
    | none => rfl
    | some answer =>
      obtain ⟨response, ctx'⟩ := answer
      dsimp only
      split_ifs with invited
      · unfold receivePost
        cases sends : turn.upload with
        | timedOut => rfl
        | failed => rfl
        | stream bytes =>
          dsimp only
          cases received : (readDotTerminated config.maxArticleBytes bytes).1 with
          | error e => rfl
          | ok articleBytes =>
            have named : postedBy config turn ctx .post =
                some (postRequest config ctx' articleBytes) := by
              simp [postedBy, answers, sends, invited, received, Except.toOption]
            dsimp only
            rw [same _ named]
      · rfl
  | list sub => cases sub <;> rfl
  | _ => rfl

/-- Two post pipelines that treat the posted article alike cannot be told apart: no other article
is handed to them. -/
theorem runTurn_congr_pipeline (turn : Turn) (loop : Loop) (pipeline : PostRequest → Response)
    (same : ∀ request ∈ posted config turn loop, pipeline request = turn.stores.runPostPipeline request) :
    runTurn config (turn.withPipeline pipeline) loop = runTurn config turn loop := by
  have reads : (turn.withPipeline pipeline).command = turn.command := rfl
  cases going : loop.exit with
  | some exit => simp [runTurn, going]
  | none =>
    cases command : turn.command with
    | none =>
      unfold runTurn
      rw [going, reads, command]
      rfl
    | some cmd =>
      have alike : handleCommand config (turn.withPipeline pipeline) loop.ctx cmd =
          handleCommand config turn loop.ctx cmd := by
        unfold handleCommand
        split_ifs with waiting
        · rfl
        · refine handleActive_congr_pipeline config turn loop.ctx cmd pipeline fun request named => ?_
          apply same request
          simpa [posted, going, command, waiting] using named
      rw [runTurn_command config turn going command,
        runTurn_command config (turn.withPipeline pipeline) going (reads.trans command), alike]

/-- The same session with other groups read from the article numbers at its start. -/
def Loop.withGroups (loop : Loop) (groups : List GroupInfo) : Loop :=
  { loop with ctx := { loop.ctx with knownGroups := groups } }

theorem dispatchAuthenticating_withGroups (certs : CertStores) (auth : AuthConfig)
    (ctx : SessionContext) (groups : List GroupInfo) (cmd : Command) :
    dispatchAuthenticating certs auth { ctx with knownGroups := groups } cmd =
      ((dispatchAuthenticating certs auth ctx cmd).1,
        { (dispatchAuthenticating certs auth ctx cmd).2 with knownGroups := groups }) := by
  cases cmd with
  | authinfoUser username =>
    have sameUser : tryCertAuth certs { ctx with knownGroups := groups } username =
        tryCertAuth certs ctx username := rfl
    simp only [dispatchAuthenticating, authinfoUser, sameUser]
    split_ifs
    · rfl
    · cases tryCertAuth certs ctx username <;> rfl
  | _ => rfl

/-- A waiting session answers from the line and the certificates alone. -/
theorem runTurn_waiting_eq {turn turn' : Turn} {loop : Loop}
    (waiting : loop.ctx.state = .authenticating) (sameRead : turn'.read = turn.read)
    (sameCerts : turn'.stores.certs = turn.stores.certs) (groups : List GroupInfo) :
    runTurn config turn' (loop.withGroups groups) =
      ((runTurn config turn loop).1, (runTurn config turn loop).2.withGroups groups) := by
  have sameCommand : turn'.command = turn.command := by simp only [Turn.command, sameRead]
  cases going : loop.exit with
  | some exit => simp [runTurn, Loop.withGroups, going]
  | none =>
    cases command : turn.command with
    | none =>
      simp only [runTurn, Loop.withGroups, going, sameRead, sameCommand, command]
      cases turn.read with
      | timedOut => rfl
      | failed => rfl
      | line text =>
        dsimp only
        split_ifs
        · rfl
        · simp [going]
    | some cmd =>
      rw [runTurn_command config turn going command,
        @runTurn_command config turn' (loop.withGroups groups) going cmd
          (sameCommand.trans command)]
      simp only [handleCommand, if_pos waiting, sameCerts, Loop.withGroups,
        dispatchAuthenticating_withGroups]
      rfl

/-- The only answer that ends the waiting is a 281. -/
theorem dispatchAuthenticating_waiting (certs : CertStores) (auth : AuthConfig)
    {ctx : SessionContext} (waiting : ctx.state = .authenticating) (cmd : Command) :
    (dispatchAuthenticating certs auth ctx cmd).1.code = 281 ∨
      (dispatchAuthenticating certs auth ctx cmd).2.state = .authenticating := by
  cases cmd with
  | authinfoUser username =>
    simp only [dispatchAuthenticating, authinfoUser]
    split_ifs
    · exact .inr waiting
    · cases tryCertAuth certs ctx username with
      | none => exact .inr waiting
      | some user => exact .inl rfl
  | _ => exact .inr waiting

theorem runTurn_waiting (turn : Turn) {loop : Loop} (waiting : loop.ctx.state = .authenticating) :
    (∃ response, (runTurn config turn loop).1 = [response] ∧ response.code = 281) ∨
      (runTurn config turn loop).2.ctx.state = .authenticating := by
  cases command : turn.command with
  | none => exact .inr ((runTurn_noCommand config turn command).symm ▸ waiting)
  | some cmd =>
    cases going : loop.exit with
    | some exit => exact .inr (by simpa [runTurn, going] using waiting)
    | none =>
      rw [runTurn_command config turn going command]
      simp only [handleCommand, if_pos waiting, answered]
      exact (dispatchAuthenticating_waiting turn.stores.certs config.auth waiting cmd).imp_left
        fun accepted => ⟨_, rfl, accepted⟩

theorem posted_waiting (turn : Turn) {loop : Loop} (waiting : loop.ctx.state = .authenticating) :
    posted config turn loop = none := by
  unfold posted
  split
  · exact if_pos waiting
  · rfl

/-- The article stores by what they hold: the groups that they carry, their answers, and what a
post leaves behind. -/
structure ArticleStores (σ : Type) where
  listGroups : σ → List GroupInfo
  answers : σ → Stores
  runPostPipeline : PostRequest → σ → Response × σ

/-- What comes from the client, and from the stores of users and certificates. -/
structure Line where
  certs : CertStores
  credentialCheck : String → String → Bool
  oidcStore : Option (String → Except String String)
  read : ReadLine
  upload : Upload
  pipelined : Bool

structure World (σ : Type) where
  loop : Loop
  contents : σ

section Server

variable {σ : Type} (articleStores : ArticleStores σ)

def ArticleStores.turn (line : Line) (contents : σ) : Turn where
  stores :=
    { articleStores.answers contents with
      certs := line.certs
      credentialCheck := line.credentialCheck
      oidcStore := line.oidcStore
      runPostPipeline := fun request => (articleStores.runPostPipeline request contents).1 }
  read := line.read
  upload := line.upload
  pipelined := line.pipelined

def ArticleStores.after (line : Line) (world : World σ) : σ :=
  match posted config (articleStores.turn line world.contents) world.loop with
  | none => world.contents
  | some request => (articleStores.runPostPipeline request world.contents).2

def World.step (line : Line) (world : World σ) : List Response × World σ :=
  let (sent, loop) := runTurn config (articleStores.turn line world.contents) world.loop
  (sent, ⟨loop, articleStores.after config line world⟩)

def World.start (conn : Connection) (contents : σ) : World σ :=
  ⟨(conn.start config).withGroups (articleStores.listGroups contents), contents⟩

def session (conn : Connection) (lines : List Line) (contents : σ) : List Response × World σ :=
  let (sent, world) :=
    runAll (World.step config articleStores) lines (World.start config articleStores conn contents)
  (sent.flatten, world)

def beforeLogin (responses : List Response) : List Response :=
  responses.takeWhile fun response => response.code != 281

theorem beforeLogin_append {sent sent' : List Response} (first : List Response)
    (same : beforeLogin sent = beforeLogin sent') :
    beforeLogin (first ++ sent) = beforeLogin (first ++ sent') := by
  unfold beforeLogin at same ⊢
  rw [List.takeWhile_append, List.takeWhile_append, same]

theorem World.step_waiting (line : Line) {world : World σ}
    (waiting : world.loop.ctx.state = .authenticating) :
    (World.step config articleStores line world).2.contents = world.contents := by
  simp only [World.step, ArticleStores.after, posted_waiting config _ waiting]

/-- Two waiting sessions that differ in the groups and in the stores answer alike until a login. -/
theorem run_beforeLogin (lines : List Line) {loop : Loop}
    (waiting : loop.ctx.state = .authenticating) (groups groups' : List GroupInfo)
    (contents contents' : σ) : beforeLogin
        (runAll (World.step config articleStores) lines ⟨loop.withGroups groups, contents⟩).1.flatten =
      beforeLogin
        (runAll (World.step config articleStores) lines ⟨loop.withGroups groups', contents'⟩).1.flatten := by
  induction lines generalizing loop contents contents' with
  | nil => rfl
  | cons line lines ih =>
    -- Both turns are the turn of the session without its groups.
    have one := @runTurn_waiting_eq config (articleStores.turn line contents)
      (articleStores.turn line contents) loop waiting rfl rfl groups
    have two := @runTurn_waiting_eq config (articleStores.turn line contents)
      (articleStores.turn line contents') loop waiting rfl rfl groups'
    simp only [runAll_cons, List.flatten_cons, World.step, one, two]
    rcases runTurn_waiting config (articleStores.turn line contents) waiting with
      ⟨response, sent, accepted⟩ | still
    · simp [sent, beforeLogin, accepted]
    · exact beforeLogin_append _ (ih still _ _)

/-- Up to the turn that logs in, the stores are left as they were. -/
theorem run_contents (lines : List Line) (line : Line) {world : World σ}
    (waiting : world.loop.ctx.state = .authenticating)
    (none281 : ∀ response ∈ (runAll (World.step config articleStores) lines world).1.flatten,
      response.code ≠ 281) :
    (runAll (World.step config articleStores) (lines ++ [line]) world).2.contents = world.contents := by
  induction lines generalizing world with
  | nil => exact World.step_waiting config articleStores line waiting
  | cons first lines ih =>
    simp only [runAll_cons, List.flatten_cons, List.mem_append] at none281
    rcases runTurn_waiting config (articleStores.turn first world.contents) waiting with
      ⟨response, sent, accepted⟩ | still
    · -- The first turn would have sent a 281.
      refine absurd accepted (none281 response (.inl ?_))
      simp [World.step, sent]
    · rw [List.cons_append, runAll_cons,
        @ih (World.step config articleStores first world).2 still
          fun response sent => none281 response (.inr sent)]
      exact World.step_waiting config articleStores first waiting

end Server

/-- If a login is required, the answers before the first 281 do not depend on the article stores,
and no turn up to the one that sends it changes them. -/
theorem waiting_reader_learns_nothing {σ : Type} (articleStores : ArticleStores σ)
    (required : config.auth.required = true) (conn : Connection) (contents contents' : σ)
    (lines : List Line) : beforeLogin (session config articleStores conn lines contents).1 =
        beforeLogin (session config articleStores conn lines contents').1 ∧
      ∀ earlier line later, lines = earlier ++ line :: later →
        (∀ response ∈ (session config articleStores conn earlier contents).1, response.code ≠ 281) →
        (session config articleStores conn (earlier ++ [line]) contents).2.contents = contents := by
  have waiting : (conn.start config).ctx.state = .authenticating := by
    simp [Connection.start, SessionContext.new, required]
  constructor
  · exact run_beforeLogin config articleStores lines waiting _ _ contents contents'
  · intro earlier line later _ none281
    exact run_contents config articleStores earlier line waiting none281

namespace Sample

def shelf : ArticleStores (List Bytes) where
  listGroups := fun articles => articles.map fun _ => ⟨"a.b", 1, 1, true, ""⟩
  answers := fun articles =>
    { stores with answer := fun _ => Response.new 220 (toString articles.length) }
  runPostPipeline := fun request articles =>
    (Response.new 240 "Article received OK", request.articleBytes :: articles)

def asks (text : String) : Line where
  certs := ⟨[⟨"aa", "alice"⟩], fun _ => .ok none, id⟩
  credentialCheck := stores.credentialCheck
  oidcStore := stores.oidcStore
  read := .line (text ++ "\r\n")
  upload := .failed
  pipelined := false

def pinned : Connection := { connection with clientCertFingerprint := some "sha256:aa" }

def visit : List Line :=
  ["LIST ACTIVE", "POST", "AUTHINFO USER bob", "AUTHINFO PASS pw", "AUTHINFO USER alice",
    "XGET bafy"].map asks

end Sample

/-- Of six answers, the four before the login are alike; the last one tells the stores apart. -/
theorem Sample.visit_learns_nothing :
    ((session (server true) shelf pinned visit []).1.map Response.code = [480, 480, 381, 482, 281, 220] ∧
      (session (server true) shelf pinned visit []).1 ≠
        (session (server true) shelf pinned visit [[65]]).1) ∧
      beforeLogin (session (server true) shelf pinned visit []).1 =
        beforeLogin (session (server true) shelf pinned visit [[65]]).1 := by
  refine ⟨?_, (waiting_reader_learns_nothing (server true) shelf rfl pinned [] [[65]] visit).1⟩
  decide +kernel

end Stoa.Session

namespace Stoa.Post

open Text List

/-- The text of a line that ends in LF or CRLF. -/
def lineText (line : Bytes) : Option Bytes :=
  if line.getLast? = some 0x0a then
    if line.dropLast.getLast? = some 0x0d then some line.dropLast.dropLast else some line.dropLast
  else none

/-- The article that the lines are, if there is a line with a single dot. -/
def sentArticle : List Bytes → Option Bytes
  | [] => none
  | line :: rest => (lineText line).bind fun text =>
    if text = [0x2e] then some []
    else (sentArticle rest).map fun later => dotUnstuff text ++ crlfBytes ++ later

/-- A complete line with a single dot comes, and no line before it ends in CR CR LF. -/
def Terminated : List Bytes → Prop
  | [] => False
  | line :: rest => ∃ text, lineText line = some text ∧
      (text = [0x2e] ∨ trimEol text = text ∧ Terminated rest)

theorem trimEol_of_lineText {line text : Bytes} (read : lineText line = some text) :
    trimEol line = trimEol text := by
  unfold lineText at read
  have cut {l : Bytes} {b : UInt8} (last : l.getLast? = some b) (eol : isEol b = true) :
      trimEol l = trimEol l.dropLast := by
    obtain ⟨front, rfl⟩ := getLast?_eq_some_iff.mp last
    rw [trimEol, rdropWhile_concat_pos _ _ _ eol, dropLast_concat, trimEol]
  split at read
  · next lf =>
    rw [cut lf (by decide)]
    split at read
    · next cr => rw [cut cr (by decide), Option.some.inj read]
    · rw [Option.some.inj read]
  · cases read

/-- Trimming leaves the dots at the start alone. -/
theorem length_dotUnstuff_trimEol (text : Bytes) : text = trimEol text ∨
    (dotUnstuff (trimEol text)).length < (dotUnstuff text).length := by
  have split : trimEol text ++ text.rtakeWhile isEol = text := rdropWhile_append_rtakeWhile
  have eol : ∀ b ∈ text.rtakeWhile isEol, isEol b = true := fun _ => mem_rtakeWhile_imp
  generalize trimEol text = kept at split ⊢
  generalize text.rtakeWhile isEol = cut at split eol
  subst split
  cases cut with
  | nil => exact .inl (append_nil _)
  | cons c cut =>
    have notDot : 0x2e ≠ c := by
      rintro rfl
      exact absurd (eol _ mem_cons_self) (by decide)
    right
    rcases kept with _ | ⟨a, _ | ⟨b, kept⟩⟩
    · simp [dotUnstuff, isPrefixOf, notDot]
    · simp [dotUnstuff, isPrefixOf, notDot]
    · simp only [dotUnstuff, isPrefixOf, cons_append, drop_succ_cons, drop_zero]
      split <;> simp

theorem readLines_tooLarge (maxBytes : Nat) (article kept : Bytes) (lines : List Bytes) :
    (readLines maxBytes article true lines).1 ≠ .ok kept := by
  induction lines with
  | nil => simp [readLines, finishReading]
  | cons line rest ih =>
    unfold readLines
    split <;> [simp; (dsimp only; split <;> [simp [finishReading]; exact ih])]

/-- The article that the reader makes of the lines, if it keeps all of it. -/
def keptArticle : List Bytes → Bytes
  | [] => []
  | line :: rest =>
    if trimEol line = [0x2e] then [] else dotUnstuff (trimEol line) ++ crlfBytes ++ keptArticle rest

theorem readLines_kept {maxBytes : Nat} {start article : Bytes} {lines : List Bytes}
    (received : (readLines maxBytes start false lines).1 = .ok article) :
    article = start ++ keptArticle lines := by
  induction lines generalizing start with
  | nil => simpa [readLines, finishReading, keptArticle] using received.symm
  | cons line rest ih =>
    unfold readLines at received
    unfold keptArticle
    split at received
    · cases received
    dsimp only at received
    split at received
    · next dot => simpa [finishReading, dot] using received.symm
    · next more =>
      rw [if_neg Bool.false_ne_true] at received
      split at received
      · exact absurd received (readLines_tooLarge _ _ _ _)
      · rw [ih received, if_neg more]
        simp only [append_assoc]

/-- The reader keeps no more than was sent, and all of it if the lines are terminated. -/
theorem keptArticle_sent (lines : List Bytes) :
    (sentArticle lines = some (keptArticle lines) ↔ Terminated lines) ∧
      ∀ sent, sentArticle lines = some sent → (keptArticle lines).length ≤ sent.length := by
  induction lines with
  | nil => simp [sentArticle, Terminated]
  | cons line rest ih =>
    cases read : lineText line with
    | none => simp [sentArticle, Terminated, read]
    | some text =>
      have trimmed := trimEol_of_lineText read
      by_cases dot : text = [0x2e]
      · have last : trimEol line = [0x2e] := by rw [trimmed, dot]; decide
        simp [sentArticle, Terminated, keptArticle, read, dot, last]
      obtain ⟨same, le⟩ := ih
      simp only [sentArticle, Terminated, keptArticle, read, trimmed, Option.bind_some, dot, if_false,
        Option.map_eq_some_iff, Option.some.injEq, exists_eq_left', false_or]
      rcases length_dotUnstuff_trimEol text with whole | shorter
      · rw [← whole, if_neg dot]
        refine ⟨by simp [← same], ?_⟩
        rintro _ ⟨later, sent, rfl⟩
        simpa using le later sent
      · have cut : trimEol text ≠ text := fun h => absurd shorter (by rw [h]; exact Nat.lt_irrefl _)
        have bound : ∀ later, sentArticle rest = some later →
            (if trimEol text = [0x2e] then []
              else dotUnstuff (trimEol text) ++ crlfBytes ++ keptArticle rest).length <
              (dotUnstuff text ++ crlfBytes ++ later).length := by
          intro later sent
          have := le later sent
          split <;> simp only [length_append, length_nil] <;> omega
        refine ⟨iff_of_false ?_ fun h => cut h.1, ?_⟩
        · rintro ⟨later, sent, eq⟩
          exact absurd (congrArg length eq) (bound later sent).ne'
        · rintro _ ⟨later, sent, rfl⟩
          exact (bound later sent).le

end Stoa.Post

namespace Stoa.Session

open Text Post

/-- What is posted is the article that was sent exactly if the stream is terminated. -/
theorem posted_complete_iff {config : Config} {turn : Turn} {loop : Loop} {stream : Bytes}
    {request : PostRequest} (sends : turn.upload = .stream stream)
    (called : posted config turn loop = some request) :
    sentArticle (splitInclusive 0x0a stream) = some request.articleBytes ↔
      Terminated (splitInclusive 0x0a stream) := by
  have received : (readDotTerminated config.maxArticleBytes stream).1 = .ok request.articleBytes := by
    simp only [posted, postedBy, sends] at called
    repeat' split at called
    all_goals try cases called
    next same _ =>
    obtain rfl := Upload.stream.inj same
    obtain ⟨article, read, rfl⟩ := Option.map_eq_some_iff.mp called
    cases result : (readDotTerminated config.maxArticleBytes stream).1 with
    | error e => rw [result] at read; cases read
    | ok kept => rw [result] at read; exact congrArg Except.ok (Option.some.inj read)
  rw [readLines_kept received, List.nil_append]
  exact (keptArticle_sent _).1

namespace Sample

def session : Loop := ⟨.new "192.0.2.1" ⟨false, true, true⟩, none⟩

def uploads (stream : String) : Turn := { sends "POST" with upload := .stream (asBytes stream) }

/-- A post, and the same post on a connection that breaks after its first line. -/
theorem whole_post : posted (server false) (uploads "a\r\n.\r\n") session =
    some (postRequest (server false) session.ctx (asBytes "a\r\n")) := by
  rfl

theorem broken_post : posted (server false) (uploads "a\r\n") session =
    some (postRequest (server false) session.ctx (asBytes "a\r\n")) := by
  rfl

theorem whole_post_complete : posted (server false) (uploads "a\r\n.\r\n") session =
      some (postRequest (server false) session.ctx (asBytes "a\r\n")) ∧
    Terminated (splitInclusive 0x0a (asBytes "a\r\n.\r\n")) :=
  ⟨whole_post, (posted_complete_iff rfl whole_post).mp (by decide)⟩

/-- The client has sent no terminator, and the article is posted. -/
theorem broken_post_incomplete : ¬ ∀ (stream : String) (request : PostRequest),
    posted (server false) (uploads stream) session = some request →
      sentArticle (splitInclusive 0x0a (asBytes stream)) = some request.articleBytes := by
  intro complete
  exact absurd (complete _ _ broken_post) (by decide)

end Sample

end Stoa.Session
