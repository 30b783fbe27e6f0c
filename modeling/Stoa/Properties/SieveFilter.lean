import Stoa.Smtp.Delivery

/-! `filter_right_iff`: messages are filtered by the script of the reference model exactly if no
script is stored under the name that is active and no message meets a database error that matters.
-/
namespace Stoa.Smtp

structure AdminConfig where
  users : List String
  maxScriptBytes : Nat

structure Response where
  status : Nat
  text : String
  deriving DecidableEq, Repr

/-- Where a request stands after its transaction: it has its reply, or the entry of a user is
evicted first. -/
inductive Handled
  | replied (response : Response)
  | written (username : String) (response : Response)
  deriving DecidableEq, Repr

inductive AdminRequest
  | put (username name : String) (body : Bytes)
  | delete (username name : String)
  | activate (username name : String)
  deriving DecidableEq

def validScriptName (name : String) : Bool :=
  decide (name ≠ "") && decide (Text.len name ≤ 256) && !Text.contains name '/' &&
    !Text.contains name '\x00' && !(name.toList.tails.any fun tail => ['.', '.'].isPrefixOf tail)

def userExists (config : AdminConfig) (username : String) : Bool :=
  Text.sameIgnoringCase username globalScriptKey || config.users.contains username

def normalizeUsername (username : String) : String :=
  if Text.sameIgnoringCase username globalScriptKey then globalScriptKey else username

section Requests

variable {γ : Type} (config : AdminConfig) (compile : Bytes → Except String γ)

def checkRequest (username name : String) : Option Response :=
  if !userExists config username then some ⟨404, "user not found"⟩
  else if !validScriptName name then some ⟨400, "invalid script name"⟩
  else none

def putScript (username name : String) (body : Bytes) (pool : SmtpPool) : Handled × SmtpPool :=
  match checkRequest config username name with
  | some response => (.replied response, pool)
  | none =>
    if config.maxScriptBytes < body.length then (.replied ⟨413, "script exceeds size limit"⟩, pool)
    else match compile body with
    | .error e => (.replied ⟨422, "Sieve parse error: " ++ e⟩, pool)
    | .ok _ => match (saveScript (normalizeUsername username) name body false).exec pool with
      | (.ok (), pool) => (.written (normalizeUsername username) ⟨201, ""⟩, pool)
      | (.error e, pool) => (.replied ⟨500, e⟩, pool)

def onScript (statement : String → String → Prog SmtpPool String Bool) (username name : String)
    (pool : SmtpPool) : Handled × SmtpPool :=
  match checkRequest config username name with
  | some response => (.replied response, pool)
  | none => match (statement (normalizeUsername username) name).exec pool with
    | (.ok true, pool) => (.written (normalizeUsername username) ⟨204, ""⟩, pool)
    | (.ok false, pool) => (.replied ⟨404, "script not found"⟩, pool)
    | (.error e, pool) => (.replied ⟨500, e⟩, pool)

/-- The handlers `put_script`, `delete_script` and `activate_script`, up to the eviction. -/
def handleRequest (request : AdminRequest) (pool : SmtpPool) : Handled × SmtpPool :=
  match request with
  | .put username name body => putScript config compile username name body pool
  | .delete username name => onScript config deleteScript username name pool
  | .activate username name => onScript config setActive username name pool

end Requests

section Evaluation

variable {γ μ : Type} (compile : Bytes → Except String γ) (evaluate : γ → μ → List SieveAction)

abbrev SieveCache (γ : Type) := String → Option γ

def finishRequest (handled : Handled) (cache : SieveCache γ) : Response × SieveCache γ :=
  match handled with
  | .replied response => (response, cache)
  | .written username response => (response, Function.update cache username none)

def sieveGlobal (message : μ) (pool : SmtpPool) (cache : SieveCache γ) :
    List SieveAction × SmtpPool × SieveCache γ :=
  match cache globalScriptKey with
  | some compiled => (evaluate compiled message, pool, cache)
  | none => match loadActiveScript globalScriptKey pool with
    | (none, pool) => ([.keep], pool, cache)
    | (some bytes, pool) => match compile bytes with
      | .ok compiled =>
        (evaluate compiled message, pool, Function.update cache globalScriptKey (some compiled))
      | .error _ => ([.keep], pool, cache)

end Evaluation

open Function ScriptTable AdminRequest

structure Reference where
  content : String → String → Option Bytes
  chosen : String → Option String

namespace Reference

def ofTable (table : ScriptTable) : Reference :=
  ⟨table.get, fun user => (table.activeRow user).map SieveScript.scriptName⟩

def active (ref : Reference) (user : String) : Option Bytes := (ref.chosen user).bind (ref.content user)

def setContent (ref : Reference) (user name : String) (content : Option Bytes) : Reference :=
  { ref with content := fun u n => if (u, n) = (user, name) then content else ref.content u n }

def apply (ref : Reference) : AdminRequest → Reference
  | .put username name body => ref.setContent (normalizeUsername username) name (some body)
  | .delete username name =>
    ⟨(ref.setContent (normalizeUsername username) name none).content,
      Function.update ref.chosen (normalizeUsername username)
        ((ref.chosen (normalizeUsername username)).filter fun n => decide (n ≠ name))⟩
  | .activate username name =>
    { ref with chosen := Function.update ref.chosen (normalizeUsername username) (some name) }

end Reference

structure FilterState (γ : Type) where
  pool : SmtpPool
  cache : SieveCache γ
  ref : Reference

def FilterState.start {γ : Type} (pool : SmtpPool) : FilterState γ :=
  ⟨pool, fun _ => none, .ofTable pool.tables.scripts⟩

inductive FilterEvent (μ : Type)
  | request (request : AdminRequest)
  | mail (message : μ)

def FilterState.activeScript {γ : Type} (s : FilterState γ) (user : String) : Option Bytes :=
  (s.pool.tables.scripts.activeRow user).map SieveScript.scriptBytes

section Histories

variable {γ μ : Type} (config : AdminConfig) (compile : Bytes → Except String γ)
  (evaluate : γ → μ → List SieveAction)

def evaluateScript (script : Option Bytes) (message : μ) : List SieveAction :=
  match script.bind fun bytes => (compile bytes).toOption with
  | some compiled => evaluate compiled message
  | none => [.keep]

/-- A request or a message; only a request that succeeds counts for the reference model. -/
def filterStep : FilterEvent μ → FilterState γ → (Response ⊕ List SieveAction) × FilterState γ
  | .request request, s =>
    let (handled, pool) := handleRequest config compile request s.pool
    let (response, cache) := finishRequest handled s.cache
    (.inl response, ⟨pool, cache, if response.status < 300 then s.ref.apply request else s.ref⟩)
  | .mail message, s =>
    let (actions, pool, cache) := sieveGlobal compile evaluate message s.pool s.cache
    (.inr actions, ⟨pool, cache, s.ref⟩)

/-- After a request the active scripts are those of the reference model; a message is filtered
by the one of the global user. -/
def FilterRight : FilterEvent μ → FilterState γ → Prop
  | .request request, s =>
    ∀ user, (filterStep config compile evaluate (.request request) s).2.activeScript user =
      (filterStep config compile evaluate (.request request) s).2.ref.active user
  | .mail message, s => (filterStep config compile evaluate (.mail message) s).1 =
      .inr (evaluateScript compile evaluate (s.ref.active globalScriptKey) message)

namespace AdminRequest

def user : AdminRequest → String
  | .put username _ _ | .delete username _ | .activate username _ => normalizeUsername username

def Accepted (request : AdminRequest) (pool : SmtpPool) : Prop :=
  pool.fault = none ∧ match request with
    | .put username name body => checkRequest config username name = none ∧
        body.length ≤ config.maxScriptBytes ∧ (compile body).isOk = true
    | .delete username name | .activate username name => checkRequest config username name = none ∧
        (pool.tables.scripts.get (normalizeUsername username) name).isSome = true

def apply : AdminRequest → ScriptTable → ScriptTable
  | .put username name body, table => table.save (normalizeUsername username) name body false
  | .delete username name, table => table.delete (normalizeUsername username) name
  | .activate username name, table => table.activate (normalizeUsername username) name

end AdminRequest

/-- No script is stored under the name that is active, and no message is kept because of an
error of the database. -/
def Undisturbed : FilterEvent μ → FilterState γ → Prop
  | .request (.put username name body), s =>
    ¬ (AdminRequest.Accepted config compile (.put username name body) s.pool ∧
      s.ref.chosen (normalizeUsername username) = some name)
  | .request _, _ => True
  | .mail message, s => s.pool.fault = none ∨ s.cache globalScriptKey ≠ none ∨
      evaluateScript compile evaluate (s.ref.active globalScriptKey) message = [.keep]

end Histories

section Requests

variable {γ μ : Type} {config : AdminConfig} {compile : Bytes → Except String γ}
  {evaluate : γ → μ → List SieveAction}

theorem delete_of_get_eq_none {table : ScriptTable} {username scriptName : String}
    (missing : table.get username scriptName = none) : table.delete username scriptName = table := by
  have same : (table.delete username scriptName).rows = table.rows := by
    refine List.filter_eq_self.mpr fun r here => decide_eq_true fun key => ?_
    rw [get_eq_some.mpr ⟨r, here, key, rfl⟩] at missing
    cases missing
  rw [mk.injEq]
  exact same

def nextPool (pool : SmtpPool) (scripts : ScriptTable) : SmtpPool :=
  ⟨{ pool.tables with scripts := scripts }, pool.faults.tail⟩

def Writes (request : AdminRequest) (accepted : Prop) (pool : SmtpPool) (next : Handled × SmtpPool) : Prop :=
  (accepted ∧ ∃ response : Response, response.status < 300 ∧
    next = (.written request.user response, nextPool pool (request.apply pool.tables.scripts))) ∨
  (¬ accepted ∧ ∃ (response : Response) (pool' : SmtpPool),
    ¬ response.status < 300 ∧ pool'.tables = pool.tables ∧ next = (.replied response, pool'))

theorem checkRequest_status {username name : String} {response : Response}
    (refused : checkRequest config username name = some response) : ¬ response.status < 300 := by
  unfold checkRequest at refused
  split at refused
  · cases refused
    decide
  · split at refused
    · cases refused
      decide
    · cases refused

theorem putScript_writes (username name : String) (body : Bytes) (pool : SmtpPool) :
    Writes (.put username name body) (AdminRequest.Accepted config compile (.put username name body) pool)
      pool (putScript config compile username name body pool) := by
  unfold putScript Writes AdminRequest.Accepted
  dsimp only
  cases checked : checkRequest config username name with
  | some response =>
    exact .inr ⟨by simp, response, pool, checkRequest_status checked, rfl, rfl⟩
  | none =>
    dsimp only
    split
    · next large => exact .inr ⟨by simp [large], _, pool, by simp, rfl, rfl⟩
    · next fits =>
      cases compiled : compile body with
      | error e => exact .inr ⟨by simp [Except.isOk, Except.toBool], _, pool, by simp, rfl, rfl⟩
      | ok script =>
        rw [saveScript, AnyPool.exec_transaction]
        cases fault : pool.fault with
        | some e => exact .inr ⟨by simp, ⟨500, e⟩, ⟨pool.tables, pool.faults.tail⟩, by simp, rfl, rfl⟩
        | none => exact .inl ⟨⟨rfl, rfl, Nat.le_of_not_lt fits, rfl⟩, ⟨201, ""⟩, by simp, rfl⟩

theorem onScript_writes {request : AdminRequest} {statement : String → String → Prog SmtpPool String Bool}
    {username name : String} {pool : SmtpPool} {found : Bool} (user : request.user = normalizeUsername username)
    (runs : (statement (normalizeUsername username) name).exec pool = match pool.fault with
      | some e => (.error e, ⟨pool.tables, pool.faults.tail⟩)
      | none => (.ok found, nextPool pool
          (if found then request.apply pool.tables.scripts else pool.tables.scripts))) :
    Writes request (pool.fault = none ∧ checkRequest config username name = none ∧ found = true)
      pool (onScript config statement username name pool) := by
  unfold onScript Writes
  cases checked : checkRequest config username name with
  | some response => exact .inr ⟨by simp, response, pool, checkRequest_status checked, rfl, rfl⟩
  | none =>
    dsimp only
    rw [runs]
    cases fault : pool.fault with
    | some e => exact .inr ⟨by simp, ⟨500, e⟩, ⟨pool.tables, pool.faults.tail⟩, by simp, rfl, rfl⟩
    | none =>
      cases found with
      | false => exact .inr ⟨by simp, ⟨404, "script not found"⟩, nextPool pool pool.tables.scripts, by simp, rfl, rfl⟩
      | true => exact .inl ⟨⟨rfl, rfl, rfl⟩, ⟨204, ""⟩, by simp, by rw [user]; rfl⟩

theorem exec_deleteScript (username name : String) (pool : SmtpPool) :
    (deleteScript username name).exec pool = match pool.fault with
      | some e => (.error e, ⟨pool.tables, pool.faults.tail⟩)
      | none => (.ok (pool.tables.scripts.get username name).isSome, nextPool pool
          (if (pool.tables.scripts.get username name).isSome then pool.tables.scripts.delete username name
            else pool.tables.scripts)) := by
  rw [deleteScript, AnyPool.exec_transaction]
  cases found : pool.tables.scripts.get username name with
  | none =>
    simp only [delete_of_get_eq_none found, Option.isSome_none]
    rfl
  | some bytes => rfl

theorem exec_setActive (username name : String) (pool : SmtpPool) :
    (setActive username name).exec pool = match pool.fault with
      | some e => (.error e, ⟨pool.tables, pool.faults.tail⟩)
      | none => (.ok (pool.tables.scripts.get username name).isSome, nextPool pool
          (if (pool.tables.scripts.get username name).isSome then pool.tables.scripts.activate username name
            else pool.tables.scripts)) := by
  rw [setActive, AnyPool.exec_transaction]
  cases found : pool.tables.scripts.get username name with
  | none => rfl
  | some bytes => rfl

theorem handleRequest_writes (request : AdminRequest) (pool : SmtpPool) :
    Writes request (request.Accepted config compile pool) pool
      (handleRequest config compile request pool) := by
  cases request with
  | put username name body => exact putScript_writes username name body pool
  | delete username name => exact onScript_writes rfl (exec_deleteScript _ name pool)
  | activate username name => exact onScript_writes rfl (exec_setActive _ name pool)

end Requests

theorem active_ofTable (table : ScriptTable) (user : String) :
    (table.activeRow user).map SieveScript.scriptBytes = (Reference.ofTable table).active user := by
  unfold Reference.active Reference.ofTable
  dsimp only
  cases found : table.activeRow user with
  | none => rfl
  | some r =>
    obtain ⟨here, rfl, -⟩ := activeRow_eq_some.mp found
    exact (get_eq_some.mpr ⟨r, here, rfl, rfl⟩).symm

theorem scriptName_filter (table : ScriptTable) (user name u : String) :
    ((table.activeRow u).filter fun r => decide (r.key ≠ (user, name))).map SieveScript.scriptName =
      update (Reference.ofTable table).chosen user
        (((Reference.ofTable table).chosen user).filter fun n => decide (n ≠ name)) u := by
  by_cases same : u = user
  · subst same
    rw [update_self]
    unfold Reference.ofTable
    dsimp only
    cases found : table.activeRow u with
    | none => rfl
    | some r =>
      obtain ⟨-, rfl, -⟩ := activeRow_eq_some.mp found
      by_cases named : r.scriptName = name <;> simp [SieveScript.key, named, Option.filter]
  · rw [update_of_ne same]
    unfold Reference.ofTable
    dsimp only
    cases found : table.activeRow u with
    | none => rfl
    | some r =>
      obtain ⟨-, rfl, -⟩ := activeRow_eq_some.mp found
      simp [SieveScript.key, same, Option.filter]

theorem ofTable_delete (table : ScriptTable) (username name : String) :
    Reference.ofTable ((delete username name).apply table) =
      (Reference.ofTable table).apply (.delete username name) := by
  unfold apply Reference.apply
  rw [Reference.ofTable, Reference.mk.injEq]
  constructor
  · funext u n
    exact get_delete ..
  · funext u
    rw [activeRow_delete, scriptName_filter]

theorem ofTable_activate {table : ScriptTable} {username name : String}
    (found : (table.get (normalizeUsername username) name).isSome = true) :
    Reference.ofTable ((activate username name).apply table) =
      (Reference.ofTable table).apply (.activate username name) := by
  unfold apply Reference.apply
  rw [Reference.ofTable, Reference.mk.injEq]
  constructor
  · funext u n
    exact get_activate ..
  · funext u
    by_cases same : u = normalizeUsername username
    · rw [same, update_self, activeRow_activate_self found]
    · rw [update_of_ne same, activeRow_activate_of_ne same]
      rfl

theorem chosen_put (table : ScriptTable) (username name : String) (body : Bytes) :
    (Reference.ofTable ((put username name body).apply table)).chosen =
      update (Reference.ofTable table).chosen (normalizeUsername username)
        (((Reference.ofTable table).chosen (normalizeUsername username)).filter fun n => decide (n ≠ name)) := by
  funext u
  rw [← scriptName_filter, ← activeRow_save_false]
  rfl

theorem ofTable_put {table : ScriptTable} {username name : String} {body : Bytes}
    (other : (Reference.ofTable table).chosen (normalizeUsername username) ≠ some name) :
    Reference.ofTable ((put username name body).apply table) =
      (Reference.ofTable table).apply (.put username name body) := by
  have kept : ((Reference.ofTable table).chosen (normalizeUsername username)).filter
      (fun n => decide (n ≠ name)) = (Reference.ofTable table).chosen (normalizeUsername username) := by
    cases chosen : (Reference.ofTable table).chosen (normalizeUsername username) with
    | none => rfl
    | some n =>
      have different : n ≠ name := fun same => other (chosen.trans (congrArg some same))
      simp [Option.filter, different]
  have chosen := chosen_put table username name body
  rw [kept, update_eq_self] at chosen
  rw [Reference.ofTable, Reference.apply, Reference.mk.injEq]
  exact ⟨funext fun u => funext fun n => get_save_false .., chosen⟩

theorem active_put {table : ScriptTable} {username name : String} {body : Bytes}
    (same : (Reference.ofTable table).chosen (normalizeUsername username) = some name) :
    (Reference.ofTable ((put username name body).apply table)).active
      (normalizeUsername username) = none := by
  unfold Reference.active
  rw [chosen_put, update_self, same]
  simp [Option.filter]

section Steps

variable {γ μ : Type} {config : AdminConfig} {compile : Bytes → Except String γ}
  {evaluate : γ → μ → List SieveAction}

/-- The database stands for the reference model, and the cache holds nothing but the active
script. -/
structure FilterState.Agrees (compile : Bytes → Except String γ) (s : FilterState γ) : Prop where
  ref : Reference.ofTable s.pool.tables.scripts = s.ref
  coherent : ∀ compiled, s.cache globalScriptKey = some compiled →
    ∃ bytes, s.activeScript globalScriptKey = some bytes ∧ compile bytes = .ok compiled

variable {s : FilterState γ}

theorem FilterState.Agrees.active (agrees : s.Agrees compile) (user : String) :
    s.activeScript user = s.ref.active user := by
  rw [← agrees.ref]
  exact active_ofTable _ user

theorem filterStep_request (request : AdminRequest) (s : FilterState γ) :
    (request.Accepted config compile s.pool ∧ (filterStep config compile evaluate (.request request) s).2 =
        ⟨nextPool s.pool (request.apply s.pool.tables.scripts),
          update s.cache request.user none, s.ref.apply request⟩) ∨
    (¬ request.Accepted config compile s.pool ∧ ∃ pool : SmtpPool, pool.tables = s.pool.tables ∧
      (filterStep config compile evaluate (.request request) s).2 = ⟨pool, s.cache, s.ref⟩) := by
  rcases @handleRequest_writes γ config compile request s.pool with
    ⟨accepted, response, success, writes⟩ | ⟨refused, response, pool, failure, same, replies⟩
  · refine .inl ⟨accepted, ?_⟩
    simp only [filterStep, writes, finishRequest, if_pos success]
  · refine .inr ⟨refused, pool, same, ?_⟩
    simp only [filterStep, replies, finishRequest, if_neg failure]

theorem activeRow_apply_of_ne {request : AdminRequest} {table : ScriptTable} {user : String}
    (other : user ≠ request.user) : (request.apply table).activeRow user = table.activeRow user := by
  have kept : ∀ name, ((table.activeRow user).filter fun r =>
      decide (r.key ≠ (request.user, name))) = table.activeRow user := by
    intro name
    refine Option.ext fun r => ?_
    rw [Option.filter_eq_some_iff, and_iff_left_iff_imp]
    intro found
    obtain ⟨-, rfl, -⟩ := activeRow_eq_some.mp found
    simp [SieveScript.key, other]
  cases request with
  | put username name body => exact (activeRow_save_false ..).trans (kept name)
  | delete username name => exact (activeRow_delete ..).trans (kept name)
  | activate username name => exact activeRow_activate_of_ne other

theorem coherent_request (agrees : s.Agrees compile) {request : AdminRequest}
    {ref : Reference} (compiled : γ)
    (cached : update s.cache request.user none globalScriptKey = some compiled) :
    ∃ bytes, FilterState.activeScript (γ := γ) ⟨nextPool s.pool (request.apply s.pool.tables.scripts),
        update s.cache request.user none, ref⟩ globalScriptKey = some bytes ∧
      compile bytes = .ok compiled := by
  by_cases same : globalScriptKey = request.user
  · rw [← same, update_self] at cached
    cases cached
  · rw [update_of_ne same] at cached
    obtain ⟨bytes, active, compiles⟩ := agrees.coherent compiled cached
    refine ⟨bytes, ?_, compiles⟩
    unfold FilterState.activeScript nextPool at *
    rw [activeRow_apply_of_ne same]
    exact active

/-- The four ways of an evaluation: the script is in the cache, the database fails, or the script
is loaded and compiles or does not. -/
theorem sieveGlobal_cases (message : μ) (pool : SmtpPool) (cache : SieveCache γ) :
    let script := (pool.tables.scripts.activeRow globalScriptKey).map SieveScript.scriptBytes
    let pool' : SmtpPool := ⟨pool.tables, pool.faults.tail⟩
    (∃ compiled, cache globalScriptKey = some compiled ∧
      sieveGlobal compile evaluate message pool cache = (evaluate compiled message, pool, cache)) ∨
    (cache globalScriptKey = none ∧ pool.fault ≠ none ∧
      sieveGlobal compile evaluate message pool cache = ([.keep], pool', cache)) ∨
    (cache globalScriptKey = none ∧ pool.fault = none ∧
      (script.bind fun bytes => (compile bytes).toOption) = none ∧
      sieveGlobal compile evaluate message pool cache = ([.keep], pool', cache)) ∨
    (∃ bytes compiled, cache globalScriptKey = none ∧ pool.fault = none ∧ script = some bytes ∧
      compile bytes = .ok compiled ∧ sieveGlobal compile evaluate message pool cache =
        (evaluate compiled message, pool', update cache globalScriptKey (some compiled))) := by
  dsimp only
  unfold sieveGlobal loadActiveScript
  rw [AnyPool.exec_transaction]
  cases cached : cache globalScriptKey with
  | some compiled => exact .inl ⟨compiled, rfl, rfl⟩
  | none =>
    cases fault : pool.fault with
    | some e => exact .inr (.inl ⟨rfl, by simp, rfl⟩)
    | none =>
      dsimp only
      cases script : (pool.tables.scripts.activeRow globalScriptKey).map SieveScript.scriptBytes with
      | none => exact .inr (.inr (.inl ⟨rfl, rfl, rfl, rfl⟩))
      | some bytes =>
        dsimp only
        cases compiles : compile bytes with
        | error e =>
          exact .inr (.inr (.inl ⟨rfl, rfl, by simp [compiles, Except.toOption], rfl⟩))
        | ok compiled => exact .inr (.inr (.inr ⟨bytes, compiled, rfl, rfl, rfl, compiles, rfl⟩))

theorem FilterState.Agrees.mail (agrees : s.Agrees compile) (message : μ) :
    (filterStep config compile evaluate (.mail message) s).2.Agrees compile := by
  rcases @sieveGlobal_cases γ μ compile evaluate message s.pool s.cache with
    ⟨compiled, -, runs⟩ | ⟨-, -, runs⟩ | ⟨-, -, -, runs⟩ | ⟨bytes, compiled, -, -, active, compiles, runs⟩
  · simp only [filterStep, runs]
    exact agrees
  · simp only [filterStep, runs]
    exact ⟨agrees.ref, agrees.coherent⟩
  · simp only [filterStep, runs]
    exact ⟨agrees.ref, agrees.coherent⟩
  · simp only [filterStep, runs]
    refine ⟨agrees.ref, fun compiled' cached => ⟨bytes, active, ?_⟩⟩
    dsimp only at cached
    rw [update_self] at cached
    rw [compiles, Option.some.inj cached]

theorem filterRight_mail (agrees : s.Agrees compile) (message : μ) :
    FilterRight config compile evaluate (.mail message) s ↔
      Undisturbed config compile evaluate (.mail message) s := by
  unfold FilterRight Undisturbed
  have active := agrees.active globalScriptKey
  rcases @sieveGlobal_cases γ μ compile evaluate message s.pool s.cache with
    ⟨compiled, cached, runs⟩ | ⟨empty, fails, runs⟩ | ⟨empty, answers, unusable, runs⟩ |
    ⟨bytes, compiled, empty, answers, found, compiles, runs⟩
  · -- The script in the cache is the active one.
    obtain ⟨bytes, found, compiles⟩ := agrees.coherent compiled cached
    have script : s.ref.active globalScriptKey = some bytes := active.symm.trans found
    simp [filterStep, runs, cached, evaluateScript, script, compiles, Except.toOption]
  · simp [filterStep, runs, empty, fails, eq_comm]
  · have none : ((s.ref.active globalScriptKey).bind fun bytes => (compile bytes).toOption) = none := by
      rw [← active]
      exact unusable
    simp [filterStep, runs, answers, evaluateScript, none]
  · have script : s.ref.active globalScriptKey = some bytes := active.symm.trans found
    simp [filterStep, runs, answers, evaluateScript, script, compiles, Except.toOption]

theorem FilterState.Agrees.request (agrees : s.Agrees compile)
    {request : AdminRequest} (undisturbed : Undisturbed config compile evaluate (.request request) s) :
    (filterStep config compile evaluate (.request request) s).2.Agrees compile := by
  rcases @filterStep_request γ μ config compile evaluate request s with
    ⟨accepted, runs⟩ | ⟨-, pool, same, runs⟩
  · rw [runs]
    refine ⟨?_, coherent_request agrees⟩
    dsimp only [nextPool]
    rw [← agrees.ref]
    cases request with
    | put username name body =>
      refine ofTable_put fun chosen => undisturbed ⟨accepted, ?_⟩
      rw [← agrees.ref]
      exact chosen
    | delete username name => exact ofTable_delete _ username name
    | activate username name => exact ofTable_activate accepted.2.2
  · rw [runs]
    refine ⟨by rw [same]; exact agrees.ref, ?_⟩
    unfold FilterState.activeScript
    rw [same]
    exact agrees.coherent

theorem filterRight_request (agrees : s.Agrees compile) (request : AdminRequest) :
    FilterRight config compile evaluate (.request request) s ↔
      Undisturbed config compile evaluate (.request request) s := by
  constructor
  · intro right
    cases request with
    | put username name body =>
      rintro ⟨accepted, chosen⟩
      -- The new script is stored as inactive, where the reference model has it active.
      have active := right (normalizeUsername username)
      rcases @filterStep_request γ μ config compile evaluate (.put username name body) s with
        ⟨-, runs⟩ | ⟨refused, -⟩
      · rw [runs] at active
        have inactive := active_ofTable ((put username name body).apply
          s.pool.tables.scripts) (normalizeUsername username)
        rw [active_put (by rw [agrees.ref]; exact chosen)] at inactive
        rw [FilterState.activeScript, nextPool, inactive] at active
        simp [Reference.active, Reference.apply, Reference.setContent, chosen] at active
      · exact refused accepted
    | delete username name => trivial
    | activate username name => trivial
  · intro undisturbed user
    exact (agrees.request undisturbed).active user

end Steps

theorem agrees_start {γ : Type} {compile : Bytes → Except String γ} (pool : SmtpPool) :
    (FilterState.start pool : FilterState γ).Agrees compile :=
  ⟨rfl, by rintro compiled ⟨⟩⟩

theorem filter_right_iff {γ μ : Type} (config : AdminConfig) (compile : Bytes → Except String γ)
    (evaluate : γ → μ → List SieveAction) (events : List (FilterEvent μ)) (pool : SmtpPool) :
    AlongRun (filterStep config compile evaluate) (FilterRight config compile evaluate) events
        (.start pool) ↔
      AlongRun (filterStep config compile evaluate) (Undisturbed config compile evaluate) events
        (.start pool) := by
  refine alongRun_iff ?_ ?_ (@agrees_start γ compile pool)
  · intro event s agrees
    cases event with
    | request request => exact filterRight_request agrees request
    | mail message => exact filterRight_mail agrees message
  · intro event s agrees undisturbed
    cases event with
    | request request => exact agrees.request undisturbed
    | mail message => exact agrees.mail message

namespace Sample

def filterConfig : AdminConfig := ⟨[], 1024⟩

def filterEvents : List (FilterEvent Unit) :=
  [.request (.put globalScriptKey "f" []), .request (.activate globalScriptKey "f"),
    .request (.put globalScriptKey "f" [])]

/-- A script is stored and activated; a new version of it is stored, and no script is active. -/
theorem update_switches_off :
    ¬ AlongRun (filterStep filterConfig (.ok : Bytes → Except String Bytes) fun _ _ => [.keep])
      (FilterRight filterConfig .ok fun _ _ => [.keep]) filterEvents
      (.start ⟨⟨⟨[], List.nodup_nil, List.nodup_nil⟩, []⟩, []⟩) := by
  rintro ⟨-, -, right, -⟩
  have active := right globalScriptKey
  revert active
  decide

end Sample

end Stoa.Smtp
