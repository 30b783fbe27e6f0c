import Stoa.Properties.SieveFilter

/-! `coherent_iff`: every evaluation that starts after a request has returned uses the active
script, exactly if no evaluation of the schedule inserts an outdated script behind an eviction. -/
namespace Stoa.Smtp

open Function SieveScript
/-- Where an evaluation stands: the script it is about to insert, or the one it has used. -/
inductive EvalCall (γ : Type)
  | fresh
  | missed
  | loaded (compiled : γ)
  | done (used : Option γ)
  deriving DecidableEq

inductive RequestCall
  | fresh
  | evicting (username : String) (response : Response)
  | returned (response : Response)
  deriving DecidableEq

structure CacheWorld (γ : Type) where
  tables : SmtpTables
  cache : SieveCache γ
  evals : Nat → EvalCall γ
  requests : Nat → RequestCall

def CacheWorld.start {γ : Type} (tables : SmtpTables) : CacheWorld γ :=
  ⟨tables, fun _ => none, fun _ => .fresh, fun _ => .fresh⟩

/-- A step of one evaluation or of one request, with the error of the database if it has one. -/
inductive CacheLabel
  | lookup (e : Nat)
  | load (e : Nat) (fault : Option String)
  | insert (e : Nat)
  | write (r : Nat) (request : AdminRequest) (fault : Option String)
  | evict (r : Nat)

section Schedules

variable {γ : Type} (config : AdminConfig) (compile : Bytes → Except String γ)

def loadCompiled (tables : SmtpTables) (fault : Option String) : EvalCall γ :=
  match (loadActiveScript globalScriptKey ⟨tables, [fault]⟩).1 with
  | none => .done none
  | some bytes => match compile bytes with
    | .ok compiled => .loaded compiled
    | .error _ => .done none

def cacheStep : CacheLabel → CacheWorld γ → Unit × CacheWorld γ
  | .lookup e, s => ((), match s.evals e with
    | .fresh => { s with evals := Function.update s.evals e <| match s.cache globalScriptKey with
        | some compiled => .done (some compiled)
        | none => .missed }
    | _ => s)
  | .load e fault, s => ((), match s.evals e with
    | .missed => { s with evals := Function.update s.evals e (loadCompiled compile s.tables fault) }
    | _ => s)
  | .insert e, s => ((), match s.evals e with
    | .loaded compiled => { s with
        cache := Function.update s.cache globalScriptKey (some compiled)
        evals := Function.update s.evals e (.done (some compiled)) }
    | _ => s)
  | .write r request fault, s => ((), match s.requests r with
    | .fresh => match handleRequest config compile request ⟨s.tables, [fault]⟩ with
      | (.replied response, pool) => { s with
          tables := pool.tables
          requests := Function.update s.requests r (.returned response) }
      | (.written username response, pool) => { s with
          tables := pool.tables
          requests := Function.update s.requests r (.evicting username response) }
    | _ => s)
  | .evict r, s => ((), match s.requests r with
    | .evicting username response => { s with
        cache := (finishRequest (.written username response) s.cache).2
        requests := Function.update s.requests r (.returned response) }
    | _ => s)

def CacheWorld.active (s : CacheWorld γ) : Option γ :=
  ((s.tables.scripts.activeRow globalScriptKey).map SieveScript.scriptBytes).bind fun bytes =>
    (compile bytes).toOption

/-- A request of the global user is between its write and its eviction. -/
def CacheWorld.Evicting (s : CacheWorld γ) : Prop :=
  ∃ r response, s.requests r = .evicting globalScriptKey response

def CacheWorld.Returned (s : CacheWorld γ) : Prop :=
  ∃ r response, s.requests r = .returned response

def CacheLabel.Evaluates : CacheLabel → Prop
  | .lookup _ | .insert _ => True
  | .load _ fault => fault = none
  | .write .. | .evict _ => False

/-- After a request, an evaluation that starts now uses the active script, whatever other
evaluations do in the meantime. -/
def CacheWorld.Coherent (s : CacheWorld γ) : Prop :=
  s.Returned → ¬ s.Evicting → ∀ e, s.evals e = .fresh →
    ∀ rest : List CacheLabel, (∀ label ∈ rest, label.Evaluates) →
    ∀ used, (runAll (cacheStep config compile) (.lookup e :: rest) s).2.evals e = .done used →
      used = s.active compile

def InsertsActive : CacheLabel → CacheWorld γ → Prop
  | .insert e, s => ∀ compiled, s.evals e = .loaded compiled →
      s.Evicting ∨ s.active compile = some compiled
  | _, _ => True

end Schedules

section Steps

variable {γ : Type} {config : AdminConfig} {compile : Bytes → Except String γ}

theorem loadCompiled_cases (s : CacheWorld γ) (fault : Option String) :
    (∃ compiled, s.active compile = some compiled ∧
      loadCompiled compile s.tables fault = .loaded compiled) ∨
    loadCompiled compile s.tables fault = .done none ∧ (fault = none → s.active compile = none) := by
  unfold loadCompiled CacheWorld.active loadActiveScript
  rw [AnyPool.exec_transaction]
  cases fault with
  | some e => exact .inr ⟨rfl, by simp⟩
  | none =>
    cases script : (s.tables.scripts.activeRow globalScriptKey).map scriptBytes with
    | none => exact .inr ⟨by simp [AnyPool.fault], fun _ => rfl⟩
    | some bytes =>
      cases compiles : compile bytes with
      | error e =>
        exact .inr ⟨by simp [AnyPool.fault, compiles], by simp [compiles, Except.toOption]⟩
      | ok compiled =>
        exact .inl ⟨compiled, by simp [compiles, Except.toOption], by simp [AnyPool.fault, compiles]⟩

theorem cacheStep_write (r : Nat) (request : AdminRequest) (fault : Option String) (s : CacheWorld γ) :
    let next := (cacheStep config compile (.write r request fault) s).2
    next.cache = s.cache ∧ next.evals = s.evals ∧
    (next = s ∨
      s.requests r = .fresh ∧
      ((∃ response, next.requests = update s.requests r (.returned response) ∧
          next.tables = s.tables) ∨
        ∃ response, next.requests = update s.requests r (.evicting request.user response) ∧
          next.tables.scripts = request.apply s.tables.scripts)) := by
  dsimp only [cacheStep]
  cases call : s.requests r with
  | evicting username response => exact ⟨rfl, rfl, .inl rfl⟩
  | returned response => exact ⟨rfl, rfl, .inl rfl⟩
  | fresh =>
    dsimp only
    rcases @handleRequest_writes γ config compile request ⟨s.tables, [fault]⟩ with
      ⟨-, response, -, writes⟩ | ⟨-, response, pool, -, same, replies⟩
    · rw [writes]
      exact ⟨rfl, rfl, .inr ⟨rfl, .inr ⟨response, rfl, rfl⟩⟩⟩
    · rw [replies]
      exact ⟨rfl, rfl, .inr ⟨rfl, .inl ⟨response, rfl, same⟩⟩⟩

/-- A lookup or a load moves its evaluation on and nothing else, and what it is about to insert
is active. -/
def MovesEval (compile : Bytes → Except String γ) (e : Nat) (s next : CacheWorld γ) : Prop :=
  next = s ∨ ∃ call, next = { s with evals := Function.update s.evals e call } ∧
    ∀ compiled, call = .loaded compiled → s.active compile = some compiled

theorem cacheStep_lookup (e : Nat) (s : CacheWorld γ) :
    MovesEval compile e s (cacheStep config compile (.lookup e) s).2 := by
  dsimp only [cacheStep]
  cases s.evals e with
  | fresh =>
    refine .inr ⟨_, rfl, ?_⟩
    cases s.cache globalScriptKey with
    | none => rintro compiled ⟨⟩
    | some cached => rintro compiled ⟨⟩
  | missed => exact .inl rfl
  | loaded compiled => exact .inl rfl
  | done used => exact .inl rfl

theorem cacheStep_load (e : Nat) (fault : Option String) (s : CacheWorld γ) :
    MovesEval compile e s (cacheStep config compile (.load e fault) s).2 := by
  dsimp only [cacheStep]
  cases s.evals e with
  | fresh => exact .inl rfl
  | missed =>
    refine .inr ⟨_, rfl, ?_⟩
    rcases @loadCompiled_cases γ compile s fault with ⟨compiled, active, loads⟩ | ⟨ends, -⟩
    · rw [loads]
      rintro _ ⟨⟩
      exact active
    · rw [ends]
      rintro _ ⟨⟩
  | loaded compiled => exact .inl rfl
  | done used => exact .inl rfl

/-- The entry in the cache is the active script unless it is going to be evicted, and whatever is
about to be inserted was overtaken by a request if it is not active. -/
structure CacheWorld.Inv (compile : Bytes → Except String γ) (s : CacheWorld γ) : Prop where
  cached : s.Evicting ∨ s.cache globalScriptKey = none ∨ s.cache globalScriptKey = s.active compile
  loaded : ∀ e compiled, s.evals e = .loaded compiled →
    s.active compile = some compiled ∨ s.Evicting ∨ s.Returned
  fresh : ∃ bound, ∀ e, bound ≤ e → s.evals e = .fresh

theorem inv_start (tables : SmtpTables) : (CacheWorld.start tables : CacheWorld γ).Inv compile :=
  ⟨.inr (.inl rfl), by rintro e compiled ⟨⟩, 0, fun _ _ => rfl⟩

theorem fresh_update {evals : Nat → EvalCall γ} (fresh : ∃ bound, ∀ e, bound ≤ e → evals e = .fresh)
    (e : Nat) (call : EvalCall γ) :
    ∃ bound, ∀ e', bound ≤ e' → update evals e call e' = .fresh := by
  obtain ⟨bound, fresh⟩ := fresh
  refine ⟨max bound (e + 1), fun e' le => ?_⟩
  rw [update_of_ne (by omega)]
  exact fresh e' (by omega)

variable {s : CacheWorld γ}

variable {e : Nat}

theorem CacheWorld.Inv.moves {next : CacheWorld γ} (inv : s.Inv compile)
    (moves : MovesEval compile e s next) : next.Inv compile := by
  rcases moves with rfl | ⟨call, rfl, active⟩
  · exact inv
  · refine ⟨inv.cached, fun e' compiled loaded => ?_, fresh_update inv.fresh e call⟩
    dsimp only at loaded
    by_cases same : e' = e
    · rw [same, update_self] at loaded
      exact .inl (active compiled loaded)
    · rw [update_of_ne same] at loaded
      exact inv.loaded e' compiled loaded

theorem CacheWorld.Inv.insert (inv : s.Inv compile) (active : InsertsActive compile (.insert e) s) :
    (cacheStep config compile (.insert e) s).2.Inv compile := by
  dsimp only [cacheStep]
  cases call : s.evals e with
  | fresh => exact inv
  | missed => exact inv
  | done used => exact inv
  | loaded compiled =>
    refine ⟨?_, fun e' compiled' loaded => ?_, fresh_update inv.fresh e _⟩
    · refine (active compiled call).imp_right fun active => .inr ?_
      dsimp only
      rw [update_self, ← active]
      rfl
    · dsimp only at loaded
      by_cases same : e' = e
      · rw [same, update_self] at loaded
        cases loaded
      · rw [update_of_ne same] at loaded
        exact inv.loaded e' compiled' loaded

theorem CacheWorld.Inv.write (inv : s.Inv compile) (r : Nat)
    (request : AdminRequest) (fault : Option String) :
    (cacheStep config compile (.write r request fault) s).2.Inv compile := by
  obtain ⟨cache, evals, same | ⟨idle, outcome⟩⟩ := @cacheStep_write γ config compile r request fault s
  · rw [same]
    exact inv
  · generalize (cacheStep config compile (.write r request fault) s).2 = next at *
    have fresh : ∃ bound, ∀ e, bound ≤ e → next.evals e = .fresh := by
      rw [evals]
      exact inv.fresh
    -- The request was not on its way before, so that no eviction and no return is lost.
    have keeps : ∀ call, next.requests = update s.requests r call →
        (s.Evicting → next.Evicting) ∧ (s.Returned → next.Returned) := by
      intro call after
      constructor
      · rintro ⟨r', response, before⟩
        refine ⟨r', response, ?_⟩
        rw [after, update_of_ne, before]
        rintro rfl
        rw [idle] at before
        cases before
      · rintro ⟨r', response, before⟩
        refine ⟨r', response, ?_⟩
        rw [after, update_of_ne, before]
        rintro rfl
        rw [idle] at before
        cases before
    have unchanged : ∀ call, next.requests = update s.requests r call →
        next.active compile = s.active compile → next.Inv compile := by
      intro call after active
      refine ⟨?_, ?_, fresh⟩
      · rw [cache, active]
        exact inv.cached.imp_left (keeps call after).1
      · rw [evals, active]
        intro e compiled loaded
        exact (inv.loaded e compiled loaded).imp_right (Or.imp (keeps call after).1 (keeps call after).2)
    rcases outcome with ⟨response, after, tables⟩ | ⟨response, after, scripts⟩
    · exact unchanged _ after (by rw [CacheWorld.active, tables]; rfl)
    · by_cases global : globalScriptKey = request.user
      · have evicting : next.Evicting := ⟨r, response, by rw [after, update_self, global]⟩
        exact ⟨.inl evicting, fun _ _ _ => .inr (.inl evicting), fresh⟩
      · exact unchanged _ after (by rw [CacheWorld.active, scripts, activeRow_apply_of_ne global]; rfl)

theorem CacheWorld.Inv.evict (inv : s.Inv compile) (r : Nat) :
    (cacheStep config compile (.evict r) s).2.Inv compile := by
  dsimp only [cacheStep]
  cases call : s.requests r with
  | fresh => exact inv
  | returned response => exact inv
  | evicting username response =>
    have returned : ∃ r' response', update s.requests r (.returned response) r' =
        .returned response' := ⟨r, response, update_self ..⟩
    refine ⟨?_, fun _ _ _ => .inr (.inr returned), inv.fresh⟩
    by_cases global : username = globalScriptKey
    · refine .inr (.inl ?_)
      dsimp only [finishRequest]
      rw [global, update_self]
    · -- Another user's entry is evicted, and the eviction of the global one is still to come.
      refine inv.cached.imp ?_ ?_
      · rintro ⟨r', response', before⟩
        refine ⟨r', response', ?_⟩
        dsimp only
        rw [update_of_ne, before]
        rintro rfl
        rw [call] at before
        cases before
        exact global rfl
      · intro same
        dsimp only [finishRequest]
        rw [update_of_ne (Ne.symm global)]
        exact same

variable {label : CacheLabel}

theorem CacheWorld.Inv.step (inv : s.Inv compile)
    (active : InsertsActive compile label s) : (cacheStep config compile label s).2.Inv compile := by
  cases label with
  | lookup e => exact inv.moves (cacheStep_lookup e s)
  | load e fault => exact inv.moves (cacheStep_load e fault s)
  | insert e => exact inv.insert active
  | write r request fault => exact inv.write r request fault
  | evict r => exact inv.evict r

/-- An evaluation that began with the active script `active` and has not met a request. -/
structure Follows (e : Nat) (active : Option γ) (compile : Bytes → Except String γ) (s : CacheWorld γ) :
    Prop where
  same : s.active compile = active
  call : s.evals e = .missed ∨ (∃ compiled, s.evals e = .loaded compiled ∧ active = some compiled) ∨
    s.evals e = .done active

variable {active : Option γ}

theorem Follows.of_ne {next : CacheWorld γ} {e' : Nat}
    (follows : Follows e active compile s) (tables : next.tables = s.tables) {call : EvalCall γ}
    (evals : next.evals = update s.evals e' call) (other : e ≠ e') :
    Follows e active compile next := by
  refine ⟨?_, ?_⟩
  · rw [CacheWorld.active, tables]
    exact follows.same
  · rw [evals, update_of_ne other]
    exact follows.call

theorem Follows.step (follows : Follows e active compile s) (evaluates : label.Evaluates) :
    Follows e active compile (cacheStep config compile label s).2 := by
  have here := follows.call
  cases label with
  | write r request fault => exact absurd evaluates not_false
  | evict r => exact absurd evaluates not_false
  | lookup e' =>
    dsimp only [cacheStep]
    cases call : s.evals e' with
    | missed => exact follows
    | loaded compiled => exact follows
    | done used => exact follows
    | fresh =>
      refine follows.of_ne rfl rfl ?_
      rintro rfl
      simp [call] at here
  | load e' fault =>
    obtain rfl : fault = none := evaluates
    dsimp only [cacheStep]
    cases call : s.evals e' with
    | fresh => exact follows
    | loaded compiled => exact follows
    | done used => exact follows
    | missed =>
      by_cases own : e = e'
      · refine ⟨follows.same, .inr ?_⟩
        dsimp only
        rw [own, update_self, ← follows.same]
        rcases @loadCompiled_cases γ compile s none with ⟨compiled, found, loads⟩ | ⟨ends, nothing⟩
        · exact .inl ⟨compiled, loads, found⟩
        · exact .inr (by rw [ends, nothing rfl])
      · exact follows.of_ne rfl rfl own
  | insert e' =>
    dsimp only [cacheStep]
    cases call : s.evals e' with
    | fresh => exact follows
    | missed => exact follows
    | done used => exact follows
    | loaded compiled =>
      by_cases own : e = e'
      · refine ⟨follows.same, .inr (.inr ?_)⟩
        subst own
        dsimp only
        rw [update_self]
        simp only [call, reduceCtorEq, EvalCall.loaded.injEq, exists_eq_left', false_or, or_false] at here
        rw [here]
      · exact follows.of_ne rfl rfl own

theorem Follows.run (follows : Follows e active compile s) {rest : List CacheLabel}
    (evaluate : ∀ label ∈ rest, label.Evaluates) :
    Follows e active compile (runAll (cacheStep config compile) rest s).2 := by
  induction rest generalizing s with
  | nil => exact follows
  | cons label rest ih =>
    obtain ⟨here, later⟩ := List.forall_mem_cons.mp evaluate
    exact ih (follows.step here) later

theorem CacheWorld.Inv.coherent (inv : s.Inv compile) : s.Coherent config compile := by
  intro _ quiet e fresh rest evaluate used done
  have begins : Follows e (s.active compile) compile (cacheStep config compile (.lookup e) s).2 := by
    simp only [cacheStep, fresh]
    refine ⟨rfl, ?_⟩
    dsimp only
    rw [update_self]
    rcases inv.cached with evicting | empty | same
    · exact absurd evicting quiet
    · rw [empty]
      exact .inl rfl
    · cases cached : s.cache globalScriptKey with
      | none => exact .inl rfl
      | some compiled => exact .inr (.inr (by rw [← same, cached]))
  have ends := (@Follows.run γ config compile _ e _ begins rest evaluate).call
  simp only [runAll_cons] at done
  simpa [done] using ends

theorem not_coherent_of_insert (inv : s.Inv compile) (stale : ¬ InsertsActive compile label s) :
    ¬ (cacheStep config compile label s).2.Coherent config compile := by
  cases label with
  | lookup e => exact absurd trivial stale
  | load e fault => exact absurd trivial stale
  | write r request fault => exact absurd trivial stale
  | evict r => exact absurd trivial stale
  | insert e =>
    simp only [InsertsActive, not_forall, not_or] at stale
    obtain ⟨compiled, loaded, quiet, outdated⟩ := stale
    obtain ⟨e', fresh⟩ := fresh_update inv.fresh e (.done (some compiled))
    -- Without a request in the meantime the script would still be active.
    have returned : s.Returned := by
      rcases inv.loaded e compiled loaded with active | evicting | returned
      · exact absurd active outdated
      · exact absurd evicting quiet
      · exact returned
    intro coherent
    simp only [cacheStep, loaded] at coherent
    have used := coherent returned quiet e' (fresh e' le_rfl) [] (by simp) (some compiled)
      (by simp [cacheStep, fresh e' le_rfl])
    exact outdated used.symm

end Steps

theorem coherent_iff {γ : Type} (config : AdminConfig) (compile : Bytes → Except String γ)
    (schedule : List CacheLabel) (tables : SmtpTables) :
    Throughout (cacheStep config compile) (CacheWorld.Coherent config compile) schedule (.start tables) ↔
      AlongRun (cacheStep config compile) (InsertsActive compile) schedule (.start tables) :=
  throughout_iff_of_unsafe (fun _ inv => inv.coherent) (fun _ _ inv active => inv.step active)
    (fun _ _ inv stale => not_coherent_of_insert inv stale) (inv_start tables)

namespace Sample

def filterRows : List SieveScript := [⟨globalScriptKey, "f", [], true⟩]

theorem filterRows_unique : (filterRows.map key).Nodup := List.nodup_singleton _

theorem filterRows_oneActive : ((filterRows.filter active).map username).Nodup :=
  List.nodup_singleton _

def filterTables : SmtpTables := ⟨⟨filterRows, filterRows_unique, filterRows_oneActive⟩, []⟩

def slowEvaluation : List CacheLabel :=
  [.lookup 0, .load 0 none, .write 0 (.delete globalScriptKey "f") none, .evict 0, .insert 0]

theorem deleted_script_used : ¬ Throughout (cacheStep filterConfig (.ok : Bytes → Except String Bytes))
      (CacheWorld.Coherent filterConfig .ok) slowEvaluation (.start filterTables) := by
  intro coherent
  have used := coherent.last ⟨0, ⟨204, ""⟩, by decide⟩ ?_ 1 (by decide) [] (by simp) (some [])
    (by decide)
  · revert used
    decide
  · rintro ⟨r, response, evicting⟩
    cases r with
    | zero => cases evicting
    | succ r => cases evicting

end Sample

end Stoa.Smtp
