import Stoa.Lib.Files
import Stoa.Lib.Runs
import Stoa.Lib.Text

/-! `relay_safe_iff`: for every interleaving, every failure and every crash, an accepted message is
delivered or has both its files in the queue or in `dead/`, exactly if no message file of an
accepted message is moved to `dead/` before it is delivered, and no call commits its envelope after
its message file has been moved away. -/
namespace Stoa.Smtp

inductive RelayPart
  | msgTmp
  | envTmp
  | msg
  | env
  | deadMsg
  | deadEnv
  deriving DecidableEq, Repr

abbrev RelayFile := Nat × RelayPart

structure EnvelopeFile where
  mailFrom : String
  rcptTo : List String
  requireTls : Bool
  deriving DecidableEq

/-- The message gets its name before the envelope is written. -/
def relayOps (id : Nat) (article envelope : Bytes) : List (FileOp RelayFile Bytes) :=
  [.write (id, .msgTmp) article, .rename (id, .msgTmp) (id, .msg),
    .write (id, .envTmp) envelope, .rename (id, .envTmp) (id, .env)]

/-- A call of `enqueue`: the two files it writes, and the number of its operations that are done. -/
structure RelayCall where
  article : Bytes
  envelope : Bytes
  done : Nat
  failed : Bool

inductive RelayPhase
  | cleanupTmpFiles
  | cleanupOrphanMsgFiles
  | drain
  deriving DecidableEq

inductive RelayTask
  | scanning
  | removingTmp (name : RelayFile)
  | lookingForEnv (id : Nat)
  | movingOrphan (id : Nat)
  | readingEnv (id : Nat)
  | readingMsg (id : Nat) (envelope : Bytes)
  | delivering (id : Nat) (envelope article : Bytes)
  | removingMsg (id : Nat)
  | removingEnv (id : Nat)
  | removingOrphanEnv (id : Nat)
  | movingMsg (id : Nat)
  | movingEnv (id : Nat)

inductive RelayResult
  | noPeer
  | signingFailed
  | delivered
  | transientFailure
  | permanentFailure
  deriving DecidableEq

structure RelayWorld where
  files : Files RelayFile Bytes
  /-- The names that have had a file; a scan may return a name whose file is gone by now. -/
  existed : RelayFile → Bool
  calls : Nat → Option RelayCall
  phase : RelayPhase
  task : RelayTask
  /-- The messages that a relay has taken, with the envelope and the article it got. -/
  delivered : List (Nat × Bytes × Bytes)

def RelayWorld.start (files : Files RelayFile Bytes) : RelayWorld :=
  ⟨files, fun name => (files name).isSome, fun _ => none, .cleanupTmpFiles, .scanning, []⟩

inductive RelayLabel
  /-- A call of `enqueue` begins, under a number that nothing has had before. -/
  | begin (id : Nat) (article : Bytes) (envelope : EnvelopeFile)
  /-- The call does its next operation. -/
  | write (id : Nat) (fault : Bool)
  /-- The scan of the directory returns a name. -/
  | nextEntry (name : RelayFile)
  /-- The scan is over. -/
  | nextPhase
  /-- The task goes on with the entry. -/
  | task (fault : Bool) (result : RelayResult)
  /-- The process crashes and starts again. -/
  | crash

section Steps

variable (hasPeers : Bool) (toVec : EnvelopeFile → Bytes) (fromSlice : Bytes → Option EnvelopeFile)

namespace RelayWorld

def perform (fault : Bool) (op : FileOp RelayFile Bytes) (w : RelayWorld) : Option RelayWorld :=
  if fault then none
  else (w.files.apply op).map fun files =>
    { w with files := files, existed := fun name => w.existed name || op.created == some name }

def attempt (fault : Bool) (op : FileOp RelayFile Bytes) (w : RelayWorld) : RelayWorld :=
  (w.perform fault op).getD w

def begin (id : Nat) (article : Bytes) (envelope : EnvelopeFile) (w : RelayWorld) : RelayWorld :=
  if !hasPeers ∨ envelope.rcptTo = [] then w
  else if (w.calls id).isSome ∨
      [.msgTmp, .envTmp, .msg, .env, .deadMsg, .deadEnv].any (fun part => w.existed (id, part)) then w
  else { w with calls := Function.update w.calls id (some ⟨article, toVec envelope, 0, false⟩) }

def write (id : Nat) (fault : Bool) (w : RelayWorld) : RelayWorld :=
  match w.calls id with
  | none => w
  | some call =>
    if call.failed then w
    else match (relayOps id call.article call.envelope)[call.done]? with
      | none => w
      | some op => match w.perform fault op with
        | none => { w with calls := Function.update w.calls id (some { call with failed := true }) }
        | some next =>
          { next with calls := Function.update w.calls id (some { call with done := call.done + 1 }) }

def nextEntry (name : RelayFile) (w : RelayWorld) : RelayWorld :=
  match w.task with
  | .scanning =>
    if !w.existed name then w
    else match w.phase, name.2 with
      | .cleanupTmpFiles, .msgTmp | .cleanupTmpFiles, .envTmp => { w with task := .removingTmp name }
      | .cleanupOrphanMsgFiles, .msg => { w with task := .lookingForEnv name.1 }
      | .drain, .env => { w with task := .readingEnv name.1 }
      | _, _ => w
  | _ => w

def nextPhase (w : RelayWorld) : RelayWorld :=
  match w.task, w.phase with
  | .scanning, .cleanupTmpFiles => { w with phase := .cleanupOrphanMsgFiles }
  | .scanning, .cleanupOrphanMsgFiles => { w with phase := .drain }
  | _, _ => w

def taskOn (fault : Bool) (result : RelayResult) (w : RelayWorld) : RelayWorld :=
  match w.task with
  | .scanning => w
  | .removingTmp name => { w.attempt fault (.remove name) with task := .scanning }
  | .lookingForEnv id =>
    if fault || (w.files (id, .env)).isSome then { w with task := .scanning }
    else { w with task := .movingOrphan id }
  | .movingOrphan id => { w.attempt fault (.rename (id, .msg) (id, .deadMsg)) with task := .scanning }
  | .readingEnv id =>
    if fault then { w with task := .scanning }
    else match w.files (id, .env) with
      | none => { w with task := .scanning }
      | some envelope =>
        if (fromSlice envelope).isSome then { w with task := .readingMsg id envelope }
        else { w with task := .scanning }
  | .readingMsg id envelope =>
    if fault then { w with task := .scanning }
    else match w.files (id, .msg) with
      -- The message is gone, so the envelope is taken for an orphan.
      | none => { w with task := .removingOrphanEnv id }
      | some article => { w with task := .delivering id envelope article }
  | .delivering id envelope article =>
    match result with
    | .noPeer | .transientFailure => { w with task := .scanning }
    | .delivered =>
      { w with task := .removingMsg id, delivered := (id, envelope, article) :: w.delivered }
    | .signingFailed | .permanentFailure => { w with task := .movingMsg id }
  | .removingMsg id => { w.attempt fault (.remove (id, .msg)) with task := .removingEnv id }
  | .removingEnv id | .removingOrphanEnv id =>
    { w.attempt fault (.remove (id, .env)) with task := .scanning }
  | .movingMsg id =>
    match w.perform fault (.rename (id, .msg) (id, .deadMsg)) with
    | none => { w with task := .scanning }
    | some next => { next with task := .movingEnv id }
  | .movingEnv id => { w.attempt fault (.rename (id, .env) (id, .deadEnv)) with task := .scanning }

def crash (w : RelayWorld) : RelayWorld :=
  { w with
    calls := fun id => (w.calls id).map fun call => if call.done = 4 then call else { call with failed := true }
    phase := .cleanupTmpFiles
    task := .scanning }

def step (label : RelayLabel) (w : RelayWorld) : Unit × RelayWorld :=
  ((), match label with
    | .begin id article envelope => w.begin hasPeers toVec id article envelope
    | .write id fault => w.write id fault
    | .nextEntry name => w.nextEntry name
    | .nextPhase => w.nextPhase
    | .task fault result => w.taskOn fromSlice fault result
    | .crash => w.crash)

end RelayWorld

end Steps

open List Function Option RelayWorld

/-- The message was delivered, or its two files are together. -/
def RelayKept (w : RelayWorld) (id : Nat) (call : RelayCall) : Prop :=
  (id, call.envelope, call.article) ∈ w.delivered ∨
    (w.files (id, .msg) = some call.article ∧ w.files (id, .env) = some call.envelope) ∨
    (w.files (id, .deadMsg) = some call.article ∧ w.files (id, .deadEnv) = some call.envelope)

def RelaySafe (w : RelayWorld) : Prop :=
  ∀ id call, w.calls id = some call → call.done = 4 → RelayKept w id call

/-- The step does not separate the files of an accepted message: neither is the message moved
away before it is delivered, nor does a call commit the envelope of a message that is gone. -/
def KeepsPair (label : RelayLabel) (w : RelayWorld) : Prop :=
  match label with
  | .write id fault => ∀ call, w.calls id = some call → call.failed = false → call.done = 3 →
      fault = false → w.files (id, .envTmp) ≠ none → w.files (id, .msg) ≠ none
  | .task fault _ => fault = false → ∀ id, (w.task = .movingOrphan id ∨ w.task = .movingMsg id) →
      w.files (id, .msg) ≠ none → ∀ call, w.calls id = some call → call.done = 4 →
      (id, call.envelope, call.article) ∈ w.delivered
  | _ => True

def RelayTask.WorksOn (id : Nat) : RelayTask → Prop
  | .readingEnv i | .readingMsg i _ | .delivering i _ _ | .removingMsg i | .removingEnv i
  | .removingOrphanEnv i | .movingMsg i | .movingEnv i => i = id
  | .scanning | .removingTmp _ | .lookingForEnv _ | .movingOrphan _ => False

structure RelaySound (w : RelayWorld) : Prop where
  existed : ∀ name, w.files name ≠ none → w.existed name = true
  working : ∀ id, w.task.WorksOn id → w.existed (id, .env) = true
  tmp : ∀ name, w.task = .removingTmp name → name.2 = .msgTmp ∨ name.2 = .envTmp
  sent : ∀ message ∈ w.delivered, w.existed (message.1, .env) = true

/-- The files of a call after so many operations; temporary files and an early message may have
been taken away. -/
def PartsAt (w : RelayWorld) (id : Nat) (call : RelayCall) : Nat → Prop
  | 0 => True
  | 1 => ∀ content, w.files (id, .msgTmp) = some content → content = call.article
  | 2 => ∀ content, w.files (id, .msg) = some content → content = call.article
  | 3 => (∀ content, w.files (id, .msg) = some content → content = call.article) ∧
      ∀ content, w.files (id, .envTmp) = some content → content = call.envelope
  | 4 => (id, call.envelope, call.article) ∈ w.delivered ∨
      (w.files (id, .msg) = some call.article ∧ w.files (id, .env) = some call.envelope ∧
        w.files (id, .deadEnv) = none)
  | _ => False

def TaskFits (w : RelayWorld) (id : Nat) (call : RelayCall) : Prop :=
  match w.task with
  | .readingMsg i envelope =>
    i = id → envelope = call.envelope ∨ (id, call.envelope, call.article) ∈ w.delivered
  | .delivering i envelope article =>
    i = id → (envelope = call.envelope ∧ article = call.article) ∨
      (id, call.envelope, call.article) ∈ w.delivered
  | .removingMsg i | .removingEnv i | .removingOrphanEnv i | .movingEnv i =>
    i = id → (id, call.envelope, call.article) ∈ w.delivered
  | _ => True

structure RelayCallInv (w : RelayWorld) (id : Nat) (call : RelayCall) : Prop where
  parts : PartsAt w id call call.done
  young : call.done < 4 → w.existed (id, .env) = false ∧ w.existed (id, .deadEnv) = false
  task : TaskFits w id call

structure RelayInv (w : RelayWorld) : Prop where
  sound : RelaySound w
  calls : ∀ id call, w.calls id = some call → RelayCallInv w id call

variable {w : RelayWorld}

theorem RelayInv.safe (inv : RelayInv w) : RelaySafe w := by
  intro id call found done
  have parts := (inv.calls id call found).parts
  rw [done] at parts
  rcases parts with delivered | ⟨msg, env, -⟩
  · exact .inl delivered
  · exact .inr (.inl ⟨msg, env⟩)

variable {id : Nat} {call : RelayCall}

theorem RelayCallInv.done_of_existed
    (inv : RelayCallInv w id call) (existed : w.existed (id, .env) = true) : call.done = 4 := by
  have late : ¬ call.done < 4 := by
    intro early
    rw [(inv.young early).1] at existed
    cases existed
  have parts := inv.parts
  match step : call.done with
  | 0 | 1 | 2 | 3 => omega
  | 4 => rfl
  | _ + 5 =>
    rw [step] at parts
    exact parts.elim

variable {w' : RelayWorld}

theorem RelayCallInv.frame
    (inv : RelayCallInv w id call) (files : ∀ part, w'.files (id, part) = w.files (id, part))
    (existed : ∀ part, w'.existed (id, part) = w.existed (id, part))
    (delivered : ∀ message ∈ w.delivered, message ∈ w'.delivered) (task : TaskFits w' id call) :
    RelayCallInv w' id call := by
  refine ⟨?_, ?_, task⟩
  · have parts := inv.parts
    match step : call.done with
    | 0 => trivial
    | 1 | 2 | 3 => simpa only [step, PartsAt, files] using parts
    | 4 =>
      rw [step] at parts
      refine parts.imp (delivered _) ?_
      simp only [files, imp_self]
    | _ + 5 =>
      rw [step] at parts
      exact parts.elim
  · simpa only [existed] using inv.young

theorem RelayCallInv.of_delivered (done : call.done = 4)
    (delivered : (id, call.envelope, call.article) ∈ w.delivered) : RelayCallInv w id call := by
  refine ⟨?_, ?_, ?_⟩
  · rw [done]
    exact .inl delivered
  · intro early
    omega
  · unfold TaskFits
    split
    · exact fun _ => .inr delivered
    · exact fun _ => .inr delivered
    · exact fun _ => delivered
    · exact fun _ => delivered
    · exact fun _ => delivered
    · exact fun _ => delivered
    · trivial

variable {fault : Bool} {op : FileOp RelayFile Bytes}

theorem perform_eq_some :
    w.perform fault op = some w' ↔ fault = false ∧ ∃ files, w.files.apply op = some files ∧
      w' = { w with files := files, existed := fun name => w.existed name || op.created == some name } := by
  unfold perform
  cases fault with
  | true => simp
  | false => simp [eq_comm]

theorem attempt_cases (fault : Bool) (op : FileOp RelayFile Bytes) (w : RelayWorld) :
    w.attempt fault op = w ∨ ∃ w', w.perform fault op = some w' ∧ w.attempt fault op = w' := by
  unfold attempt
  cases performed : w.perform fault op with
  | none => exact .inl rfl
  | some w' => exact .inr ⟨w', rfl, rfl⟩

theorem existed_perform (existed : ∀ name, w.files name ≠ none → w.existed name = true)
    (performed : w.perform fault op = some w') : ∀ name, w'.files name ≠ none → w'.existed name = true := by
  obtain ⟨-, files, applied, rfl⟩ := perform_eq_some.mp performed
  intro name present
  simp only [Bool.or_eq_true, beq_iff_eq]
  by_cases created : op.created = some name
  · exact .inr created
  · exact .inl (existed name (Files.ne_none_of_apply applied present created))

theorem le_existed_perform
    (performed : w.perform fault op = some w') {name : RelayFile} (existed : w.existed name = true) :
    w'.existed name = true := by
  obtain ⟨-, files, -, rfl⟩ := perform_eq_some.mp performed
  simp [existed]

variable {task : RelayTask}

theorem RelayCallInv.perform_of_ne {calls : Nat → Option RelayCall}
    (inv : RelayCallInv w id call) (performed : w.perform fault op = some w')
    (other : ∀ name, name ∈ op.names ∨ op.created = some name → name.1 ≠ id)
    (fits : TaskFits { w' with calls := calls, task := task } id call) :
    RelayCallInv { w' with calls := calls, task := task } id call := by
  obtain ⟨-, files, applied, rfl⟩ := perform_eq_some.mp performed
  refine inv.frame (fun part => ?_) (fun part => ?_) (fun _ sent => sent) fits
  · exact Files.apply_of_notMem applied fun named => other _ (.inl named) rfl
  · have created : (op.created == some (id, part)) = false := by
      rw [beq_eq_false_iff_ne]
      exact fun created => other _ (.inr created) rfl
    simp [created]

theorem RelayCallInv.of_task {phase : RelayPhase} (inv : RelayCallInv w id call)
    (fits : TaskFits { w with task := task, phase := phase } id call) :
    RelayCallInv { w with task := task, phase := phase } id call :=
  inv.frame (fun _ => rfl) (fun _ => rfl) (fun _ sent => sent) fits

theorem taskFits_of_not_worksOn (idle : ¬ w.task.WorksOn id) : TaskFits w id call := by
  unfold TaskFits
  unfold RelayTask.WorksOn at idle
  split <;> simp_all

theorem relay_eq_of_mem_names {article envelope : Bytes} {n : Nat}
    (next : (relayOps id article envelope)[n]? = some op)
    {name : RelayFile} (named : name ∈ op.names ∨ op.created = some name) : name.1 = id := by
  have member := mem_of_getElem? next
  simp only [relayOps, mem_cons, not_mem_nil, or_false] at member
  rcases member with rfl | rfl | rfl | rfl <;>
    simp only [FileOp.names, FileOp.created, mem_cons, not_mem_nil, or_false,
      some.injEq] at named <;> aesop

theorem relay_write_cases (id : Nat) (fault : Bool) (w : RelayWorld) :
    w.write id fault = w ∨ ∃ call op, w.calls id = some call ∧ call.failed = false ∧
      (relayOps id call.article call.envelope)[call.done]? = some op ∧ (w.write id fault =
          { w with calls := update w.calls id (some { call with failed := true }) } ∨
        ∃ w', w.perform fault op = some w' ∧ w.write id fault =
          { w' with calls := update w.calls id (some { call with done := call.done + 1 }) }) := by
  unfold write
  split
  · exact .inl rfl
  next call found =>
  split
  · exact .inl rfl
  next unfailed =>
  split
  · exact .inl rfl
  next op next_ =>
  refine .inr ⟨call, op, found, by simpa using unfailed, next_, ?_⟩
  split
  · exact .inl rfl
  · next w' performed => exact .inr ⟨w', performed, rfl⟩

theorem relayCallInv_write_own {calls : Nat → Option RelayCall} (sound : RelaySound w)
    (inv : RelayCallInv w id call) (found : w.calls id = some call) (unfailed : call.failed = false)
    (next : (relayOps id call.article call.envelope)[call.done]? = some op)
    (performed : w.perform fault op = some w') (keeps : KeepsPair (.write id fault) w) :
    RelayCallInv { w' with calls := calls } id { call with done := call.done + 1 } := by
  have ne : ∀ {a b : RelayPart}, a ≠ b → (id, a) ≠ (id, b) := by
    intro a b differ same
    exact differ (congrArg Prod.snd same)
  have young := inv.young
  have before := inv.parts
  obtain ⟨working, files, applied, rfl⟩ := perform_eq_some.mp performed
  match step : call.done with
  | 0 =>
    rw [step] at next young
    obtain rfl := some.inj next
    obtain rfl := some.inj applied
    refine ⟨?_, ?_, inv.task⟩
    · intro content present
      dsimp only at present
      rw [update_self] at present
      exact (some.inj present).symm
    · intro _
      simpa [FileOp.created] using young (by decide)
  | 1 =>
    rw [step] at next young before
    obtain rfl := some.inj next
    obtain ⟨moved, present, rfl⟩ := map_eq_some_iff.mp applied
    refine ⟨?_, ?_, inv.task⟩
    · intro content there
      dsimp only at there
      rw [update_self] at there
      rw [← some.inj there]
      exact before moved present
    · intro _
      simpa [FileOp.created] using young (by decide)
  | 2 =>
    rw [step] at next young before
    obtain rfl := some.inj next
    obtain rfl := some.inj applied
    refine ⟨⟨?_, ?_⟩, ?_, inv.task⟩
    · intro content present
      dsimp only at present
      rw [update_of_ne (ne (by decide))] at present
      exact before content present
    · intro content present
      dsimp only at present
      rw [update_self] at present
      exact (some.inj present).symm
    · intro _
      simpa [FileOp.created] using young (by decide)
  | 3 =>
    rw [step] at next young before
    obtain rfl := some.inj next
    obtain ⟨moved, present, rfl⟩ := map_eq_some_iff.mp applied
    have there : w.files (id, .msg) ≠ none :=
      keeps call found unfailed step working (by rw [present]; simp)
    obtain ⟨content, there⟩ := ne_none_iff_exists'.mp there
    refine ⟨.inr ⟨?_, ?_, ?_⟩, fun early => absurd early (Nat.lt_irrefl 4), inv.task⟩
    · dsimp only
      rw [update_of_ne (ne (by decide)), update_of_ne (ne (by decide)), there,
        before.1 content there]
    · dsimp only
      rw [update_self, before.2 moved present]
    · dsimp only
      rw [update_of_ne (ne (by decide)), update_of_ne (ne (by decide))]
      -- Nothing has been moved to this name yet.
      by_contra present
      have existed := sound.existed _ present
      rw [(young (by decide)).2] at existed
      cases existed
  | n + 4 =>
    rw [step] at next
    simp [relayOps] at next

theorem relayInv_write (inv : RelayInv w)
    (keeps : KeepsPair (.write id fault) w) : RelayInv (w.write id fault) := by
  rcases relay_write_cases id fault w with same | ⟨call, op, found, unfailed, next, failed | ⟨w', performed, done⟩⟩
  · rwa [same]
  · rw [failed]
    refine ⟨⟨inv.sound.existed, inv.sound.working, inv.sound.tmp, inv.sound.sent⟩, ?_⟩
    intro id' call' found'
    dsimp only at found'
    by_cases same : id' = id
    · subst same
      rw [update_self] at found'
      obtain rfl := some.inj found'
      exact ⟨(inv.calls id' call found).parts, (inv.calls id' call found).young,
        (inv.calls id' call found).task⟩
    · rw [update_of_ne same] at found'
      exact (inv.calls id' call' found').frame (fun _ => rfl) (fun _ => rfl) (fun _ sent => sent)
        (inv.calls id' call' found').task
  · rw [done]
    have sameTask : w'.task = w.task ∧ w'.delivered = w.delivered := by
      obtain ⟨-, files, -, rfl⟩ := perform_eq_some.mp performed
      exact ⟨rfl, rfl⟩
    refine ⟨⟨fun name => existed_perform inv.sound.existed performed name, ?_, ?_, ?_⟩, ?_⟩
    · intro id' works
      exact le_existed_perform performed (inv.sound.working id' (sameTask.1 ▸ works))
    · exact fun name at_ => inv.sound.tmp name (sameTask.1 ▸ at_)
    · exact fun message sent => le_existed_perform performed (inv.sound.sent message (sameTask.2 ▸ sent))
    intro id' call' found'
    dsimp only at found'
    by_cases same : id' = id
    · subst same
      rw [update_self] at found'
      obtain rfl := some.inj found'
      exact relayCallInv_write_own inv.sound (inv.calls id' call found) found unfailed next performed keeps
    · rw [update_of_ne same] at found'
      have fits := (inv.calls id' call' found').task
      refine (inv.calls id' call' found').perform_of_ne performed ?_ ?_
      · rintro name named rfl
        exact same (relay_eq_of_mem_names next named)
      · unfold TaskFits at fits ⊢
        dsimp only
        rwa [sameTask.1, sameTask.2]

theorem relay_begin_cases (hasPeers : Bool) (toVec : EnvelopeFile → Bytes) (id : Nat) (article : Bytes)
    (envelope : EnvelopeFile) (w : RelayWorld) :
    w.begin hasPeers toVec id article envelope = w ∨ (∀ part, w.existed (id, part) = false) ∧
      w.begin hasPeers toVec id article envelope =
        { w with calls := update w.calls id (some ⟨article, toVec envelope, 0, false⟩) } := by
  unfold begin
  split
  · exact .inl rfl
  split
  · exact .inl rfl
  · next new =>
    refine .inr ⟨?_, rfl⟩
    simp only [any_cons, any_nil, Bool.or_false, Bool.or_eq_true, not_or,
      Bool.not_eq_true] at new
    obtain ⟨-, msgTmp, envTmp, msg, env, deadMsg, deadEnv⟩ := new
    rintro (_ | _ | _ | _ | _ | _) <;> assumption

theorem relayInv_begin (inv : RelayInv w) (hasPeers : Bool) (toVec : EnvelopeFile → Bytes) (id : Nat) (article : Bytes)
    (envelope : EnvelopeFile) : RelayInv (w.begin hasPeers toVec id article envelope) := by
  rcases relay_begin_cases hasPeers toVec id article envelope w with same | ⟨new, begun⟩
  · rwa [same]
  rw [begun]
  refine ⟨⟨inv.sound.existed, inv.sound.working, inv.sound.tmp, inv.sound.sent⟩, ?_⟩
  intro id' call found
  dsimp only at found
  by_cases same : id' = id
  · subst same
    rw [update_self] at found
    obtain rfl := some.inj found
    refine ⟨trivial, fun _ => ⟨new _, new _⟩, taskFits_of_not_worksOn ?_⟩
    intro works
    have existed := inv.sound.working id' works
    rw [new] at existed
    cases existed
  · rw [update_of_ne same] at found
    exact (inv.calls id' call found).frame (fun _ => rfl) (fun _ => rfl) (fun _ sent => sent) (inv.calls id' call found).task

theorem relayInv_task (inv : RelayInv w) {phase : RelayPhase}
    (working : ∀ id, task.WorksOn id → w.existed (id, .env) = true)
    (tmp : ∀ name, task = .removingTmp name → name.2 = .msgTmp ∨ name.2 = .envTmp)
    (fits : ∀ id call, w.calls id = some call → TaskFits { w with task := task, phase := phase } id call) :
    RelayInv { w with task := task, phase := phase } :=
  ⟨⟨inv.sound.existed, working, tmp, inv.sound.sent⟩,
    fun id call found => (inv.calls id call found).of_task (fits id call found)⟩

theorem relayInv_scanning (inv : RelayInv w) (phase : RelayPhase) :
    RelayInv { w with task := .scanning, phase := phase } :=
  relayInv_task inv (by rintro _ ⟨⟩) (by rintro _ ⟨⟩) fun _ _ _ => trivial

theorem relayInv_nextEntry (inv : RelayInv w) (name : RelayFile) : RelayInv (w.nextEntry name) := by
  unfold nextEntry
  split
  · split
    · exact inv
    next existed =>
    have existed : w.existed name = true := by simpa using existed
    split
    · next phase tmp =>
      refine relayInv_task inv (by rintro _ ⟨⟩) ?_ fun _ _ _ => trivial
      rintro _ ⟨⟩
      exact .inl tmp
    · next phase tmp =>
      refine relayInv_task inv (by rintro _ ⟨⟩) ?_ fun _ _ _ => trivial
      rintro _ ⟨⟩
      exact .inr tmp
    · exact relayInv_task inv (by rintro _ ⟨⟩) (by rintro _ ⟨⟩) fun _ _ _ => trivial
    · next phase env =>
      refine relayInv_task inv ?_ (by rintro _ ⟨⟩) fun _ _ _ => trivial
      rintro id rfl
      rwa [← env]
    · exact inv
  · exact inv

theorem relayInv_nextPhase (inv : RelayInv w) : RelayInv w.nextPhase := by
  have turns : ∀ phase, RelayInv { w with phase := phase } := fun phase =>
    relayInv_task inv inv.sound.working inv.sound.tmp fun id call found => (inv.calls id call found).task
  unfold nextPhase
  split
  · exact turns _
  · exact turns _
  · exact inv

theorem relayInv_crash (inv : RelayInv w) : RelayInv w.crash := by
  have again := relayInv_scanning inv .cleanupTmpFiles
  refine ⟨⟨again.sound.existed, again.sound.working, again.sound.tmp, again.sound.sent⟩, ?_⟩
  intro id call found
  obtain ⟨before, was, rfl⟩ := map_eq_some_iff.mp found
  have inv' := again.calls id before was
  -- Whether a call has failed makes no difference to its files.
  split
  · exact ⟨inv'.parts, inv'.young, trivial⟩
  · exact ⟨inv'.parts, inv'.young, trivial⟩

theorem names_remove (id : Nat) (part : RelayPart) (name : RelayFile)
    (named : name ∈ (FileOp.remove (id, part) : FileOp RelayFile Bytes).names ∨
      (FileOp.remove (id, part) : FileOp RelayFile Bytes).created = some name) : name.1 = id := by
  rcases named with named | ⟨⟨⟩⟩
  rw [mem_singleton.mp named]

theorem names_rename (id : Nat) (old new : RelayPart) (name : RelayFile)
    (named : name ∈ (FileOp.rename (id, old) (id, new) : FileOp RelayFile Bytes).names ∨
      (FileOp.rename (id, old) (id, new) : FileOp RelayFile Bytes).created = some name) : name.1 = id := by
  simp only [FileOp.names, FileOp.created, mem_cons, not_mem_nil, or_false,
    some.injEq] at named
  rcases named with (rfl | rfl) | rfl <;> rfl

/-- An operation on the files of one message, after which the task is busy with no other one. -/
structure WorksFor (w : RelayWorld) (op : FileOp RelayFile Bytes) (task : RelayTask) (id : Nat) : Prop where
  names : ∀ name, name ∈ op.names ∨ op.created = some name → name.1 = id
  works : ∀ id', task.WorksOn id' → id' = id ∧ w.existed (id, .env) = true
  tmp : ∀ name, task ≠ .removingTmp name

theorem relayInv_perform (inv : RelayInv w) (performed : w.perform fault op = some w')
    (only : WorksFor w op task id)
    (own : ∀ call, w.calls id = some call → RelayCallInv { w' with task := task } id call) :
    RelayInv { w' with task := task } := by
  have same : w'.delivered = w.delivered ∧ w'.calls = w.calls := by
    obtain ⟨-, files, -, rfl⟩ := perform_eq_some.mp performed
    exact ⟨rfl, rfl⟩
  refine ⟨⟨fun name => existed_perform inv.sound.existed performed name, ?_, ?_, ?_⟩, ?_⟩
  · intro id' worksOn
    obtain ⟨rfl, existed⟩ := only.works id' worksOn
    exact le_existed_perform performed existed
  · exact fun name at_ => absurd at_ (only.tmp name)
  · exact fun message sent => le_existed_perform performed (inv.sound.sent message (same.1 ▸ sent))
  · intro id' call found
    replace found : w.calls id' = some call := same.2 ▸ found
    by_cases mine : id' = id
    · subst mine
      exact own call found
    · refine (inv.calls id' call found).perform_of_ne performed ?_ (taskFits_of_not_worksOn ?_)
      · rintro name named rfl
        exact mine (only.names name named)
      · exact fun worksOn => mine (only.works id' worksOn).1

theorem relayInv_attempt (inv : RelayInv w) (id : Nat)
    (only : WorksFor w op task id)
    (fits : ∀ call, w.calls id = some call → TaskFits { w with task := task } id call)
    (own : ∀ w' call, w.perform fault op = some w' → w.calls id = some call →
      RelayCallInv { w' with task := task } id call) :
    RelayInv { w.attempt fault op with task := task } := by
  rcases attempt_cases fault op w with same | ⟨w', performed, same⟩
  · rw [same]
    refine relayInv_task inv ?_ (fun name at_ => absurd at_ (only.tmp name)) ?_
    · intro id' worksOn
      obtain ⟨rfl, existed⟩ := only.works id' worksOn
      exact existed
    · intro id' call found
      by_cases mine : id' = id
      · subst mine
        exact fits call found
      · exact taskFits_of_not_worksOn fun worksOn => mine (only.works id' worksOn).1
  · rw [same]
    exact relayInv_perform inv performed only fun call found => own w' call performed found

theorem relayInv_attempt_delivered (inv : RelayInv w) (id : Nat)
    (only : WorksFor w op task id) (delivered : ∀ call, w.calls id = some call →
      call.done = 4 ∧ (id, call.envelope, call.article) ∈ w.delivered) :
    RelayInv { w.attempt fault op with task := task } := by
  refine relayInv_attempt inv id only ?_ ?_
  · intro call found
    exact (RelayCallInv.of_delivered (w := { w with task := task }) (delivered call found).1
      (delivered call found).2).task
  · intro w' call performed found
    obtain ⟨-, files, -, rfl⟩ := perform_eq_some.mp performed
    exact .of_delivered (delivered call found).1 (delivered call found).2

/-- A temporary file is not missed by a call that has returned, and its loss is noticed by one
that has not. -/
theorem relayCallInv_remove_tmp {part : RelayPart}
    (inv : RelayCallInv w id call) (tmp : part = .msgTmp ∨ part = .envTmp)
    (performed : w.perform fault (.remove (id, part)) = some w') :
    RelayCallInv { w' with task := .scanning } id call := by
  obtain ⟨-, files, applied, rfl⟩ := perform_eq_some.mp performed
  obtain ⟨content, -, rfl⟩ := map_eq_some_iff.mp applied
  have other : ∀ {part' : RelayPart}, part' ≠ .msgTmp → part' ≠ .envTmp →
      update w.files (id, part) none (id, part') = w.files (id, part') := by
    intro part' notMsg notEnv
    refine update_of_ne (fun same => ?_) ..
    obtain rfl : part' = part := congrArg Prod.snd same
    exact tmp.elim notMsg notEnv
  have less : ∀ {part' : RelayPart} {content : Bytes},
      update w.files (id, part) none (id, part') = some content →
      w.files (id, part') = some content := by
    intro part' content there
    by_cases same : (id, part') = (id, part)
    · rw [same, update_self] at there
      cases there
    · rwa [update_of_ne same] at there
  refine ⟨?_, ?_, trivial⟩
  · have parts := inv.parts
    match step : call.done with
    | 0 => trivial
    | 1 | 2 =>
      rw [step] at parts
      exact fun content there => parts content (less there)
    | 3 =>
      rw [step] at parts
      exact ⟨fun content there => parts.1 content (less there), fun content there =>
        parts.2 content (less there)⟩
    | 4 =>
      rw [step] at parts
      refine parts.imp_right ?_
      rintro ⟨msg, env, deadEnv⟩
      exact ⟨(other (by decide) (by decide)).trans msg, (other (by decide) (by decide)).trans env,
        (other (by decide) (by decide)).trans deadEnv⟩
    | _ + 5 =>
      rw [step] at parts
      exact parts.elim
  · simpa [FileOp.created] using inv.young

theorem relayCallInv_move_msg (inv : RelayCallInv w id call)
    (performed : w.perform fault (.rename (id, .msg) (id, .deadMsg)) = some w')
    (delivered : call.done = 4 → (id, call.envelope, call.article) ∈ w.delivered)
    (early : call.done < 4 → ¬ task.WorksOn id) : RelayCallInv { w' with task := task } id call := by
  obtain ⟨-, files, applied, rfl⟩ := perform_eq_some.mp performed
  obtain ⟨content, -, rfl⟩ := map_eq_some_iff.mp applied
  by_cases done : call.done = 4
  · exact .of_delivered done (delivered done)
  have ne : ∀ {a b : RelayPart}, a ≠ b → (id, a) ≠ (id, b) := by
    intro a b differ same
    exact differ (congrArg Prod.snd same)
  have gone : ∀ {v : Option Bytes}, update (update w.files (id, .msg) none)
      (id, .deadMsg) v (id, .msg) = none := by
    intro v
    rw [update_of_ne (ne (by decide)), update_self]
  have parts := inv.parts
  have young : call.done < 4 := by
    by_contra late
    match step : call.done with
    | 0 | 1 | 2 | 3 | 4 => omega
    | _ + 5 =>
      rw [step] at parts
      exact parts.elim
  refine ⟨?_, ?_, taskFits_of_not_worksOn (early young)⟩
  · match step : call.done with
    | 0 => trivial
    | 1 =>
      rw [step] at parts
      intro content there
      dsimp only at there
      rw [update_of_ne (ne (by decide)), update_of_ne (ne (by decide))] at there
      exact parts content there
    | 2 =>
      intro content there
      dsimp only at there
      rw [gone] at there
      cases there
    | 3 =>
      rw [step] at parts
      refine ⟨?_, ?_⟩
      · intro content there
        dsimp only at there
        rw [gone] at there
        cases there
      · intro content there
        dsimp only at there
        rw [update_of_ne (ne (by decide)), update_of_ne (ne (by decide))] at there
        exact parts.2 content there
    | _ + 4 => omega
  · simpa [FileOp.created] using inv.young

theorem relayInv_taskOn {fromSlice : Bytes → Option EnvelopeFile} (inv : RelayInv w)
    {result : RelayResult} (keeps : KeepsPair (.task fault result) w) :
    RelayInv (w.taskOn fromSlice fault result) := by
  -- A message whose envelope the task has seen is that of a call that has returned.
  have returned : ∀ id call, w.calls id = some call → w.task.WorksOn id → call.done = 4 :=
    fun id call found works => (inv.calls id call found).done_of_existed (inv.sound.working id works)
  have delivered : ∀ id, w.task = .removingMsg id ∨ w.task = .removingEnv id ∨
      w.task = .removingOrphanEnv id ∨ w.task = .movingEnv id → ∀ call, w.calls id = some call →
      call.done = 4 ∧ (id, call.envelope, call.article) ∈ w.delivered := by
    rintro id (at_ | at_ | at_ | at_) call found
    all_goals
      have fits := (inv.calls id call found).task
      rw [TaskFits, at_] at fits
      exact ⟨returned id call found (by rw [at_]; rfl), fits rfl⟩
  have scanning := relayInv_scanning inv w.phase
  unfold taskOn
  split
  · exact inv
  · next name at_ =>
    refine relayInv_attempt inv name.1 ⟨names_remove name.1 name.2, by rintro _ ⟨⟩, by rintro _ ⟨⟩⟩
      (fun _ _ => trivial) ?_
    exact fun w' call performed found =>
      relayCallInv_remove_tmp (inv.calls _ call found) (inv.sound.tmp name at_) performed
  · next id at_ =>
    split
    · exact scanning
    · exact relayInv_task inv (by rintro _ ⟨⟩) (by rintro _ ⟨⟩) fun _ _ _ => trivial
  · next id at_ =>
    refine relayInv_attempt inv id ⟨names_rename id .msg .deadMsg, by rintro _ ⟨⟩, by rintro _ ⟨⟩⟩
      (fun _ _ => trivial) ?_
    intro w' call performed found
    refine relayCallInv_move_msg (inv.calls id call found) performed ?_ (fun _ works => by cases works)
    obtain ⟨working, files, applied, -⟩ := perform_eq_some.mp performed
    obtain ⟨content, there, -⟩ := map_eq_some_iff.mp applied
    exact keeps working id (.inl at_) (by rw [there]; simp) call found
  · next id at_ =>
    split
    · exact scanning
    split
    · exact scanning
    next envelope read =>
    split
    · refine relayInv_task inv ?_ (by rintro _ ⟨⟩) ?_
      · rintro _ rfl
        exact inv.sound.working id (by rw [at_]; rfl)
      · rintro id' call found rfl
        have parts := (inv.calls id call found).parts
        rw [returned id call found (by rw [at_]; rfl)] at parts
        rcases parts with delivered | ⟨-, env, -⟩
        · exact .inr delivered
        · rw [read] at env
          exact .inl (some.inj env)
    · exact scanning
  · next id envelope at_ =>
    have working : w.existed (id, .env) = true := inv.sound.working id (by rw [at_]; rfl)
    split
    · exact scanning
    split
    · next missing =>
      refine relayInv_task inv ?_ (by rintro _ ⟨⟩) ?_
      · rintro _ rfl
        exact working
      · -- The message of an accepted call is only missing once it is delivered.
        rintro id' call found rfl
        have parts := (inv.calls id call found).parts
        rw [returned id call found (by rw [at_]; rfl)] at parts
        rcases parts with delivered | ⟨msg, -⟩
        · exact delivered
        · rw [missing] at msg
          cases msg
    · next article read =>
      refine relayInv_task inv ?_ (by rintro _ ⟨⟩) ?_
      · rintro _ rfl
        exact working
      · rintro id' call found rfl
        have fits := (inv.calls id call found).task
        rw [TaskFits, at_] at fits
        have parts := (inv.calls id call found).parts
        rw [returned id call found (by rw [at_]; rfl)] at parts
        rcases parts with delivered | ⟨msg, -⟩
        · exact .inr delivered
        · rw [read] at msg
          exact (fits rfl).imp_left fun own => ⟨own, some.inj msg⟩
  · next id envelope article at_ =>
    have working : w.existed (id, .env) = true := inv.sound.working id (by rw [at_]; rfl)
    have dead : RelayInv { w with task := .movingMsg id } := by
      refine relayInv_task inv ?_ (by rintro _ ⟨⟩) fun _ _ _ => trivial
      rintro _ rfl
      exact working
    split
    · exact scanning
    · exact scanning
    · refine ⟨⟨inv.sound.existed, ?_, by rintro _ ⟨⟩, ?_⟩, ?_⟩
      · rintro _ rfl
        exact working
      · rintro message sent
        rcases mem_cons.mp sent with rfl | sent
        · exact working
        · exact inv.sound.sent message sent
      · intro id' call found
        refine (inv.calls id' call found).frame (fun _ => rfl) (fun _ => rfl)
          (fun _ => mem_cons_of_mem _) ?_
        rintro rfl
        have fits := (inv.calls id call found).task
        rw [TaskFits, at_] at fits
        rcases fits rfl with ⟨rfl, rfl⟩ | delivered
        · exact mem_cons_self
        · exact mem_cons_of_mem _ delivered
    · exact dead
    · exact dead
  · next id at_ =>
    refine relayInv_attempt_delivered inv id ⟨names_remove id _, ?_, by rintro _ ⟨⟩⟩ (delivered id (.inl at_))
    rintro _ rfl
    exact ⟨rfl, inv.sound.working id (by rw [at_]; rfl)⟩
  · next id at_ =>
    exact relayInv_attempt_delivered inv id ⟨names_remove id _, by rintro _ ⟨⟩, by rintro _ ⟨⟩⟩
      (delivered id (.inr (.inl at_)))
  · next id at_ =>
    exact relayInv_attempt_delivered inv id ⟨names_remove id _, by rintro _ ⟨⟩, by rintro _ ⟨⟩⟩
      (delivered id (.inr (.inr (.inl at_))))
  · next id at_ =>
    have working : w.existed (id, .env) = true := inv.sound.working id (by rw [at_]; rfl)
    split
    · exact scanning
    · next w' performed =>
      obtain ⟨sound, files, applied, -⟩ := perform_eq_some.mp performed
      obtain ⟨content, there, -⟩ := map_eq_some_iff.mp applied
      refine relayInv_perform inv (sound ▸ performed : w.perform false _ = some w')
        ⟨names_rename id .msg .deadMsg, ?_, by rintro _ ⟨⟩⟩ ?_
      · rintro _ rfl
        exact ⟨rfl, working⟩
      · intro call found
        have done := returned id call found (by rw [at_]; rfl)
        refine relayCallInv_move_msg (inv.calls id call found) performed ?_ (by omega)
        exact keeps sound id (.inr at_) (by rw [there]; simp) call found
  · next id at_ =>
    exact relayInv_attempt_delivered inv id ⟨names_rename id .env .deadEnv, by rintro _ ⟨⟩, by rintro _ ⟨⟩⟩
      (delivered id (.inr (.inr (.inr at_))))

theorem not_kept
    (undelivered : (id, call.envelope, call.article) ∉ w.delivered) (noMsg : w.files (id, .msg) = none)
    (noDeadEnv : w.files (id, .deadEnv) = none) : ¬ RelayKept w id call := by
  rintro (delivered | ⟨msg, -⟩ | ⟨-, deadEnv⟩)
  · exact undelivered delivered
  · rw [noMsg] at msg
    cases msg
  · rw [noDeadEnv] at deadEnv
    cases deadEnv

theorem not_safe_of_not_keepsPair {hasPeers : Bool} {toVec : EnvelopeFile → Bytes}
    {fromSlice : Bytes → Option EnvelopeFile} (inv : RelayInv w) {label : RelayLabel}
    (separates : ¬ KeepsPair label w) : ¬ RelaySafe (w.step hasPeers toVec fromSlice label).2 := by
  have ne : ∀ {id : Nat} {a b : RelayPart}, a ≠ b → (id, a) ≠ (id, b) := by
    intro id a b differ same
    exact differ (congrArg Prod.snd same)
  intro safe
  cases label with
  | write id fault =>
    simp only [KeepsPair, Classical.not_imp, not_forall, not_not] at separates
    obtain ⟨call, found, unfailed, done, rfl, envTmp, noMsg⟩ := separates
    obtain ⟨content, there⟩ := ne_none_iff_exists'.mp envTmp
    have young := (inv.calls id call found).young (by omega)
    have noDeadEnv : w.files (id, .deadEnv) = none := by
      by_contra present
      have existed := inv.sound.existed _ present
      rw [young.2] at existed
      cases existed
    have undelivered : (id, call.envelope, call.article) ∉ w.delivered := by
      intro delivered
      have existed := inv.sound.sent _ delivered
      rw [young.1] at existed
      cases existed
    have stepped : (w.step hasPeers toVec fromSlice (.write id false)).2 =
        { w with
          files := update (update w.files (id, .envTmp) none) (id, .env) (some content)
          existed := fun name => w.existed name || some (id, .env) == some name
          calls := update w.calls id (some { call with done := 4 }) } := by
      simp [step, write, found, unfailed, done, relayOps, perform,
        Files.apply, there, FileOp.created]
    rw [stepped] at safe
    refine @not_kept _ id { call with done := 4 } ?_ ?_ ?_
      (safe id { call with done := 4 } (update_self ..) rfl)
    · exact undelivered
    · exact ((update_of_ne (ne (by decide)) ..).trans
        (update_of_ne (ne (by decide)) ..)).trans noMsg
    · exact ((update_of_ne (ne (by decide)) ..).trans
        (update_of_ne (ne (by decide)) ..)).trans noDeadEnv
  | task fault result =>
    simp only [KeepsPair, Classical.not_imp, not_forall] at separates
    obtain ⟨rfl, id, at_, msg, call, found, done, undelivered⟩ := separates
    obtain ⟨content, there⟩ := ne_none_iff_exists'.mp msg
    have parts := (inv.calls id call found).parts
    rw [done] at parts
    obtain ⟨-, -, noDeadEnv⟩ := parts.resolve_left undelivered
    have stepped : ∃ task, (w.step hasPeers toVec fromSlice (.task false result)).2 =
        { w with
          files := update (update w.files (id, .msg) none) (id, .deadMsg) (some content)
          existed := fun name => w.existed name || some (id, .deadMsg) == some name
          task := task } := by
      rcases at_ with at_ | at_
      · exact ⟨.scanning, by simp [step, taskOn, at_, attempt,
          perform, Files.apply, there, FileOp.created]⟩
      · exact ⟨.movingEnv id, by simp [step, taskOn, at_,
          perform, Files.apply, there, FileOp.created]⟩
    obtain ⟨task, stepped⟩ := stepped
    rw [stepped] at safe
    refine not_kept ?_ ?_ ?_ (safe id call found done)
    · exact undelivered
    · exact (update_of_ne (ne (by decide)) ..).trans (update_self ..)
    · exact ((update_of_ne (ne (by decide)) ..).trans
        (update_of_ne (ne (by decide)) ..)).trans noDeadEnv
  | _ => exact separates trivial

theorem relayInv_start (files : Files RelayFile Bytes) : RelayInv (.start files) := by
  refine ⟨⟨?_, ?_, ?_, ?_⟩, ?_⟩
  · exact fun name present => isSome_iff_ne_none.mpr present
  · rintro id ⟨⟩
  · rintro name ⟨⟩
  · rintro message ⟨⟩
  · rintro id call ⟨⟩

/-- For every interleaving of calls of `enqueue` with the task, over any directory, with any
failures, crashes and outcomes of deliveries: accepted messages are delivered or have their two
files together at all times exactly if no step separates the files of one. -/
theorem relay_safe_iff (hasPeers : Bool) (toVec : EnvelopeFile → Bytes)
    (fromSlice : Bytes → Option EnvelopeFile) (files : Files RelayFile Bytes) (labels : List RelayLabel) :
    Throughout (RelayWorld.step hasPeers toVec fromSlice) RelaySafe labels (.start files) ↔
      AlongRun (RelayWorld.step hasPeers toVec fromSlice) KeepsPair labels (.start files) := by
  refine throughout_iff_of_unsafe (fun _ inv => inv.safe) ?_ ?_ (relayInv_start files)
  · intro label w inv keeps
    cases label with
    | begin id article envelope => exact relayInv_begin inv hasPeers toVec id article envelope
    | write id fault => exact relayInv_write inv keeps
    | nextEntry name => exact relayInv_nextEntry inv name
    | nextPhase => exact relayInv_nextPhase inv
    | task fault result => exact relayInv_taskOn inv keeps
    | crash => exact relayInv_crash inv
  · exact fun label w inv separates => not_safe_of_not_keepsPair inv separates

namespace Sample

def relayEnvelope : EnvelopeFile := ⟨"a", ["b"], false⟩

def relayJson : Bytes :=
  Text.asBytes "\x7b\"mail_from\":\"a\",\"rcpt_to\":[\"b\"],\"require_tls\":false\x7d"

abbrev relayStep := RelayWorld.step true (fun _ => relayJson) fun bytes =>
  if bytes = relayJson then some relayEnvelope else none

def enqueueDuringCleanup : List RelayLabel :=
  [.nextPhase, .begin 1 [0x61] relayEnvelope, .write 1 false, .write 1 false,
    .nextEntry (1, .msg), .task false .noPeer, .task false .noPeer, .nextPhase,
    .write 1 false, .write 1 false,
    .nextEntry (1, .env), .task false .noPeer, .task false .noPeer, .task false .noPeer]

/-- The call has returned, but its message lies in `dead/` and its envelope is gone. -/
theorem accepted_message_lost : ¬ RelaySafe (runAll relayStep enqueueDuringCleanup (.start .empty)).2 := by
  intro safe
  refine @not_kept _ 1 ⟨[0x61], relayJson, 4, false⟩ ?_ ?_ ?_ (safe 1 _ rfl rfl)
  · rintro ⟨⟩
  · rfl
  · rfl

end Sample

end Stoa.Smtp
