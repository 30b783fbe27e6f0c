import Mathlib.Data.List.Dedup
import Stoa.Lib.Runs

/-! `noJobStuck_iff`: every job is finished or selected by a pass, exactly if no poll finds a
request lost whose job has no submission left. -/
namespace Stoa.RemotePins

open List

inductive RemotePinStatus
  | queued
  | pinning
  | pinned
  | failed
  deriving DecidableEq

structure PinStatusResponse where
  requestid : String
  status : RemotePinStatus

inductive RemotePinError
  | transport (message : String)
  | http (status : Nat) (body : String)
  | rateLimited (retryAfterSecs : Nat)
  | unauthorized
  | parse (message : String)

def RemotePinError.toString : RemotePinError → String
  | .transport m => "transport error: " ++ m
  | .http status body => "HTTP " ++ ToString.toString status ++ ": " ++ body
  | .rateLimited secs => "rate limited; retry after " ++ ToString.toString secs ++ "s"
  | .unauthorized => "unauthorized (invalid API key)"
  | .parse m => "response parse error: " ++ m

/-- The `status` column: `pending`, or the text of a status that a service reports. -/
inductive JobStatus
  | pending
  | remote (status : RemotePinStatus)
  deriving DecidableEq

structure RemotePinJob where
  cid : String
  serviceName : String
  status : JobStatus := .pending
  requestId : Option String := none
  submittedAtMs : Option Int := none
  lastAttemptMs : Option Int := none
  attemptCount : Nat := 0
  error : Option String := none

/-- The table by its primary key, and the flag of the service. -/
structure PinWorld where
  jobs : Int → Option RemotePinJob
  unauthorized : Bool

structure ServiceSlot where
  name : String
  maxAttempts : Nat

abbrev PinReply := Except RemotePinError PinStatusResponse

/-- `UPDATE remote_pin_jobs SET … WHERE id = ?`. -/
def PinWorld.update (w : PinWorld) (id : Int) (set : RemotePinJob → RemotePinJob) : PinWorld :=
  { w with jobs := fun k => if k = id then (w.jobs k).map set else w.jobs k }

/-- `SELECT … WHERE … LIMIT …`; `order` is the order in which the database visits the rows. -/
def PinWorld.select (w : PinWorld) (order : List Int) (limit : Nat) (cond : RemotePinJob → Bool) :
    List Int :=
  (order.dedup.filter fun id => (w.jobs id).any cond).take limit

def submitOk (nowMs : Int) (resp : PinStatusResponse) (job : RemotePinJob) : RemotePinJob :=
  { job with
    status := .remote resp.status
    requestId := some resp.requestid
    submittedAtMs := some nowMs
    lastAttemptMs := some nowMs
    attemptCount := job.attemptCount + 1
    error := none }

def submitErr (slot : ServiceSlot) (nowMs : Int) (e : RemotePinError) (isFatal : Bool)
    (job : RemotePinJob) : RemotePinJob :=
  { job with
    attemptCount := job.attemptCount + 1
    lastAttemptMs := some nowMs
    error := some e.toString
    status := if job.attemptCount + 1 ≥ slot.maxAttempts ∨ isFatal then .remote .failed else job.status }

section Passes

variable (slot : ServiceSlot) (nowMs : Int) (reply : Int → PinReply)

def submitRows : List Int → PinWorld → PinWorld
  | [], w => w
  | id :: rows, w =>
    match reply id with
    | .ok resp => submitRows rows (w.update id (submitOk nowMs resp))
    | .error (.rateLimited _) => submitRows rows w
    | .error .unauthorized =>
      -- The flag is set, and the loop is left.
      { w.update id (submitErr slot nowMs .unauthorized true) with unauthorized := true }
    | .error e => submitRows rows (w.update id (submitErr slot nowMs e false))

def submitPending (order : List Int) (w : PinWorld) : PinWorld :=
  submitRows slot nowMs reply (w.select order 20 fun job =>
    job.serviceName = slot.name ∧ job.status = .pending ∧ job.attemptCount < slot.maxAttempts) w

def pollRow (reply : PinReply) (job : RemotePinJob) : RemotePinJob :=
  match job.requestId, reply with
  | none, _ => job
  | some _, .ok resp => { job with status := .remote resp.status, lastAttemptMs := some nowMs }
  | some _, .error (.http 404 _) => { job with status := .pending, requestId := none }
  | some _, .error _ => job

def inflight (order : List Int) (w : PinWorld) : List Int :=
  w.select order 50 fun job =>
    job.serviceName = slot.name ∧ (job.status = .remote .queued ∨ job.status = .remote .pinning)

def pollInflight (order : List Int) (w : PinWorld) : PinWorld :=
  (inflight slot order w).foldl (fun w id => w.update id (pollRow nowMs (reply id))) w

inductive PinOp
  | enqueue (id : Int) (cid serviceName : String)
  | submit (nowMs : Int) (order : List Int) (reply : Int → PinReply)
  | poll (nowMs : Int) (order : List Int) (reply : Int → PinReply)

def pinStep (op : PinOp) (w : PinWorld) : Unit × PinWorld :=
  match op with
  | .enqueue id cid serviceName =>
    -- A new row has a key of its own.
    ((), if (w.jobs id).isSome then w
      else { w with jobs := Function.update w.jobs id (some { cid, serviceName }) })
  | .submit nowMs order reply => ((), submitPending slot nowMs reply order w)
  | .poll nowMs order reply => ((), pollInflight slot nowMs reply order w)

end Passes

/-- Finished, or in a state that a pass selects and works on. -/
def RemotePinJob.Live (maxAttempts : Nat) (job : RemotePinJob) : Prop :=
  match job.status with
  | .pending => job.attemptCount < maxAttempts
  | .remote .queued | .remote .pinning => job.requestId.isSome = true
  | .remote .pinned | .remote .failed => True

variable (slot : ServiceSlot)

def AllLive (w : PinWorld) : Prop :=
  ∀ id job, w.jobs id = some job → job.serviceName = slot.name → job.Live slot.maxAttempts

def NoJobStuck (w : PinWorld) : Prop := w.unauthorized = true ∨ AllLive slot w

/-- No request is lost whose job has used up its attempts. -/
def Resubmittable (op : PinOp) (w : PinWorld) : Prop :=
  match op with
  | .poll _ order reply => w.unauthorized = true ∨ ∀ id ∈ inflight slot order w, ∀ job body,
      w.jobs id = some job → job.requestId.isSome = true → reply id = .error (.http 404 body) →
      job.attemptCount < slot.maxAttempts
  | _ => True

variable {slot} {w : PinWorld} {nowMs : Int} {job : RemotePinJob}

theorem live_submitOk (resp : PinStatusResponse) : (submitOk nowMs resp job).Live slot.maxAttempts := by
  obtain ⟨_, status⟩ := resp
  cases status <;> simp [submitOk, RemotePinJob.Live]

theorem live_submitErr {e : RemotePinError} {isFatal : Bool} (live : job.Live slot.maxAttempts) :
    (submitErr slot nowMs e isFatal job).Live slot.maxAttempts := by
  obtain ⟨cid, service, status, requestId, submitted, last, attempts, error⟩ := job
  simp only [submitErr]
  split
  · trivial
  · next left =>
    cases status with
    | pending => exact Nat.lt_of_not_ge fun spent => left (.inl spent)
    | remote status => cases status <;> exact live

theorem live_pollRow_iff {reply : PinReply} (live : job.Live slot.maxAttempts) :
    (pollRow nowMs reply job).Live slot.maxAttempts ↔ ∀ body, job.requestId.isSome = true →
      reply = .error (.http 404 body) → job.attemptCount < slot.maxAttempts := by
  unfold pollRow
  split
  · next unset => simpa [unset] using live
  · next resp set =>
    obtain ⟨_, status⟩ := resp
    cases status <;> simp [RemotePinJob.Live, set]
  · next body set => simp [RemotePinJob.Live, set]
  · next e other set =>
    refine iff_of_true live fun body _ lost => ?_
    cases lost
    exact absurd rfl (other body)

theorem AllLive.update {id : Int} {set : RemotePinJob → RemotePinJob} (all : AllLive slot w)
    (same : ∀ job, (set job).serviceName = job.serviceName)
    (live : ∀ job, job.Live slot.maxAttempts → (set job).Live slot.maxAttempts) :
    AllLive slot (w.update id set) := by
  intro k job found service
  simp only [PinWorld.update] at found
  split at found
  · obtain ⟨old, present, rfl⟩ := Option.map_eq_some_iff.mp found
    exact live old (all k old present ((same old).symm.trans service))
  · exact all k job found service

/-- Whatever rows it works on, a submission leaves no job stuck. -/
theorem AllLive.submitRows {reply : Int → PinReply} (rows : List Int) (all : AllLive slot w) :
    AllLive slot (submitRows slot nowMs reply rows w) := by
  induction rows generalizing w with
  | nil => exact all
  | cons id rows ih =>
    unfold RemotePins.submitRows
    split
    · exact ih (all.update (fun _ => rfl) fun _ _ => live_submitOk _)
    · exact ih all
    · exact all.update (fun _ => rfl) fun _ => live_submitErr
    · exact ih (all.update (fun _ => rfl) fun _ => live_submitErr)

theorem jobs_foldl_update {set : Int → RemotePinJob → RemotePinJob} {rows : List Int}
    (distinct : rows.Nodup) (w : PinWorld) (k : Int) :
    (rows.foldl (fun w id => w.update id (set id)) w).jobs k =
      if k ∈ rows then (w.jobs k).map (set k) else w.jobs k := by
  induction rows generalizing w with
  | nil => simp
  | cons id rows ih =>
    obtain ⟨absent, distinct⟩ := nodup_cons.mp distinct
    rw [foldl_cons, ih distinct]
    by_cases here : k = id
    · subst here
      simp [absent, PinWorld.update]
    · simp [here, PinWorld.update]

theorem unauthorized_pollInflight (reply : Int → PinReply) (order : List Int) (w : PinWorld) :
    (pollInflight slot nowMs reply order w).unauthorized = w.unauthorized := by
  unfold pollInflight
  generalize inflight slot order w = rows
  induction rows generalizing w with
  | nil => rfl
  | cons id rows ih => exact ih (w.update id _)

theorem jobs_pollInflight (reply : Int → PinReply) (order : List Int) (w : PinWorld) (k : Int) :
    (pollInflight slot nowMs reply order w).jobs k = if k ∈ inflight slot order w then
      (w.jobs k).map (pollRow nowMs (reply k)) else w.jobs k :=
  jobs_foldl_update (((nodup_dedup order).filter _).sublist (take_sublist _ _)) w k

theorem serviceName_pollRow (reply : PinReply) (job : RemotePinJob) :
    (pollRow nowMs reply job).serviceName = job.serviceName := by
  unfold pollRow
  split <;> rfl

theorem allLive_pollInflight_iff {reply : Int → PinReply} {order : List Int} (all : AllLive slot w) :
    AllLive slot (pollInflight slot nowMs reply order w) ↔ ∀ id ∈ inflight slot order w, ∀ job body,
      w.jobs id = some job → job.requestId.isSome = true → reply id = .error (.http 404 body) →
      job.attemptCount < slot.maxAttempts := by
  constructor
  · intro after id selected job body found
    have service : job.serviceName = slot.name := by
      have := (mem_filter.mp (mem_of_mem_take selected)).2
      rw [found] at this
      exact (of_decide_eq_true this).1
    have polled : (pollInflight slot nowMs reply order w).jobs id = some (pollRow nowMs (reply id) job) := by
      rw [jobs_pollInflight, if_pos selected, found, Option.map_some]
    exact (live_pollRow_iff (all id job found service)).mp
      (after id _ polled ((serviceName_pollRow _ _).trans service)) body
  · intro spare id job found service
    rw [jobs_pollInflight] at found
    split at found
    · next selected =>
      obtain ⟨old, present, rfl⟩ := Option.map_eq_some_iff.mp found
      rw [serviceName_pollRow] at service
      exact (live_pollRow_iff (all id old present service)).mpr fun body =>
        spare id selected old body present
    · exact all id job found service

theorem unauthorized_submitRows {reply : Int → PinReply} (rows : List Int)
    (marked : w.unauthorized = true) : (submitRows slot nowMs reply rows w).unauthorized = true := by
  induction rows generalizing w with
  | nil => exact marked
  | cons id rows ih =>
    unfold submitRows
    split
    · exact ih marked
    · exact ih marked
    · rfl
    · exact ih marked

theorem noJobStuck_pinStep_iff (attempts : 1 ≤ slot.maxAttempts) (op : PinOp) (w : PinWorld)
    (before : NoJobStuck slot w) : NoJobStuck slot (pinStep slot op w).2 ↔ Resubmittable slot op w := by
  cases op with
  | enqueue id cid service =>
    refine iff_of_true ?_ trivial
    simp only [pinStep]
    split
    · exact before
    · refine before.imp (fun marked => marked) fun all k job found service => ?_
      change Function.update _ _ _ _ = _ at found
      by_cases new : k = id
      · subst new
        rw [Function.update_self] at found
        obtain rfl := Option.some.inj found
        exact attempts
      · rw [Function.update_of_ne new] at found
        exact all k job found service
  | submit nowMs order reply =>
    exact iff_of_true (before.imp (unauthorized_submitRows _) (AllLive.submitRows _)) trivial
  | poll nowMs order reply =>
    simp only [pinStep, NoJobStuck, Resubmittable, unauthorized_pollInflight]
    rcases before with marked | all
    · exact iff_of_true (.inl marked) (.inl marked)
    · exact or_congr_right' fun _ => allLive_pollInflight_iff all

namespace Sample

def emptyPins : PinWorld := ⟨fun _ => none, false⟩

def lostRequest : List PinOp :=
  [.enqueue 1 "bafy" "web3", .submit 0 [1] fun _ => .ok ⟨"r", .queued⟩,
    .poll 0 [1] fun _ => .error (.http 404 "")]

end Sample

end Stoa.RemotePins
