import Stoa.Lib.Checks
import Stoa.Smtp.Delivery

/-! For a message that is answered with 250 every Keep and every FileInto has stored a copy exactly
if no write to the SMTP store fails whose failure is only logged: that of a Keep without a JMAP
store, and that of a FileInto into a folder. -/
namespace Stoa.Smtp

open Mail (MailPool)

inductive Copied (msg : Inbound) (before after : DeliveryStores) : Prop
  | jmap (row : Mail.SmtpMessage) (pool pool' : MailPool) (found : before.mailPool = some pool)
      (left : after.mailPool = some pool')
      (added : pool'.tables.messages = pool.tables.messages ++ [row])
      (copy : row.rawMessage = msg.rawBytes)
  | smtp (row : MailboxMessage) (pool pool' : SmtpPool) (found : before.pool = some pool)
      (left : after.pool = some pool')
      (added : pool'.tables.messages = pool.tables.messages ++ [row])
      (copy : row.rawMessage = msg.rawBytes)
  | nntp (nanos : Nat) (article : Bytes)
      (next : after.nntpQueue.seq = before.nntpQueue.seq + 1)
      (queued : after.nntpQueue.dir.files (⟨nanos, before.nntpQueue.seq⟩, .msg) = some article)
      (copy : msg.rawBytes <:+ article)

def SieveAction.NeedsCopy : SieveAction → Prop
  | .keep | .fileInto _ => True
  | .discard | .reject _ => False

section Conditions

variable (env : DeliveryEnv) (msg : Inbound)

def Stored (action : SieveAction) (stores : DeliveryStores) : Prop :=
  action.NeedsCopy → Copied msg stores (applyAction env msg action stores).2

def PoolRefuses (stores : DeliveryStores) : Prop := ∀ pool ∈ stores.pool, pool.fault ≠ none

def Reports (action : SieveAction) (stores : DeliveryStores) : Prop :=
  match action with
  | .keep => match stores.mailPool with
    | none => stores.pool = none
    | some mailPool => ((keepMailbox env msg).2 = "" ∨ mailPool.fault ≠ none) ∧ PoolRefuses stores
  | .fileInto folder => match Text.stripStart "newsgroup:" folder with
    | none => stores.pool = none
    | some newsgroup => (∃ e, newsgroupArticle msg newsgroup = .error e) ∨
        ¬ stores.nntpQueue.dir.Answers 4
  | .discard | .reject _ => False

def FailsSilently (action : SieveAction) (stores : DeliveryStores) : Prop :=
  (∃ pool ∈ stores.pool, pool.fault ≠ none) ∧ match action with
    | .keep => stores.mailPool = none
    | .fileInto folder => Text.stripStart "newsgroup:" folder = none
    | .discard | .reject _ => False

end Conditions

section Action

variable {env : DeliveryEnv} {msg : Inbound} {stores : DeliveryStores}

theorem exec_deliver (message : MailboxMessage) (pool : SmtpPool) :
    (deliver message).exec pool = match pool.fault with
      | some e => (.error e, ⟨pool.tables, pool.faults.tail⟩)
      | none => (.ok (), ⟨{ pool.tables with messages := pool.tables.messages ++ [message] },
          pool.faults.tail⟩) :=
  AnyPool.exec_transaction _ _

theorem copied_of_deliver {pool : SmtpPool} {mailbox : String} (found : stores.pool = some pool)
    (answers : pool.fault = none) {after : DeliveryStores}
    (left : after.pool = some ((deliver (mailboxMessage msg mailbox)).exec pool).2) :
    Copied msg stores after := by
  refine .smtp (mailboxMessage msg mailbox) pool _ found left ?_ rfl
  rw [exec_deliver, answers]

theorem not_copied {after : DeliveryStores} (mail : after.mailPool = stores.mailPool)
    (queue : after.nntpQueue = stores.nntpQueue)
    (smtp : ∀ pool pool', stores.pool = some pool → after.pool = some pool' →
      pool'.tables = pool.tables) : ¬ Copied msg stores after := by
  rintro (⟨row, pool, pool', found, left, added, -⟩ | ⟨row, pool, pool', found, left, added, -⟩ |
    ⟨nanos, article, next, -⟩)
  · rw [mail, found, Option.some.injEq] at left
    subst left
    simp at added
  · rw [smtp pool pool' found left] at added
    simp at added
  · rw [queue] at next
    omega

theorem deliverOrLog_stored (mailbox : String) {pool : SmtpPool} (found : stores.pool = some pool) :
    Copied msg stores (deliverOrLog msg mailbox stores).2 ↔ pool.fault = none := by
  constructor
  · intro copied
    by_contra faulty
    obtain ⟨e, fault⟩ := Option.ne_none_iff_exists'.mp faulty
    refine not_copied ?_ ?_ ?_ copied
    · simp [deliverOrLog, found]
    · simp [deliverOrLog, found]
    · intro pool₁ pool₂ found₁ left
      simp only [deliverOrLog, found, exec_deliver, fault, Option.some.injEq] at found₁ left
      rw [← left, ← found₁]
  · intro answers
    refine @copied_of_deliver msg stores pool mailbox found answers _ ?_
    simp [deliverOrLog, found]

theorem deliverOrDefer_done (mailbox : String) : (deliverOrDefer msg mailbox stores).1 = .done ↔
    ¬ PoolRefuses stores := by
  cases found : stores.pool with
  | none => simp [deliverOrDefer, PoolRefuses, found]
  | some pool =>
    simp only [deliverOrDefer, PoolRefuses, found, exec_deliver, Option.mem_some_iff, forall_eq']
    cases pool.fault <;> simp

theorem deliverOrDefer_copied {mailbox : String} (done : (deliverOrDefer msg mailbox stores).1 = .done) :
    Copied msg stores (deliverOrDefer msg mailbox stores).2 := by
  rw [deliverOrDefer_done] at done
  simp only [PoolRefuses, not_forall, not_not] at done
  obtain ⟨pool, found, answers⟩ := done
  have found' : stores.pool = some pool := found
  refine @copied_of_deliver msg stores pool mailbox found' answers _ ?_
  simp [deliverOrDefer, found', exec_deliver, answers]

theorem applyKeep_jmap {mailPool : MailPool} (found : stores.mailPool = some mailPool) :
    ((applyKeep env msg stores).1 = .done ↔
      ¬ (((keepMailbox env msg).2 = "" ∨ mailPool.fault ≠ none) ∧ PoolRefuses stores)) ∧
    ((applyKeep env msg stores).1 = .done → Copied msg stores (applyKeep env msg stores).2) := by
  by_cases unnamed : (keepMailbox env msg).2 = ""
  · have eq : applyKeep env msg stores = deliverOrDefer msg (keepMailbox env msg).1 stores := by
      simp [applyKeep, found, unnamed]
    rw [eq]
    refine ⟨?_, deliverOrDefer_copied⟩
    simp [unnamed, deliverOrDefer_done]
  cases faulty : mailPool.fault with
  | some e =>
    -- The pool of the JMAP store has used up a fault; its tables are as before.
    have eq : applyKeep env msg stores = deliverOrDefer msg (keepMailbox env msg).1
        { stores with mailPool := some ⟨mailPool.tables, mailPool.faults.tail⟩ } := by
      simp [applyKeep, found, unnamed, AnyPool.exec_transaction, faulty]
    rw [eq]
    constructor
    · rw [deliverOrDefer_done]
      simp [PoolRefuses]
    · intro done
      cases deliverOrDefer_copied done with
      | jmap row pool pool' found' left added copy =>
        cases found'
        exact .jmap row mailPool pool' found left added copy
      | smtp row pool pool' found' left added copy =>
        exact .smtp row pool pool' found' left added copy
      | nntp nanos article next queued copy => exact .nntp nanos article next queued copy
  | none =>
    have inserted : ∃ pool', (applyKeep env msg stores) =
        (.done, { stores with mailPool := some pool' }) ∧
        pool'.tables.messages = (mailPool.tables.insertMessage (keepMailbox env msg).2
          msg.envelopeFrom msg.envelopeTo msg.rawBytes).messages := by
      simp only [applyKeep, found, unnamed, ne_eq, not_false_eq_true, if_true,
        AnyPool.exec_transaction, faulty]
      refine ⟨_, rfl, ?_⟩
      -- The state counter is written or not: the messages are the same.
      split <;> rfl
    obtain ⟨pool', eq, messages⟩ := inserted
    rw [eq]
    refine ⟨by simp [unnamed], fun _ => ?_⟩
    exact .jmap _ mailPool pool' found rfl messages rfl

theorem applyFileInto_newsgroup {folder newsgroup : String}
    (named : Text.stripStart "newsgroup:" folder = some newsgroup) :
    ((applyFileInto env msg folder stores).1 = .done ↔
      ¬ ((∃ e, newsgroupArticle msg newsgroup = .error e) ∨ ¬ stores.nntpQueue.dir.Answers 4)) ∧
    ((applyFileInto env msg folder stores).1 = .done →
      Copied msg stores (applyFileInto env msg folder stores).2) := by
  cases built : newsgroupArticle msg newsgroup with
  | error e => simp [applyFileInto, named, built]
  | ok built' =>
    obtain ⟨article, source⟩ := built'
    have copy : msg.rawBytes <:+ article := by
      unfold newsgroupArticle at built
      split at built
      · cases built
        exact List.suffix_refl _
      · cases added : addNewsgroupsHeader msg.rawBytes newsgroup with
        | error e => rw [added] at built; cases built
        | ok bytes =>
          rw [added] at built
          cases built
          obtain ⟨⟨⟩, -, rest⟩ := bind_eq_ok_iff.mp added
          cases rest
          exact List.suffix_append _ _
    have takes := @enqueue_eq_ok ⟨env.nanos stores.nntpQueue.seq, stores.nntpQueue.seq⟩ article source
      stores.nntpQueue.dir
    rcases queued : (enqueue ⟨env.nanos stores.nntpQueue.seq, stores.nntpQueue.seq⟩ article
      source).exec stores.nntpQueue.dir with ⟨e | ⟨⟩, dir⟩
    · rw [queued] at takes
      simp [applyFileInto, named, built, queued, ← takes]
    · rw [queued] at takes
      have answers := takes.mp rfl
      have eq : applyFileInto env msg folder stores =
          (.done, { stores with nntpQueue := ⟨dir, stores.nntpQueue.seq + 1⟩ }) := by
        simp [applyFileInto, named, built, queued]
      rw [eq]
      refine ⟨by simp [answers], fun _ => ?_⟩
      exact .nntp _ article rfl (msg_of_enqueue queued) copy

theorem applyAction_done (action : SieveAction) :
    (applyAction env msg action stores).1 = .done ↔ ¬ Reports env msg action stores := by
  cases action with
  | keep =>
    cases found : stores.mailPool with
    | none =>
      simp only [applyAction, applyKeep, Reports, found]
      cases pool : stores.pool <;> simp [deliverOrLog, pool]
    | some mailPool => simpa only [applyAction, Reports, found] using (applyKeep_jmap found).1
  | fileInto folder =>
    cases named : Text.stripStart "newsgroup:" folder with
    | none =>
      simp only [applyAction, applyFileInto, Reports, named]
      cases pool : stores.pool <;> simp [deliverOrLog, pool]
    | some newsgroup =>
      simpa only [applyAction, Reports, named] using (applyFileInto_newsgroup named).1
  | discard => simp [applyAction, Reports]
  | reject reason => simp [applyAction, Reports]

theorem stored_iff {action : SieveAction} (quiet : ¬ Reports env msg action stores) :
    Stored env msg action stores ↔ ¬ FailsSilently action stores := by
  -- Both are about the SMTP store alone where a failure is only logged.
  have logged : ∀ mailbox, stores.pool ≠ none →
      (Copied msg stores (deliverOrLog msg mailbox stores).2 ↔
        ¬ ∃ pool ∈ stores.pool, pool.fault ≠ none) := by
    intro mailbox configured
    obtain ⟨pool, found⟩ := Option.ne_none_iff_exists'.mp configured
    rw [deliverOrLog_stored mailbox found]
    simp [found]
  cases action with
  | keep =>
    cases found : stores.mailPool with
    | none =>
      simp only [Reports, found] at quiet
      simp only [Stored, SieveAction.NeedsCopy, true_implies, FailsSilently, applyAction, applyKeep,
        found, and_true]
      exact logged _ quiet
    | some mailPool =>
      have done := (applyAction_done (.keep)).mpr quiet
      refine iff_of_true (fun _ => (applyKeep_jmap found).2 done) ?_
      simp [FailsSilently, found]
  | fileInto folder =>
    cases named : Text.stripStart "newsgroup:" folder with
    | none =>
      simp only [Reports, named] at quiet
      simp only [Stored, SieveAction.NeedsCopy, true_implies, FailsSilently, applyAction,
        applyFileInto, named, and_true]
      exact logged _ quiet
    | some newsgroup =>
      have done := (applyAction_done (.fileInto folder)).mpr quiet
      refine iff_of_true (fun _ => (applyFileInto_newsgroup named).2 done) ?_
      simp [FailsSilently, named]
  | discard => simp [Stored, SieveAction.NeedsCopy, FailsSilently]
  | reject reason => simp [Stored, SieveAction.NeedsCopy, FailsSilently]

end Action

section Script

variable {env : DeliveryEnv} {msg : Inbound}

theorem applyActions_accepted (actions : List SieveAction) (noted : Bool) (stores : DeliveryStores) :
    (applyActions env msg actions noted stores).1 = .accepted false ↔ noted = false ∧
      AlongRun (applyAction env msg) (fun a s => ¬ Reports env msg a s) actions stores := by
  induction actions generalizing noted stores with
  | nil => simp [applyActions, AlongRun]
  | cons action rest ih =>
    have done := @applyAction_done env msg stores action
    simp only [applyActions, AlongRun, ← done]
    rcases applied : applyAction env msg action stores with ⟨_ | _ | _, stores'⟩
    · simp [ih]
    · simp [ih]
    · simp

theorem dataReply_ok_iff {outcome : SieveOutcome} :
    dataReply outcome = "250 OK\r\n" ↔ outcome = .accepted false := by
  rcases outcome with _ | (_ | _) | _ <;> simp [dataReply]

theorem deliver_ok_iff (actions : List SieveAction) (stores : DeliveryStores) :
    dataReply (deliverByActions env msg actions stores).1 = "250 OK\r\n" ↔
      firstReject actions = none ∧
        AlongRun (applyAction env msg) (fun a s => ¬ Reports env msg a s) actions stores := by
  rw [dataReply_ok_iff, deliverByActions]
  cases firstReject actions with
  | some reason => simp
  | none => simp [applyActions_accepted]

theorem alongRun_stored_iff (actions : List SieveAction) (stores : DeliveryStores)
    (quiet : AlongRun (applyAction env msg) (fun a s => ¬ Reports env msg a s) actions stores) :
    AlongRun (applyAction env msg) (Stored env msg) actions stores ↔
      AlongRun (applyAction env msg) (fun a s => ¬ FailsSilently a s) actions stores := by
  induction actions generalizing stores with
  | nil => exact Iff.rfl
  | cons action rest ih => exact and_congr (stored_iff quiet.1) (ih _ quiet.2)

end Script

/-- A positive reply means that every Keep and every FileInto has stored a copy, exactly if a
failure that is only logged never comes without one that is reported. -/
theorem data_ok_stores_copies_iff (env : DeliveryEnv) (msg : Inbound) (actions : List SieveAction)
    (stores : DeliveryStores) :
    (dataReply (deliverByActions env msg actions stores).1 = "250 OK\r\n" →
      AlongRun (applyAction env msg) (Stored env msg) actions stores) ↔ (firstReject actions = none →
      AlongRun (applyAction env msg) (fun a s => ¬ Reports env msg a s) actions stores →
        AlongRun (applyAction env msg) (fun a s => ¬ FailsSilently a s) actions stores) := by
  rw [deliver_ok_iff]
  constructor
  · intro stored noReject quiet
    exact (alongRun_stored_iff actions stores quiet).mp (stored ⟨noReject, quiet⟩)
  · rintro loud ⟨noReject, quiet⟩
    exact (alongRun_stored_iff actions stores quiet).mpr (loud noReject quiet)

/-! The only store is that of the SMTP server, and its disk is full. -/

namespace Sample

def noScripts : ScriptTable := ⟨[], List.nodup_nil, List.nodup_nil⟩

def fullDisk : DeliveryStores where
  pool := some ⟨⟨noScripts, []⟩, [some "database or disk is full"]⟩
  mailPool := none
  nntpQueue := ⟨⟨Files.empty, []⟩, 0⟩

def deliveryEnv : DeliveryEnv := ⟨none, fun _ => none, fun _ => 0⟩

def mail : Inbound := ⟨"a@b", "c@d", Text.asBytes "Subject: hi\r\n\r\nHello\r\n"⟩

/-- The message is answered with 250 and stored nowhere. -/
theorem full_disk_loses_message :
    dataReply (deliverByActions deliveryEnv mail [.keep] fullDisk).1 = "250 OK\r\n" ∧
      ¬ AlongRun (applyAction deliveryEnv mail) (Stored deliveryEnv mail) [.keep] fullDisk := by
  have quiet : ¬ Reports deliveryEnv mail .keep fullDisk := by
    simp [Reports, fullDisk]
  refine ⟨rfl, fun stored => ?_⟩
  refine (stored_iff quiet).mp stored.1 ⟨⟨_, rfl, ?_⟩, rfl⟩
  simp [AnyPool.fault]

end Sample

end Stoa.Smtp
