import Stoa.Lib.Lines
import Stoa.Mail.State
import Stoa.Smtp.QueueDrain
import Stoa.Smtp.Store

/-! What the actions of a Sieve script do with a message: it is kept in the JMAP store or in the
store of the SMTP server, filed into a folder, or queued for the news reader. -/
namespace Stoa.Smtp

open Mail (MailPool)

def headerSectionEnd (bytes : Bytes) : Nat :=
  match findInfix [0x0d, 0x0a, 0x0d, 0x0a] bytes with
  | some p => p + 2
  | none => match findInfix [0x0a, 0x0a] bytes with
    | some p => p + 1
    | none => bytes.length

def hasWindow (needle bytes : Bytes) : Bool :=
  bytes.tails.any fun tail => Text.eqIgnoreAsciiCase (tail.take needle.length) needle

def hasNewsgroupsHeader (rawMessage : Bytes) : Bool :=
  let headers := rawMessage.take (headerSectionEnd rawMessage)
  hasWindow (Text.asBytes "\nNewsgroups:") headers ||
    (decide (11 ≤ headers.length) &&
      Text.eqIgnoreAsciiCase (headers.take 11) (Text.asBytes "Newsgroups:"))

def validateNewsgroupName (name : String) : Except String Unit :=
  if name.toList.any (fun c => c == '\r' || c == '\n') then
    .error ("newsgroup name contains CR or LF (header injection attempt): " ++ MsgIdMap.debugStr name)
  else if name = "" then .error "newsgroup name is empty"
  else if !name.toList.all (fun c => c.isLower || c.isDigit || c == '.' || c == '-' || c == '+') then
    .error ("newsgroup name contains invalid characters: " ++ MsgIdMap.debugStr name)
  else .ok ()

def addNewsgroupsHeader (rawMessage : Bytes) (newsgroup : String) : Except String Bytes := do
  validateNewsgroupName newsgroup
  return Text.asBytes ("Newsgroups: " ++ newsgroup ++ "\r\n") ++ rawMessage

def parseListId (headerValue : String) : Option String :=
  let trimmed := (Text.trim headerValue).toList
  let afterOpen := (trimmed.dropWhile (· != '<')).drop 1
  if '<' ∈ trimmed ∧ '>' ∈ afterOpen then
    let inner := Text.trim (String.ofList (afterOpen.reverse.dropWhile (· != '>')).tail.reverse)
    if inner = "" then none else some inner
  else none

def listMailboxId (name : String) : String :=
  String.ofList ((Multibase.base32Lower ((Sha256.digest (Text.asBytes name)).toBytes.take 16)).toList.map
    Char.toUpper)

inductive SieveAction
  | keep
  | fileInto (folder : String)
  | discard
  | reject (reason : String)
  deriving DecidableEq, Repr

inductive SieveOutcome
  | rejected (reason : String)
  | accepted (nntpQueueError : Bool)
  | transientError
  deriving DecidableEq, Repr

structure NntpQueue where
  dir : QueueDir
  seq : Nat

structure Inbound where
  envelopeFrom : String
  envelopeTo : String
  rawBytes : Bytes
  deriving DecidableEq

structure DeliveryStores where
  pool : Option SmtpPool
  mailPool : Option MailPool
  nntpQueue : NntpQueue

/-- What a delivery needs to know besides: the id of the inbox, the parser for the header
with the list id, and the clock. -/
structure DeliveryEnv where
  inboxMailboxId : Option String
  listIdHeader : Bytes → Option String
  nanos : Nat → Nat

/-- The effect of one action: the loop goes on, with or without an error noted, or ends. -/
inductive Applied
  | done
  | queueError
  | transientError
  deriving DecidableEq, Repr

def globalScriptKey : String := "_global"

section Actions

variable (env : DeliveryEnv) (msg : Inbound)

/-- The mailbox of a message that is kept, and its id in the JMAP store. -/
def keepMailbox : String × String :=
  match (env.listIdHeader (msg.rawBytes.take (headerSectionEnd msg.rawBytes))).bind parseListId with
  | some listId => ("List/" ++ listId, listMailboxId ("List/" ++ listId))
  | none => ("INBOX", env.inboxMailboxId.getD "")

def mailboxMessage (mailbox : String) : MailboxMessage :=
  ⟨globalScriptKey, mailbox, msg.envelopeFrom, msg.envelopeTo, msg.rawBytes⟩

def deliverOrDefer (mailbox : String) (stores : DeliveryStores) : Applied × DeliveryStores :=
  match stores.pool with
  | none => (.transientError, stores)
  | some pool => match (deliver (mailboxMessage msg mailbox)).exec pool with
    | (.ok (), pool) => (.done, { stores with pool := some pool })
    | (.error _, pool) => (.transientError, { stores with pool := some pool })

def deliverOrLog (mailbox : String) (stores : DeliveryStores) : Applied × DeliveryStores :=
  match stores.pool with
  | none => (.transientError, stores)
  | some pool =>
    (.done, { stores with pool := some ((deliver (mailboxMessage msg mailbox)).exec pool).2 })

def applyKeep (stores : DeliveryStores) : Applied × DeliveryStores :=
  let (smtpMailbox, jmapMailboxId) := keepMailbox env msg
  match stores.mailPool with
  | none => deliverOrLog msg smtpMailbox stores
  | some mailPool =>
    if jmapMailboxId ≠ "" then
      match (AnyPool.transaction fun tables => ((), Mail.MailTables.insertMessage tables jmapMailboxId
          msg.envelopeFrom msg.envelopeTo msg.rawBytes)).exec mailPool with
      | (.ok (), mailPool) =>
        -- An error of the state counter is ignored.
        let bumped := (AnyPool.transaction fun tables =>
          ((), Mail.MailTables.bump tables 1 "Email")).exec mailPool
        (.done, { stores with mailPool := some bumped.2 })
      | (.error _, mailPool) =>
        deliverOrDefer msg smtpMailbox { stores with mailPool := some mailPool }
    else deliverOrDefer msg smtpMailbox stores

def newsgroupArticle (newsgroup : String) : Except String (Bytes × InjectionSource) :=
  if hasNewsgroupsHeader msg.rawBytes then .ok (msg.rawBytes, .smtpNewsgroups)
  else (addNewsgroupsHeader msg.rawBytes newsgroup).map fun article => (article, .smtpSieve)

def applyFileInto (folder : String) (stores : DeliveryStores) : Applied × DeliveryStores :=
  match Text.stripStart "newsgroup:" folder with
  | none => deliverOrLog msg folder stores
  | some newsgroup => match newsgroupArticle msg newsgroup with
    | .error _ => (.queueError, stores)
    | .ok (article, source) =>
      let queue := stores.nntpQueue
      match (enqueue ⟨env.nanos queue.seq, queue.seq⟩ article source).exec queue.dir with
      | (.ok (), dir) => (.done, { stores with nntpQueue := ⟨dir, queue.seq + 1⟩ })
      | (.error _, dir) => (.queueError, { stores with nntpQueue := ⟨dir, queue.seq + 1⟩ })

def applyAction (action : SieveAction) (stores : DeliveryStores) : Applied × DeliveryStores :=
  match action with
  | .keep => applyKeep env msg stores
  | .fileInto folder => applyFileInto env msg folder stores
  | .discard | .reject _ => (.done, stores)

def applyActions : List SieveAction → (nntpQueueError : Bool) → DeliveryStores →
    SieveOutcome × DeliveryStores
  | [], nntpQueueError, stores => (.accepted nntpQueueError, stores)
  | action :: rest, nntpQueueError, stores =>
    match applyAction env msg action stores with
    | (.done, stores) => applyActions rest nntpQueueError stores
    | (.queueError, stores) => applyActions rest true stores
    | (.transientError, stores) => (.transientError, stores)

def firstReject : List SieveAction → Option String
  | [] => none
  | .reject reason :: _ => some reason
  | _ :: rest => firstReject rest

def deliverByActions (actions : List SieveAction) (stores : DeliveryStores) :
    SieveOutcome × DeliveryStores :=
  match firstReject actions with
  | some reason => (.rejected reason, stores)
  | none => applyActions env msg actions false stores

end Actions

def dataReply : SieveOutcome → String
  | .rejected _ => "550 Message rejected by recipient policy\r\n"
  | .accepted true => "452 4.3.1 Queue write failed - try again later\r\n"
  | .accepted false => "250 OK\r\n"
  | .transientError => "452 4.3.0 Mailbox temporarily unavailable\r\n"

end Stoa.Smtp
