import Stoa.Core.MsgIdMap
import Stoa.Lib.Lines

/-! Newsgroups are shown as mailboxes below `News/`. -/
namespace Stoa.Imap

open Text

abbrev Tag := String

inductive StatusKind
  | ok | no | bad | bye
  deriving DecidableEq, Repr

inductive Code
  | readOnly
  | readWrite
  | uidValidity (value : Nat)
  | uidNext (value : Nat)
  | permanentFlags (flags : List String)
  deriving DecidableEq, Repr

structure Status where
  kind : StatusKind
  tag : Option Tag
  code : Option Code
  text : String
  deriving DecidableEq, Repr

def Status.ok (tag : Option Tag) (code : Option Code) (text : String) : Status := ⟨.ok, tag, code, text⟩

def Status.no (tag : Option Tag) (text : String) : Status := ⟨.no, tag, none, text⟩

def Status.bad (tag : Option Tag) (text : String) : Status := ⟨.bad, tag, none, text⟩

def Status.bye (text : String) : Status := ⟨.bye, none, none, text⟩

/-- A mailbox name on the wire. The name of the inbox is known in any case. -/
inductive Mailbox
  | inbox
  | other (name : Bytes)
  deriving DecidableEq, Repr

/-- `Mailbox::try_from`: a name without the byte zero, which no string on the wire holds. -/
def Mailbox.tryFrom (name : String) : Option Mailbox :=
  if (0x00 : UInt8) ∈ asBytes name then none
  else if sameIgnoringCase name "INBOX" then some .inbox
  else some (.other (asBytes name))

inductive StatusDataItemName
  | messages | recent | unseen | deleted | deletedStorage | uidNext | uidValidity
  deriving DecidableEq, Repr

inductive StatusDataItem
  | messages (count : Nat)
  | recent (count : Nat)
  | unseen (count : Nat)
  | deleted (count : Nat)
  | deletedStorage (octets : Nat)
  | uidNext (uid : Nat)
  | uidValidity (value : Nat)
  deriving DecidableEq, Repr

inductive Data
  | capability (capabilities : List String)
  | flags (flags : List String)
  | existing (count : Nat)
  | recent (count : Nat)
  | list (items : List String) (delimiter : Char) (mailbox : Mailbox)
  | status (mailbox : Mailbox) (items : List StatusDataItem)
  | search (found : List Nat)
  | enabled (capabilities : List String)
  /-- The prefix and the delimiter of the only namespace. -/
  | personal (start : String) (delimiter : Char)
  deriving DecidableEq, Repr

/-- A row of `imap_uid_validity`. -/
structure UidValidityRow where
  mailbox : String
  uidvalidity : Int
  nextUid : Int
  deriving DecidableEq, Repr

abbrev UidValidityTable := Table UidValidityRow UidValidityRow.mailbox

abbrev MailboxPool := AnyPool UidValidityTable

def UidValidityTable.find (table : UidValidityTable) (mailbox : String) : Option UidValidityRow :=
  table.rows.find? (·.mailbox == mailbox)

/-- An `i64` of the table as the `u32` of the protocol. -/
def clampU32 (v : Int) : Nat := if 0 ≤ v ∧ v < 2 ^ 32 then v.toNat else 1

def nonZero (n : Nat) : Nat := if n = 0 then 1 else n

def selectRow (mailbox : String) : Prog MailboxPool String (Option UidValidityRow) :=
  AnyPool.transaction fun table => (UidValidityTable.find table mailbox, table)

/-- `now` is the Unix time in seconds. -/
def freshUidvalidity (now : Nat) : Nat := max (min now (2 ^ 32 - 1)) 1

def getOrCreateUidvalidity (mailbox : String) (now : Nat) : Prog MailboxPool String (Nat × Nat) := do
  match ← selectRow mailbox with
  | some row => pure (clampU32 row.uidvalidity, clampU32 row.nextUid)
  | none =>
    AnyPool.transaction fun table =>
      ((), table.insertOrIgnore ⟨mailbox, freshUidvalidity now, 1⟩)
    match ← selectRow mailbox with
    | some row => pure (clampU32 row.uidvalidity, clampU32 row.nextUid)
    | none => throw "no rows returned by a query that expected to return at least one row"

def mailboxName : Mailbox → String
  | .inbox => "INBOX"
  | .other name => fromUtf8Lossy name

structure SelectResult where
  uidvalidity : Nat
  nextUid : Nat
  mailboxName : String
  taggedOk : Status
  deriving DecidableEq, Repr

def handleSelect (pool : MailboxPool) (tag : Tag) (mailbox : Mailbox) (readOnly : Bool) (now : Nat) :
    Except Status SelectResult × MailboxPool :=
  let name := mailboxName mailbox
  match (getOrCreateUidvalidity name now).exec pool with
  | (.error _, pool) => (.error (.no (some tag) "Internal error"), pool)
  | (.ok (uidvalidity, nextUid), pool) =>
    (.ok ⟨uidvalidity, nextUid, name, .ok (some tag) (some (if readOnly then .readOnly else .readWrite))
      (if readOnly then "EXAMINE complete" else "SELECT complete")⟩, pool)

def systemFlags : List String := ["\\Answered", "\\Flagged", "\\Deleted", "\\Seen", "\\Draft"]

def permanentFlags : List String := systemFlags ++ ["\\*"]

def selectUntaggedData (rev2Mode : Bool) : List Data :=
  [.flags systemFlags, .existing 0] ++ if rev2Mode then [] else [.recent 0]

def selectStatusResponses (result : SelectResult) : List Status :=
  [.ok none (some (.uidValidity (nonZero result.uidvalidity))) "UIDs valid",
    .ok none (some (.uidNext (nonZero result.nextUid))) "Predicted next UID",
    .ok none (some (.permanentFlags permanentFlags)) "Permanent flags"]

def maxGlobBytes : Nat := 1024

/-- The entries behind the first one of a row. `diagonal` and `above` are the entries of the
row before, `left` is the entry computed last. -/
def globRowFrom (p : UInt8) : Bytes → (prev : List Bool) → (left : Bool) → List Bool
  | b :: s, diagonal :: above :: prev, left =>
    let entry :=
      if p = 0x2a then above || left
      else if p = 0x25 then above || (b != 0x2f && left)
      else diagonal && p == b
    entry :: globRowFrom p s (above :: prev) entry
  | _, _, _ => []

def globRow (s : Bytes) (prev : List Bool) (p : UInt8) : List Bool :=
  let first := if p = 0x2a ∨ p = 0x25 then prev.headD false else false
  first :: globRowFrom p s prev first

def globBytes (pat s : Bytes) : Bool :=
  (pat.foldl (globRow s) (true :: s.map fun _ => false)).getLastD false

def globMatch (pattern name : String) : Bool :=
  if len pattern + len name > maxGlobBytes then false else globBytes (asBytes pattern) (asBytes name)

def mailboxFlags (name : String) : List String :=
  if name.toList.getLast? = some '/' then ["HasChildren", "\\Noselect"]
  else if name = "INBOX" then ["Inbox", "HasNoChildren"]
  else if name ∈ ["Sent", "Drafts", "Trash", "Junk", "Archive"] then [name, "HasNoChildren"]
  else ["HasNoChildren"]

def literalPart (pattern : String) : Option (List Char) :=
  let newsPart := ((stripStart "News/" pattern).getD "").toList
  let literal := newsPart.takeWhile fun c => c != '*' && c != '%'
  if literal = [] then none else some literal

/-- `LIKE` with a literal text and `%` behind it, which does not tell ASCII case. -/
def likeStart (literal : List Char) (name : String) : Bool :=
  ((name.toList.take literal.length).map Char.toLower) == literal.map Char.toLower

def sortedNames (names : List String) : List String :=
  names.insertionSort fun a b => bytesLe (asBytes a) (asBytes b) = true

def selectNames (pattern : String) : Prog MailboxPool String (List String) :=
  AnyPool.transaction fun table =>
    (sortedNames ((match literalPart pattern with
      | some literal => table.select fun row => likeStart literal row.mailbox
      | none => table.rows).map UidValidityRow.mailbox), table)

def imapName (dbName : String) : String := "News/" ++ dbName

def listRow (pattern dbName : String) : Option Data :=
  if globMatch pattern (imapName dbName) then
    (Mailbox.tryFrom (imapName dbName)).map (Data.list (mailboxFlags (imapName dbName)) '/')
  else none

def handleList (pool : MailboxPool) (reference : Mailbox) (wildcard : String) :
    List Data × MailboxPool :=
  let start := mailboxName reference
  let pattern := if start = "" then wildcard else start ++ "/" ++ wildcard
  match (selectNames pattern).exec pool with
  | (.error _, pool) => ([], pool)
  | (.ok rows, pool) => (rows.filterMap (listRow pattern), pool)

def statusItem (row : UidValidityRow) : StatusDataItemName → StatusDataItem
  | .messages => .messages 0
  | .recent => .recent 0
  | .unseen => .unseen 0
  | .deleted => .deleted 0
  | .deletedStorage => .deletedStorage 0
  | .uidNext => .uidNext (nonZero (clampU32 row.nextUid))
  | .uidValidity => .uidValidity (nonZero (clampU32 row.uidvalidity))

def handleStatus (pool : MailboxPool) (mailbox : Mailbox) (itemNames : List StatusDataItemName) :
    Option Data × MailboxPool :=
  match (selectRow (mailboxName mailbox)).exec pool with
  | (.error _, pool) => (none, pool)
  | (.ok row, pool) => (row.map fun row => .status mailbox (itemNames.map (statusItem row)), pool)

def handleNamespace : Data := .personal "" '/'

end Stoa.Imap
