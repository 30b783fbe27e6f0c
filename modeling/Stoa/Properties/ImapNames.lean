import Stoa.Imap.Mailbox
import Stoa.Lib.Runs

/-! `consistent_iff`: in a run of commands on a new database the names mean the same everywhere
exactly if no mailbox is selected or examined, that is, as long as there are no names. -/
namespace Stoa.Imap

open Text List AnyPool UidValidityTable

inductive MailboxCommand
  | select (mailbox : Mailbox) (readOnly : Bool) (now : Nat)
  | status (mailbox : Mailbox) (itemNames : List StatusDataItemName)
  | list (reference : Mailbox) (wildcard : String)

structure Names where
  pool : MailboxPool
  /-- The names that were selected or examined. -/
  selected : List Mailbox

def Names.new : Names := ⟨⟨.empty, []⟩, []⟩

def Names.step (tag : Tag) (command : MailboxCommand) (s : Names) : Unit × Names :=
  match command with
  | .select mailbox readOnly now =>
    match handleSelect s.pool tag mailbox readOnly now with
    | (.ok _, pool) => ((), ⟨pool, mailbox :: s.selected⟩)
    | (.error _, pool) => ((), ⟨pool, s.selected⟩)
  | .status mailbox itemNames => ((), ⟨(handleStatus s.pool mailbox itemNames).2, s.selected⟩)
  | .list reference wildcard => ((), ⟨(handleList s.pool reference wildcard).2, s.selected⟩)

/-- LIST with an empty reference and the pattern `*`. -/
def listAll (pool : MailboxPool) : List Data := (handleList pool (.other []) "*").1

def Listed (pool : MailboxPool) (mailbox : Mailbox) : Prop :=
  ∃ items, Data.list items '/' mailbox ∈ listAll pool

structure Consistent (tag : Tag) (s : Names) : Prop where
  /-- STATUS of a listed name gives the stored UIDVALIDITY of the mailbox that is listed. -/
  status : ∀ row ∈ s.pool.tables.rows, ∀ items mailbox,
    listRow "*" row.mailbox = some (.list items '/' mailbox) →
    (handleStatus s.pool mailbox [.uidValidity]).1 =
      some (.status mailbox [.uidValidity (nonZero (clampU32 row.uidvalidity))])
  /-- Selecting a listed name does not change what is listed. -/
  select : ∀ mailbox, Listed s.pool mailbox → ∀ readOnly now,
    listAll (handleSelect s.pool tag mailbox readOnly now).2 = listAll s.pool
  /-- A selected name is listed. -/
  listed : ∀ mailbox ∈ s.selected, Listed s.pool mailbox

def MailboxCommand.Selects : MailboxCommand → Prop
  | .select .. => True
  | _ => False

theorem not_inbox (dbName : String) : sameIgnoringCase (imapName dbName) "INBOX" = false := by
  rw [Bool.eq_false_iff]
  intro same
  rw [sameIgnoringCase, eqIgnoreAsciiCase, beq_iff_eq, imapName, asBytes_append, map_append] at same
  have first : toAsciiLowercase 0x4e = toAsciiLowercase 0x49 := by
    simpa [asBytes, String.utf8EncodeChar] using congrArg head? same
  exact absurd first (by decide)

theorem mailboxName_of_listRow {pattern dbName : String} {items : List String} {mailbox : Mailbox}
    (shown : listRow pattern dbName = some (.list items '/' mailbox)) :
    mailboxName mailbox = "News/" ++ dbName := by
  unfold listRow at shown
  split at shown
  · rw [Option.map_eq_some_iff] at shown
    obtain ⟨named, read, shape⟩ := shown
    cases shape
    rw [Mailbox.tryFrom, not_inbox] at read
    split at read
    · cases read
    · cases read
      exact fromUtf8Lossy_asBytes _
  · cases shown

theorem listed_iff {pool : MailboxPool} (answers : pool.faults = []) {mailbox : Mailbox} :
    Listed pool mailbox ↔
      ∃ row ∈ pool.tables.rows, ∃ items, listRow "*" row.mailbox = some (.list items '/' mailbox) := by
  have whole : literalPart "*" = none := by decide
  have start : mailboxName (.other []) = "" := by decide
  have all : listAll pool =
      (sortedNames (pool.tables.rows.map UidValidityRow.mailbox)).filterMap (listRow "*") := by
    rw [listAll, handleList, start]
    simp [selectNames, exec_transaction, fault, answers, whole]
  rw [Listed, all]
  simp only [mem_filterMap, sortedNames, (perm_insertionSort _ _).mem_iff, mem_map]
  constructor
  · rintro ⟨items, name, ⟨row, known, rfl⟩, shown⟩
    exact ⟨row, known, items, shown⟩
  · rintro ⟨row, known, items, shown⟩
    exact ⟨items, row.mailbox, ⟨row, known, rfl⟩, shown⟩

structure Untouched (s : Names) : Prop where
  rows : s.pool.tables.rows = []
  answers : s.pool.faults = []
  selected : s.selected = []

theorem Untouched.consistent {s : Names} (untouched : Untouched s) (tag : Tag) : Consistent tag s where
  status row mem := by simp [untouched.rows] at mem
  select mailbox shown := by simp [listed_iff untouched.answers, untouched.rows] at shown
  listed mailbox mem := by simp [untouched.selected] at mem

theorem Untouched.step {s : Names} {command : MailboxCommand} (untouched : Untouched s)
    (reads : ¬ command.Selects) (tag : Tag) : Untouched (s.step tag command).2 := by
  have fault : s.pool.fault = none := by simp [fault, untouched.answers]
  have same : (⟨s.pool.tables, s.pool.faults.tail⟩ : MailboxPool) = s.pool := by
    rw [untouched.answers, tail_nil, ← untouched.answers]
  have next : (s.step tag command).2 = s := by
    cases command with
    | select => exact absurd trivial reads
    | status mailbox itemNames =>
      simp [Names.step, handleStatus, selectRow, exec_transaction, fault, same]
    | list reference wildcard =>
      simp [Names.step, handleList, selectNames, exec_transaction, fault, same]
  rw [next]
  exact untouched

theorem Untouched.select {s : Names} (untouched : Untouched s) (tag : Tag) (mailbox : Mailbox)
    (readOnly : Bool) (now : Nat) : (s.step tag (.select mailbox readOnly now)).2.selected = [mailbox] ∧
    (s.step tag (.select mailbox readOnly now)).2.pool.faults = [] ∧
    (s.step tag (.select mailbox readOnly now)).2.pool.tables.rows =
      [⟨mailboxName mailbox, freshUidvalidity now, 1⟩] := by
  obtain ⟨⟨⟨rows, distinct⟩, faults⟩, selected⟩ := s
  obtain ⟨rfl, rfl, rfl⟩ := untouched
  have created : (Table.insertOrIgnore (⟨[], distinct⟩ : UidValidityTable)
      ⟨mailboxName mailbox, freshUidvalidity now, 1⟩).rows =
        [⟨mailboxName mailbox, freshUidvalidity now, 1⟩] := by
    simp [Table.rows_insertOrIgnore]
  have found : find (Table.insertOrIgnore (⟨[], distinct⟩ : UidValidityTable)
      ⟨mailboxName mailbox, freshUidvalidity now, 1⟩) (mailboxName mailbox) =
        some ⟨mailboxName mailbox, freshUidvalidity now, 1⟩ := by
    simp [find, created]
  have missing : find ⟨[], distinct⟩ (mailboxName mailbox) = none := rfl
  simp [Names.step, handleSelect, getOrCreateUidvalidity, selectRow, Prog.exec_bind,
    exec_transaction, fault, missing, found, created]

theorem Untouched.inconsistent {s : Names} {command : MailboxCommand} (untouched : Untouched s)
    (selects : ¬ ¬ command.Selects) (tag : Tag) : ¬ Consistent tag (s.step tag command).2 := by
  cases command with
  | status => exact absurd (fun no => no) selects
  | list => exact absurd (fun no => no) selects
  | select mailbox readOnly now =>
    obtain ⟨selected, answers, rows⟩ := untouched.select tag mailbox readOnly now
    intro consistent
    have shown := consistent.listed mailbox (by simp [selected])
    obtain ⟨row, known, items, shown⟩ := (listed_iff answers).mp shown
    rw [rows, mem_singleton] at known
    subst known
    -- The name would be itself with `News/` in front.
    have name := congrArg (fun s => s.toList.length) (mailboxName_of_listRow shown)
    simp only [String.toList_append, length_append] at name
    have longer : "News/".toList.length = 5 := by simp
    omega

/-- On a new database, names mean the same in every command exactly as long as no mailbox is
selected or examined. -/
theorem consistent_iff (tag : Tag) (commands : List MailboxCommand) :
    Throughout (Names.step tag) (Consistent tag) commands Names.new ↔
      ∀ command ∈ commands, ¬ command.Selects := by
  have start : Untouched Names.new := ⟨rfl, rfl, rfl⟩
  rw [ throughout_iff_of_unsafe (fun _ untouched => untouched.consistent tag)
    (fun _ _ untouched reads => untouched.step reads tag)
    (fun _ _ untouched selects => untouched.inconsistent selects tag) start, alongRun_const]

namespace Sample

def group : Mailbox := .other (asBytes "comp.lang.rust")

/-- A client selects a group, and asks for the status of what is listed then. -/
theorem group_inconsistent :
    ¬ Throughout (Names.step "a1") (Consistent "a1") [.select group false 1700000000] Names.new ∧
    listAll (Names.new.step "a1" (.select group false 1700000000)).2.pool =
      [.list ["HasNoChildren"] '/' (.other (asBytes "News/comp.lang.rust"))] ∧
    (handleStatus (Names.new.step "a1" (.select group false 1700000000)).2.pool
      (.other (asBytes "News/comp.lang.rust")) [.uidValidity]).1 = none := by
  refine ⟨?_, by decide +kernel, by decide +kernel⟩
  intro run
  have fresh : Untouched Names.new := ⟨rfl, rfl, rfl⟩
  exact @Untouched.inconsistent _ (.select group false 1700000000) fresh (not_not_intro trivial) "a1"
    run.last

end Sample

end Stoa.Imap
