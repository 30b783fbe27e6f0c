import Stoa.Core.GroupLog.Append
import Stoa.Core.MsgIdMap

/-! The reader appends a posted article to the log of each newsgroup, stamped with the wall clock
part of its hybrid clock, and gives it a local article number. -/
namespace Stoa

inductive InjectionSource
  | nntpPost
  | smtpNewsgroups
  | smtpSieve
  | smtpListId
  deriving DecidableEq, Repr

def InjectionSource.isPeerable : InjectionSource → Bool
  | nntpPost | smtpNewsgroups | smtpSieve => true
  | smtpListId => false

structure Response where
  code : UInt16
  text : String
  body : List String
  multiline : Bool
  deriving DecidableEq, Repr

def Response.new (code : UInt16) (text : String) : Response := ⟨code, text, [], false⟩

structure ArticleNumberRow where
  groupName : String
  articleNumber : Nat
  cid : Bytes
  deriving DecidableEq

def ArticleNumberRow.key (r : ArticleNumberRow) : String × Nat := (r.groupName, r.articleNumber)

abbrev ArticleNumberStore := AnyPool (Table ArticleNumberRow ArticleNumberRow.key)

namespace ArticleNumberStore

def new : ArticleNumberStore := ⟨Table.empty, []⟩

def numbersOf (rows : Table ArticleNumberRow ArticleNumberRow.key) (group : String) (cid : Bytes) :
    List ArticleNumberRow :=
  rows.select fun r => decide (r.groupName = group) && decide (r.cid = cid)

def assignNumber (group : String) (cid : Cid) : Prog ArticleNumberStore String Nat := do
  let found ← AnyPool.transaction fun (rows : Table ArticleNumberRow ArticleNumberRow.key) =>
    let last := ((rows.select fun r => decide (r.groupName = group)).map
      ArticleNumberRow.articleNumber).foldl max 0
    let rows := if (numbersOf rows group cid.toBytes).isEmpty
      then rows.insertOrIgnore ⟨group, last + 1, cid.toBytes⟩ else rows
    (numbersOf rows group cid.toBytes, rows)
  match found with
  | [] => throw "no rows returned by a query that expected to return at least one row"
  | row :: _ => return row.articleNumber

def lastNumber (rows : Table ArticleNumberRow ArticleNumberRow.key) (group : String) : Nat :=
  ((rows.select fun r => decide (r.groupName = group)).map
    ArticleNumberRow.articleNumber).foldl max 0

theorem le_foldl_max {l : List Nat} {n start : Nat} (h : n ≤ start ∨ n ∈ l) : n ≤ l.foldl max start := by
  induction l generalizing start with
  | nil => simpa using h
  | cons m l ih =>
    apply ih
    rcases h with below | here
    · exact .inl (le_max_of_le_left below)
    · rcases List.mem_cons.mp here with rfl | later
      · exact .inl (le_max_right _ _)
      · exact .inr later

theorem nextNumber_fresh (rows : Table ArticleNumberRow ArticleNumberRow.key) (group : String) :
    (group, lastNumber rows group + 1) ∉ rows.rows.map ArticleNumberRow.key := by
  intro taken
  obtain ⟨row, mem, key⟩ := List.mem_map.mp taken
  obtain ⟨sameGroup, sameNumber⟩ := Prod.mk.inj key
  have listed : row.articleNumber ∈ (rows.select fun r => decide (r.groupName = group)).map
      ArticleNumberRow.articleNumber :=
    List.mem_map_of_mem (List.mem_filter.mpr ⟨mem, decide_eq_true sameGroup⟩)
  have bound : row.articleNumber ≤ lastNumber rows group := le_foldl_max (.inr listed)
  omega

theorem assignNumber_returns {store : ArticleNumberStore} (faultless : store.faults = [])
    (group : String) (cid : Cid) :
    ∃ n store', (assignNumber group cid).exec store = (.ok n, store') ∧ store'.faults = [] := by
  rcases store with ⟨rows, faults⟩
  obtain rfl : faults = [] := faultless
  let rows' := if (numbersOf rows group cid.toBytes).isEmpty
    then rows.insertOrIgnore ⟨group, lastNumber rows group + 1, cid.toBytes⟩ else rows
  have query : (assignNumber group cid).exec ⟨rows, []⟩ =
      (match numbersOf rows' group cid.toBytes with
        | [] => throw "no rows returned by a query that expected to return at least one row"
        | row :: _ => pure row.articleNumber : Prog ArticleNumberStore String Nat).exec ⟨rows', []⟩ :=
    Prog.exec_bind_ok _ rfl
  -- The article has a row before, or the one that was just inserted.
  have numbered : numbersOf rows' group cid.toBytes ≠ [] := by
    by_cases none : (numbersOf rows group cid.toBytes).isEmpty
    · have inserted : (⟨group, lastNumber rows group + 1, cid.toBytes⟩ : ArticleNumberRow) ∈
          rows'.rows := by
        have fresh : (⟨group, lastNumber rows group + 1, cid.toBytes⟩ : ArticleNumberRow).key ∉
            rows.rows.map ArticleNumberRow.key := nextNumber_fresh rows group
        simp only [rows', if_pos none]
        rw [Table.rows_insertOrIgnore, if_neg fresh]
        simp
      exact List.ne_nil_of_mem (List.mem_filter.mpr ⟨inserted, by simp⟩)
    · simpa only [rows', if_neg none, List.isEmpty_iff] using none
  cases found : numbersOf rows' group cid.toBytes with
  | nil => exact absurd found numbered
  | cons row more =>
    rw [found] at query
    exact ⟨row.articleNumber, ⟨rows', []⟩, query, rfl⟩

end ArticleNumberStore

structure AppendResult where
  assignments : List (String × Nat)
  deriving DecidableEq

structure Reader (S : Type) where
  logStorage : S
  articleNumbers : ArticleNumberStore

def entryIdToCid (id : LogEntryId) : Cid :=
  Cid.newV1 0x71 (.ofDigest id.asBytes)

section Post

variable (ed : Ed25519) {S : Type} [LogStorage S]

def postEntry (signingKey : SigningKey) (hlcTs : UInt64) (articleCid : Cid)
    (currentTips : List LogEntryId) : LogEntry :=
  let parentCids := currentTips.map entryIdToCid
  let canonical := toBeBytes hlcTs ++ articleCid.toBytes ++
    (sortBytes (parentCids.map Cid.toBytes)).flatten
  let operatorSignature := (ed.sign signingKey canonical).toBytes
  ⟨⟨hlcTs, 0, FixedBytes.fill 8 0⟩, articleCid, operatorSignature, parentCids⟩

def appendPost (signingKey : SigningKey) (hlcTs : UInt64) (articleCid : Cid) (group : GroupName) :
    Prog S Response Unit := do
  let currentTips ← (LogStorage.listTips group).mapError fun e =>
    Response.new 441 ("storage error listing tips: " ++ e.toString)
  let entry := postEntry ed signingKey hlcTs articleCid currentTips
  match verifySignature ed entry (ed.verifyingKey signingKey) with
  | .error e => throw (Response.new 441 ("log entry self-check failed: " ++ e.toString))
  | .ok verified =>
    let _ ← (append group verified).mapError fun e =>
      Response.new 441 ("log append failed for " ++ group.asStr ++ ": " ++ e.toString)

namespace Reader

variable {ε α : Type}

def onLogStorage (x : Prog S ε α) : Prog (Reader S) ε α :=
  x.zoom logStorage fun logStorage t => { t with logStorage }

def onArticleNumbers (x : Prog ArticleNumberStore ε α) : Prog (Reader S) ε α :=
  x.zoom articleNumbers fun articleNumbers t => { t with articleNumbers }

end Reader

def appendIfPeerable (articleCid : Cid) (signingKey : SigningKey) (source : InjectionSource)
    (group : GroupName) (hlcTs : UInt64) : Prog (Reader S) Response Unit :=
  if source.isPeerable then Reader.onLogStorage (appendPost ed signingKey hlcTs articleCid group)
  else pure ()

def appendToEach (articleCid : Cid) (signingKey : SigningKey) (source : InjectionSource) :
    List (GroupName × UInt64) → Prog (Reader S) Response (List (String × Nat))
  | [] => pure []
  | (group, hlcTs) :: rest => do
    appendIfPeerable ed articleCid signingKey source group hlcTs
    let articleNumber ← Reader.onArticleNumbers
      ((ArticleNumberStore.assignNumber group.asStr articleCid).mapError fun e =>
        Response.new 441 ("article number assignment failed: " ++ e))
    let later ← appendToEach articleCid signingKey source rest
    return (group.asStr, articleNumber) :: later

def appendToGroups (hlcTimestamps : List UInt64) (articleCid : Cid) (signingKey : SigningKey)
    (newsgroups : List GroupName) (source : InjectionSource) :
    Prog (Reader S) Response AppendResult := do
  if hlcTimestamps.length ≠ newsgroups.length then
    throw (Response.new 500 ("Internal error: hlc_timestamps length " ++
      toString hlcTimestamps.length ++ " != newsgroups length " ++ toString newsgroups.length))
  else
    let assignments ← appendToEach ed articleCid signingKey source (newsgroups.zip hlcTimestamps)
    return ⟨assignments⟩

theorem appendToGroups_local {hlcTimestamps : List UInt64} {newsgroups : List GroupName}
    {source : InjectionSource} {reader : Reader S} (stays : source.isPeerable = false)
    (faultless : reader.articleNumbers.faults = [])
    (stamps : hlcTimestamps.length = newsgroups.length) (articleCid : Cid) (signingKey : SigningKey) :
    ∃ result reader', (appendToGroups ed hlcTimestamps articleCid signingKey newsgroups source).exec
      reader = (.ok result, reader') ∧ reader'.articleNumbers.faults = [] := by
  have each : ∀ (groups : List (GroupName × UInt64)) (reader : Reader S),
      reader.articleNumbers.faults = [] → ∃ assignments reader',
        (appendToEach ed articleCid signingKey source groups).exec reader =
          (.ok assignments, reader') ∧ reader'.articleNumbers.faults = [] := by
    intro groups
    induction groups with
    | nil => exact fun reader faultless => ⟨[], reader, rfl, faultless⟩
    | cons first rest ih =>
      intro reader faultless
      obtain ⟨n, store, assigned, faultless'⟩ :=
        ArticleNumberStore.assignNumber_returns faultless first.1.asStr articleCid
      obtain ⟨later, reader', run, still⟩ := ih { reader with articleNumbers := store } faultless'
      have skipped : (appendIfPeerable ed articleCid signingKey source first.1 first.2 :
          Prog (Reader S) Response Unit).exec reader = (.ok (), reader) := by
        simp [appendIfPeerable, stays]
      have numbered : (Reader.onArticleNumbers ((ArticleNumberStore.assignNumber first.1.asStr
          articleCid).mapError fun e => Response.new 441 ("article number assignment failed: " ++ e)) :
          Prog (Reader S) Response Nat).exec reader =
            (.ok n, { reader with articleNumbers := store }) := by
        simp [Reader.onArticleNumbers, Prog.exec_mapError, assigned]
      exact ⟨(first.1.asStr, n) :: later, reader', (Prog.exec_bind_ok _ skipped).trans
        ((Prog.exec_bind_ok _ numbered).trans (Prog.exec_bind_ok _ run)), still⟩
  obtain ⟨assignments, reader', run, still⟩ := each (newsgroups.zip hlcTimestamps) reader faultless
  refine ⟨⟨assignments⟩, reader', ?_, still⟩
  rw [appendToGroups, if_neg (not_not.mpr stamps), Prog.exec_bind_ok _ run]
  rfl

end Post

end Stoa
