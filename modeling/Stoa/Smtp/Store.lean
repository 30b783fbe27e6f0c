import Stoa.Core.MsgIdMap

/-! Sieve scripts and delivered messages of the SMTP server, in one database. -/
namespace Stoa.Smtp

open List
structure SieveScript where
  username : String
  scriptName : String
  scriptBytes : Bytes
  active : Bool
  deriving DecidableEq

def SieveScript.key (script : SieveScript) : String × String := (script.username, script.scriptName)

structure ScriptTable where
  rows : List SieveScript
  unique : (rows.map SieveScript.key).Nodup
  oneActive : ((rows.filter SieveScript.active).map SieveScript.username).Nodup

namespace ScriptTable

theorem oneActive_iff {rows : List SieveScript} :
    ((rows.filter SieveScript.active).map SieveScript.username).Nodup ↔
      rows.Pairwise fun a b => a.active = true → b.active = true → a.username ≠ b.username := by
  rw [List.Nodup, pairwise_map, pairwise_filter]

theorem unique_map {rows : List SieveScript} {f : SieveScript → SieveScript}
    (unique : (rows.map SieveScript.key).Nodup) (sameKey : ∀ r, (f r).key = r.key) :
    ((rows.map f).map SieveScript.key).Nodup := by
  rw [map_map, show SieveScript.key ∘ f = SieveScript.key from funext sameKey]
  exact unique

variable {table : ScriptTable}

/-- An update outside the key activates nothing but the script `key`, and this only if no other
script of the user is active. -/
theorem oneActive_map {f : SieveScript → SieveScript} {key : String × String}
    (sameKey : ∀ r, (f r).key = r.key) (only : ∀ r ∈ table.rows, (f r).active = true → r.active = true ∨
      r.key = key ∧ ∀ other ∈ table.rows, other.active = true → other.username = key.1 → other.key = key) :
    (((table.rows.map f).filter SieveScript.active).map SieveScript.username).Nodup := by
  have sameUser : ∀ r, (f r).username = r.username := fun r => congrArg Prod.fst (sameKey r)
  have distinct := table.unique
  have once := table.oneActive
  rw [List.Nodup, pairwise_map] at distinct
  rw [oneActive_iff] at once ⊢
  rw [pairwise_map]
  refine (distinct.and once).imp_of_mem fun {a b} hereA hereB apart activeA activeB same => ?_
  rw [sameUser, sameUser] at same
  -- If one of the two is the script `key`, so is the other.
  rcases only a hereA activeA with wasA | ⟨isA, alone⟩
  · rcases only b hereB activeB with wasB | ⟨isB, alone⟩
    · exact apart.2 wasA wasB same
    · exact apart.1 ((alone a hereA wasA (same.trans (congrArg Prod.fst isB))).trans isB.symm)
  · rcases only b hereB activeB with wasB | ⟨isB, -⟩
    · exact apart.1 (isA.trans (alone b hereB wasB (same.symm.trans (congrArg Prod.fst isA))).symm)
    · exact apart.1 (isA.trans isB.symm)

/-- `UPDATE .. SET active = 0 WHERE p`, on one row. -/
def deactivated (p : SieveScript → Bool) (script : SieveScript) : SieveScript :=
  if p script then { script with active := false } else script

@[simp] theorem key_deactivated (p : SieveScript → Bool) (script : SieveScript) :
    (deactivated p script).key = script.key := by
  unfold deactivated
  split <;> rfl

@[simp] theorem active_deactivated (p : SieveScript → Bool) (script : SieveScript) :
    (deactivated p script).active = (script.active && !p script) := by
  unfold deactivated
  split <;> simp_all

theorem oneActive_deactivated (table : ScriptTable) (p : SieveScript → Bool) :
    (((table.rows.map (deactivated p)).filter SieveScript.active).map SieveScript.username).Nodup :=
  @oneActive_map table _ ("", "") (key_deactivated p) fun r _ active => .inl (by simp_all)

def deactivate (table : ScriptTable) (p : SieveScript → Bool) : ScriptTable where
  rows := table.rows.map (deactivated p)
  unique := unique_map table.unique (key_deactivated p)
  oneActive := oneActive_deactivated table p

def Alone (table : ScriptTable) (key : String × String) : Prop :=
  ∀ other ∈ table.rows, other.active = true → other.username = key.1 → other.key = key

/-- `UPDATE .. SET script_bytes, active WHERE username, script_name`, on one row. -/
def replaced (script r : SieveScript) : SieveScript :=
  if r.key = script.key then { r with scriptBytes := script.scriptBytes, active := script.active } else r

@[simp] theorem key_replaced (script r : SieveScript) : (replaced script r).key = r.key := by
  unfold replaced
  split <;> rfl

variable {script : SieveScript}

theorem replaced_of_key {r : SieveScript} (same : r.key = script.key) : replaced script r = script := by
  unfold replaced
  rw [if_pos same]
  simp only [SieveScript.key, Prod.mk.injEq] at same
  rw [SieveScript.mk.injEq]
  exact ⟨same.1, same.2, rfl, rfl⟩

theorem oneActive_replaced (alone : script.active = true → table.Alone script.key) :
    (((table.rows.map (replaced script)).filter SieveScript.active).map SieveScript.username).Nodup := by
  refine @oneActive_map table _ script.key (key_replaced script) fun r _ active => ?_
  by_cases same : r.key = script.key
  · rw [replaced_of_key same] at active
    exact .inr ⟨same, alone active⟩
  · rw [replaced, if_neg same] at active
    exact .inl active

theorem unique_append (fresh : script.key ∉ table.rows.map SieveScript.key) :
    ((table.rows ++ [script]).map SieveScript.key).Nodup := by
  rw [map_append, map_singleton, ← concat_eq_append]
  exact table.unique.concat fresh

theorem oneActive_append (fresh : script.key ∉ table.rows.map SieveScript.key)
    (alone : script.active = true → table.Alone script.key) :
    (((table.rows ++ [script]).filter SieveScript.active).map SieveScript.username).Nodup := by
  rw [oneActive_iff, pairwise_append]
  refine ⟨oneActive_iff.mp table.oneActive, pairwise_singleton .., ?_⟩
  intro old here new last activeOld activeNew same
  rw [mem_singleton] at last
  subst last
  exact fresh (mem_map.mpr ⟨old, here, alone activeNew old here activeOld same⟩)

/-- `INSERT .. ON CONFLICT (username, script_name) DO UPDATE`. -/
def upsert (table : ScriptTable) (script : SieveScript)
    (alone : script.active = true → table.Alone script.key) : ScriptTable :=
  if taken : script.key ∈ table.rows.map SieveScript.key then
    ⟨table.rows.map (replaced script), unique_map table.unique (key_replaced script),
      oneActive_replaced alone⟩
  else ⟨table.rows ++ [script], unique_append taken, oneActive_append taken alone⟩

theorem alone_deactivate {key : String × String} {p : SieveScript → Bool}
    (others : ∀ r, r.active = true → r.username = key.1 → r.key ≠ key → p r = true) :
    (table.deactivate p).Alone key := by
  intro other here active user
  obtain ⟨old, -, rfl⟩ := mem_map.mp here
  rw [active_deactivated, Bool.and_eq_true, Bool.not_eq_true'] at active
  rw [key_deactivated]
  by_contra different
  have sameUser : old.username = key.1 := by
    rw [← user]
    exact (congrArg Prod.fst (key_deactivated p old)).symm
  exact absurd (others old active.1 sameUser different) (by simp [active.2])

def otherActive (username scriptName : String) (r : SieveScript) : Bool :=
  decide (r.username = username) && decide (r.scriptName ≠ scriptName) && r.active

theorem alone_otherActive (table : ScriptTable) (username scriptName : String) :
    (table.deactivate (otherActive username scriptName)).Alone (username, scriptName) := by
  refine alone_deactivate fun r active user different => ?_
  simp only [SieveScript.key, ne_eq, Prod.mk.injEq, not_and] at different
  simp [otherActive, active, user, different user]

def save (table : ScriptTable) (username scriptName : String) (scriptBytes : Bytes) :
    (active : Bool) → ScriptTable
  | true => (table.deactivate (otherActive username scriptName)).upsert
      ⟨username, scriptName, scriptBytes, true⟩ fun _ => alone_otherActive table username scriptName
  | false => table.upsert ⟨username, scriptName, scriptBytes, false⟩ fun active => absurd active Bool.false_ne_true

def delete (table : ScriptTable) (username scriptName : String) : ScriptTable where
  rows := table.rows.filter fun r => decide (r.key ≠ (username, scriptName))
  unique := table.unique.sublist (filter_sublist.map _)
  oneActive := table.oneActive.sublist ((filter_sublist.filter _).map _)

/-- `UPDATE .. SET active = 1 WHERE username, script_name`, on one row. -/
def activated (key : String × String) (r : SieveScript) : SieveScript :=
  if r.key = key then { r with active := true } else r

@[simp] theorem key_activated (key : String × String) (r : SieveScript) : (activated key r).key = r.key := by
  unfold activated
  split <;> rfl

theorem oneActive_activated {key : String × String} (alone : table.Alone key) :
    (((table.rows.map (activated key)).filter SieveScript.active).map SieveScript.username).Nodup := by
  refine @oneActive_map table _ key (key_activated key) fun r _ active => ?_
  by_cases same : r.key = key
  · exact .inr ⟨same, alone⟩
  · rw [activated, if_neg same] at active
    exact .inl active

theorem alone_sameUser (table : ScriptTable) (username scriptName : String) :
    (table.deactivate fun r => decide (r.username = username)).Alone (username, scriptName) :=
  alone_deactivate fun _ _ user _ => decide_eq_true user

def activate (table : ScriptTable) (username scriptName : String) : ScriptTable where
  rows := (table.deactivate fun r => decide (r.username = username)).rows.map (activated (username, scriptName))
  unique := unique_map (table.deactivate _).unique (key_activated _)
  oneActive := oneActive_activated (alone_sameUser table username scriptName)

def get (table : ScriptTable) (username scriptName : String) : Option Bytes :=
  (table.rows.find? fun r => decide (r.key = (username, scriptName))).map SieveScript.scriptBytes

def activeRow (table : ScriptTable) (username : String) : Option SieveScript :=
  table.rows.find? fun r => decide (r.username = username) && r.active

theorem eq_of_key {a b : SieveScript} (hereA : a ∈ table.rows)
    (hereB : b ∈ table.rows) (same : a.key = b.key) : a = b :=
  inj_on_of_nodup_map table.unique hereA hereB same

theorem eq_of_active {a b : SieveScript} (hereA : a ∈ table.rows)
    (hereB : b ∈ table.rows) (activeA : a.active = true) (activeB : b.active = true)
    (same : a.username = b.username) : a = b :=
  inj_on_of_nodup_map table.oneActive (mem_filter.mpr ⟨hereA, activeA⟩)
    (mem_filter.mpr ⟨hereB, activeB⟩) same

variable {username : String}

theorem get_eq_some {scriptName : String} {bytes : Bytes} : table.get username scriptName = some bytes ↔
      ∃ r ∈ table.rows, r.key = (username, scriptName) ∧ r.scriptBytes = bytes := by
  unfold get
  rw [Option.map_eq_some_iff]
  constructor
  · rintro ⟨r, found, bytes⟩
    exact ⟨r, mem_of_find?_eq_some found, by simpa using List.find?_some found, bytes⟩
  · rintro ⟨r, here, key, bytes⟩
    cases found : table.rows.find? fun r => decide (r.key = (username, scriptName)) with
    | none => exact absurd (List.find?_eq_none.mp found r here) (by simp [key])
    | some r' =>
      have key' : r'.key = (username, scriptName) := by simpa using List.find?_some found
      exact ⟨r', rfl, by rw [eq_of_key (mem_of_find?_eq_some found) here (key'.trans key.symm), bytes]⟩

theorem activeRow_eq_some {r : SieveScript} :
    table.activeRow username = some r ↔ r ∈ table.rows ∧ r.username = username ∧ r.active = true := by
  unfold activeRow
  constructor
  · intro found
    exact ⟨mem_of_find?_eq_some found, by simpa using List.find?_some found⟩
  · rintro ⟨here, user, active⟩
    cases found : table.rows.find? fun r => decide (r.username = username) && r.active with
    | none => exact absurd (List.find?_eq_none.mp found r here) (by simp [user, active])
    | some r' =>
      have row : r'.username = username ∧ r'.active = true := by simpa using List.find?_some found
      rw [eq_of_active (mem_of_find?_eq_some found) here row.2 active (row.1.trans user.symm)]

theorem mem_upsert {r : SieveScript} {alone : script.active = true → table.Alone script.key} :
    r ∈ (table.upsert script alone).rows ↔ r = script ∨ r ∈ table.rows ∧ r.key ≠ script.key := by
  unfold upsert
  split
  · next taken =>
    obtain ⟨old, here, key⟩ := mem_map.mp taken
    simp only [mem_map]
    constructor
    · rintro ⟨r', here', rfl⟩
      by_cases same : r'.key = script.key
      · exact .inl (replaced_of_key same)
      · rw [replaced, if_neg same]
        exact .inr ⟨here', same⟩
    · rintro (rfl | ⟨here', different⟩)
      · exact ⟨old, here, replaced_of_key key⟩
      · exact ⟨r, here', by rw [replaced, if_neg different]⟩
  · next fresh =>
    rw [mem_append, mem_singleton, or_comm]
    refine or_congr_right (iff_self_and.mpr fun here same => fresh ?_)
    exact mem_map.mpr ⟨r, here, same⟩

theorem get_save_false (table : ScriptTable) (username scriptName : String) (bytes : Bytes)
    (user name : String) : (table.save username scriptName bytes false).get user name =
      if (user, name) = (username, scriptName) then some bytes else table.get user name := by
  apply Option.ext
  intro found
  unfold save
  simp only [get_eq_some, mem_upsert]
  split
  · next same =>
    rw [same]
    constructor
    · rintro ⟨r, rfl | ⟨-, different⟩, key, rfl⟩
      · rfl
      · exact absurd key different
    · rintro ⟨⟩
      exact ⟨_, .inl rfl, rfl, rfl⟩
  · next different =>
    rw [get_eq_some]
    constructor
    · rintro ⟨r, rfl | ⟨here, -⟩, key, bytes⟩
      · exact absurd key.symm different
      · exact ⟨r, here, key, bytes⟩
    · rintro ⟨r, here, key, bytes⟩
      exact ⟨r, .inr ⟨here, fun same => different (key.symm.trans same)⟩, key, bytes⟩

theorem activeRow_save_false (table : ScriptTable) (username scriptName : String) (bytes : Bytes)
    (user : String) : (table.save username scriptName bytes false).activeRow user =
      (table.activeRow user).filter fun r => decide (r.key ≠ (username, scriptName)) := by
  apply Option.ext
  intro r
  unfold save
  rw [activeRow_eq_some, mem_upsert, Option.filter_eq_some_iff, activeRow_eq_some, decide_eq_true_iff]
  constructor
  · rintro ⟨rfl | ⟨here, different⟩, row⟩
    · cases row.2
    · exact ⟨⟨here, row⟩, different⟩
  · rintro ⟨⟨here, row⟩, different⟩
    exact ⟨.inr ⟨here, different⟩, row⟩

theorem get_delete (table : ScriptTable) (username scriptName user name : String) :
    (table.delete username scriptName).get user name =
      if (user, name) = (username, scriptName) then none else table.get user name := by
  apply Option.ext
  intro found
  unfold delete
  simp only [get_eq_some, mem_filter, decide_eq_true_iff]
  split
  · next same =>
    rw [same]
    exact iff_of_false (fun ⟨r, ⟨_, different⟩, key, _⟩ => different key) nofun
  · next different =>
    rw [get_eq_some]
    constructor
    · rintro ⟨r, ⟨here, -⟩, key⟩
      exact ⟨r, here, key⟩
    · rintro ⟨r, here, key⟩
      exact ⟨r, ⟨here, fun same => different (key.1.symm.trans same)⟩, key⟩

theorem activeRow_delete (table : ScriptTable) (username scriptName user : String) :
    (table.delete username scriptName).activeRow user =
      (table.activeRow user).filter fun r => decide (r.key ≠ (username, scriptName)) := by
  apply Option.ext
  intro r
  unfold delete
  rw [activeRow_eq_some, mem_filter, Option.filter_eq_some_iff, activeRow_eq_some, and_right_comm]

theorem mem_activate {scriptName : String} {r : SieveScript} :
    r ∈ (table.activate username scriptName).rows ↔ ∃ old ∈ table.rows, r =
      { old with active := if old.username = username then decide (old.scriptName = scriptName) else old.active } := by
  unfold activate deactivate
  simp only [map_map, mem_map, Function.comp_apply]
  refine exists_congr fun old => and_congr_right fun _ => ?_
  rw [eq_comm]
  suffices step : activated (username, scriptName) (deactivated (fun r => decide (r.username = username)) old) =
      { old with active := if old.username = username then decide (old.scriptName = scriptName) else old.active } by
    rw [step]
  unfold activated
  rw [key_deactivated]
  unfold deactivated SieveScript.key
  obtain ⟨oldUser, oldName, oldBytes, oldActive⟩ := old
  by_cases user : oldUser = username <;> by_cases name : oldName = scriptName <;> simp [user, name]

theorem get_activate (table : ScriptTable) (username scriptName user name : String) :
    (table.activate username scriptName).get user name = table.get user name := by
  apply Option.ext
  intro bytes
  simp only [get_eq_some, mem_activate]
  constructor
  · rintro ⟨-, ⟨old, here, rfl⟩, row⟩
    exact ⟨old, here, row⟩
  · rintro ⟨old, here, row⟩
    exact ⟨_, ⟨old, here, rfl⟩, row⟩

theorem activeRow_activate_self {scriptName : String}
    (exists_ : (table.get username scriptName).isSome = true) :
    ((table.activate username scriptName).activeRow username).map SieveScript.scriptName = some scriptName := by
  obtain ⟨bytes, found⟩ := Option.isSome_iff_exists.mp exists_
  obtain ⟨r, here, key, -⟩ := get_eq_some.mp found
  simp only [SieveScript.key, Prod.mk.injEq] at key
  rw [activeRow_eq_some.mpr ⟨mem_activate.mpr ⟨r, here, rfl⟩, key.1, by simp [key]⟩]
  exact congrArg some key.2

theorem activeRow_activate_of_ne {scriptName user : String} (other : user ≠ username) :
    (table.activate username scriptName).activeRow user = table.activeRow user := by
  apply Option.ext
  intro r
  rw [activeRow_eq_some, activeRow_eq_some, mem_activate]
  constructor
  · rintro ⟨⟨old, here, rfl⟩, rfl, active⟩
    simp only [if_neg other] at active ⊢
    exact ⟨here, trivial, active⟩
  · rintro ⟨here, rfl, active⟩
    exact ⟨⟨r, here, by rw [if_neg other]⟩, rfl, active⟩

end ScriptTable

structure MailboxMessage where
  username : String
  mailbox : String
  envelopeFrom : String
  envelopeTo : String
  rawMessage : Bytes
  deriving DecidableEq

structure SmtpTables where
  scripts : ScriptTable
  messages : List MailboxMessage

abbrev SmtpPool := AnyPool SmtpTables

def deliver (message : MailboxMessage) : Prog SmtpPool String Unit :=
  AnyPool.transaction fun tables => ((), { tables with messages := tables.messages ++ [message] })

def loadActiveScript (username : String) (pool : SmtpPool) : Option Bytes × SmtpPool :=
  match (AnyPool.transaction fun tables : SmtpTables =>
      ((tables.scripts.activeRow username).map SieveScript.scriptBytes, tables)).exec pool with
  | (.ok found, pool) => (found, pool)
  | (.error _, pool) => (none, pool)

def saveScript (username scriptName : String) (scriptBytes : Bytes) (active : Bool) :
    Prog SmtpPool String Unit :=
  AnyPool.transaction fun tables =>
    ((), { tables with scripts := tables.scripts.save username scriptName scriptBytes active })

def deleteScript (username scriptName : String) : Prog SmtpPool String Bool :=
  AnyPool.transaction fun tables => ((tables.scripts.get username scriptName).isSome,
    { tables with scripts := tables.scripts.delete username scriptName })

def setActive (username scriptName : String) : Prog SmtpPool String Bool :=
  AnyPool.transaction fun tables =>
    if (tables.scripts.get username scriptName).isSome then
      (true, { tables with scripts := tables.scripts.activate username scriptName })
    else (false, tables)

end Stoa.Smtp
