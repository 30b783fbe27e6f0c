import Mathlib.Logic.Function.Basic
import Stoa.Lib.Prog

/-! The files of a directory under names of any type, and the operations on them that are atomic. -/
namespace Stoa

open Function Option

structure Inodes (ν β : Type) where
  paths : ν → Option Nat
  contents : Nat → β
  next : Nat
  distinct : ∀ a b i, paths a = some i → paths b = some i → a = b
  below : ∀ a i, paths a = some i → i < next

namespace Inodes

variable {ν β : Type} [DecidableEq ν]

/-- A disk without files; `content` is what is read from none. -/
def new (content : β) : Inodes ν β := ⟨fun _ => none, fun _ => content, 0, by simp, by simp⟩

def read (disk : Inodes ν β) (name : ν) : Option β := (disk.paths name).map disk.contents

def write (disk : Inodes ν β) (i : Nat) (content : β) : Inodes ν β :=
  { disk with contents := update disk.contents i content }

theorem distinct_remove (disk : Inodes ν β) (name a b : ν) (i : Nat)
    (first : update disk.paths name none a = some i) (second : update disk.paths name none b = some i) :
    a = b := by
  have old {c : ν} (found : update disk.paths name none c = some i) : disk.paths c = some i := by
    by_cases same : c = name
    · simp [same] at found
    · rwa [update_of_ne same] at found
  exact disk.distinct a b i (old first) (old second)

theorem below_remove (disk : Inodes ν β) (name a : ν) (i : Nat)
    (found : update disk.paths name none a = some i) : i < disk.next := by
  by_cases same : a = name
  · simp [same] at found
  · rw [update_of_ne same] at found
    exact disk.below a i found

def remove (disk : Inodes ν β) (name : ν) : Inodes ν β :=
  { disk with
    paths := update disk.paths name none
    distinct := distinct_remove disk name
    below := below_remove disk name }

theorem distinct_create (disk : Inodes ν β) (name a b : ν) (i : Nat)
    (first : update disk.paths name (some disk.next) a = some i)
    (second : update disk.paths name (some disk.next) b = some i) : a = b := by
  by_cases one : a = name
  · by_cases two : b = name
    · rw [one, two]
    · rw [one, update_self, Option.some.injEq] at first
      rw [update_of_ne two, ← first] at second
      exact absurd (disk.below b _ second) (Nat.lt_irrefl _)
  · rw [update_of_ne one] at first
    by_cases two : b = name
    · rw [two, update_self, Option.some.injEq] at second
      rw [← second] at first
      exact absurd (disk.below a _ first) (Nat.lt_irrefl _)
    · rw [update_of_ne two] at second
      exact disk.distinct a b i first second

theorem below_create (disk : Inodes ν β) (name a : ν) (i : Nat)
    (found : update disk.paths name (some disk.next) a = some i) : i < disk.next + 1 := by
  by_cases same : a = name
  · rw [same, update_self, Option.some.injEq] at found
    omega
  · rw [update_of_ne same] at found
    have := disk.below a i found
    omega

def truncate (disk : Inodes ν β) (empty : β) (name : ν) : Nat × Inodes ν β :=
  match disk.paths name with
  | some i => (i, disk.write i empty)
  | none => (disk.next,
      { paths := update disk.paths name (some disk.next)
        contents := update disk.contents disk.next empty
        next := disk.next + 1
        distinct := distinct_create disk name
        below := below_create disk name })

omit [DecidableEq ν] in
@[simp] theorem paths_write (disk : Inodes ν β) (i : Nat) (content : β) :
    (disk.write i content).paths = disk.paths := rfl

omit [DecidableEq ν] in
@[simp] theorem next_write (disk : Inodes ν β) (i : Nat) (content : β) :
    (disk.write i content).next = disk.next := rfl

omit [DecidableEq ν] in
theorem read_write (disk : Inodes ν β) (i : Nat) (content : β) (name : ν) :
    (disk.write i content).read name =
      if disk.paths name = some i then some content else disk.read name := by
  rw [read, read, paths_write]
  cases found : disk.paths name with
  | none => simp
  | some j =>
    by_cases same : j = i
    · simp [same, write]
    · simp [same, write]

theorem paths_remove (disk : Inodes ν β) (name : ν) :
    (disk.remove name).paths = update disk.paths name none := rfl

@[simp] theorem next_remove (disk : Inodes ν β) (name : ν) : (disk.remove name).next = disk.next := rfl

theorem path_of_remove {disk : Inodes ν β} {name other : ν} {i : Nat}
    (found : (disk.remove name).paths other = some i) : disk.paths other = some i := by
  rw [paths_remove] at found
  by_cases same : other = name
  · simp [same] at found
  · rwa [update_of_ne same] at found

theorem read_remove_of_ne (disk : Inodes ν β) {name other : ν} (differs : other ≠ name) :
    (disk.remove name).read other = disk.read other := by
  rw [read, paths_remove, update_of_ne differs]
  rfl

@[simp] theorem read_remove_self (disk : Inodes ν β) (name : ν) : (disk.remove name).read name = none := by
  simp [read, paths_remove]

/-- What opening a name does: the file has the name then, and the other files are as they were. -/
structure Opened (disk : Inodes ν β) (name : ν) (opened : Nat × Inodes ν β) : Prop where
  path : opened.2.paths name = some opened.1
  paths : ∀ other, other ≠ name → opened.2.paths other = disk.paths other
  reads : ∀ other, other ≠ name → opened.2.read other = disk.read other
  /-- An old file has had the name before. -/
  old : opened.1 < disk.next → disk.paths name = some opened.1
  bound : opened.1 < opened.2.next
  grows : disk.next ≤ opened.2.next

theorem opened_truncate (disk : Inodes ν β) (empty : β) (name : ν) :
    Opened disk name (disk.truncate empty name) := by
  unfold truncate
  cases found : disk.paths name with
  | some i =>
    refine ⟨found, fun _ _ => rfl, fun other differs => ?_, fun _ => found, disk.below name i found,
      Nat.le_refl _⟩
    rw [read_write, if_neg]
    exact fun same => differs (disk.distinct other name i same found)
  | none =>
    refine ⟨update_self .., fun other differs => update_of_ne differs .., ?_,
      fun below => absurd below (Nat.lt_irrefl _), Nat.lt_succ_self _, Nat.le_succ _⟩
    intro other differs
    -- A new file is not one of those that have a name already.
    simp only [read, update_of_ne differs]
    cases present : disk.paths other with
    | none => rfl
    | some j => simp [update_of_ne (Nat.ne_of_lt (disk.below other j present))]

end Inodes

abbrev Files (ν β : Type) := ν → Option β

inductive FileOp (ν β : Type)
  | write (name : ν) (content : β)
  | rename (old new : ν)
  | remove (name : ν)

def FileOp.names {ν β : Type} : FileOp ν β → List ν
  | .write name _ | .remove name => [name]
  | .rename old new => [old, new]

def FileOp.created {ν β : Type} : FileOp ν β → Option ν
  | .write name _ | .rename _ name => some name
  | .remove _ => none

variable {ν β : Type} [DecidableEq ν]

namespace Files

def empty : Files ν β := fun _ => none

def apply (files : Files ν β) : FileOp ν β → Option (Files ν β)
  | .write name content => some (Function.update files name (some content))
  | .rename old new => (files old).map fun content =>
      Function.update (Function.update files old none) new (some content)
  | .remove name => (files name).map fun _ => Function.update files name none

def applyAll (files : Files ν β) : List (FileOp ν β) → Option (Files ν β)
  | [] => some files
  | op :: ops => (files.apply op).bind fun files => files.applyAll ops

theorem apply_of_notMem {files files' : Files ν β} {op : FileOp ν β} {name : ν}
    (applied : files.apply op = some files') (other : name ∉ op.names) : files' name = files name := by
  cases op with
  | write target content =>
    cases applied
    exact update_of_ne (by simpa [FileOp.names] using other) ..
  | rename old new =>
    obtain ⟨content, -, rfl⟩ := map_eq_some_iff.mp applied
    simp only [FileOp.names, List.mem_cons, List.not_mem_nil, or_false, not_or] at other
    rw [update_of_ne other.2, update_of_ne other.1]
  | remove target =>
    obtain ⟨content, -, rfl⟩ := map_eq_some_iff.mp applied
    exact update_of_ne (by simpa [FileOp.names] using other) ..

theorem ne_none_of_apply {files files' : Files ν β} {op : FileOp ν β} {name : ν}
    (applied : files.apply op = some files') (present : files' name ≠ none)
    (other : op.created ≠ some name) : files name ≠ none := by
  have kept : ∀ {target : ν}, Function.update files target none name ≠ none → files name ≠ none := by
    intro target present
    by_cases same : name = target
    · rw [same, update_self] at present
      exact absurd rfl present
    · rwa [update_of_ne same] at present
  have ne : ∀ {target : ν}, op.created = some target → name ≠ target := by
    rintro target created rfl
    exact other created
  cases op with
  | write target content =>
    cases applied
    rwa [update_of_ne (ne rfl)] at present
  | rename old new =>
    obtain ⟨content, -, rfl⟩ := map_eq_some_iff.mp applied
    rw [update_of_ne (ne rfl)] at present
    exact kept present
  | remove target =>
    obtain ⟨content, -, rfl⟩ := map_eq_some_iff.mp applied
    exact kept present

theorem getD_apply_remove (files : Files ν β) (name : ν) :
    (files.apply (.remove name)).getD files = Function.update files name none := by
  cases present : files name with
  | none => simp [apply, present]
  | some content => simp [apply, present]

end Files

structure Directory (ν β : Type) where
  files : Files ν β
  /-- The errors of the next operations; none fails for a fault once the list is used up. -/
  faults : List (Option String)

namespace Directory

def fault (dir : Directory ν β) : Option String := dir.faults.head?.join

def perform (op : FileOp ν β) : Prog (Directory ν β) String Unit :=
  Prog.ofExec fun dir => match dir.fault with
    | some message => (.error message, ⟨dir.files, dir.faults.tail⟩)
    | none => match dir.files.apply op with
      | none => (.error "No such file or directory", ⟨dir.files, dir.faults.tail⟩)
      | some files => (.ok (), ⟨files, dir.faults.tail⟩)

def performAll : List (FileOp ν β) → Prog (Directory ν β) String Unit
  | [] => pure ()
  | op :: ops => do
    perform op
    performAll ops

/-- The next `n` operations do not fail for a fault. -/
def Answers (dir : Directory ν β) (n : Nat) : Prop := ∀ fault ∈ dir.faults.take n, fault = none

omit [DecidableEq ν] in
theorem answers_succ (dir : Directory ν β) (n : Nat) :
    dir.Answers (n + 1) ↔ dir.fault = none ∧ Answers ⟨dir.files, dir.faults.tail⟩ n := by
  rcases dir with ⟨files, _ | ⟨fault, rest⟩⟩
  · simp [Answers, Directory.fault]
  · simp [Answers, Directory.fault, List.take_succ_cons]

theorem perform_eq_ok {op : FileOp ν β} {dir dir' : Directory ν β} :
    (perform op).exec dir = (.ok (), dir') ↔ dir.fault = none ∧
      ∃ files, dir.files.apply op = some files ∧ dir' = ⟨files, dir.faults.tail⟩ := by
  rw [perform, Prog.exec_ofExec]
  cases dir.fault with
  | some message => simp
  | none =>
    cases dir.files.apply op with
    | none => simp
    | some files => simp [eq_comm]

theorem performAll_eq_ok {ops : List (FileOp ν β)} {dir dir' : Directory ν β} :
    (performAll ops).exec dir = (.ok (), dir') ↔ dir.Answers ops.length ∧
      ∃ files, dir.files.applyAll ops = some files ∧ dir' = ⟨files, dir.faults.drop ops.length⟩ := by
  induction ops generalizing dir with
  | nil => simp [performAll, Answers, Files.applyAll, eq_comm]
  | cons op ops ih =>
    rw [performAll, List.length_cons, answers_succ]
    constructor
    · intro run
      obtain ⟨⟨⟩, mid, first, later⟩ := Prog.of_exec_bind_ok run
      obtain ⟨answers, files, applied, rfl⟩ := perform_eq_ok.mp first
      obtain ⟨answers', files', applied', rfl⟩ := ih.mp later
      refine ⟨⟨answers, answers'⟩, files', ?_, by simp⟩
      rw [Files.applyAll, applied, bind_some, applied']
    · rintro ⟨⟨answers, answers'⟩, files, applied, rfl⟩
      obtain ⟨mid, first, later⟩ := bind_eq_some_iff.mp applied
      have here := perform_eq_ok.mpr ⟨answers, mid, first, rfl⟩
      exact (Prog.exec_bind_ok _ here).trans (ih.mpr ⟨answers', files, later, by simp⟩)

end Directory

end Stoa
