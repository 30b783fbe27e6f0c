import Stoa.Lib.Files
import Stoa.Lib.Runs
import Stoa.Reader.LogAppend

/-! Calls of `enqueue` and the task that drains the queue work on the same directory without a lock.
-/
namespace Stoa.Smtp

open Function

/-- The file name of a queue entry without extension: time and sequence number. -/
structure Stem where
  nanos : Nat
  seq : Nat
  deriving DecidableEq, Repr

inductive Extension
  | msgTmp
  | envTmp
  | msg
  | env
  deriving DecidableEq, Repr

abbrev QueueFile := Stem × Extension

/-- The files written for the reader, with the errors of the disk. -/
abbrev QueueDir := Directory QueueFile Bytes

def InjectionSource.name : InjectionSource → String
  | .nntpPost => "NntpPost"
  | .smtpNewsgroups => "SmtpNewsgroups"
  | .smtpSieve => "SmtpSieve"
  | .smtpListId => "SmtpListId"

def envelopeJson (source : InjectionSource) : Bytes :=
  Text.asBytes ("\x7b\"injection_source\":\"" ++ InjectionSource.name source ++ "\"\x7d")

/-- The steps of an enqueue: the article, then its envelope, then both get their names. -/
def enqueueOps (stem : Stem) (articleBytes : Bytes) (source : InjectionSource) :
    List (FileOp QueueFile Bytes) :=
  [.write (stem, .msgTmp) articleBytes, .write (stem, .envTmp) (envelopeJson source),
    .rename (stem, .envTmp) (stem, .env), .rename (stem, .msgTmp) (stem, .msg)]

def enqueue (stem : Stem) (articleBytes : Bytes) (source : InjectionSource) :
    Prog QueueDir String Unit :=
  Directory.performAll (enqueueOps stem articleBytes source)

theorem applyAll_enqueueOps (stem : Stem) (articleBytes : Bytes) (source : InjectionSource)
    (files : Files QueueFile Bytes) : ∃ files', files.applyAll (enqueueOps stem articleBytes source) =
      some files' ∧ files' (stem, .msg) = some articleBytes ∧
        files' (stem, .env) = some (envelopeJson source) := by
  have distinct : ∀ {a b : Extension}, a ≠ b → (stem, a) ≠ (stem, b) := by
    intro a b differ same
    exact differ (congrArg Prod.snd same)
  simp only [enqueueOps, Files.applyAll, Files.apply, Option.bind_some, update_self,
    Option.map_some, update_of_ne (distinct (a := .msgTmp) (b := .env) (by decide)),
    update_of_ne (distinct (a := .msgTmp) (b := .envTmp) (by decide))]
  refine ⟨_, rfl, update_self .., ?_⟩
  rw [update_of_ne (distinct (by decide)), update_of_ne (distinct (by decide)),
    update_self]

theorem enqueue_eq_ok {stem : Stem} {articleBytes : Bytes} {source : InjectionSource} {dir : QueueDir} :
    ((enqueue stem articleBytes source).exec dir).1 = .ok () ↔ dir.Answers 4 := by
  obtain ⟨files, applied, -⟩ := applyAll_enqueueOps stem articleBytes source dir.files
  constructor
  · intro run
    exact (Directory.performAll_eq_ok.mp (Prod.ext run rfl)).1
  · intro answers
    exact congrArg Prod.fst (Directory.performAll_eq_ok.mpr ⟨answers, files, applied, rfl⟩)

theorem msg_of_enqueue {stem : Stem} {articleBytes : Bytes} {source : InjectionSource}
    {dir dir' : QueueDir} (run : (enqueue stem articleBytes source).exec dir = (.ok (), dir')) :
    dir'.files (stem, .msg) = some articleBytes := by
  obtain ⟨-, files, applied, rfl⟩ := Directory.performAll_eq_ok.mp run
  obtain ⟨files', applied', stored, -⟩ := applyAll_enqueueOps stem articleBytes source dir.files
  obtain rfl : files' = files := Option.some.inj (applied'.symm.trans applied)
  exact stored

/-- A call of `enqueue`, with the number of its operations that are done. -/
structure EnqueueCall where
  article : Bytes
  source : InjectionSource
  done : Nat
  failed : Bool
  deriving DecidableEq

def EnqueueCall.Returned (call : EnqueueCall) : Prop := call.failed = true ∨ call.done = 4

inductive DrainState
  | scanning
  | removingTmp (name : QueueFile)
  | readingEnv (stem : Stem)
  | readingMsg (stem : Stem) (source : InjectionSource)
  | posting (stem : Stem) (source : InjectionSource) (bytes : Bytes)
  | removingMsg (stem : Stem)
  | removingEnv (stem : Stem)

inductive PostResult
  | accepted
  | permanentRejection
  | failed
  deriving DecidableEq

structure QueueWorld where
  files : Files QueueFile Bytes
  /-- The names that have had a file; a scan may return a name whose file is gone by now. -/
  existed : QueueFile → Bool
  calls : Stem → Option EnqueueCall
  drain : DrainState
  /-- The articles that the reader has accepted or rejected for good. -/
  settled : List (Stem × InjectionSource × Bytes)

def QueueWorld.start (files : Files QueueFile Bytes) : QueueWorld :=
  ⟨files, fun name => (files name).isSome, fun _ => none, .scanning, []⟩

inductive QueueLabel
  /-- A call of `enqueue` begins, under a name that nothing has had before. -/
  | begin (stem : Stem) (article : Bytes) (source : InjectionSource)
  /-- The call does its next operation. -/
  | write (stem : Stem)
  /-- The scan of the directory returns a name. -/
  | nextEntry (name : QueueFile)
  /-- The drain goes on with the entry. -/
  | drain (result : PostResult)

section Steps

variable (parseEnvelope : Bytes → Option InjectionSource)
variable (dkimSign : Option (Bytes → Option Bytes))

def QueueWorld.begin (stem : Stem) (article : Bytes) (source : InjectionSource) (w : QueueWorld) :
    QueueWorld :=
  if (w.calls stem).isSome ∨ [.msgTmp, .envTmp, .msg, .env].any (fun ext => w.existed (stem, ext)) then w
  else { w with calls := Function.update w.calls stem (some ⟨article, source, 0, false⟩) }

def QueueWorld.write (stem : Stem) (w : QueueWorld) : QueueWorld :=
  match w.calls stem with
  | none => w
  | some call =>
    if call.failed then w
    else match (enqueueOps stem call.article call.source)[call.done]? with
      | none => w
      | some op => match w.files.apply op with
        | none => { w with calls := Function.update w.calls stem (some { call with failed := true }) }
        | some files =>
          { w with
            files := files
            existed := fun name => w.existed name || op.created == some name
            calls := Function.update w.calls stem (some { call with done := call.done + 1 }) }

def QueueWorld.nextEntry (name : QueueFile) (w : QueueWorld) : QueueWorld :=
  match w.drain with
  | .scanning =>
    if !w.existed name then w
    else match name.2 with
      | .msgTmp | .envTmp => { w with drain := .removingTmp name }
      | .msg => { w with drain := .readingEnv name.1 }
      | .env => w
  | _ => w

def defaultInjectionSource : InjectionSource := .smtpSieve

/-- The source that the envelope names; a missing or unreadable envelope gives the default. -/
def readSource (envelope : Option Bytes) : InjectionSource :=
  (envelope.bind parseEnvelope).getD defaultInjectionSource

def outboundArticle (source : InjectionSource) (bytes : Bytes) : Option Bytes :=
  let body := Text.asBytes ("X-Stoa-Injection-Source: " ++ InjectionSource.name source ++ "\r\n") ++ bytes
  match dkimSign with
  | none => some body
  | some sign => (sign body).map fun header => header ++ body

def QueueWorld.drainOn (result : PostResult) (w : QueueWorld) : QueueWorld :=
  match w.drain with
  | .scanning => w
  | .removingTmp name =>
    { w with files := (w.files.apply (.remove name)).getD w.files, drain := .scanning }
  | .readingEnv stem =>
    { w with drain := .readingMsg stem (readSource parseEnvelope (w.files (stem, .env))) }
  | .readingMsg stem source =>
    match w.files (stem, .msg) with
    | none => { w with drain := .scanning }
    | some bytes =>
      -- An article that cannot be signed is held.
      if (outboundArticle dkimSign source bytes).isSome then { w with drain := .posting stem source bytes }
      else { w with drain := .scanning }
  | .posting stem source bytes =>
    match result with
    | .accepted | .permanentRejection =>
      { w with drain := .removingMsg stem, settled := (stem, source, bytes) :: w.settled }
    | .failed => { w with drain := .scanning }
  | .removingMsg stem =>
    match w.files.apply (.remove (stem, .msg)) with
    | none => { w with drain := .scanning }
    | some files => { w with files := files, drain := .removingEnv stem }
  | .removingEnv stem =>
    { w with files := (w.files.apply (.remove (stem, .env))).getD w.files, drain := .scanning }

def QueueWorld.step (label : QueueLabel) (w : QueueWorld) : Unit × QueueWorld :=
  ((), match label with
    | .begin stem article source => w.begin stem article source
    | .write stem => w.write stem
    | .nextEntry name => w.nextEntry name
    | .drain result => w.drainOn parseEnvelope dkimSign result)

end Steps

end Stoa.Smtp
