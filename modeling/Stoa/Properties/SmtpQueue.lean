import Stoa.Smtp.QueueDrain

/-! `queue_safe_iff`: for every interleaving of calls with the drain, articles stay in the directory
until the reader has answered for good, exactly if the drain never removes a temporary file while
the call that wrote it is still going on. -/
namespace Stoa.Smtp

open Option List Function QueueWorld Files
/-- The article is in the directory with its source, or the reader has settled it. -/
def Kept (w : QueueWorld) (stem : Stem) (call : EnqueueCall) : Prop :=
  (w.files (stem, .msg) = some call.article ∧
    w.files (stem, .env) = some (envelopeJson call.source)) ∨
  (stem, call.source, call.article) ∈ w.settled

/-- No call has failed, and the articles of those that returned are kept. -/
def QueueSafe (w : QueueWorld) : Prop :=
  ∀ stem call, w.calls stem = some call → call.failed = false ∧ (call.done = 4 → Kept w stem call)

/-- The step does not remove a temporary file of a call that is still going on. -/
def Spares (label : QueueLabel) (w : QueueWorld) : Prop :=
  ∀ result stem ext, label = .drain result → w.drain = .removingTmp (stem, ext) →
    w.files (stem, ext) ≠ none → ∀ call, w.calls stem = some call → call.Returned

def QueueLabel.caller : QueueLabel → Option Stem
  | .begin stem _ _ | .write stem => some stem
  | .nextEntry _ | .drain _ => none

def DrainState.WorksOn (stem : Stem) : DrainState → Prop
  | .readingEnv s | .readingMsg s _ | .posting s _ _ | .removingMsg s | .removingEnv s => s = stem
  | .scanning | .removingTmp _ => False

structure Sound (w : QueueWorld) : Prop where
  existed : ∀ name, w.files name ≠ none → w.existed name = true
  working : ∀ stem, w.drain.WorksOn stem → w.existed (stem, .msg) = true
  tmp : ∀ name, w.drain = .removingTmp name → name.2 = .msgTmp ∨ name.2 = .envTmp

def FilesAt (w : QueueWorld) (stem : Stem) (call : EnqueueCall) : Nat → Prop
  | 0 => w.files (stem, .msgTmp) = none ∧ w.files (stem, .envTmp) = none
  | 1 => w.files (stem, .msgTmp) = some call.article ∧ w.files (stem, .envTmp) = none
  | 2 => w.files (stem, .msgTmp) = some call.article ∧
      w.files (stem, .envTmp) = some (envelopeJson call.source)
  | 3 => w.files (stem, .msgTmp) = some call.article ∧ w.files (stem, .envTmp) = none ∧
      w.files (stem, .env) = some (envelopeJson call.source)
  | 4 => Kept w stem call
  | _ => False

def DrainFits (w : QueueWorld) (stem : Stem) (call : EnqueueCall) : Prop :=
  match w.drain with
  | .readingMsg s source => s = stem → source = call.source ∨ (stem, call.source, call.article) ∈ w.settled
  | .posting s source bytes =>
    s = stem → (source = call.source ∧ bytes = call.article) ∨ (stem, call.source, call.article) ∈ w.settled
  | .removingMsg s | .removingEnv s => s = stem → (stem, call.source, call.article) ∈ w.settled
  | .scanning | .removingTmp _ | .readingEnv _ => True

structure CallInv (w : QueueWorld) (stem : Stem) (call : EnqueueCall) : Prop where
  unfailed : call.failed = false
  files : FilesAt w stem call call.done
  young : call.done < 4 → w.existed (stem, .msg) = false
  drain : DrainFits w stem call

section

variable {w : QueueWorld} {stem : Stem} {call : EnqueueCall}

theorem CallInv.frame {w' : QueueWorld}
    (inv : CallInv w stem call) (files : ∀ ext, w'.files (stem, ext) = w.files (stem, ext))
    (existed : w'.existed (stem, .msg) = w.existed (stem, .msg))
    (settled : ∀ article ∈ w.settled, article ∈ w'.settled) (drain : DrainFits w' stem call) :
    CallInv w' stem call := by
  refine ⟨inv.unfailed, ?_, existed ▸ inv.young, drain⟩
  have before := inv.files
  match step : call.done with
  | 0 | 1 | 2 | 3 => simpa only [step, FilesAt, files] using before
  | 4 =>
    rw [step] at before
    refine before.imp ?_ (settled _)
    simp only [files, imp_self]
  | _ + 5 => exact absurd before (by rw [step]; exact id)

structure QueueInv (w : QueueWorld) : Prop where
  sound : Sound w
  calls : ∀ stem call, w.calls stem = some call → CallInv w stem call

theorem QueueInv.safe (inv : QueueInv w) : QueueSafe w := by
  intro stem call found
  refine ⟨(inv.calls stem call found).unfailed, ?_⟩
  intro returned
  have files := (inv.calls stem call found).files
  rwa [returned] at files

theorem sound_start (files : Files QueueFile Bytes) : Sound (.start files) := by
  refine ⟨?_, ?_, ?_⟩
  · intro name present
    exact isSome_iff_ne_none.mpr present
  · rintro stem ⟨⟩
  · rintro name ⟨⟩

theorem queueInv_start (files : Files QueueFile Bytes) : QueueInv (.start files) :=
  ⟨sound_start files, by rintro stem call ⟨⟩⟩

theorem eq_of_mem_names {article : Bytes} {source : InjectionSource} {n : Nat}
    {op : FileOp QueueFile Bytes} (next : (enqueueOps stem article source)[n]? = some op)
    {name : QueueFile} (named : name ∈ op.names ∨ op.created = some name) : name.1 = stem := by
  have member := mem_of_getElem? next
  simp only [enqueueOps, mem_cons, not_mem_nil, or_false] at member
  rcases member with rfl | rfl | rfl | rfl <;>
    simp only [FileOp.names, FileOp.created, mem_cons, not_mem_nil, or_false,
      some.injEq] at named <;> aesop

theorem write_cases (stem : Stem) (w : QueueWorld) :
    w.write stem = w ∨ ∃ call op, w.calls stem = some call ∧ call.failed = false ∧
      (enqueueOps stem call.article call.source)[call.done]? = some op ∧
      (w.files.apply op = none ∧ w.write stem =
          { w with calls := update w.calls stem (some { call with failed := true }) } ∨
        ∃ files, w.files.apply op = some files ∧ w.write stem =
          { w with
            files := files
            existed := fun name => w.existed name || op.created == some name
            calls := update w.calls stem (some { call with done := call.done + 1 }) }) := by
  unfold write
  split
  · exact .inl rfl
  next call found =>
  split
  · exact .inl rfl
  next unfailed =>
  split
  · exact .inl rfl
  next op next_ =>
  refine .inr ⟨call, op, found, by simpa using unfailed, next_, ?_⟩
  split
  · next missing => exact .inl ⟨missing, rfl⟩
  · next files applied => exact .inr ⟨files, applied, rfl⟩

theorem sound_write (sound : Sound w) (stem : Stem) : Sound (w.write stem) := by
  rcases write_cases stem w with same | ⟨call, op, -, -, next, ⟨-, failed⟩ | ⟨files, applied, done⟩⟩
  · rwa [same]
  · rw [failed]
    exact ⟨sound.existed, sound.working, sound.tmp⟩
  · rw [done]
    refine ⟨?_, ?_, sound.tmp⟩
    · intro name present
      simp only [Bool.or_eq_true, beq_iff_eq]
      by_cases created : op.created = some name
      · exact .inr created
      · exact .inl (sound.existed name (ne_none_of_apply applied present created))
    · intro stem' works
      simp [sound.working stem' works]

theorem callInv_write_own {op : FileOp QueueFile Bytes} (inv : CallInv w stem call)
    (next : (enqueueOps stem call.article call.source)[call.done]? = some op) :
    ∃ files, w.files.apply op = some files ∧
      CallInv { w with
        files := files
        existed := fun name => w.existed name || op.created == some name
        calls := update w.calls stem (some { call with done := call.done + 1 }) }
        stem { call with done := call.done + 1 } := by
  have young := inv.young
  have before := inv.files
  have fits : ∀ files calls existed,
      DrainFits ⟨files, existed, calls, w.drain, w.settled⟩ stem { call with done := call.done + 1 } :=
    fun _ _ _ => inv.drain
  have ne : ∀ {a b : Extension}, a ≠ b → (stem, a) ≠ (stem, b) := by
    intro a b differ same
    exact differ (congrArg Prod.snd same)
  match step : call.done with
  | 0 =>
    rw [step] at next before young
    obtain rfl := some.inj next
    refine ⟨_, rfl, inv.unfailed, ?_, ?_, fits _ _ _⟩
    · exact ⟨update_self .., (update_of_ne (ne (by decide)) ..).trans before.2⟩
    · intro _
      simp [FileOp.created, young (by decide)]
  | 1 =>
    rw [step] at next before young
    obtain rfl := some.inj next
    refine ⟨_, rfl, inv.unfailed, ?_, ?_, fits _ _ _⟩
    · exact ⟨(update_of_ne (ne (by decide)) ..).trans before.1, update_self ..⟩
    · intro _
      simp [FileOp.created, young (by decide)]
  | 2 =>
    rw [step] at next before young
    obtain rfl := some.inj next
    refine ⟨_, by rw [apply, before.2, map_some], inv.unfailed, ?_, ?_, fits _ _ _⟩
    · refine ⟨?_, ?_, update_self ..⟩
      · exact ((update_of_ne (ne (by decide)) ..).trans
          (update_of_ne (ne (by decide)) ..)).trans before.1
      · exact (update_of_ne (ne (by decide)) ..).trans (update_self ..)
    · intro _
      simp [FileOp.created, young (by decide)]
  | 3 =>
    rw [step] at next before young
    obtain rfl := some.inj next
    refine ⟨_, by rw [apply, before.1, map_some], inv.unfailed, ?_, ?_, fits _ _ _⟩
    · refine .inl ⟨update_self .., ?_⟩
      exact ((update_of_ne (ne (by decide)) ..).trans
        (update_of_ne (ne (by decide)) ..)).trans before.2.2
    · exact fun early => absurd early (Nat.lt_irrefl 4)
  | n + 4 =>
    rw [step] at next
    simp [enqueueOps] at next

theorem queueInv_write (inv : QueueInv w) (stem : Stem) : QueueInv (w.write stem) := by
  refine ⟨sound_write inv.sound stem, ?_⟩
  rcases write_cases stem w with same | ⟨call, op, found, -, next, outcome⟩
  · rw [same]
    exact inv.calls
  obtain ⟨files, applied, own⟩ := callInv_write_own (inv.calls stem call found) next
  rcases outcome with ⟨missing, -⟩ | ⟨files', applied', done⟩
  · rw [applied] at missing
    cases missing
  obtain rfl : files = files' := some.inj (applied.symm.trans applied')
  rw [done]
  intro stem' call' found'
  dsimp only at found'
  by_cases same : stem' = stem
  · subst same
    rw [update_self] at found'
    obtain rfl := some.inj found'
    exact own
  · rw [update_of_ne same] at found'
    have other : ∀ ext, (stem', ext) ∉ op.names := by
      intro ext named
      exact same (eq_of_mem_names next (.inl named))
    have created : (op.created == some (stem', .msg)) = false := by
      rw [beq_eq_false_iff_ne]
      exact fun created => same (eq_of_mem_names next (.inr created))
    exact (inv.calls stem' call' found').frame (fun ext => apply_of_notMem applied (other ext))
      (by simp [created]) (fun _ => id) (inv.calls stem' call' found').drain

theorem begin_cases (stem : Stem) (article : Bytes) (source : InjectionSource) (w : QueueWorld) :
    w.begin stem article source = w ∨ (∀ ext, w.existed (stem, ext) = false) ∧ w.begin stem article source =
        { w with calls := update w.calls stem (some ⟨article, source, 0, false⟩) } := by
  unfold begin
  split
  · exact .inl rfl
  · next new =>
    refine .inr ⟨?_, rfl⟩
    simp only [any_cons, any_nil, Bool.or_false, Bool.or_eq_true, not_or,
      Bool.not_eq_true] at new
    rintro (_ | _ | _ | _)
    · exact new.2.1
    · exact new.2.2.1
    · exact new.2.2.2.1
    · exact new.2.2.2.2

theorem sound_begin (sound : Sound w) (stem : Stem) (article : Bytes)
    (source : InjectionSource) : Sound (w.begin stem article source) := by
  rcases begin_cases stem article source w with same | ⟨-, begun⟩
  · rwa [same]
  · rw [begun]
    exact ⟨sound.existed, sound.working, sound.tmp⟩

theorem drainFits_of_new (sound : Sound w) {stem : Stem} {call : EnqueueCall}
    (new : w.existed (stem, .msg) = false) : DrainFits w stem call := by
  have idle : ¬ w.drain.WorksOn stem := by
    intro works
    rw [sound.working stem works] at new
    cases new
  unfold DrainFits
  unfold DrainState.WorksOn at idle
  split <;> simp_all

theorem queueInv_begin (inv : QueueInv w) (stem : Stem) (article : Bytes)
    (source : InjectionSource) : QueueInv (w.begin stem article source) := by
  refine ⟨sound_begin inv.sound stem article source, ?_⟩
  rcases begin_cases stem article source w with same | ⟨new, begun⟩
  · rw [same]
    exact inv.calls
  rw [begun]
  intro stem' call found
  dsimp only at found
  by_cases same : stem' = stem
  · subst same
    rw [update_self] at found
    obtain rfl := some.inj found
    have absent : ∀ ext, w.files (stem', ext) = none := by
      intro ext
      by_contra present
      have := inv.sound.existed _ present
      rw [new ext] at this
      cases this
    exact ⟨rfl, ⟨absent _, absent _⟩, fun _ => new _, drainFits_of_new inv.sound (new _)⟩
  · rw [update_of_ne same] at found
    exact (inv.calls stem' call found).frame (fun _ => rfl) rfl (fun _ => id)
      (inv.calls stem' call found).drain

theorem nextEntry_cases (name : QueueFile) (w : QueueWorld) : w.nextEntry name = w ∨ w.existed name = true ∧
      ((name.2 = .msgTmp ∨ name.2 = .envTmp) ∧ w.nextEntry name = { w with drain := .removingTmp name } ∨
        name.2 = .msg ∧ w.nextEntry name = { w with drain := .readingEnv name.1 }) := by
  unfold nextEntry
  split
  · split
    · exact .inl rfl
    next existed =>
    have existed : w.existed name = true := by simpa using existed
    split
    · next tmp => exact .inr ⟨existed, .inl ⟨.inl tmp, rfl⟩⟩
    · next tmp => exact .inr ⟨existed, .inl ⟨.inr tmp, rfl⟩⟩
    · next msg => exact .inr ⟨existed, .inr ⟨msg, rfl⟩⟩
    · exact .inl rfl
  · exact .inl rfl

theorem sound_nextEntry (sound : Sound w) (name : QueueFile) : Sound (w.nextEntry name) := by
  rcases nextEntry_cases name w with same | ⟨existed, ⟨tmp, turned⟩ | ⟨msg, turned⟩⟩
  · rwa [same]
  · rw [turned]
    refine ⟨sound.existed, ?_, ?_⟩
    · rintro stem ⟨⟩
    · rintro _ ⟨⟩
      exact tmp
  · rw [turned]
    refine ⟨sound.existed, ?_, ?_⟩
    · rintro stem rfl
      rwa [← msg]
    · rintro _ ⟨⟩

theorem queueInv_nextEntry (inv : QueueInv w) (name : QueueFile) : QueueInv (w.nextEntry name) := by
  refine ⟨sound_nextEntry inv.sound name, ?_⟩
  intro stem call found
  rcases nextEntry_cases name w with same | ⟨existed, ⟨tmp, turned⟩ | ⟨msg, turned⟩⟩
  · rw [same] at found ⊢
    exact inv.calls stem call found
  · rw [turned] at found ⊢
    exact (inv.calls stem call found).frame (fun _ => rfl) rfl (fun _ => id) trivial
  · rw [turned] at found ⊢
    exact (inv.calls stem call found).frame (fun _ => rfl) rfl (fun _ => id) trivial

theorem CallInv.kept (inv : CallInv w stem call) (done : call.done = 4) : Kept w stem call := by
  have files := inv.files
  rwa [done] at files

theorem CallInv.done_of_existed
    (inv : CallInv w stem call) (existed : w.existed (stem, .msg) = true) : call.done = 4 := by
  have late : ¬ call.done < 4 := by
    intro early
    rw [inv.young early] at existed
    cases existed
  have files := inv.files
  match step : call.done with
  | 0 | 1 | 2 | 3 => omega
  | 4 => rfl
  | _ + 5 =>
    rw [step] at files
    exact files.elim

theorem CallInv.of_kept {w' : QueueWorld}
    (inv : CallInv w stem call) (done : call.done = 4) (kept : Kept w' stem call)
    (drain : DrainFits w' stem call) : CallInv w' stem call := by
  refine ⟨inv.unfailed, ?_, ?_, drain⟩
  · rwa [done]
  · intro early
    omega

theorem queueInv_remove (inv : QueueInv w) {name : QueueFile} {drain : DrainState}
    (fits : ∀ stem call, w.calls stem = some call →
      DrainFits { w with files := update w.files name none, drain := drain } stem call)
    (sound : Sound { w with files := update w.files name none, drain := drain })
    (own : ∀ call, w.calls name.1 = some call → w.files name ≠ none → call.done = 4 ∧
      Kept { w with files := update w.files name none, drain := drain } name.1 call) :
    QueueInv { w with files := update w.files name none, drain := drain } := by
  refine ⟨sound, ?_⟩
  intro stem call found
  have before := inv.calls stem call found
  by_cases absent : w.files name = none
  · have same : update w.files name none = w.files := by rw [← absent, update_eq_self]
    exact before.frame (fun ext => congrFun same _) rfl (fun _ => id) (fits stem call found)
  by_cases mine : stem = name.1
  · subst mine
    obtain ⟨done, kept⟩ := own call found absent
    exact before.of_kept done kept (fits _ call found)
  · refine before.frame (fun ext => ?_) rfl (fun _ => id) (fits stem call found)
    exact update_of_ne (fun same => mine (congrArg Prod.fst same)) ..

theorem queueInv_drain (inv : QueueInv w) {drain : DrainState}
    {settled : List (Stem × InjectionSource × Bytes)}
    (sound : Sound { w with drain := drain, settled := settled }) (more : w.settled ⊆ settled)
    (fits : ∀ stem call, w.calls stem = some call →
      DrainFits { w with drain := drain, settled := settled } stem call) :
    QueueInv { w with drain := drain, settled := settled } :=
  ⟨sound, fun stem call found =>
    (inv.calls stem call found).frame (fun _ => rfl) rfl (fun _ mem => more mem) (fits stem call found)⟩

theorem Sound.of_remove (sound : Sound w) (name : QueueFile) {drain : DrainState}
    (working : ∀ stem, drain.WorksOn stem → w.drain.WorksOn stem)
    (tmp : ∀ name, drain = .removingTmp name → name.2 = .msgTmp ∨ name.2 = .envTmp) :
    Sound { w with files := update w.files name none, drain := drain } := by
  refine ⟨?_, fun stem works => sound.working stem (working stem works), tmp⟩
  intro other present
  dsimp only at present
  refine sound.existed other ?_
  by_cases same : other = name
  · rw [same, update_self] at present
    exact absurd rfl present
  · rwa [update_of_ne same] at present

theorem Sound.of_drain (sound : Sound w) {drain : DrainState}
    {settled : List (Stem × InjectionSource × Bytes)}
    (working : ∀ stem, drain.WorksOn stem → w.drain.WorksOn stem)
    (tmp : ∀ name, drain ≠ .removingTmp name) : Sound { w with drain := drain, settled := settled } :=
  ⟨sound.existed, fun stem works => sound.working stem (working stem works),
    fun name at_ => absurd at_ (tmp name)⟩

section Drain

variable {parseEnvelope : Bytes → Option InjectionSource} {dkimSign : Option (Bytes → Option Bytes)}

variable {w : QueueWorld}

theorem sound_drainOn (sound : Sound w) (result : PostResult) :
    Sound (w.drainOn parseEnvelope dkimSign result) := by
  unfold drainOn
  split
  · exact sound
  · next name at_ =>
    rw [getD_apply_remove]
    exact sound.of_remove name (by rintro _ ⟨⟩) (by rintro _ ⟨⟩)
  · next stem at_ => exact sound.of_drain (by rintro _ rfl; rw [at_]; rfl) (by rintro _ ⟨⟩)
  · next stem source at_ =>
    split
    · exact sound.of_drain (by rintro _ ⟨⟩) (by rintro _ ⟨⟩)
    · split
      · exact sound.of_drain (by rintro _ rfl; rw [at_]; rfl) (by rintro _ ⟨⟩)
      · exact sound.of_drain (by rintro _ ⟨⟩) (by rintro _ ⟨⟩)
  · next stem source bytes at_ =>
    split
    · exact sound.of_drain (by rintro _ rfl; rw [at_]; rfl) (by rintro _ ⟨⟩)
    · exact sound.of_drain (by rintro _ rfl; rw [at_]; rfl) (by rintro _ ⟨⟩)
    · exact sound.of_drain (by rintro _ ⟨⟩) (by rintro _ ⟨⟩)
  · next stem at_ =>
    split
    · exact sound.of_drain (by rintro _ ⟨⟩) (by rintro _ ⟨⟩)
    · next files applied =>
      obtain ⟨content, -, rfl⟩ := map_eq_some_iff.mp applied
      exact sound.of_remove _ (by rintro _ rfl; rw [at_]; rfl) (by rintro _ ⟨⟩)
  · next stem at_ =>
    rw [getD_apply_remove]
    exact sound.of_remove _ (by rintro _ ⟨⟩) (by rintro _ ⟨⟩)

theorem queueInv_drainOn (reads : ∀ source, parseEnvelope (envelopeJson source) = some source)
    (inv : QueueInv w) {result : PostResult} (spares : Spares (.drain result) w) :
    QueueInv (w.drainOn parseEnvelope dkimSign result) := by
  have sound := @sound_drainOn parseEnvelope dkimSign w inv.sound result
  -- A message that the drain works on is that of a call that has returned.
  have returned : ∀ stem call, w.calls stem = some call → w.drain.WorksOn stem → call.done = 4 :=
    fun stem call found works => (inv.calls stem call found).done_of_existed (inv.sound.working stem works)
  unfold drainOn at sound ⊢
  split at sound
  · exact inv
  · next name at_ =>
    rw [getD_apply_remove] at sound ⊢
    refine queueInv_remove inv (fun _ _ _ => trivial) sound ?_
    intro call found present
    have unfailed := (inv.calls _ call found).unfailed
    have done : call.done = 4 := (spares result name.1 name.2 rfl at_ present call found).resolve_left
      (by simp [unfailed])
    refine ⟨done, ((inv.calls _ call found).kept done).imp_left ?_⟩
    -- The message and the envelope are no temporary files.
    have tmp := inv.sound.tmp name at_
    have ne : ∀ {ext : Extension}, ext ≠ .msgTmp → ext ≠ .envTmp → (name.1, ext) ≠ name := by
      rintro ext notMsg notEnv same
      rw [← same] at tmp
      exact tmp.elim notMsg notEnv
    rintro ⟨msg, env⟩
    exact ⟨(update_of_ne (ne (by decide) (by decide)) ..).trans msg,
      (update_of_ne (ne (by decide) (by decide)) ..).trans env⟩
  · next stem at_ =>
    refine queueInv_drain inv sound (Subset.refl _) ?_
    rintro _ call found rfl
    refine ((inv.calls stem call found).kept (returned stem call found (by rw [at_]; rfl))).imp ?_ id
    rintro ⟨-, env⟩
    rw [env, readSource, bind_some, reads, getD_some]
  · next stem source at_ =>
    split at sound
    · exact queueInv_drain inv sound (Subset.refl _) fun _ _ _ => trivial
    · next bytes read =>
      split at sound
      · next signed =>
        rw [if_pos signed]
        refine queueInv_drain inv sound (Subset.refl _) ?_
        rintro _ call found rfl
        have fits := (inv.calls stem call found).drain
        rw [DrainFits, at_] at fits
        rcases (inv.calls stem call found).kept (returned stem call found (by rw [at_]; rfl)) with
          ⟨msg, -⟩ | settled
        · rw [read] at msg
          exact (fits rfl).imp_left fun own => ⟨own, some.inj msg⟩
        · exact .inr settled
      · next held =>
        rw [if_neg held]
        exact queueInv_drain inv sound (Subset.refl _) fun _ _ _ => trivial
  · next stem source bytes at_ =>
    have fits : ∀ call, w.calls stem = some call → (stem, call.source, call.article) ∈
        (stem, source, bytes) :: w.settled := by
      intro call found
      have fits := (inv.calls stem call found).drain
      rw [DrainFits, at_] at fits
      rcases fits rfl with ⟨rfl, rfl⟩ | settled
      · exact mem_cons_self
      · exact mem_cons_of_mem _ settled
    split at sound
    · refine queueInv_drain inv sound (subset_cons_self ..) ?_
      rintro _ call found rfl
      exact fits call found
    · refine queueInv_drain inv sound (subset_cons_self ..) ?_
      rintro _ call found rfl
      exact fits call found
    · exact queueInv_drain inv sound (Subset.refl _) fun _ _ _ => trivial
  · next stem at_ =>
    have settled : ∀ call, w.calls stem = some call → (stem, call.source, call.article) ∈ w.settled := by
      intro call found
      have fits := (inv.calls stem call found).drain
      rw [DrainFits, at_] at fits
      exact fits rfl
    split at sound
    · exact queueInv_drain inv sound (Subset.refl _) fun _ _ _ => trivial
    · next files applied =>
      obtain ⟨content, -, rfl⟩ := map_eq_some_iff.mp applied
      refine queueInv_remove inv ?_ sound ?_
      · rintro stem' call found rfl
        exact settled call found
      · intro call found _
        exact ⟨returned stem call found (by rw [at_]; rfl), .inr (settled call found)⟩
  · next stem at_ =>
    rw [getD_apply_remove] at sound ⊢
    refine queueInv_remove inv (fun _ _ _ => trivial) sound ?_
    intro call found _
    have fits := (inv.calls stem call found).drain
    rw [DrainFits, at_] at fits
    exact ⟨returned stem call found (by rw [at_]; rfl), .inr (fits rfl)⟩

/-- The call has failed, or a temporary file that it still needs is gone. -/
def Broken (stem : Stem) (w : QueueWorld) : Prop :=
  ∃ call, w.calls stem = some call ∧ (call.failed = true ∨
    (call.done = 1 ∨ call.done = 2 ∨ call.done = 3) ∧ w.files (stem, .msgTmp) = none ∨
    call.done = 2 ∧ w.files (stem, .envTmp) = none)

theorem Broken.of_le {stem : Stem} {w' : QueueWorld} (broken : Broken stem w)
    (calls : w'.calls stem = w.calls stem) (files : ∀ name, w.files name = none → w'.files name = none) :
    Broken stem w' := by
  obtain ⟨call, found, failed | ⟨stage, missing⟩ | ⟨stage, missing⟩⟩ := broken
  · exact ⟨call, calls.trans found, .inl failed⟩
  · exact ⟨call, calls.trans found, .inr (.inl ⟨stage, files _ missing⟩)⟩
  · exact ⟨call, calls.trans found, .inr (.inr ⟨stage, files _ missing⟩)⟩

theorem files_drainOn {result : PostResult} {name : QueueFile} (missing : w.files name = none) :
    (w.drainOn parseEnvelope dkimSign result).files name = none := by
  have removed : ∀ other, update w.files other none name = none := by
    intro other
    by_cases same : name = other
    · rw [same, update_self]
    · rwa [update_of_ne same]
  unfold drainOn
  split
  · exact missing
  · rw [getD_apply_remove]
    exact removed _
  · exact missing
  · split
    · exact missing
    · split <;> exact missing
  · split <;> exact missing
  · split
    · exact missing
    · next files applied =>
      obtain ⟨content, -, rfl⟩ := map_eq_some_iff.mp applied
      exact removed _
  · rw [getD_apply_remove]
    exact removed _

theorem calls_drainOn (w : QueueWorld) (result : PostResult) :
    (w.drainOn parseEnvelope dkimSign result).calls = w.calls := by
  unfold drainOn
  split
  · rfl
  · rfl
  · rfl
  · split
    · rfl
    · split <;> rfl
  · split <;> rfl
  · split <;> rfl
  · rfl

theorem broken_write_own {stem : Stem} (broken : Broken stem w) : Broken stem (w.write stem) := by
  rcases write_cases stem w with same | ⟨call, op, found, unfailed, next, ⟨-, failed⟩ | ⟨files, applied, done⟩⟩
  · rwa [same]
  · rw [failed]
    exact ⟨{ call with failed := true }, update_self .., .inl rfl⟩
  rw [done]
  refine ⟨{ call with done := call.done + 1 }, update_self .., ?_⟩
  obtain ⟨call', found', lost⟩ := broken
  obtain rfl : call = call' := some.inj (found.symm.trans found')
  have ne : ∀ {a b : Extension}, a ≠ b → (stem, a) ≠ (stem, b) := by
    intro a b differ same
    exact differ (congrArg Prod.snd same)
  rcases lost with failed | ⟨stage | stage | stage, missing⟩ | ⟨stage, missing⟩
  · rw [unfailed] at failed
    cases failed
  · -- The envelope is written, but the message is gone.
    rw [stage] at next
    obtain rfl := some.inj next
    obtain rfl := some.inj applied
    refine .inr (.inl ⟨.inr (.inl (by rw [stage])), ?_⟩)
    exact (update_of_ne (ne (by decide)) ..).trans missing
  · rw [stage] at next
    obtain rfl := some.inj next
    obtain ⟨content, -, rfl⟩ := map_eq_some_iff.mp applied
    refine .inr (.inl ⟨.inr (.inr (by rw [stage])), ?_⟩)
    exact ((update_of_ne (ne (by decide)) ..).trans
      (update_of_ne (ne (by decide)) ..)).trans missing
  · rw [stage] at next
    obtain rfl := some.inj next
    obtain ⟨content, present, -⟩ := map_eq_some_iff.mp applied
    rw [missing] at present
    cases present
  · rw [stage] at next
    obtain rfl := some.inj next
    obtain ⟨content, present, -⟩ := map_eq_some_iff.mp applied
    rw [missing] at present
    cases present

theorem broken_step {stem : Stem} (broken : Broken stem w) (label : QueueLabel) :
    Broken stem (w.step parseEnvelope dkimSign label).2 := by
  cases label with
  | begin stem' article source =>
    change Broken stem (w.begin stem' article source)
    unfold begin
    split
    · exact broken
    · next new =>
      refine broken.of_le (update_of_ne ?_ ..) (fun _ => id)
      rintro rfl
      obtain ⟨call, found, -⟩ := broken
      simp [found] at new
  | write stem' =>
    change Broken stem (w.write stem')
    by_cases same : stem = stem'
    · subst same
      exact broken_write_own broken
    · rcases write_cases stem' w with unchanged | ⟨call, op, -, -, next, ⟨-, failed⟩ | ⟨files, applied, done⟩⟩
      · rwa [unchanged]
      · rw [failed]
        exact broken.of_le (update_of_ne same ..) (fun _ => id)
      · rw [done]
        have other : ∀ ext, files (stem, ext) = w.files (stem, ext) := fun ext =>
          apply_of_notMem applied fun named => same (eq_of_mem_names next (.inl named))
        obtain ⟨call', found', lost⟩ := broken
        refine ⟨call', (update_of_ne same ..).trans found', ?_⟩
        simpa only [other] using lost
  | nextEntry name =>
    change Broken stem (w.nextEntry name)
    rcases nextEntry_cases name w with unchanged | ⟨-, ⟨-, turned⟩ | ⟨-, turned⟩⟩
    · rwa [unchanged]
    · rw [turned]
      exact broken
    · rw [turned]
      exact broken
  | drain result =>
    change Broken stem (w.drainOn parseEnvelope dkimSign result)
    exact broken.of_le (congrFun (calls_drainOn w result) stem) fun _ => files_drainOn

theorem broken_run {stem : Stem} (broken : Broken stem w) (labels : List QueueLabel) :
    Broken stem (runAll (step parseEnvelope dkimSign) labels w).2 := by
  induction labels generalizing w with
  | nil => exact broken
  | cons label labels ih => exact ih (broken_step broken label)

theorem broken_of_not_spares (inv : QueueInv w) {label : QueueLabel}
    (hits : ¬ Spares label w) : ∃ stem, Broken stem (w.step parseEnvelope dkimSign label).2 := by
  simp only [Spares, not_forall] at hits
  obtain ⟨result, stem, ext, rfl, at_, present, call, found, running⟩ := hits
  refine ⟨stem, call, (congrFun (calls_drainOn w result) stem).trans found, ?_⟩
  have removed : (w.drainOn parseEnvelope dkimSign result).files = update w.files (stem, ext) none := by
    rw [drainOn, at_]
    exact getD_apply_remove w.files (stem, ext)
  change _ ∨ _ ∧ (w.drainOn parseEnvelope dkimSign result).files _ = none ∨ _ ∧
    (w.drainOn parseEnvelope dkimSign result).files _ = none
  rw [removed]
  have files := (inv.calls stem call found).files
  have tmp := inv.sound.tmp _ at_
  match step : call.done with
  | 0 =>
    rw [step] at files
    rcases tmp with rfl | rfl
    · exact absurd files.1 present
    · exact absurd files.2 present
  | 1 =>
    rw [step] at files
    rcases tmp with rfl | rfl
    · exact .inr (.inl ⟨.inl rfl, update_self ..⟩)
    · exact absurd files.2 present
  | 2 =>
    rcases tmp with rfl | rfl
    · exact .inr (.inl ⟨.inr (.inl rfl), update_self ..⟩)
    · exact .inr (.inr ⟨rfl, update_self ..⟩)
  | 3 =>
    rw [step] at files
    rcases tmp with rfl | rfl
    · exact .inr (.inl ⟨.inr (.inr rfl), update_self ..⟩)
    · exact absurd files.2.1 present
  | 4 => exact absurd (.inr step) running
  | _ + 5 =>
    rw [step] at files
    exact files.elim

theorem queueInv_step (reads : ∀ source, parseEnvelope (envelopeJson source) = some source)
    (inv : QueueInv w) {label : QueueLabel} (spares : Spares label w) :
    QueueInv (w.step parseEnvelope dkimSign label).2 := by
  cases label with
  | begin stem article source => exact queueInv_begin inv stem article source
  | write stem => exact queueInv_write inv stem
  | nextEntry name => exact queueInv_nextEntry inv name
  | drain result => exact queueInv_drainOn reads inv spares

theorem calls_step_of_ne {label : QueueLabel} {stem : Stem} (other : label.caller ≠ some stem) :
    (w.step parseEnvelope dkimSign label).2.calls stem = w.calls stem := by
  cases label with
  | begin stem' article source =>
    rcases begin_cases stem' article source w with same | ⟨-, begun⟩
    · exact congrFun (congrArg calls same) stem
    · refine (congrFun (congrArg calls begun) stem).trans (update_of_ne ?_ ..)
      rintro rfl
      exact other rfl
  | write stem' =>
    have ne : stem ≠ stem' := by
      rintro rfl
      exact other rfl
    rcases write_cases stem' w with same | ⟨call, op, -, -, -, ⟨-, failed⟩ | ⟨files, -, done⟩⟩
    · exact congrFun (congrArg calls same) stem
    · exact (congrFun (congrArg calls failed) stem).trans (update_of_ne ne ..)
    · exact (congrFun (congrArg calls done) stem).trans (update_of_ne ne ..)
  | nextEntry name =>
    rcases nextEntry_cases name w with same | ⟨-, ⟨-, turned⟩ | ⟨-, turned⟩⟩
    · exact congrFun (congrArg calls same) stem
    · exact congrFun (congrArg calls turned) stem
    · exact congrFun (congrArg calls turned) stem
  | drain result => exact congrFun (calls_drainOn w result) stem

theorem calls_run_of_ne {labels : List QueueLabel} {stem : Stem}
    (others : ∀ label ∈ labels, label.caller ≠ some stem) :
    (runAll (step parseEnvelope dkimSign) labels w).2.calls stem = w.calls stem := by
  induction labels generalizing w with
  | nil => rfl
  | cons label labels ih =>
    rw [forall_mem_cons] at others
    exact (ih others.2).trans (calls_step_of_ne others.1)

/-- From any world that is well: the queue stays safe until all calls have returned exactly if
the drain spares the files of running calls. -/
theorem throughout_safe_iff (reads : ∀ source, parseEnvelope (envelopeJson source) = some source)
    (inv : QueueInv w) {labels : List QueueLabel}
    (returned : ∀ stem call, (runAll (step parseEnvelope dkimSign) labels w).2.calls stem =
      some call → call.Returned) : Throughout (step parseEnvelope dkimSign) QueueSafe labels w ↔
      AlongRun (step parseEnvelope dkimSign) Spares labels w := by
  induction labels generalizing w with
  | nil => exact iff_of_true inv.safe trivial
  | cons label labels ih =>
    by_cases spares : Spares label w
    · have next := @queueInv_step parseEnvelope dkimSign w reads inv label spares
      rw [Throughout, AlongRun, ih next returned]
      exact and_congr (iff_of_true inv.safe spares) Iff.rfl
    · refine iff_of_false ?_ (fun along => spares along.1)
      rintro ⟨-, rest⟩
      obtain ⟨stem, broken⟩ := @broken_of_not_spares parseEnvelope dkimSign w inv label spares
      obtain ⟨call, found, lost⟩ := broken_run broken labels
      obtain ⟨unfailed, -⟩ := rest.last stem call found
      rcases returned stem call found with failed | done
      · rw [unfailed] at failed
        cases failed
      · simp [unfailed, done] at lost

end Drain

/-- For every interleaving of calls of `enqueue` with the drain, over any directory and with any
verdicts of the reader: all calls return without an error and their articles are kept until
they are settled, exactly if the drain never removes a temporary file of a call that is still
going on. -/
theorem queue_safe_iff {parseEnvelope : Bytes → Option InjectionSource}
    (reads : ∀ source, parseEnvelope (envelopeJson source) = some source)
    (dkimSign : Option (Bytes → Option Bytes)) {files : Files QueueFile Bytes} {labels : List QueueLabel}
    (returned : ∀ stem call, (runAll (QueueWorld.step parseEnvelope dkimSign) labels
      (.start files)).2.calls stem = some call → call.Returned) :
    Throughout (QueueWorld.step parseEnvelope dkimSign) QueueSafe labels (.start files) ↔
      AlongRun (QueueWorld.step parseEnvelope dkimSign) Spares labels (.start files) :=
  throughout_safe_iff reads (queueInv_start files) returned

end

namespace Sample

def stem : Stem := ⟨1, 0⟩

/-- Reads the envelopes that `enqueue` writes. -/
def readEnvelope (bytes : Bytes) : Option InjectionSource :=
  [.nntpPost, .smtpNewsgroups, .smtpSieve, .smtpListId].find? fun source => envelopeJson source == bytes

theorem readEnvelope_envelopeJson (source : InjectionSource) :
    readEnvelope (envelopeJson source) = some source := by
  cases source <;> decide

def drainedAfter : List QueueLabel :=
  [.begin stem [0x61] .smtpListId, .write stem, .write stem, .write stem, .write stem,
    .nextEntry (stem, .msg), .drain .failed, .drain .failed, .drain .accepted, .drain .failed,
    .drain .failed]

def drainedBetween : List QueueLabel :=
  [.begin stem [0x61] .smtpListId, .write stem, .nextEntry (stem, .msgTmp), .drain .failed,
    .write stem, .write stem, .write stem]

abbrev stepHere := QueueWorld.step readEnvelope none

theorem drained_after_is_safe : (AlongRun stepHere Spares drainedAfter (.start .empty)) ∧
      Throughout stepHere QueueSafe drainedAfter (.start .empty) := by
  have along : AlongRun stepHere Spares drainedAfter (.start .empty) := by
    refine ⟨?_, ?_, ?_, ?_, ?_, ?_, ?_, ?_, ?_, ?_, ?_, trivial⟩ <;> rintro _ _ _ _ ⟨⟩
  refine ⟨along, (queue_safe_iff readEnvelope_envelopeJson none ?_).mpr along⟩
  intro other call found
  by_cases same : other = stem
  · subst same
    obtain rfl := some.inj (found : some (EnqueueCall.mk [0x61] .smtpListId 4 false) = some call)
    exact .inr rfl
  · -- No other call has begun.
    have none : (runAll stepHere drainedAfter (.start .empty)).2.calls other = none :=
      calls_run_of_ne (by simp [drainedAfter, QueueLabel.caller, Ne.symm same])
    rw [none] at found
    cases found

/-- The call fails: its message has been removed for the remains of a crash. -/
theorem drained_between_fails : ¬ Throughout stepHere QueueSafe drainedBetween (.start .empty) := by
  intro safe
  obtain ⟨unfailed, -⟩ := safe.last stem ⟨[0x61], .smtpListId, 3, true⟩ rfl
  cases unfailed

end Sample

end Stoa.Smtp
