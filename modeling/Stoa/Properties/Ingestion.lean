import Stoa.Core.GroupLog.MemStorage
import Stoa.Lib.Words
import Stoa.Transit.Ingestion
import Stoa.Transit.Pipeline

/-!
- `ingestion_returns_iff`: neither panics exactly when no line is sliced inside a character.
- `sameKey_iff`: the Message-ID that is looked up is the one that the article is stored under,
  and valid, exactly for Message-ID fields with ASCII white space at most.
-/
namespace Stoa

open Text List

section Panics

variable {ed : Ed25519} {I S : Type} [IpfsStore I] [LogStorage S]

def Returns (ed : Ed25519) (envelopeMsgid : String) (articleBytes : Bytes) (map : MsgIdMap)
    (ctx : PipelineCtx) (clock : PipelineClock) (t : Transit I S) : Prop :=
  (∃ result, ((checkIngest envelopeMsgid articleBytes).exec map).1 = .ok result) ∧
    ¬ ∃ panic, ((runPipeline ed articleBytes ctx clock).exec t).1 = .error (.panic panic)

/-- The checks panic at a line cut before the Message-ID, if they come to the scan; the pipeline at
one cut before both the Message-ID and the newsgroups, once the block is written. -/
theorem ingestion_returns_iff (envelopeMsgid : String) (articleBytes : Bytes) (map : MsgIdMap)
    (ctx : PipelineCtx) (clock : PipelineClock) (t : Transit I S) :
    Returns ed envelopeMsgid articleBytes map ctx clock t ↔
      (validateMessageId envelopeMsgid = .ok () → articleBytes.length ≤ maxIngestBytes →
        Uncut ["message-id:"] (headerLines articleBytes)) ∧
      ((∃ cid, ((IpfsStore.putRaw (prependPathHeader articleBytes ctx.localHostname)).exec
          t.ipfs).1 = .ok cid) →
        Uncut ["message-id:", "newsgroups:"]
          (headerLines (prependPathHeader articleBytes ctx.localHostname))) := by
  rw [Returns, checkIngest_returns_iff, runPipeline_panics_iff,
    ← parseMessageIdAndNewsgroups_returns_iff, not_and]
  have returned : (¬ ∃ panic, parseMessageIdAndNewsgroups
        (prependPathHeader articleBytes ctx.localHostname) = .error panic) ↔
      ∃ parsed, parseMessageIdAndNewsgroups
        (prependPathHeader articleBytes ctx.localHostname) = .ok parsed := by
    cases parseMessageIdAndNewsgroups (prependPathHeader articleBytes ctx.localHostname) <;> simp
  rw [returned]

end Panics

namespace Transit.Sample

def cutArticle : Bytes := asBytes "Subject: aé\r\nMessage-ID: <1@a>\r\n\r\n"

def plainKey : SigningKey := .fill 32 7

def plainEd : Ed25519 := .ofSignatures plainKey (.fill 32 8) []

def plainCtx : PipelineCtx := ⟨.ofWallMs 1, plainKey, "a", none⟩

def emptyTransit : Transit MemIpfsStore MemLogStorage := ⟨.new, .new, .new, ⟨Table.empty, []⟩⟩

theorem cutArticle_panics : ¬ Returns plainEd "<1@a>" cutArticle .new plainCtx ⟨0, 0⟩ emptyTransit := by
  rintro ⟨returned, -⟩
  rw [checkIngest_returns_iff, ← extractMsgidFrom_returns_iff] at returned
  obtain ⟨extracted, ok⟩ := returned (by decide) (by decide)
  have panics : extractMsgidFrom (headerLines cutArticle) = .error ⟨asBytes "Subject: aé"⟩ := by rfl
  simp [panics] at ok

end Transit.Sample

/-- The lines of a field as text, the first without its name. -/
def pieces (line : Bytes) (folds : List Bytes) : List String :=
  fromUtf8Lossy (line.drop 11) :: folds.map fromUtf8Lossy

/-- The value that the checks read: the lines put together without the white space at their ends. -/
def unfolded (line : Bytes) (folds : List Bytes) : String :=
  trimAscii (trimAsciiStart (fromUtf8Lossy (line.drop 11)) ++
    String.join (folds.map fun l => trimAscii (fromUtf8Lossy l)))

/-- The Message-ID that was looked up is valid and the article is stored under it. -/
def SameKey (articleBytes : Bytes) (hostname : String) : Prop :=
  ∃ id names, extractBodyMsgid articleBytes = .ok (some id) ∧ id ≠ "" ∧
    validateMessageId id = .ok () ∧
    parseMessageIdAndNewsgroups (prependPathHeader articleBytes hostname) = .ok (some (id, names))

/-- A Message-ID field whose lines are text with no other white space than ASCII at their ends, and
whose value is a valid Message-ID. -/
structure SoundField (header : List Bytes) (line : Bytes) (folds : List Bytes) : Prop
    extends MessageIdField header line folds where
  text : ∀ l ∈ folds, (fromUtf8 l).isSome
  spaces : ∀ piece ∈ pieces line folds, (trim piece).toList = piece.toList.filter (!isAsciiSpace ·)
  valid : validateMessageId (unfolded line folds) = .ok ()

theorem not_isAsciiSpace_of_valid {id : String} (valid : validateMessageId id = .ok ()) :
    ∀ c ∈ id.toList, isAsciiSpace c = false := by
  intro c member
  have large := gt_of_mem_valid (validateMessageId_eq_ok.mp valid).2 member
  -- Every ASCII white space is a space or a control.
  simp only [isAsciiSpace, Bool.or_eq_false_iff, beq_eq_false_iff_ne]
  refine ⟨⟨⟨⟨?_, ?_⟩, ?_⟩, ?_⟩, ?_⟩ <;> rintro rfl <;> simp at large

theorem toList_trim (s : String) : (trim s).toList = Chars.trimMatches isWhitespace s.toList := by
  rw [trim, String.toList_ofList, Chars.trimMatches]

theorem toList_trimAscii (s : String) : (trimAscii s).toList = Chars.trimMatches isAsciiSpace s.toList := by
  rw [trimAscii, String.toList_ofList, Chars.trimMatches]

theorem toList_join (texts : List String) :
    (String.join texts).toList = (texts.map String.toList).flatten := by
  induction texts with
  | nil => rfl
  | cons s texts ih => simp [ih]

theorem toList_unfolded {line : Bytes} {folds : List Bytes}
    (clean : ∀ c ∈ (unfolded line folds).toList, isAsciiSpace c = false) : (unfolded line folds).toList =
      ((pieces line folds).map fun piece => piece.toList.filter (!isAsciiSpace ·)).flatten := by
  have kept : (unfolded line folds).toList.filter (!isAsciiSpace ·) =
      (unfolded line folds).toList := by
    rw [filter_eq_self]
    simpa using clean
  rw [← kept, unfolded, toList_trimAscii, Chars.filter_trimMatches, String.toList_append,
    filter_append, trimAsciiStart, String.toList_ofList, Chars.filter_dropWhile, toList_join,
    filter_flatten, pieces, map_cons, flatten_cons]
  simp only [map_map, Function.comp_def, toList_trimAscii, Chars.filter_trimMatches]

/-- The value that the pipeline reads is that one when trimming leaves each line without its ASCII
white space. -/
theorem trimmed_eq_iff {texts : List String} {id : List Char} (clean : ∀ c ∈ id, isAsciiSpace c = false)
    (whole : id = (texts.map fun piece => piece.toList.filter (!isAsciiSpace ·)).flatten) :
    (texts.map fun piece => (trim piece).toList).flatten = id ↔
      ∀ piece ∈ texts, (trim piece).toList = piece.toList.filter (!isAsciiSpace ·) := by
  constructor
  · intro same
    apply Chars.eq_of_flatten_map
    · intro piece member
      -- What is left of a line has no white space inside and is a part of the line.
      have plain : (trim piece).toList.filter (!isAsciiSpace ·) = (trim piece).toList := by
        rw [filter_eq_self]
        intro c inside
        have inId : c ∈ id := by
          rw [← same, mem_flatten]
          exact ⟨_, mem_map_of_mem member, inside⟩
        simp [clean c inId]
      rw [← plain, toList_trim]
      exact (Chars.trimMatches_sublist _ _).filter _
    · rw [same, whole]
  · intro each
    rw [whole]
    exact congrArg List.flatten (map_congr_left each)

theorem accepted_extracts {envelopeMsgid : String} {articleBytes : Bytes} {map : MsgIdMap}
    (accepted : ((checkIngest envelopeMsgid articleBytes).exec map).1 = .ok .accepted) :
    Uncut ["message-id:"] (headerLines articleBytes) := by
  apply (checkIngest_returns_iff envelopeMsgid articleBytes map).mp ⟨_, accepted⟩
  · cases valid : validateMessageId envelopeMsgid with
    | ok => rfl
    | error e =>
      rw [checkIngest, valid] at accepted
      cases accepted
  · by_contra large
    cases valid : validateMessageId envelopeMsgid with
    | error e =>
      rw [checkIngest, valid] at accepted
      cases accepted
    | ok _ =>
      have excess : maxIngestBytes < articleBytes.length := by omega
      rw [checkIngest, valid] at accepted
      simp [excess] at accepted

theorem sameKey_iff {envelopeMsgid : String} {articleBytes : Bytes} {map : MsgIdMap}
    {hostname : String} (single : '\n' ∉ hostname.toList)
    (accepted : ((checkIngest envelopeMsgid articleBytes).exec map).1 = .ok .accepted) :
    SameKey articleBytes hostname ↔ (∃ line folds, SoundField (headerLines articleBytes) line folds) ∧
        Uncut ["message-id:", "newsgroups:"] (headerLines (prependPathHeader articleBytes hostname)) := by
  have uncut := accepted_extracts accepted
  -- The two values of a Message-ID field of text, as they are read.
  have read {line : Bytes} {folds : List Bytes} (field : MessageIdField (headerLines articleBytes) line folds)
      (text : ∀ l ∈ folds, (fromUtf8 l).isSome)
      (parsed : Option (String × List String)) (ok : parseMessageIdAndNewsgroups (prependPathHeader articleBytes hostname) = .ok parsed) :
      ∃ mid names, parsed = some (mid, names) ∧
        mid.toList = ((pieces line folds).map fun piece => (trim piece).toList).flatten := by
    obtain ⟨names, rfl⟩ := messageId_of_parse (field.prependPath single) text ok
    refine ⟨_, names, rfl, ?_⟩
    rw [String.toList_append, toList_join, pieces, map_cons, flatten_cons, map_map,
      map_map]
    rfl
  constructor
  · rintro ⟨id, names, extracted, -, valid, stored⟩
    obtain ⟨l, member, named⟩ := exists_field_of_extract extracted
    obtain ⟨line, folds, field⟩ := exists_messageIdField member named
    rw [extractBodyMsgid, extractMsgidFrom_eq field uncut] at extracted
    split at extracted
    swap
    · cases extracted
    next text =>
    obtain rfl : unfolded line folds = id := by simpa [unfolded] using extracted
    have clean := not_isAsciiSpace_of_valid valid
    obtain ⟨mid, names', parsed, key⟩ := read field text _ stored
    obtain ⟨rfl, -⟩ : unfolded line folds = mid ∧ names = names' := by simpa using parsed
    refine ⟨⟨line, folds, field, text, ?_, valid⟩, ?_⟩
    · exact (trimmed_eq_iff clean (toList_unfolded clean)).mp key.symm
    · exact (parseMessageIdAndNewsgroups_returns_iff _).mp ⟨_, stored⟩
  · rintro ⟨⟨line, folds, sound⟩, whole⟩
    have clean := not_isAsciiSpace_of_valid sound.valid
    obtain ⟨parsed, stored⟩ := (parseMessageIdAndNewsgroups_returns_iff _).mpr whole
    obtain ⟨mid, names, rfl, key⟩ := read sound.toMessageIdField sound.text _ stored
    have same : mid = unfolded line folds := by
      apply String.toList_injective
      rw [key]
      exact (trimmed_eq_iff clean (toList_unfolded clean)).mpr sound.spaces
    subst same
    refine ⟨_, names, ?_, ?_, sound.valid, stored⟩
    · rw [extractBodyMsgid, extractMsgidFrom_eq sound.toMessageIdField uncut, if_pos sound.text, unfolded]
    · intro empty
      have valid := sound.valid
      rw [empty] at valid
      exact absurd valid (by decide)

namespace Transit.Sample

def offered (messageId : String) : Bytes :=
  asBytes ("From: a\r\nDate: d\r\nMessage-ID: " ++ messageId ++ "\r\nNewsgroups: g\r\nSubject: s\r\n\r\n")

theorem accepted_offered : ((checkIngest "<1@a>" (offered "<1@a>")).exec .new).1 = .ok .accepted := by
  rfl

theorem soundField_offered :
    SoundField (headerLines (offered "<1@a>")) (asBytes "Message-ID: <1@a>") [] where
  field := ⟨by decide, by decide, rfl⟩
  folded := by simp
  first := by
    refine ⟨[asBytes "From: a", asBytes "Date: d"],
      [asBytes "Newsgroups: g", asBytes "Subject: s"], by decide, ?_, ?_⟩
    · intro l member field
      have named := field.head
      simp only [mem_cons, not_mem_nil, or_false] at member
      rcases member with rfl | rfl
      · exact absurd named (by decide)
      · exact absurd named (by decide)
    · rintro l ⟨⟩
      decide
  text := by simp
  spaces := by
    rw [pieces, map_nil, forall_mem_singleton]
    decide
  valid := by decide

theorem uncut_offered : Uncut ["message-id:", "newsgroups:"]
    (headerLines (prependPathHeader (offered "<1@a>") "a")) :=
  (parseMessageIdAndNewsgroups_returns_iff _).mp ⟨some ("<1@a>", ["g"]), rfl⟩

theorem offered_sameKey :
    ((checkIngest "<1@a>" (offered "<1@a>")).exec .new).1 = .ok .accepted ∧
      SameKey (offered "<1@a>") "a" :=
  ⟨accepted_offered, (sameKey_iff (by decide) accepted_offered).mpr
    ⟨⟨_, _, soundField_offered⟩, uncut_offered⟩⟩

/-- An article that is accepted although its Message-ID is none. -/
theorem offered_unchecked : ((checkIngest "<1@a>" (offered "x")).exec .new).1 = .ok .accepted ∧
    ¬ SameKey (offered "x") "a" := by
  refine ⟨rfl, ?_⟩
  rintro ⟨id, names, extracted, -, valid, -⟩
  have looked : extractBodyMsgid (offered "x") = .ok (some "x") := by rfl
  rw [looked] at extracted
  cases extracted
  exact absurd valid (by decide)

end Transit.Sample

end Stoa
