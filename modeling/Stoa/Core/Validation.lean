import Stoa.Core.Article
import Stoa.Core.Wildmat
import Stoa.Lib.Checks

/-! The checks an article passes before it is signed or stored, in the order in which they are made:
the first that fails gives the error. -/
namespace Stoa

open Text

/-- Maximum number of groups in the `Newsgroups` header. -/
def maxNewsgroups : Nat := 100

def maxHeaderValue : Nat := 998

def maxHeaderName : Nat := 76

structure ValidationConfig where
  maxArticleBytes : Nat := 1024 * 1024
  allowedGroups : GroupPolicy := none

def stripBrackets : List Char → Option (List Char)
  | '<' :: rest => if rest.getLast? = some '>' then some rest.dropLast else none
  | _ => none

def isForbiddenInMessageId (c : Char) : Bool :=
  decide (c.toNat ≤ 0x20) || c == '<' || c == '>' || decide (c.toNat = 0x7f)

def isValidMessageId (id : String) : Bool :=
  match stripBrackets id.toList with
  | none => false
  | some inner =>
    if inner.count '@' ≠ 1 then false
    else
      let localPart := inner.takeWhile (· != '@')
      let domain := (inner.dropWhile (· != '@')).drop 1
      if localPart.isEmpty || domain.isEmpty then false
      else !(localPart.any isForbiddenInMessageId || domain.any isForbiddenInMessageId)

def validateMessageId (id : String) : Except ValidationError Unit := do
  refuseIf (998 < len id) (.invalidMessageId id)
  refuseIf (isValidMessageId id = false) (.invalidMessageId id)

theorem validateMessageId_eq_ok {id : String} :
    validateMessageId id = .ok () ↔ len id ≤ 998 ∧ isValidMessageId id = true := by
  simp [validateMessageId]

theorem stripBrackets_eq_some {cs inner : List Char} :
    stripBrackets cs = some inner ↔ cs = '<' :: (inner ++ ['>']) := by
  rw [stripBrackets.eq_def]
  constructor
  · intro stripped
    split at stripped
    · next rest =>
      split at stripped
      · next closed =>
        cases stripped
        rw [List.dropLast_append_getLast? _ closed]
      · cases stripped
    · cases stripped
  · rintro rfl
    simp

theorem isValidMessageId_iff {id : String} : isValidMessageId id = true ↔
    ∃ inner, id.toList = '<' :: (inner ++ ['>']) ∧ inner.count '@' = 1 ∧ inner.head? ≠ some '@' ∧
      inner.getLast? ≠ some '@' ∧ ∀ c ∈ inner, isForbiddenInMessageId c = false := by
  simp only [← stripBrackets_eq_some]
  unfold isValidMessageId
  cases stripBrackets id.toList with
  | none => simp
  | some inner =>
    simp only [Option.some.injEq, exists_eq_left']
    by_cases one : inner.count '@' = 1
    · -- The one at sign parts the text in two.
      obtain ⟨localPart, domain, rfl, absent⟩ := List.eq_append_cons_of_mem
        (List.one_le_count_iff.mp one.ge)
      have alone : '@' ∉ domain := by
        simp only [List.count_append, List.count_cons_self, List.count_eq_zero_of_not_mem absent] at one
        exact List.count_eq_zero.mp (by omega)
      have plain : ∀ c ∈ localPart, (c != '@') = true := fun c member =>
        bne_iff_ne.mpr fun same => absent (same ▸ member)
      have first : (localPart ++ '@' :: domain).head? ≠ some '@' ↔ localPart ≠ [] := by
        cases localPart with
        | nil => simp
        | cons c rest => simpa using fun same : c = '@' => absent (by simp [same])
      have last : (localPart ++ '@' :: domain).getLast? ≠ some '@' ↔ domain ≠ [] := by
        rw [List.getLast?_append_cons]
        cases domain with
        | nil => simp
        | cons c rest =>
          rw [List.getLast?_cons_cons]
          simpa using fun same => alone (List.mem_of_getLast? same)
      have fine : isForbiddenInMessageId '@' = false := rfl
      rw [first, last, List.takeWhile_append_of_pos plain, List.dropWhile_append_of_pos plain]
      simp [one, fine, or_imp, forall_and, and_assoc]
    · simp [one]

theorem gt_of_mem_valid {id : String} (valid : isValidMessageId id = true) {c : Char}
    (member : c ∈ id.toList) : 0x20 < c.toNat := by
  obtain ⟨inner, shape, -, -, -, fine⟩ := isValidMessageId_iff.mp valid
  simp only [shape, List.mem_cons, List.mem_append, List.not_mem_nil, or_false] at member
  rcases member with rfl | inside | rfl
  · decide
  · have allowed := fine c inside
    simp only [isForbiddenInMessageId, Bool.or_eq_false_iff, decide_eq_false_iff_not] at allowed
    omega
  · decide

def checkLength (field text : String) (limit : Nat) : Except ValidationError Unit :=
  refuseIf (limit < len text) (.headerFieldTooLong field (len text) limit)

def checkChars (field text : String) (forbidden : List Char) (reason : String) :
    Except ValidationError Unit :=
  refuseIf (forbidden.any (contains text) = true) (.invalidHeaderValue field reason)

def checkValue (field value : String) : Except ValidationError Unit := do
  checkLength field value maxHeaderValue
  checkChars field value ['\x00', '\r', '\n']
    "NUL byte or bare CR/LF forbidden in header values (RFC 5322 §2.2)"

def mandatoryFields (h : ArticleHeader) : List (String × String) :=
  [("From", h.from), ("Date", h.date), ("Message-ID", h.messageId), ("Subject", h.subject),
    ("Path", h.path)]

def checkMandatory (field : String × String) : Except ValidationError Unit := do
  let (name, value) := field
  refuseIf (value = "") (.missingMandatoryHeader name)
  checkValue name value

def checkExtra (field : String × String) : Except ValidationError Unit := do
  let (name, value) := field
  refuseIf (name = "")
    (.invalidHeaderValue "(empty)" "header field name must not be empty (RFC 5322 §2.2)")
  checkLength name name maxHeaderName
  checkChars name name ['\x00', '\r', '\n', ':']
    "header field name contains NUL, CR, LF, or colon (RFC 5322 §2.2)"
  checkValue name value

def checkNewsgroups (newsgroups : List GroupName) : Except ValidationError Unit := do
  refuseIf (newsgroups = []) .emptyNewsgroups
  refuseIf (maxNewsgroups < newsgroups.length) (.tooManyNewsgroups newsgroups.length maxNewsgroups)

def checkFilter (newsgroups : List GroupName) : GroupPolicy → Except ValidationError Unit
  | none => .ok ()
  | some filter => refuseIf ((newsgroups.any fun g => filter.accepts g.asStr) = false)
      (.invalidGroupInNewsgroups "none of the article's groups match the configured filter")

def checkBody (body : Bytes) (limit : Nat) : Except ValidationError Unit :=
  refuseIf (limit < body.length) (.articleTooBig body.length limit)

def validateArticleIngress (article : Article) (config : ValidationConfig) :
    Except ProtocolError Unit :=
  Except.mapError ProtocolError.validationFailed do
    let h := article.header
    (mandatoryFields h).forM checkMandatory
    validateMessageId h.messageId
    checkNewsgroups h.newsgroups
    checkFilter h.newsgroups config.allowedGroups
    h.extraHeaders.forM checkExtra
    checkBody article.body config.maxArticleBytes

def SafeValue (value : String) : Prop := ∀ c ∈ ['\x00', '\r', '\n'], c ∉ value.toList

structure SafeName (name : String) : Prop where
  nonempty : name ≠ ""
  chars : ∀ c ∈ ['\x00', '\r', '\n', ':'], c ∉ name.toList

theorem checkChars_eq_ok {field text : String} {forbidden : List Char} {reason : String} :
    checkChars field text forbidden reason = .ok () ↔ ∀ c ∈ forbidden, c ∉ text.toList := by
  unfold checkChars
  rw [refuseIf_eq_ok, Bool.not_eq_true, List.any_eq_false]
  simp [contains]

theorem checkValue_eq_ok {field value : String} :
    checkValue field value = .ok () ↔ len value ≤ maxHeaderValue ∧ SafeValue value := by
  unfold checkValue checkLength
  rw [andThen_eq_ok, refuseIf_eq_ok, Nat.not_lt, checkChars_eq_ok]
  rfl

theorem checkMandatory_eq_ok {name value : String} : checkMandatory (name, value) = .ok () ↔
    value ≠ "" ∧ len value ≤ maxHeaderValue ∧ SafeValue value := by
  unfold checkMandatory
  dsimp only
  rw [andThen_eq_ok, refuseIf_eq_ok, checkValue_eq_ok]

theorem checkExtra_eq_ok {name value : String} : checkExtra (name, value) = .ok () ↔
    (SafeName name ∧ len name ≤ maxHeaderName) ∧ len value ≤ maxHeaderValue ∧ SafeValue value := by
  unfold checkExtra checkLength
  dsimp only
  rw [andThen_eq_ok, andThen_eq_ok, andThen_eq_ok, refuseIf_eq_ok, refuseIf_eq_ok,
    checkChars_eq_ok, checkValue_eq_ok, Nat.not_lt]
  constructor
  · rintro ⟨nonempty, short, chars, value⟩
    exact ⟨⟨⟨nonempty, chars⟩, short⟩, value⟩
  · rintro ⟨⟨safe, short⟩, value⟩
    exact ⟨safe.nonempty, short, safe.chars, value⟩

structure Valid (article : Article) (config : ValidationConfig) : Prop where
  mandatory : ∀ field ∈ mandatoryFields article.header,
    field.2 ≠ "" ∧ len field.2 ≤ maxHeaderValue ∧ SafeValue field.2
  messageId : len article.header.messageId ≤ 998 ∧
    isValidMessageId article.header.messageId = true
  newsgroups : article.header.newsgroups ≠ [] ∧ article.header.newsgroups.length ≤ maxNewsgroups
  filter : ∀ filter ∈ config.allowedGroups,
    ∃ g ∈ article.header.newsgroups, filter.accepts g.asStr = true
  extra : ∀ field ∈ article.header.extraHeaders, (SafeName field.1 ∧ len field.1 ≤ maxHeaderName) ∧
    len field.2 ≤ maxHeaderValue ∧ SafeValue field.2
  body : article.body.length ≤ config.maxArticleBytes

theorem checkFilter_eq_ok {newsgroups : List GroupName} {policy : GroupPolicy} :
    checkFilter newsgroups policy = .ok () ↔
      ∀ filter ∈ policy, ∃ g ∈ newsgroups, filter.accepts g.asStr = true := by
  cases policy with
  | none => exact iff_of_true rfl nofun
  | some filter =>
    unfold checkFilter
    rw [refuseIf_eq_ok, Bool.not_eq_false, List.any_eq_true]
    simp

theorem validateArticleIngress_eq_ok {article : Article} {config : ValidationConfig} :
    validateArticleIngress article config = .ok () ↔ Valid article config := by
  unfold validateArticleIngress
  simp only [mapError_eq_ok, andThen_eq_ok, forM_eq_ok, validateMessageId, checkNewsgroups,
    checkBody, refuseIf_eq_ok, checkFilter_eq_ok, Nat.not_lt, Bool.not_eq_false]
  constructor
  · rintro ⟨mandatory, messageId, newsgroups, filter, extra, body⟩
    exact ⟨fun field h => checkMandatory_eq_ok.mp (mandatory field h), messageId, newsgroups,
      filter, fun field h => checkExtra_eq_ok.mp (extra field h), body⟩
  · intro valid
    exact ⟨fun field h => checkMandatory_eq_ok.mpr (valid.mandatory field h), valid.messageId,
      valid.newsgroups, valid.filter, fun field h => checkExtra_eq_ok.mpr (valid.extra field h),
      valid.body⟩

end Stoa
