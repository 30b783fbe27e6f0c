import Stoa.Core.GroupLog.Verify
import Stoa.Core.Validation

/-! Canonical byte strings determine what they encode. -/
namespace Stoa

open Text List

/-- Entries with 64-byte signatures have the same id bytes exactly when they agree on all that the
id covers, and the same signed bytes exactly when they agree on all but the signature; parents
count as a multiset. -/
theorem entry_encodings_unambiguous (a b : LogEntry) (sigA : a.operatorSignature.length = 64)
    (sigB : b.operatorSignature.length = 64) :
    (entryIdBytes a.hlcTimestamp.wallMs a.articleCid a.operatorSignature a.parentCids =
        entryIdBytes b.hlcTimestamp.wallMs b.articleCid b.operatorSignature b.parentCids ↔
      a.hlcTimestamp.wallMs = b.hlcTimestamp.wallMs ∧ a.articleCid = b.articleCid ∧
        a.operatorSignature = b.operatorSignature ∧ a.parentCids.Perm b.parentCids) ∧
    (logEntryCanonicalBytes a.hlcTimestamp.wallMs a.articleCid a.parentCids =
        logEntryCanonicalBytes b.hlcTimestamp.wallMs b.articleCid b.parentCids ↔
      a.hlcTimestamp.wallMs = b.hlcTimestamp.wallMs ∧ a.articleCid = b.articleCid ∧
        a.parentCids.Perm b.parentCids) :=
  ⟨entryIdBytes_eq_iff _ _ _ _ _ _ _ _ (sigA.trans sigB.symm),
    logEntryCanonicalBytes_eq_iff _ _ _ _ _ _⟩

namespace Sample

def merge (parents : List Cid) : LogEntry :=
  ⟨.ofWallMs 1000, .newV1 0x71 ⟨0x12, List.replicate 32 0xaa, by simp⟩, List.replicate 64 1, parents⟩

theorem length_parent_le (x : UInt8) : (List.replicate 32 x).length ≤ 64 := by simp

def parentCid (x : UInt8) : Cid := .newV1 0x71 ⟨0x12, List.replicate 32 x, length_parent_le x⟩

end Sample

open Sample in
/-- The order of the parents does not show in the id bytes, another parent does. -/
theorem merge_encodings :
    (entryIdBytes 1000 (merge []).articleCid (List.replicate 64 1) [parentCid 1, parentCid 2] =
        entryIdBytes 1000 (merge []).articleCid (List.replicate 64 1) [parentCid 2, parentCid 1]) ∧
      entryIdBytes 1000 (merge []).articleCid (List.replicate 64 1) [parentCid 1, parentCid 2] ≠
        entryIdBytes 1000 (merge []).articleCid (List.replicate 64 1) [parentCid 1, parentCid 1] := by
  have length (parents : List Cid) : (merge parents).operatorSignature.length = 64 :=
    length_replicate
  constructor
  · exact (entry_encodings_unambiguous (merge [parentCid 1, parentCid 2])
      (merge [parentCid 2, parentCid 1]) (length _) (length _)).1.mpr
      ⟨rfl, rfl, rfl, List.Perm.swap _ _ _⟩
  · intro same
    have parts := (entry_encodings_unambiguous (merge [parentCid 1, parentCid 2])
      (merge [parentCid 1, parentCid 1]) (length _) (length _)).1.mp same
    exact absurd parts.2.2.2 (by decide)

theorem value_tail {v w : String} {x y : Bytes} (safeV : '\r' ∉ v.toList) (safeW : '\r' ∉ w.toList)
    (text : asBytes v ++ (asBytes "\r\n" ++ x) = asBytes w ++ (asBytes "\r\n" ++ y)) :
    v = w ∧ x = y := by
  have mark : asBytes "\r\n" = [UInt8.ofNat '\r'.toNat, 0x0a] := by decide
  rw [mark] at text
  obtain ⟨values, rest⟩ := append_mark_inj (notMem_asBytes (by decide) safeV)
    (notMem_asBytes (by decide) safeW) text
  exact ⟨asBytes_injective values, (List.cons.inj rest).2⟩

theorem pushHeader_tail {name v w : String} {x y : Bytes} (safeV : '\r' ∉ v.toList)
    (safeW : '\r' ∉ w.toList) (text : pushHeader name v ++ x = pushHeader name w ++ y) : v = w ∧ x = y := by
  simp only [pushHeader, append_assoc, append_cancel_left_eq] at text
  exact value_tail safeV safeW text

def SafeHeader (field : String × String) : Prop := SafeName field.1 ∧ SafeValue field.2

theorem SafeValue.noReturn {value : String} (safe : SafeValue value) : '\r' ∉ value.toList :=
  safe '\r' (by decide)

theorem selfDelimitingOn_pushHeader :
    SelfDelimitingOn SafeHeader (fun field => pushHeader field.1 field.2) := by
  rintro ⟨m, v⟩ ⟨n, w⟩ x y ⟨safeM, safeV⟩ ⟨safeN, safeW⟩ text
  have mark : asBytes ": " = [UInt8.ofNat ':'.toNat, 0x20] := by decide
  simp only [pushHeader, mark, append_assoc] at text
  -- The name ends at its colon, the value at its carriage return.
  obtain ⟨names, rest⟩ := append_mark_inj
    (notMem_asBytes (by decide) (safeM.chars ':' (by decide)))
    (notMem_asBytes (by decide) (safeN.chars ':' (by decide))) text
  obtain ⟨values, _⟩ := value_tail safeV.noReturn safeW.noReturn (List.cons.inj rest).2
  exact Prod.ext (asBytes_injective names) values

theorem pushHeader_ne_separator {field : String × String} (safe : SafeHeader field)
    (z body : Bytes) : pushHeader field.1 field.2 ++ z ≠ asBytes "\x00\n" ++ body := by
  intro text
  have mark : asBytes "\x00\n" = [UInt8.ofNat '\x00'.toNat, 0x0a] := by decide
  have absent := notMem_asBytes (c := '\x00') (by decide) (safe.1.chars '\x00' (by decide))
  have nonempty : asBytes field.1 ≠ [] := fun empty =>
    safe.1.nonempty (asBytes_injective (empty.trans (by decide)))
  obtain ⟨first, rest, name⟩ := exists_cons_of_ne_nil nonempty
  rw [mark, pushHeader, name] at text
  have head : first = UInt8.ofNat '\x00'.toNat := (List.cons.inj text).1
  rw [name, head] at absent
  exact absent mem_cons_self

def isGroupNameChar (c : Char) : Bool :=
  c.isAlphanum || c == '-' || c == '+' || c == '_' || c == '.'

theorem isGroupNameChar_of_component {component : List Char}
    (valid : isValidComponent component = true) : ∀ c ∈ component, isGroupNameChar c = true := by
  cases component with
  | nil => cases valid
  | cons first rest =>
    simp only [isValidComponent, Bool.and_eq_true, all_eq_true] at valid
    intro c member
    rcases mem_cons.mp member with rfl | later
    · simp [isGroupNameChar, Char.isAlphanum, valid.1]
    · have inRest := valid.2 c later
      simp only [isGroupNameChar, Bool.or_eq_true] at inRest ⊢
      exact .inl inRest

theorem GroupName.chars (g : GroupName) : ∀ c ∈ g.asStr.toList, isGroupNameChar c = true := by
  have valid := g.valid
  simp only [isValidGroupName, Bool.and_eq_true, all_eq_true] at valid
  have joined : ['.'].intercalate (g.asStr.toList.splitOn '.') = g.asStr.toList :=
    intercalate_splitOn '.'
  intro c member
  rw [← joined] at member
  rcases mem_of_mem_intercalate member with dot | ⟨component, listed, inside⟩
  · rw [mem_singleton.mp dot]
    rfl
  · exact isGroupNameChar_of_component (valid.2 component listed) c inside

theorem GroupName.notMem_asStr (g : GroupName) {c : Char} (other : isGroupNameChar c = false) :
    c ∉ g.asStr.toList := by
  intro member
  rw [g.chars c member] at other
  cases other

def sortedGroups (newsgroups : List GroupName) : List String :=
  (newsgroups.map GroupName.asStr).insertionSort (fun a b => strLe a b = true)

theorem notMem_of_mem_sortedGroups {newsgroups : List GroupName} {name : String} {c : Char}
    (member : name ∈ sortedGroups newsgroups) (other : isGroupNameChar c = false) : c ∉ name.toList := by
  have unsorted := (perm_insertionSort _ (newsgroups.map GroupName.asStr)).mem_iff.mp member
  obtain ⟨g, _, rfl⟩ := mem_map.mp unsorted
  exact g.notMem_asStr other

theorem sortedGroups_ne_nil {newsgroups : List GroupName} (nonempty : newsgroups ≠ []) :
    sortedGroups newsgroups ≠ [] := by
  intro empty
  have length := (perm_insertionSort (fun a b : String => strLe a b = true)
    (newsgroups.map GroupName.asStr)).length_eq
  rw [← sortedGroups, empty, length_map] at length
  exact nonempty (length_eq_zero_iff.mp length.symm)

theorem notMem_joinedGroups {newsgroups : List GroupName} {c : Char}
    (other : isGroupNameChar c = false) (noComma : c ≠ ',') :
    c ∉ (String.intercalate "," (sortedGroups newsgroups)).toList := by
  intro member
  rw [String.toList_intercalate] at member
  rcases mem_of_mem_intercalate member with comma | ⟨word, listed, inside⟩
  · exact noComma (mem_singleton.mp comma)
  · obtain ⟨name, inSorted, rfl⟩ := mem_map.mp listed
    exact notMem_of_mem_sortedGroups inSorted other inside

theorem joinedGroups_inj {gs hs : List GroupName} (nonemptyG : gs ≠ []) (nonemptyH : hs ≠ [])
    (text : String.intercalate "," (sortedGroups gs) = String.intercalate "," (sortedGroups hs)) :
    sortedGroups gs = sortedGroups hs := by
  have comma (newsgroups : List GroupName) :
      ∀ word ∈ (sortedGroups newsgroups).map String.toList, ',' ∉ word := by
    intro word listed
    obtain ⟨name, inSorted, rfl⟩ := mem_map.mp listed
    exact notMem_of_mem_sortedGroups inSorted (by decide)
  have some_word {newsgroups : List GroupName} (nonempty : newsgroups ≠ []) :
      (sortedGroups newsgroups).map String.toList ≠ [] := fun empty =>
    sortedGroups_ne_nil nonempty (map_eq_nil_iff.mp empty)
  have chars := congrArg String.toList text
  rw [String.toList_intercalate, String.toList_intercalate] at chars
  have words := intercalate_inj (comma gs) (comma hs) (some_word nonemptyG) (some_word nonemptyH)
    chars
  exact map_injective_iff.mpr (fun s t same => String.toList_inj.mp same) words

instance : Std.Total (fun a b : String => strLe a b = true) :=
  ⟨fun a b => bytesLe_total (asBytes a) (asBytes b)⟩
instance : IsTrans String (fun a b => strLe a b = true) :=
  ⟨fun a b c => bytesLe_trans (asBytes a) (asBytes b) (asBytes c)⟩
instance : Std.Antisymm (fun a b : String => strLe a b = true) :=
  ⟨fun _ _ first second => asBytes_injective (bytesLe_antisymm _ _ first second)⟩

theorem headerLe_iff (a b : String × String) : headerLe a b = true ↔
    a.1 = b.1 ∧ strLe a.2 b.2 = true ∨ a.1 ≠ b.1 ∧ strLe a.1 b.1 = true := by
  unfold headerLe
  split
  · rename_i same
    simp [same]
  · rename_i other
    simp [other]

theorem headerLe_total (a b : String × String) : headerLe a b = true ∨ headerLe b a = true := by
  rw [headerLe_iff, headerLe_iff]
  by_cases same : a.1 = b.1
  · rcases bytesLe_total (asBytes a.2) (asBytes b.2) with below | above
    · exact .inl (.inl ⟨same, below⟩)
    · exact .inr (.inl ⟨same.symm, above⟩)
  · rcases bytesLe_total (asBytes a.1) (asBytes b.1) with below | above
    · exact .inl (.inr ⟨same, below⟩)
    · exact .inr (.inr ⟨fun h => same h.symm, above⟩)

theorem strLe_antisymm {s t : String} (first : strLe s t = true) (second : strLe t s = true) : s = t :=
  asBytes_injective (bytesLe_antisymm _ _ first second)

theorem headerLe_trans (a b c : String × String) (first : headerLe a b = true)
    (second : headerLe b c = true) : headerLe a c = true := by
  rw [headerLe_iff] at first second ⊢
  rcases first with ⟨sameAB, ab⟩ | ⟨otherAB, ab⟩
  · rw [sameAB]
    exact second.imp_left fun h => ⟨h.1, bytesLe_trans _ _ _ ab h.2⟩
  · rcases second with ⟨sameBC, _⟩ | ⟨otherBC, bc⟩
    · exact .inr ⟨sameBC ▸ otherAB, sameBC ▸ ab⟩
    · refine .inr ⟨fun sameAC => ?_, bytesLe_trans _ _ _ ab bc⟩
      -- A name that is below and above another one is that name.
      exact otherAB (strLe_antisymm ab (sameAC ▸ bc))

theorem headerLe_antisymm (a b : String × String) (first : headerLe a b = true)
    (second : headerLe b a = true) : a = b := by
  rw [headerLe_iff] at first second
  rcases first with ⟨same, ab⟩ | ⟨other, ab⟩
  · rcases second with ⟨_, ba⟩ | ⟨other, _⟩
    · exact Prod.ext same (strLe_antisymm ab ba)
    · exact absurd same.symm other
  · rcases second with ⟨same, _⟩ | ⟨_, ba⟩
    · exact absurd same.symm other
    · exact absurd (strLe_antisymm ab ba) other

instance : Std.Total (fun a b : String × String => headerLe a b = true) := ⟨headerLe_total⟩
instance : IsTrans (String × String) (fun a b => headerLe a b = true) := ⟨headerLe_trans⟩
instance : Std.Antisymm (fun a b : String × String => headerLe a b = true) := ⟨headerLe_antisymm⟩

structure Readable (article : Article) : Prop where
  values : ∀ field ∈ mandatoryFields article.header, '\r' ∉ field.2.toList
  newsgroups : article.header.newsgroups ≠ []
  extra : ∀ field ∈ article.header.extraHeaders, SafeHeader field

theorem Valid.readable {article : Article} {config : ValidationConfig}
    (valid : Valid article config) : Readable article where
  values field h := (valid.mandatory field h).2.2.noReturn
  newsgroups := valid.newsgroups.1
  extra field h := ⟨(valid.extra field h).1.1, (valid.extra field h).2.2⟩

theorem Readable.noReturn {article : Article} (read : Readable article) :
    '\r' ∉ article.header.from.toList ∧ '\r' ∉ article.header.date.toList ∧
      '\r' ∉ article.header.messageId.toList ∧ '\r' ∉ article.header.subject.toList ∧
      '\r' ∉ article.header.path.toList := by
  have values := read.values
  simp only [mandatoryFields, forall_mem_cons] at values
  obtain ⟨fromValue, date, messageId, subject, path, _⟩ := values
  exact ⟨fromValue, date, messageId, subject, path⟩

theorem canonicalBytes_eq_iff {a b : Article} (readA : Readable a) (readB : Readable b) :
    canonicalBytes a = canonicalBytes b ↔
      a.body = b.body ∧ (a.header.from = b.header.from ∧ a.header.date = b.header.date ∧
        a.header.messageId = b.header.messageId ∧ a.header.subject = b.header.subject ∧
        a.header.path = b.header.path) ∧ a.header.newsgroups.Perm b.header.newsgroups ∧
      a.header.extraHeaders.Perm b.header.extraHeaders := by
  have groups : sortedGroups a.header.newsgroups = sortedGroups b.header.newsgroups ↔
      a.header.newsgroups.Perm b.header.newsgroups :=
    (insertionSort_eq_iff_perm _ _ _).trans
      (map_perm_map_iff fun _ _ same => GroupName.ext_asStr same)
  have extras := insertionSort_eq_iff_perm (fun a b => headerLe a b = true) a.header.extraHeaders
    b.header.extraHeaders
  have safe {c : Article} (readC : Readable c) :
      ∀ field ∈ c.header.extraHeaders.insertionSort (fun a b => headerLe a b = true),
        SafeHeader field :=
    fun field h => readC.extra field ((perm_insertionSort _ _).mem_iff.mp h)
  rw [← groups, ← extras]
  constructor
  · intro text
    have joined {c : Article} : '\r' ∉
        (String.intercalate "," (sortedGroups c.header.newsgroups)).toList :=
      notMem_joinedGroups (by decide) (by decide)
    obtain ⟨fromA, dateA, idA, subjectA, pathA⟩ := readA.noReturn
    obtain ⟨fromB, dateB, idB, subjectB, pathB⟩ := readB.noReturn
    simp only [canonicalBytes, append_assoc] at text
    -- The lines come off one by one, in the fixed order of the mandatory headers.
    obtain ⟨froms, text⟩ := pushHeader_tail fromA fromB text
    obtain ⟨dates, text⟩ := pushHeader_tail dateA dateB text
    obtain ⟨ids, text⟩ := pushHeader_tail idA idB text
    obtain ⟨names, text⟩ := pushHeader_tail joined joined text
    obtain ⟨subjects, text⟩ := pushHeader_tail subjectA subjectB text
    obtain ⟨paths, text⟩ := pushHeader_tail pathA pathB text
    -- The extra headers end at the separator, which no line starts with.
    obtain ⟨headers, text⟩ := selfDelimitingOn_pushHeader.flatMap_append_inj (safe readA)
      (safe readB) (fun field z ok => pushHeader_ne_separator ok z _)
      (fun field z ok => pushHeader_ne_separator ok z _) text
    exact ⟨append_cancel_left text, ⟨froms, dates, ids, subjects, paths⟩,
      joinedGroups_inj readA.newsgroups readB.newsgroups names, headers⟩
  · rintro ⟨body, ⟨froms, dates, ids, subjects, paths⟩, names, headers⟩
    simp only [sortedGroups] at names
    simp only [canonicalBytes, body, froms, dates, ids, subjects, paths, names, headers]

/-- Two articles that validation accepts, under whatever configurations, have the same canonical
bytes exactly when they agree on the body and the headers, groups and extra headers as multisets. -/
theorem canonical_bytes_injective_on_validated (a b : Article) (configA configB : ValidationConfig)
    (acceptedA : validateArticleIngress a configA = .ok ())
    (acceptedB : validateArticleIngress b configB = .ok ()) : canonicalBytes a = canonicalBytes b ↔
      a.body = b.body ∧ (a.header.from = b.header.from ∧ a.header.date = b.header.date ∧
        a.header.messageId = b.header.messageId ∧ a.header.subject = b.header.subject ∧
        a.header.path = b.header.path) ∧ a.header.newsgroups.Perm b.header.newsgroups ∧
      a.header.extraHeaders.Perm b.header.extraHeaders :=
  canonicalBytes_eq_iff (validateArticleIngress_eq_ok.mp acceptedA).readable
    (validateArticleIngress_eq_ok.mp acceptedB).readable

namespace Sample

def alt : GroupName := ⟨"alt.test", by decide⟩

theorem comp_valid : isValidGroupName "comp.test" = true := by decide

def comp : GroupName := ⟨"comp.test", comp_valid⟩

def posted (newsgroups : List GroupName) (subject : String) : Article :=
  ⟨⟨"user@example.com", "Mon, 01 Jan 2024 00:00:00 +0000", "<1@example.com>", newsgroups, subject,
    "news.example.com!user", [("X-Note", "a: b")]⟩, asBytes "\x00\nHello"⟩

end Sample

open Sample in
/-- The order of the groups does not show in the canonical bytes, another subject does. -/
theorem posted_canonical_bytes :
    canonicalBytes (posted [alt, comp] "Test") = canonicalBytes (posted [comp, alt] "Test") ∧
      canonicalBytes (posted [alt, comp] "Test") ≠ canonicalBytes (posted [alt, comp] "Tests") := by
  have accepted : validateArticleIngress (posted [alt, comp] "Test") {} = .ok () ∧
      validateArticleIngress (posted [comp, alt] "Test") {} = .ok () ∧
      validateArticleIngress (posted [alt, comp] "Tests") {} = .ok () := by
    decide
  obtain ⟨test, swapped, tests⟩ := accepted
  constructor
  · exact (canonical_bytes_injective_on_validated _ _ {} {} test swapped).mpr
      ⟨rfl, ⟨rfl, rfl, rfl, rfl, rfl⟩, List.Perm.swap _ _ _, List.Perm.refl _⟩
  · intro same
    have parts := (canonical_bytes_injective_on_validated _ _ {} {} test tests).mp same
    exact absurd parts.2.1.2.2.2.1 (by decide)

end Stoa
