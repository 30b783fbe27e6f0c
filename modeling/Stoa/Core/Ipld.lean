import Stoa.Core.Article
import Stoa.Core.Cid
import Stoa.Lib.Checks
import Stoa.Lib.Lines

/-! An article is stored as a root node that links to raw blocks with its header and body bytes, to
a map of its headers and, where it has one, to its MIME structure. -/
namespace Stoa

open Text

/-- The mail parser. What it makes of folded and encoded headers is left open; a text that
is empty or begins with a line end has no headers. -/
structure Mailparse where
  /-- Names and values of the headers, or an error. -/
  parseHeaders : Bytes → Option (List (String × String))
  /-- A date as Unix seconds. -/
  dateparse : String → Option Int
  /-- The type and subtype of a content type. -/
  mimetype : String → String
  noHeaders : ∀ b headers, b = [] ∨ b.head? = some 0x0d → parseHeaders b = some headers →
    headers = []

def plainHeader (line : RawLine) : Option (String × String) :=
  if 0x3a ∈ line.content then
    some (fromUtf8Lossy (line.content.takeWhile (· != 0x3a)),
      trim (fromUtf8Lossy ((line.content.dropWhile (· != 0x3a)).drop 1)))
  else none

/-- The parser on headers that are neither folded nor encoded, with dates it knows. -/
def Mailparse.plain (dates : List (String × Int)) : Mailparse where
  parseHeaders b := ((rawLines b).takeWhile fun line => line.content ≠ []).mapM plainHeader
  dateparse s := dates.lookup s
  mimetype s := String.ofList (s.toList.takeWhile (· != ';'))
  noHeaders b headers start parsed := by
    -- The first line of such a text is empty.
    have none : ((rawLines b).takeWhile fun line => line.content ≠ []) = [] := by
      rcases b with _ | ⟨c, rest⟩
      · rfl
      · obtain rfl : c = 0x0d := by simpa using start
        rcases rest with _ | ⟨d, rest⟩
        · rfl
        · by_cases lf : d = 0x0a
          · subst lf
            rfl
          · rw [rawLines.eq_3 _ (by simpa using lf)]
            rfl
    rw [none] at parsed
    exact (Option.some.inj parsed).symm

/-- `to_ascii_lowercase`. -/
def lowercase (s : String) : String := String.ofList (s.toList.map Char.toLower)

def valuesOf (headers : List (String × String)) (name : String) : List String :=
  (headers.filter fun header => header.1 == name).map Prod.snd

inductive HeaderValue
  | single (value : String)
  | multi (values : List String)
  deriving DecidableEq

abbrev HeaderMapNode := List (String × HeaderValue)

def dateHeaders : List String := ["date", "injection-date", "nntp-posting-date", "expires"]

def isValidHeaderName (name : String) : Bool :=
  !name.isEmpty && name.toList.all fun c => c.isAlphanum || "-_!#$%&'*+.^`|~".toList.contains c

def sortedNames (names : List String) : List String :=
  names.dedup.insertionSort fun a b => bytesLe (asBytes a) (asBytes b) = true

def buildHeaderMap (mail : Mailparse) (toRfc3339 : String → Option String) (rawHeaders : Bytes) :
    HeaderMapNode :=
  match mail.parseHeaders rawHeaders with
  | none => []
  | some parsed =>
    let entries := (parsed.filter fun header => isValidHeaderName header.1).map fun header =>
      let key := lowercase header.1
      (key, if key ∈ dateHeaders then (toRfc3339 header.2).getD header.2 else header.2)
    (sortedNames (entries.map Prod.fst)).map fun key => match valuesOf entries key with
      | [value] => (key, .single value)
      | values => (key, .multi values)

def schemaVersion : UInt32 := 1

structure ArticleMetadata where
  messageId : String
  newsgroups : List String
  hlcTimestamp : UInt64
  operatorSignature : Bytes
  byteCount : Nat
  lineCount : Nat
  contentTypeSummary : String
  deriving DecidableEq

structure ArticleRootNode where
  schemaVersion : UInt32
  headerCid : Cid
  headerMapCid : Option Cid
  bodyCid : Cid
  mimeCid : Option Cid
  metadata : ArticleMetadata
  deriving DecidableEq

structure ParsedMime where
  node : Except String Bytes
  blocks : List (Cid × Bytes)

structure IpldLib where
  toRfc3339 : String → Option String
  headerMapToVec : HeaderMapNode → Except String Bytes
  rootToVec : ArticleRootNode → Except String Bytes
  rootFromSlice : Bytes → Except String ArticleRootNode
  parseMime : Bytes → Bytes → Option ParsedMime
  rootFromSlice_rootToVec : ∀ node bytes, rootToVec node = .ok bytes → rootFromSlice bytes = .ok node

def cborHeaderValue : HeaderValue → Bytes
  | .single value => Cbor.text value
  | .multi values => Cbor.array (values.map Cbor.text)

def cborHeaderMap (node : HeaderMapNode) : Bytes :=
  Cbor.map (node.map fun entry => (entry.1, cborHeaderValue entry.2))

def cborLink (cid : Option Cid) : Bytes :=
  match cid with
  | some cid => Cbor.link cid.toBytes
  | none => Cbor.null

def cborMetadata (m : ArticleMetadata) : Bytes :=
  Cbor.map [("message_id", Cbor.text m.messageId),
    ("newsgroups", Cbor.array (m.newsgroups.map Cbor.text)),
    ("hlc_timestamp", Cbor.uint m.hlcTimestamp.toNat),
    ("operator_signature", Cbor.array (m.operatorSignature.map fun b => Cbor.uint b.toNat)),
    ("byte_count", Cbor.uint m.byteCount), ("line_count", Cbor.uint m.lineCount),
    ("content_type_summary", Cbor.text m.contentTypeSummary)]

def cborRoot (node : ArticleRootNode) : Bytes :=
  Cbor.map [("schema_version", Cbor.uint node.schemaVersion.toNat),
    ("header_cid", cborLink (some node.headerCid)), ("header_map_cid", cborLink node.headerMapCid),
    ("body_cid", cborLink (some node.bodyCid)), ("mime_cid", cborLink node.mimeCid),
    ("metadata", cborMetadata node.metadata)]

def knownDate (dates : List (String × String)) (s : String) : Option String := dates.lookup s

def IpldLib.ofNode (dates : List (String × String)) (node : ArticleRootNode) : IpldLib where
  toRfc3339 := knownDate dates
  headerMapToVec map := .ok (cborHeaderMap map)
  rootToVec n := if n = node then .ok (cborRoot n) else .error "not encoded"
  rootFromSlice b := if b = cborRoot node then .ok node else .error "not decoded"
  parseMime _ _ := none
  rootFromSlice_rootToVec n b encoded := by
    split at encoded
    · next same =>
      cases encoded
      rw [same, if_pos rfl]
    · cases encoded

def extractContentTypeSummary (mail : Mailparse) (headerBytes : Bytes) : String :=
  match mail.parseHeaders headerBytes with
  | none => "text/plain"
  | some parsed =>
    match parsed.find? fun header => lowercase header.1 == "content-type" with
    | none => "text/plain"
    | some header => mail.mimetype header.2

def computeMetadata (mail : Mailparse) (headerBytes bodyBytes : Bytes) (messageId : String)
    (newsgroups : List String) (hlcTimestamp : UInt64) (operatorSignature : Bytes) :
    ArticleMetadata :=
  ⟨messageId, newsgroups, hlcTimestamp, operatorSignature, headerBytes.length + bodyBytes.length,
    bodyBytes.count 0x0a, extractContentTypeSummary mail headerBytes⟩

def decodeRoot (lib : IpldLib) (bytes : Bytes) : Except String ArticleRootNode :=
  match lib.rootFromSlice bytes with
  | .error e => .error e
  | .ok node =>
    match node.metadata.newsgroups.find? fun s => !isValidGroupName s with
    | some s => .error ("invalid newsgroup name " ++ s)
    | none => .ok node

def rawBlock (data : Bytes) : Cid × Bytes := (Cid.newV1 0x55 (Multihash.sha256 data), data)

def headerBlock (headerBytes : Bytes) : Cid × Bytes := rawBlock headerBytes

def bodyBlock (bodyBytes : Bytes) : Cid × Bytes := rawBlock bodyBytes

def dagCborCid (bytes : Bytes) : Cid := Cid.newV1 0x71 (Multihash.sha256 bytes)

structure BuiltArticle where
  rootCid : Cid
  blocks : List (Cid × Bytes)
  rootNode : ArticleRootNode

inductive BuildError
  | cborEncode (message : String)
  deriving DecidableEq, Repr

def BuildError.toString : BuildError → String
  | cborEncode message => "CBOR encoding error: " ++ message

def mimeBlocks (parsed : Option ParsedMime) :
    Except BuildError (Option Cid × List (Cid × Bytes)) :=
  match parsed with
  | none => .ok (none, [])
  | some mime =>
    match mime.node with
    | .error e => .error (.cborEncode e)
    | .ok bytes => .ok (some (dagCborCid bytes), (dagCborCid bytes, bytes) :: mime.blocks)

def buildArticle (mail : Mailparse) (lib : IpldLib) (headerBytes bodyBytes : Bytes)
    (messageId : String) (newsgroups : List String) (hlcTimestamp : UInt64)
    (operatorSignature : Bytes) : Except BuildError BuiltArticle := do
  let headerMapBytes ← (lib.headerMapToVec
    (buildHeaderMap mail lib.toRfc3339 headerBytes)).mapError .cborEncode
  let mime ← mimeBlocks (lib.parseMime headerBytes bodyBytes)
  let rootNode : ArticleRootNode := ⟨schemaVersion, (headerBlock headerBytes).1,
    some (dagCborCid headerMapBytes), (bodyBlock bodyBytes).1, mime.1,
    computeMetadata mail headerBytes bodyBytes messageId newsgroups hlcTimestamp operatorSignature⟩
  let rootBytes ← (lib.rootToVec rootNode).mapError .cborEncode
  return ⟨dagCborCid rootBytes, (dagCborCid rootBytes, rootBytes) :: headerBlock headerBytes ::
    (dagCborCid headerMapBytes, headerMapBytes) :: bodyBlock bodyBytes :: mime.2, rootNode⟩

def plainRoot (mail : Mailparse) (toRfc3339 : String → Option String) (headerBytes bodyBytes : Bytes)
    (messageId : String) (newsgroups : List String) (hlcTimestamp : UInt64)
    (operatorSignature : Bytes) : ArticleRootNode :=
  ⟨schemaVersion, (headerBlock headerBytes).1,
    some (dagCborCid (cborHeaderMap (buildHeaderMap mail toRfc3339 headerBytes))),
    (bodyBlock bodyBytes).1, none,
    computeMetadata mail headerBytes bodyBytes messageId newsgroups hlcTimestamp operatorSignature⟩

theorem buildArticle_ofNode (mail : Mailparse) (dates : List (String × String))
    (headerBytes bodyBytes : Bytes) (messageId : String) (newsgroups : List String)
    (hlcTimestamp : UInt64) (operatorSignature : Bytes) {node : ArticleRootNode}
    (root : node = plainRoot mail (knownDate dates) headerBytes bodyBytes messageId newsgroups
      hlcTimestamp operatorSignature) :
    buildArticle mail (IpldLib.ofNode dates node) headerBytes bodyBytes messageId newsgroups
      hlcTimestamp operatorSignature =
    .ok ⟨dagCborCid (cborRoot node), [(dagCborCid (cborRoot node), cborRoot node), headerBlock headerBytes,
      (dagCborCid (cborHeaderMap (buildHeaderMap mail (knownDate dates) headerBytes)),
        cborHeaderMap (buildHeaderMap mail (knownDate dates) headerBytes)),
      bodyBlock bodyBytes], node⟩ := by
  have encoded : (IpldLib.ofNode dates node).rootToVec (plainRoot mail (knownDate dates) headerBytes
      bodyBytes messageId newsgroups hlcTimestamp operatorSignature) = .ok (cborRoot node) := by
    rw [← root]
    exact if_pos rfl
  change (Except.mapError BuildError.cborEncode ((IpldLib.ofNode dates node).rootToVec (plainRoot mail
    (knownDate dates) headerBytes bodyBytes messageId newsgroups hlcTimestamp operatorSignature)) >>=
      _) = _
  rw [encoded, root]
  rfl

/-- What was built: the root links to the header and body blocks, and all three are there. -/
structure BuiltFrom (lib : IpldLib) (headerBytes bodyBytes : Bytes) (newsgroups : List String)
    (built : BuiltArticle) : Prop where
  header : built.rootNode.headerCid = (rawBlock headerBytes).1
  body : built.rootNode.bodyCid = (rawBlock bodyBytes).1
  groups : built.rootNode.metadata.newsgroups = newsgroups
  headerBlock : rawBlock headerBytes ∈ built.blocks
  bodyBlock : rawBlock bodyBytes ∈ built.blocks
  root : ∃ bytes, lib.rootToVec built.rootNode = .ok bytes ∧ built.rootCid = dagCborCid bytes ∧
    (built.rootCid, bytes) ∈ built.blocks

theorem buildArticle_ok {mail : Mailparse} {lib : IpldLib} {headerBytes bodyBytes : Bytes}
    {messageId : String} {newsgroups : List String} {hlcTimestamp : UInt64}
    {operatorSignature : Bytes} {built : BuiltArticle}
    (ok : buildArticle mail lib headerBytes bodyBytes messageId newsgroups hlcTimestamp
      operatorSignature = .ok built) : BuiltFrom lib headerBytes bodyBytes newsgroups built := by
  unfold buildArticle at ok
  obtain ⟨headerMapBytes, -, ok⟩ := bind_eq_ok ok
  obtain ⟨mime, -, ok⟩ := bind_eq_ok ok
  obtain ⟨rootBytes, root, ok⟩ := bind_eq_ok ok
  have encoded := mapError_eq_ok.mp root
  cases ok
  exact ⟨rfl, rfl, rfl, by simp [headerBlock], by simp [bodyBlock], rootBytes, encoded, rfl, by simp⟩

end Stoa
