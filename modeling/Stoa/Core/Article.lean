import Mathlib.Logic.Basic
import Stoa.Lib.Text

/-! Group names and articles. -/
namespace Stoa

inductive ValidationError
  | invalidGroupName (name : String)
  | invalidMessageId (id : String)
  | missingMandatoryHeader (header : String)
  | headerFieldTooLong (field : String) (len limit : Nat)
  | articleTooBig (size limit : Nat)
  | dateOutOfRange (date : String)
  | invalidGroupInNewsgroups (group : String)
  | emptyNewsgroups
  | tooManyNewsgroups (count limit : Nat)
  | invalidHeaderValue (field reason : String)
  deriving DecidableEq, Repr

inductive ProtocolError
  | unknownCommand (command : String)
  | invalidSyntax (message : String)
  | noGroupSelected
  | noSuchGroup (group : String)
  | noSuchArticle
  | notAuthenticated
  | duplicateMessageId (id : String)
  | postingNotPermitted
  | transferNotPossible (message : String)
  | articleTooBig (size limit : Nat)
  | validationFailed (error : ValidationError)
  | serviceUnavailable (message : String)
  deriving DecidableEq, Repr

/-- A dot-separated component: a letter, then letters, digits, hyphens, plus signs, underscores. -/
def isValidComponent : List Char → Bool
  | [] => false
  | first :: rest =>
    first.isAlpha && rest.all fun c => c.isAlphanum || c == '-' || c == '+' || c == '_'

def isValidGroupName (name : String) : Bool :=
  !name.isEmpty && (name.toList.splitOn '.').all isValidComponent

structure GroupName where
  asStr : String
  valid : isValidGroupName asStr = true
  deriving DecidableEq

namespace GroupName

def new (s : String) : Except ValidationError GroupName :=
  if h : isValidGroupName s = true then .ok ⟨s, h⟩ else .error (.invalidGroupName s)

theorem ext_asStr {g h : GroupName} (same : g.asStr = h.asStr) : g = h := by
  cases g
  cases h
  simpa using same

end GroupName

/-- The typed mandatory headers, and the others in declaration order. -/
structure ArticleHeader where
  «from» : String
  date : String
  messageId : String
  newsgroups : List GroupName
  subject : String
  path : String
  extraHeaders : List (String × String)
  deriving DecidableEq

structure Article where
  header : ArticleHeader
  body : Bytes
  deriving DecidableEq

end Stoa
