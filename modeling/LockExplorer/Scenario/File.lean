import LockExplorer.Scenario.Shape
import LockExplorer.Toml.Document
import LockExplorer.Toml.Style

/-!
# Scenario files

A scenario file is a TOML document. Reading one can fail at the file, at the form of the document,
at the shape of its entries, or at the names of the threads, in this order. Writing one fails only
when the limit exceeds the largest whole number that a document can hold. The functions are
`Scenario::from_file`, `from_toml` and `to_toml`, with the messages of `ConfigError`.
-/

namespace LockExplorer

inductive FileError where
  | notFound
  | isDirectory
  | notDirectory
  /-- The bytes are not UTF-8. -/
  | notText
  /-- Anything else that the system reports, in its words. -/
  | other (report : String)
deriving DecidableEq

def FileError.message : FileError → String
  | .notFound => "No such file or directory (os error 2)"
  | .isDirectory => "Is a directory (os error 21)"
  | .notDirectory => "Not a directory (os error 20)"
  | .notText => "stream did not contain valid UTF-8"
  | .other report => report

namespace Scenario

inductive LoadError where
  | unreadable (reason : FileError)
  /-- The text is not a TOML document. -/
  | malformed
  | misshapen (reason : ShapeError)
  | unusable (reason : Fault)
deriving DecidableEq

def LoadError.message : LoadError → String
  | .unreadable reason => "I/O error: " ++ reason.message
  | .malformed => "parse error: not a TOML document"
  | .misshapen reason => "parse error: " ++ reason.message
  | .unusable reason => "validation error: " ++ reason.message

def checked (scenario : Scenario) : Except LoadError Scenario :=
  match scenario.fault? with
  | some reason => .error (.unusable reason)
  | none => .ok scenario

def ofText (text : String) : Except LoadError Scenario :=
  match Toml.Entries.ofText? text.toList with
  | none => .error .malformed
  | some entries =>
      match ofEntries entries with
      | .error reason => .error (.misshapen reason)
      | .ok scenario => scenario.checked

def ofFile (content : Except FileError ByteArray) : Except LoadError Scenario :=
  match content with
  | .error reason => .error (.unreadable reason)
  | .ok bytes =>
      match String.fromUTF8? bytes with
      | some text => ofText text
      | none => .error (.unreadable .notText)

inductive WriteError where
  | limitTooLarge
deriving DecidableEq

def WriteError.message : WriteError → String
  | .limitTooLarge => "serialize error: out-of-range value for u64 type"

/-- The largest limit that a document can hold. -/
def greatestWritten : Nat := Nat.pow 2 63 - 1

def writeSettings (limit : Option UInt64) : List Char :=
  "[explore]\n".toList ++
    match limit with
    | some limit => "max_permutations = ".toList ++ Nat.toDigits 10 limit.toNat ++ ['\n']
    | none => []

def writePlan (plan : ThreadPlan) : List Char :=
  "\n[[threads]]\nid = ".toList ++ Toml.writeText plan.id ++ "\nactions = ".toList ++
    Toml.writeTexts plan.actions ++ ['\n']

def write (scenario : Scenario) : List Char :=
  if scenario.plans.isEmpty then "threads = []\n\n".toList ++ writeSettings scenario.limit
  else writeSettings scenario.limit ++ scenario.plans.flatMap writePlan

def toText (scenario : Scenario) : Except WriteError String :=
  if scenario.limit.any fun limit => greatestWritten < limit.toNat then .error .limitTooLarge
  else .ok (String.ofList scenario.write)

end Scenario

end LockExplorer
