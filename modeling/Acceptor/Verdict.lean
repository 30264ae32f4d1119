import Acceptor.Json
import Acceptor.Run
/-!
Verdicts on words, and lists of them in JSON.
-/
namespace Acceptor

structure Verdict where
  word : Text
  accepted : Bool
deriving DecidableEq, Repr

namespace Verdict

def ofWords (table : Table) (words : List Text) : List Verdict :=
  words.map fun word => ⟨word, table.recognizes word⟩

def fields (verdict : Verdict) : List (Text × Text) :=
  [("word".toList, Json.string verdict.word), ("accepted".toList, Json.truth verdict.accepted)]

def compact (verdicts : List Verdict) : Text :=
  Json.compactList (verdicts.map fun verdict => Json.compactRecord verdict.fields)

def indented (verdicts : List Verdict) : Text :=
  Json.indentedList 0 (verdicts.map fun verdict => Json.indentedRecord 1 verdict.fields)

example :
    compact [⟨['a'], true⟩] = "[\x7b\"word\":\"a\",\"accepted\":true\x7d]".toList := by decide

end Verdict

end Acceptor
