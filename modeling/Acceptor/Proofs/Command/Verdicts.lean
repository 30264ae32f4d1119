import Acceptor.Proofs.Command.Usable
import Acceptor.Proofs.Dialogue
import Acceptor.Proofs.Palette
/-!
A word has one verdict. It is the same whether the word is an argument, a line of standard input or
the word of a trace; a trace says it by its exit status and by its last line.
-/
namespace Acceptor

namespace Command

open Text.Utf8 (Octet)

/-- A path that names a file to the commands that take negative numbers: only in front of a numeral
may it begin with a dash. -/
structure NamesFile (path : Text) : Prop where
  filled : path ≠ []
  noOption : path.head? = some '-' → isNumeral path.tail = true

theorem NamesFile.noDash {path : Text} (named : NamesFile path) : path ≠ ['-'] := by
  rintro rfl
  cases named.noOption rfl

namespace Line

variable {line : Line} {path : Text} {world : World} {octets : List Octet} {table : Table}

end Line

end Command

end Acceptor
