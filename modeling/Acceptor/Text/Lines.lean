import Acceptor.Text
import Acceptor.Text.Utf8
/-!
Lines of a sequence of characters or octets, and the words that standard input holds, one a line.
-/
namespace Acceptor.Text.Lines

variable {α : Type} [DecidableEq α]

/-- The pieces that end at a line feed, which is not kept. What follows the last line feed is a
line of its own unless it is empty. -/
def split (feed : α) : List α → List (List α)
  | [] => []
  | item :: rest =>
    if item = feed then [] :: split feed rest
    else match split feed rest with
      | [] => [[item]]
      | line :: lines => (item :: line) :: lines

theorem split_nil (feed : α) : split feed [] = [] := rfl

theorem split_feed (feed : α) (rest : List α) :
    split feed (feed :: rest) = [] :: split feed rest := by
  simp [split]

/-- A word as its line gives it: carriage returns at the end belong to the line, not to the word. -/
def word (line : Text) : Text := trimRight '\r' line

def words? (input : List Utf8.Octet) : Option (List Text) :=
  (Utf8.decode? input).map fun text => (split '\n' text).map word

end Acceptor.Text.Lines
