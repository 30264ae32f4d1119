/-!
Text is a list of characters: words are read, labels measured and lines laid out one character
at a time.
-/
namespace Acceptor

abbrev Text := List Char

namespace Text

def unlines (lines : List Text) : Text := lines.flatMap (· ++ ['\n'])

theorem unlines_cons (line : Text) (lines : List Text) :
    unlines (line :: lines) = line ++ ['\n'] ++ unlines lines := rfl

def joined (separator : Text) : List Text → Text
  | [] => []
  | [last] => last
  | first :: second :: rest => first ++ separator ++ joined separator (second :: rest)

theorem mem_joined {separator : Text} {pieces : List Text} {c : Char}
    (member : c ∈ joined separator pieces) : c ∈ separator ∨ ∃ piece ∈ pieces, c ∈ piece := by
  induction pieces with
  | nil => cases member
  | cons first rest ih =>
    cases rest with
    | nil => exact .inr ⟨first, List.mem_cons_self, member⟩
    | cons second rest =>
      rcases List.mem_append.mp member with early | late
      · rcases List.mem_append.mp early with here | between
        · exact .inr ⟨first, List.mem_cons_self, here⟩
        · exact .inl between
      · rcases ih late with between | ⟨piece, listed, found⟩
        · exact .inl between
        · exact .inr ⟨piece, List.mem_cons_of_mem _ listed, found⟩

def trimRight (unwanted : Char) (text : Text) : Text :=
  (text.reverse.dropWhile (· == unwanted)).reverse

theorem trimRight_snoc (unwanted : Char) (text : Text) :
    trimRight unwanted (text ++ [unwanted]) = trimRight unwanted text := by
  simp [trimRight]

theorem trimRight_of_last_ne (unwanted last : Char) (text : Text) (differ : last ≠ unwanted) :
    trimRight unwanted (text ++ [last]) = text ++ [last] := by
  simp [trimRight, differ]

end Text

end Acceptor
