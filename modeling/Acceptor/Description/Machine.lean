import Acceptor.Description.Check
/-!
What a description means, read off its declarations: on a symbol, a state moves to the output at
its place in the group that holds the symbol.
-/
namespace Acceptor.Description.Validated

def group? (automaton : Validated) (symbol : Char) : Option Group :=
  automaton.groups.find? (·.symbols.contains symbol)

def move? (automaton : Validated) (state : State) (symbol : Char) : Option State :=
  (automaton.group? symbol).bind (·.outputs[state.index]?)

/-- The state reached from a state by a word, if every move is declared. -/
def reach? (automaton : Validated) (state : State) (word : Text) : Option State :=
  word.foldlM automaton.move? state

end Acceptor.Description.Validated
