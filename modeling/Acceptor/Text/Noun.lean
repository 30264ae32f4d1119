/-!
Nouns that agree with a count.
-/
namespace Acceptor.Text.Noun

/-- The singular for exactly one thing, the plural for every other count, zero included. -/
def agreeing {α : Type} (count : Nat) (singular plural : α) : α :=
  if count = 1 then singular else plural

end Acceptor.Text.Noun
