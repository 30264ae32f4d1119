import Acceptor.Text.Decimal
/-!
States as descriptions number them, from one, and the places of a table's rows, from zero. A
declared state may have any number, so that one out of range can still be named in a complaint.
-/
namespace Acceptor

structure State where
  number : Int
deriving DecidableEq, Repr

/-- The largest number of states that an automaton may have: places are words of thirty-two bits. -/
def maxStates : Nat := 0xFFFFFFFF

namespace State

instance : Ord State := ⟨fun first second => compare first.number second.number⟩

/-- The states of an automaton with so many states are numbered from one up to that count. -/
def Within (state : State) (count : Nat) : Prop := 1 ≤ state.number ∧ state.number ≤ count

instance (state : State) (count : Nat) : Decidable (state.Within count) :=
  inferInstanceAs (Decidable (_ ∧ _))

/-- The place of a state in a row. It means something for positive numbers only. -/
def index (state : State) : Nat := (state.number - 1).toNat

def ofIndex (place : Nat) : State := ⟨place + 1⟩

def text (state : State) : Text := Text.Decimal.ofInt state.number

theorem index_ofIndex (place : Nat) : (ofIndex place).index = place := by
  simp only [index, ofIndex]
  omega

theorem ofIndex_index {state : State} (positive : 1 ≤ state.number) :
    ofIndex state.index = state := by
  obtain ⟨number⟩ := state
  simp only [ofIndex, index, State.mk.injEq] at positive ⊢
  omega

theorem Within.index_lt {state : State} {count : Nat} (within : state.Within count) :
    state.index < count := by
  obtain ⟨low, high⟩ := within
  simp only [index]
  omega

theorem within_ofIndex {place count : Nat} : (ofIndex place).Within count ↔ place < count := by
  simp only [Within, ofIndex]
  omega

end State

end Acceptor
