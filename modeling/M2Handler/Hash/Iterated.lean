import Mathlib.Data.List.Basic
import Mathlib.Tactic.Common

/-!
# Iterated hash functions

A hash function of this kind takes its input in blocks of one size and folds a
compression function over them; what does not fill a block waits.  The input may
come in pieces of any size, and only their concatenation matters.
-/

namespace M2Handler.Hash

variable {α σ : Type*} (size : Nat) (compress : σ → List α → σ)

/-- The state after some blocks from the front of the input, and the rest of it. -/
def eat : Nat → σ → List α → σ × List α
  | 0, state, input => (state, input)
  | count + 1, state, input => eat count (compress state (input.take size)) (input.drop size)

/-- The state after all full blocks, and the input that does not fill one. -/
def absorb (state : σ) (input : List α) : σ × List α :=
  eat size compress (input.length / size) state input

variable {size compress} {state : σ}

/-- Less than a block waits. -/
theorem absorb_short {input : List α} (short : input.length < size) :
    absorb size compress state input = (state, input) := by
  rw [absorb, Nat.div_eq_of_lt short]
  rfl

/-- The first block is compressed. -/
theorem absorb_block {block rest : List α} (full : block.length = size) (positive : 0 < size) :
    absorb size compress state (block ++ rest) =
      absorb size compress (compress state block) rest := by
  have count : (block ++ rest).length / size = rest.length / size + 1 := by
    rw [List.length_append, full, Nat.add_comm, Nat.add_div_right _ positive]
  rw [absorb, count, eat, ← full, List.take_left, List.drop_left, full, absorb]

/-- An input is short, or it starts with a block. -/
theorem block_induction {motive : List α → Prop} (positive : 0 < size)
    (short : ∀ input, input.length < size → motive input)
    (block : ∀ block rest, block.length = size → motive rest → motive (block ++ rest))
    (input : List α) : motive input := by
  induction length : input.length using Nat.strongRecOn generalizing input with
  | _ count ih =>
      by_cases few : input.length < size
      · exact short input few
      · have full : (input.take size).length = size := List.length_take_of_le (Nat.le_of_not_lt few)
        rw [← List.take_append_drop size input]
        refine block _ _ full (ih (input.drop size).length ?_ _ rfl)
        rw [List.length_drop]
        omega

theorem length_absorb (positive : 0 < size) (state : σ) (input : List α) :
    (absorb size compress state input).2.length = input.length % size := by
  induction input using block_induction positive generalizing state with
  | short input few => rw [absorb_short few, Nat.mod_eq_of_lt few]
  | block block rest full ih =>
      rw [absorb_block full positive, ih, List.length_append, full, Nat.add_mod_left]

/-- A second piece goes on from what the first one left. -/
theorem absorb_append (positive : 0 < size) (state : σ) (first second : List α) :
    absorb size compress state (first ++ second) =
      absorb size compress (absorb size compress state first).1
        ((absorb size compress state first).2 ++ second) := by
  induction first using block_induction positive generalizing state with
  | short first few => rw [absorb_short few]
  | block block rest full ih =>
      rw [List.append_assoc, absorb_block full positive, absorb_block full positive, ih]

end M2Handler.Hash
