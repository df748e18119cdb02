import M2Handler.Adt.Ownership

/-!
# Processing every node

`dict_process` reads the next node before it calls the function on a node, so the
function may delete that node and free it.  What is left is decided by one pass over
the entries.
-/

namespace M2Handler.Adt

open M2Handler.Machine M2Handler.RedBlack M2Handler.RedBlack.Tree

variable {κ σ α : Type}

/-! ## The function -/

/-- The loop of `dict_process`, which hands the context on from call to call. -/
def processLoop (function : Pointer → σ → DictM κ σ) : Nat → Pointer → σ → DictM κ σ
  | 0, _, _ => diverge
  | fuel + 1, current, context =>
      if current = .null then pure context
      else do
        let next ← dictNext current
        let context ← function current context
        processLoop function fuel next context

/-- `dict_process`, for a function that adds no nodes. -/
def dictProcess (function : Pointer → σ → DictM κ σ) (context : σ) : DictM κ σ := do
  let first ← dictFirst
  let fuel ← steps
  processLoop function fuel first context

/-! ## The pass -/

/-- One pass over some entries: the last context, and the entries that are left. -/
def sweep (step : α → σ → σ × Bool) : List α → σ → σ × List α
  | [], context => (context, [])
  | entry :: rest, context =>
      let (context, dropped) := step entry context
      let (context, left) := sweep step rest context
      (context, if dropped then left else entry :: left)

/-- The function either leaves the entries as they are or deletes the one it is
called on. -/
def Sweeps (good : Dict κ → RedBlack.Tree (Nat × κ) → Prop) (step : Nat × κ → σ → σ × Bool)
    (function : Pointer → σ → DictM κ σ) : Prop :=
  ∀ dict path color left right entry context,
    good dict (plug path (.node color left entry right)) →
    ∃ dict' tree', function (.node entry.1) context dict = .ok ((step entry context).1, dict') ∧
      good dict' tree' ∧ tree'.inorder = before path ++ left.inorder ++
        (if (step entry context).2 then [] else [entry]) ++ (right.inorder ++ after path)

section Process

variable {good : Dict κ → RedBlack.Tree (Nat × κ) → Prop}
  (holding : ∀ dict tree, good dict tree → Holds dict tree)
  (reading : ∀ (action : DictM κ Pointer) result dict tree, Keeps action →
    Rewrites action tree result tree → good dict tree →
      ∃ dict', action dict = .ok (result, dict') ∧ good dict' tree)
  {step : Nat × κ → σ → σ × Bool} {function : Pointer → σ → DictM κ σ}
  (sweeps : Sweeps good step function)
include holding reading sweeps

/-- The loop makes the pass over the entries that come from a node on. -/
theorem processLoop_run {dict : Dict κ} {tree : RedBlack.Tree (Nat × κ)}
    {front rest : List (Nat × κ)} {fuel : Nat} (context : σ) (holds : good dict tree)
    (place : tree.inorder = front ++ rest) (enough : rest.length < fuel) :
    ∃ dict' tree', processLoop function fuel (pointerTo rest.head?) context dict =
        .ok ((sweep step rest context).1, dict') ∧
      good dict' tree' ∧ tree'.inorder = front ++ (sweep step rest context).2 := by
  obtain ⟨fuel, rfl⟩ : ∃ less, fuel = less + 1 := ⟨fuel - 1, by omega⟩
  induction rest generalizing dict tree front context fuel with
  | nil => exact ⟨dict, tree, rfl, holds, place⟩
  | cons entry rest ih =>
      rw [List.length_cons] at enough
      obtain ⟨fuel, rfl⟩ : ∃ less, fuel = less + 1 := ⟨fuel - 1, by omega⟩
      obtain ⟨path, color, left, right, rfl, ahead, behind⟩ := exists_path place
      -- The next node is read from the tree that still has this one.
      obtain ⟨between, advanced, kept⟩ := reading _ _ _ _ (keeps_dictNext _)
        (rewrites_dictNext path color left right entry (holding _ _ holds).distinct) holds
      obtain ⟨later, tree', called, holds', left'⟩ :=
        sweeps between path color left right entry context kept
      rw [behind] at advanced left'
      obtain ⟨dict', tree'', run, holds'', final⟩ :=
        ih (step entry context).1 holds' left' fuel (by omega)
      have stop : pointerTo (some entry) ≠ .null := by
        intro same
        cases same
      refine ⟨dict', tree'', ?_, holds'', ?_⟩
      · rw [List.head?_cons, processLoop, if_neg stop, pointerTo, action_bind advanced,
          action_bind called]
        exact run
      · rw [final, ahead, sweep]
        dsimp only
        split <;> simp

/-- `dict_process` makes the pass over all entries. -/
theorem dictProcess_run {dict : Dict κ} {tree : RedBlack.Tree (Nat × κ)} (context : σ)
    (holds : good dict tree) :
    ∃ dict' tree', dictProcess function context dict =
        .ok ((sweep step tree.inorder context).1, dict') ∧
      good dict' tree' ∧ tree'.inorder = (sweep step tree.inorder context).2 := by
  obtain ⟨between, begun, kept⟩ := reading _ _ _ _ keeps_dictFirst (rewrites_dictFirst tree) holds
  have enough : tree.inorder.length < between.next + 1 :=
    Nat.lt_succ_of_le (holding _ _ kept).length_le
  obtain ⟨dict', tree', run, holds', final⟩ := @processLoop_run κ σ good holding reading step
    function sweeps between tree [] tree.inorder (between.next + 1) context kept rfl enough
  refine ⟨dict', tree', ?_, holds', final⟩
  rw [dictProcess, action_bind begun, steps_bind]
  exact run

end Process

end M2Handler.Adt
