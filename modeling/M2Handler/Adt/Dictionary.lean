import M2Handler.Machine.Exec
import M2Handler.RedBlack.Tree

/-!
# The dictionary of linked nodes

`adt/dict.c` in the default build, where every `assert` is compiled out, for a
dictionary that never allows duplicates by `dict_allow_dupes`.  Nodes live in a
memory and point to each other; the sentinel `dict_nil` is a node of the
dictionary itself, and its left link is the root.  Mirrored branches of the
source are one branch that names a side.  A node's `data` is not modelled: the
dictionary only carries it.  Loops get as many steps as nodes were ever allocated
and one more; a run that needs more of them does not end.
-/

namespace M2Handler.Adt

open M2Handler.Machine M2Handler.RedBlack

/-- A `dnode_t *`: null, the sentinel of the dictionary, or an allocated node. -/
inductive Pointer where
  | null
  | nil
  | node (address : Nat)
  deriving DecidableEq, Repr

theorem Pointer.node_ne_nil (address : Nat) : node address ≠ nil := by
  intro same
  cases same

structure Dnode (κ : Type) where
  left : Pointer
  right : Pointer
  parent : Pointer
  color : Color
  key : Option κ

/-- `dict_t` with the memory its nodes are allocated from. -/
structure Dict (κ : Type) where
  memory : Pointer → Option (Dnode κ)
  nodecount : UInt64
  next : Nat

abbrev DictM (κ : Type) := StateT (Dict κ) Exec

variable {κ β : Type}

namespace Dnode

def child : Side → Dnode κ → Pointer
  | .left, node => node.left
  | .right, node => node.right

def setChild (side : Side) (child : Pointer) (node : Dnode κ) : Dnode κ :=
  match side with
  | .left => { node with left := child }
  | .right => { node with right := child }

def setParent (parent : Pointer) (node : Dnode κ) : Dnode κ := { node with parent := parent }

def setColor (color : Color) (node : Dnode κ) : Dnode κ := { node with color := color }

def setKey (key : κ) (node : Dnode κ) : Dnode κ := { node with key := some key }

/-- The links of a node that is in no dictionary. -/
def unlink (node : Dnode κ) : Dnode κ :=
  { node with left := .null, right := .null, parent := .null }

/-- A node as `calloc` returns it. -/
def zeroed : Dnode κ :=
  { left := .null, right := .null, parent := .null, color := .red, key := none }

end Dnode

def Dict.change (dict : Dict κ) (pointer : Pointer) (update : Dnode κ → Dnode κ) : Dict κ :=
  { dict with
    memory := fun other =>
      if other = pointer then (dict.memory other).map update else dict.memory other }

/-- An access through a pointer to no node. -/
def invalid (pointer : Pointer) : DictM κ β :=
  fun _ => .error (if pointer = .null then .nullPointer else .outOfBounds)

def load (pointer : Pointer) (field : Dnode κ → β) : DictM κ β := fun dict =>
  match dict.memory pointer with
  | some node => .ok (field node, dict)
  | none => invalid pointer dict

def store (pointer : Pointer) (update : Dnode κ → Dnode κ) : DictM κ Unit := fun dict =>
  match dict.memory pointer with
  | some _ => .ok ((), dict.change pointer update)
  | none => invalid pointer dict

/-- A loop that has run longer than any loop over the nodes can. -/
def diverge : DictM κ β := fun _ => .error .divergence

/-- A bound on the steps of a loop over the nodes. -/
def steps : DictM κ Nat := fun dict => .ok (dict.next + 1, dict)

/-- The key of a node, which a comparison reads through. -/
def loadKey (pointer : Pointer) : DictM κ κ := do
  let key ← load pointer Dnode.key
  fun dict => (deref key).map fun key => (key, dict)

def dictRoot : DictM κ Pointer := load .nil Dnode.left

def dictInit : Dict κ :=
  { memory := fun pointer =>
      if pointer = .nil then
        some { left := .nil, right := .nil, parent := .nil, color := .black, key := none }
      else none
    nodecount := 0
    next := 0 }

def dictCount (dict : Dict κ) : UInt64 := dict.nodecount

/-! ## Rotations -/

/-- A rotation towards one side: the child on the other side takes the place of
the given node. -/
def rotate (side : Side) (upper : Pointer) : DictM κ Unit := do
  let lower ← load upper (Dnode.child side.other)
  let inner ← load lower (Dnode.child side)
  store upper (Dnode.setChild side.other inner)
  store inner (Dnode.setParent upper)
  let upparent ← load upper Dnode.parent
  store lower (Dnode.setParent upparent)
  let link ← load upparent (Dnode.child side)
  store upparent (Dnode.setChild (if upper = link then side else side.other) lower)
  store lower (Dnode.setChild side upper)
  store upper (Dnode.setParent lower)

def rotateLeft (upper : Pointer) : DictM κ Unit := rotate .left upper

def rotateRight (upper : Pointer) : DictM κ Unit := rotate .right upper

/-! ## Lookup and traversal -/

def lookupLoop (compare : κ → κ → Int) (key : κ) : Nat → Pointer → DictM κ Pointer
  | 0, _ => diverge
  | fuel + 1, root =>
      if root = .nil then pure .null
      else do
        let rootKey ← loadKey root
        let result := compare key rootKey
        if result < 0 then
          let below ← load root Dnode.left
          lookupLoop compare key fuel below
        else if result > 0 then
          let below ← load root Dnode.right
          lookupLoop compare key fuel below
        else pure root

def dictLookup (compare : κ → κ → Int) (key : κ) : DictM κ Pointer := do
  let root ← dictRoot
  let fuel ← steps
  lookupLoop compare key fuel root

/-- `while ((left = curr->left) != nil) curr = left;` -/
def leftmostLoop : Nat → Pointer → DictM κ Pointer
  | 0, _ => diverge
  | fuel + 1, curr => do
      let left ← load curr Dnode.left
      if left = .nil then pure curr else leftmostLoop fuel left

def dictFirst : DictM κ Pointer := do
  let root ← dictRoot
  let fuel ← steps
  if root = .nil then pure .null else leftmostLoop fuel root

/-- The loop of `dict_next` that climbs while the node is a right child. -/
def climbLoop : Nat → Pointer → Pointer → DictM κ Pointer
  | 0, _, _ => diverge
  | fuel + 1, curr, parent =>
      if parent = .nil then pure parent
      else do
        let right ← load parent Dnode.right
        if curr = right then
          let above ← load parent Dnode.parent
          climbLoop fuel parent above
        else pure parent

def dictNext (curr : Pointer) : DictM κ Pointer := do
  let right ← load curr Dnode.right
  let fuel ← steps
  if right ≠ .nil then leftmostLoop fuel right
  else
    let parent ← load curr Dnode.parent
    let parent ← climbLoop fuel curr parent
    pure (if parent = .nil then .null else parent)

/-! ## Insertion -/

/-- The basic binary tree insert: the last node passed and the comparison with
it. -/
def descendLoop (compare : κ → κ → Int) (key : κ) :
    Nat → Pointer → Pointer → Int → DictM κ (Pointer × Int)
  | 0, _, _, _ => diverge
  | fuel + 1, position, parent, result =>
      if position = .nil then pure (parent, result)
      else do
        let positionKey ← loadKey position
        let result := compare key positionKey
        let below ← load position (Dnode.child (if result < 0 then .left else .right))
        descendLoop compare key fuel below position result

/-- The end of the adjustments: a red parent and a black uncle. -/
def insertRotations (side : Side) (node parent grandpa : Pointer) : DictM κ Unit := do
  let inner ← load parent (Dnode.child side.other)
  let parent ←
    if node = inner then do
      rotate side parent
      pure node
    else pure parent
  store parent (Dnode.setColor .black)
  store grandpa (Dnode.setColor .red)
  rotate side.other grandpa

/-- The red black adjustments of `dict_insert`. -/
def insertLoop : Nat → Pointer → Pointer → DictM κ Unit
  | 0, _, _ => diverge
  | fuel + 1, node, parent => do
      let parentColor ← load parent Dnode.color
      if parentColor = .red then
        let grandpa ← load parent Dnode.parent
        let left ← load grandpa Dnode.left
        let side := if parent = left then Side.left else Side.right
        let uncle ← load grandpa (Dnode.child side.other)
        let uncleColor ← load uncle Dnode.color
        if uncleColor = .red then
          store parent (Dnode.setColor .black)
          store uncle (Dnode.setColor .black)
          store grandpa (Dnode.setColor .red)
          let above ← load grandpa Dnode.parent
          insertLoop fuel grandpa above
        else insertRotations side node parent grandpa
      else pure ()

def dictInsert (compare : κ → κ → Int) (node : Pointer) (key : κ) : DictM κ Unit := do
  let root ← dictRoot
  let fuel ← steps
  store node (Dnode.setKey key)
  let (parent, result) ← descendLoop compare key fuel root .nil (-1)
  store parent (Dnode.setChild (if result < 0 then .left else .right) node)
  store node (Dnode.setParent parent)
  store node (Dnode.setChild .left .nil)
  store node (Dnode.setChild .right .nil)
  modify fun dict => { dict with nodecount := dict.nodecount + 1 }
  store node (Dnode.setColor .red)
  insertLoop fuel node parent
  let root ← dictRoot
  store root (Dnode.setColor .black)

/-- `alloc_dict`: a zeroed node from a memory that does not run out. -/
def allocDict : DictM κ Pointer := fun dict =>
  .ok (.node dict.next,
    { dict with
      memory := fun pointer =>
        if pointer = .node dict.next then some Dnode.zeroed else dict.memory pointer
      next := dict.next + 1 })

/-- `dict_alloc_insert`, whose result is 1 as the allocation succeeds. -/
def dictAllocInsert (compare : κ → κ → Int) (key : κ) : DictM κ Int := do
  let node ← allocDict
  store node Dnode.unlink
  dictInsert compare node key
  pure 1

/-! ## Deletion -/

/-- Putting one node in the place another has at its parent. -/
def relink (parent old new : Pointer) : DictM κ Unit := do
  let left ← load parent Dnode.left
  store parent (Dnode.setChild (if left = old then .left else .right) new)

/-- The splice of a node with at most one child; the result is that child. -/
def spliceNode (target : Pointer) : DictM κ Pointer := do
  let left ← load target Dnode.left
  let child ← if left ≠ .nil then load target Dnode.left else load target Dnode.right
  let delparent ← load target Dnode.parent
  store child (Dnode.setParent delparent)
  relink delparent target child
  pure child

/-- The splice of a node with two children: its successor leaves its own place
and takes that of the node.  The result is the child the successor had. -/
def spliceSuccessor (target delparent : Pointer) : DictM κ Pointer := do
  let next ← dictNext target
  let nextparent ← load next Dnode.parent
  let nextcolor ← load next Dnode.color
  let child ← load next Dnode.right
  store child (Dnode.setParent nextparent)
  relink nextparent next child
  store next (Dnode.setParent delparent)
  let left ← load target Dnode.left
  store next (Dnode.setChild .left left)
  let right ← load target Dnode.right
  store next (Dnode.setChild .right right)
  let nextLeft ← load next Dnode.left
  store nextLeft (Dnode.setParent next)
  let nextRight ← load next Dnode.right
  store nextRight (Dnode.setParent next)
  let color ← load target Dnode.color
  store next (Dnode.setColor color)
  store target (Dnode.setColor nextcolor)
  relink delparent target next
  pure child

/-- The end of the adjustments: a black sister with a red child. -/
def deleteRotations (side : Side) (parent sister : Pointer) : DictM κ Unit := do
  let far ← load sister (Dnode.child side.other)
  let farColor ← load far Dnode.color
  let sister ←
    if farColor = .black then do
      let near ← load sister (Dnode.child side)
      store near (Dnode.setColor .black)
      store sister (Dnode.setColor .red)
      rotate side.other sister
      load parent (Dnode.child side.other)
    else pure sister
  let parentColor ← load parent Dnode.color
  store sister (Dnode.setColor parentColor)
  let far ← load sister (Dnode.child side.other)
  store far (Dnode.setColor .black)
  store parent (Dnode.setColor .black)
  rotate side parent

/-- The adjustments beside a black sister; the result tells whether they go on
from the parent. -/
def adjustBeside (side : Side) (parent sister : Pointer) : DictM κ Bool := do
  let near ← load sister (Dnode.child side)
  let nearColor ← load near Dnode.color
  let far ← load sister (Dnode.child side.other)
  let farColor ← load far Dnode.color
  if nearColor = .black ∧ farColor = .black then
    store sister (Dnode.setColor .red)
    pure true
  else
    deleteRotations side parent sister
    pure false

/-- One round of the adjustments of `dict_delete` under the parent of the
child. -/
def adjustUnder (child parent : Pointer) : DictM κ Bool := do
  let left ← load parent Dnode.left
  let side := if child = left then Side.left else Side.right
  let sister ← load parent (Dnode.child side.other)
  let sisterColor ← load sister Dnode.color
  let sister ←
    if sisterColor = .red then do
      store sister (Dnode.setColor .black)
      store parent (Dnode.setColor .red)
      rotate side parent
      load parent (Dnode.child side.other)
    else pure sister
  adjustBeside side parent sister

/-- The red-black adjustments of `dict_delete`; the result is the last child. -/
def deleteLoop : Nat → Pointer → DictM κ Pointer
  | 0, _ => diverge
  | fuel + 1, child => do
      let childColor ← load child Dnode.color
      if childColor = .black then
        let parent ← load child Dnode.parent
        let goesOn ← adjustUnder child parent
        if goesOn then deleteLoop fuel parent else pure child
      else pure child

def dictDelete (target : Pointer) : DictM κ Pointer := do
  let delparent ← load target Dnode.parent
  let left ← load target Dnode.left
  let right ← load target Dnode.right
  let child ←
    if left ≠ .nil ∧ right ≠ .nil then spliceSuccessor target delparent else spliceNode target
  store target Dnode.unlink
  modify fun dict => { dict with nodecount := dict.nodecount - 1 }
  let targetColor ← load target Dnode.color
  if targetColor = .black then
    let root ← dictRoot
    store root (Dnode.setColor .red)
    let fuel ← steps
    let child ← deleteLoop fuel child
    store child (Dnode.setColor .black)
    let root ← dictRoot
    store root (Dnode.setColor .black)
  pure target

/-- `free_dict`: the session printed on the way is read through the key. -/
def freeDict (node : Pointer) : DictM κ Unit := do
  let _ ← loadKey node
  fun dict => .ok ((), { dict with
    memory := fun pointer => if pointer = node then none else dict.memory pointer })

def dictDeleteFree (node : Pointer) : DictM κ Unit := do
  let _ ← dictDelete node
  freeDict node

end M2Handler.Adt
