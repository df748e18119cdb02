import M2Handler.Adt.Freeing
import M2Handler.Example.WsHandshake

/-!
# The handler `ws_handshake.c`

The C program keeps the sessions in a dictionary of its own.  It answers a first
request with a handshake, greets a connection whose body is empty and deletes a
session on a close frame.  For a notice it deletes the node that its variable
`tempnode` still has from the lookup of an earlier request.  A tracker follows to
which session that is.
-/

namespace M2Handler.Example.WsHandshakeC

open Machine Text Bstr RedBlack RedBlack.Tree Adt Handler Websocket Websocket.Framing
  Websocket.Session WsHandshake

variable (host : Host) (libraries : Libraries)

/-! ## The program -/

def HELLO : Bstring := bsStatic (asciiBytes "\x7b\"msg\": \"hi there\"\x7d") (by decide +kernel)

abbrev compareSession : M2WsSessionId → M2WsSessionId → Int := compareSessionId

structure Main where
  pubSocket : Option Mongrel2Socket
  dict : Dict M2WsSessionId
  tempnode : Pointer

/-- `tempnode && OP_CLOSE == mongrel2_ws_frame_get_opcode(...)`. -/
def closes (tempnode : Pointer) (body : Option Bstring) : Exec Bool :=
  if tempnode = .null then return false
  else do
    let frame ← deref (bdata body)
    let opcode ← mongrel2WsFrameGetOpcode host (blength body).toNat frame
    return opcode = opClose

def answer (request : Mongrel2Request) (main : Main) : Exec Main :=
  if 0 < blength request.body then do
    let closing ← closes host main.tempnode request.body
    if closing then do
      let ((), dict) ← dictDeleteFree main.tempnode main.dict
      let (_, pubSocket) ← mongrel2Disconnect main.pubSocket (some request)
      return { main with pubSocket, dict }
    else return main
  else do
    let (_, pubSocket) ← mongrel2WsReply host main.pubSocket (some request) (some HELLO)
    return { main with pubSocket }

def serve (request : Mongrel2Request) (main : Main) : Exec Main := do
  let (tempnode, dict) ← dictLookup compareSession { req := request } main.dict
  if tempnode = .null then do
    let (_, pubSocket, request) ← mongrel2WsReplyUpgrade libraries (some request) main.pubSocket
    let (retval, dict) ← dictAllocInsert compareSession { req := request } dict
    cassert host.ndebug (retval = 1)
    answer host request { pubSocket, dict, tempnode }
  else answer host request { main with dict, tempnode }

/-- The branch for a notice, which a null request takes too. -/
def drop (request : Option Mongrel2Request) (main : Main) : Exec Main := do
  -- The line about `request->conn_id` is printed first.
  let _ ← deref request
  let ((), dict) ← dictDeleteFree main.tempnode main.dict
  let (_, pubSocket) ← mongrel2Disconnect main.pubSocket request
  return { main with pubSocket, dict }

def turn (main : Main) (arrival : Arrival) : Exec Main := do
  let request ← mongrel2Recv host arrival
  let asking ← asks libraries request
  if asking then do
    let request ← deref request
    serve host libraries request main
  else drop request main

def wsHandshake (pubSocket : Option Mongrel2Socket) (arrivals : List Arrival) : Exec Main :=
  arrivals.foldlM (turn host libraries) { pubSocket, dict := dictInit, tempnode := .null }

/-! ## The tracker -/

/-- What `tempnode` points to. -/
inductive Aim
  | null
  | session (id : Int32)
  | freed
deriving DecidableEq

/-- The connections with a session, by ascending id, and the node that a notice
would delete. -/
structure Tracker extends Hub where
  aim : Aim

namespace Tracker

def attend (request : Mongrel2Request) (tracker : Tracker) : Exec Tracker :=
  if 0 < blength request.body then do
    let frame ← deref (bdata request.body)
    let opcode ← mongrel2WsFrameGetOpcode host (blength request.body).toNat frame
    if opcode = opClose then do
      let (_, pubSocket) ← mongrel2Disconnect tracker.pubSocket (some request)
      return { pubSocket, live := Hub.leave request.connId tracker.live, aim := .freed }
    else return { tracker with aim := .session request.connId }
  else do
    let (_, pubSocket) ← mongrel2WsReply host tracker.pubSocket (some request) (some HELLO)
    return { tracker with pubSocket, aim := .session request.connId }

def welcome (request : Mongrel2Request) (tracker : Tracker) : Exec Tracker := do
  let (_, pubSocket, request) ← mongrel2WsReplyUpgrade libraries (some request) tracker.pubSocket
  let live := Hub.enter request tracker.live
  if 0 < blength request.body then return { pubSocket, live, aim := .null }
  else do
    let (_, pubSocket) ← mongrel2WsReply host pubSocket (some request) (some HELLO)
    return { pubSocket, live, aim := .null }

def serve (request : Mongrel2Request) (tracker : Tracker) : Exec Tracker :=
  if tracker.Knows request.connId then tracker.attend host request
  else tracker.welcome host libraries request

/-- A notice deletes the session of the request before it. -/
def drop (request : Option Mongrel2Request) (tracker : Tracker) : Exec Tracker := do
  let _ ← deref request
  match tracker.aim with
  | .null => .error .nullPointer
  | .freed => .error .outOfBounds
  | .session id => do
      let (_, pubSocket) ← mongrel2Disconnect tracker.pubSocket request
      return { pubSocket, live := Hub.leave id tracker.live, aim := .freed }

def turn (tracker : Tracker) (arrival : Arrival) : Exec Tracker := do
  let request ← mongrel2Recv host arrival
  let asking ← asks libraries request
  if asking then do
    let request ← deref request
    tracker.serve host libraries request
  else tracker.drop request

def run (pubSocket : Option Mongrel2Socket) (arrivals : List Arrival) : Exec Tracker :=
  arrivals.foldlM (turn host libraries) { pubSocket, live := [], aim := .null }

end Tracker

/-! ## The dictionary and the list -/

def PointsTo (dict : Dict M2WsSessionId) (tree : RedBlack.Tree (Nat × M2WsSessionId))
    (pointer : Pointer) : Aim → Prop
  | .null => pointer = .null
  | .session id => ∃ entry ∈ tree.inorder, pointer = .node entry.1 ∧ entry.2.req.connId = id
  | .freed => pointer ≠ .null ∧ dict.memory pointer = none

/-- The dictionary holds the connections of the tracker, and `tempnode` is aimed. -/
structure Tracks (main : Main) (tracker : Tracker) : Prop where
  socket : main.pubSocket = tracker.pubSocket
  ascending : Hub.Ascending tracker.live
  stored : ∃ tree, Stores main.dict tree ∧ requests tree = tracker.live ∧
    PointsTo main.dict tree main.tempnode tracker.aim

section Refinement

variable {host libraries} {main : Main} {tracker : Tracker} {dict : Dict M2WsSessionId}
  {tree : RedBlack.Tree (Nat × M2WsSessionId)}

/-- A deletion through a pointer to no node faults at its first access. -/
theorem dictDeleteFree_freed {pointer : Pointer} (nonnull : pointer ≠ .null)
    (freed : dict.memory pointer = none) : dictDeleteFree pointer dict = .error .outOfBounds := by
  have first : load pointer Dnode.parent dict = .error .outOfBounds := by
    rw [load, freed]
    exact congrArg Except.error (if_neg nonnull)
  have deletion : dictDelete pointer dict = .error .outOfBounds := by
    rw [dictDelete]
    exact fault_bind first _
  rw [dictDeleteFree]
  exact fault_bind deletion _

/-- A deletion frees its node. -/
theorem freed_of_delete {pointer : Pointer} {dict' : Dict M2WsSessionId}
    (deleted : dictDeleteFree pointer dict = .ok ((), dict')) : dict'.memory pointer = none := by
  obtain ⟨⟨child, between⟩, -, freed⟩ := Exec.bind_eq_ok.mp deleted
  obtain ⟨rfl, -⟩ := freeDict_eq_ok.mp freed
  exact if_pos rfl

/-- A deletion takes the session of its node from the list. -/
theorem delete_leaves (stores : Stores dict tree) {hub : Hub} (listed : requests tree = hub.live)
    (ascending : Hub.Ascending hub.live) {pointer : Pointer} {id : Int32}
    (aimed : PointsTo dict tree pointer (.session id)) :
    ∃ dict' tree', dictDeleteFree pointer dict = .ok ((), dict') ∧ Stores dict' tree' ∧
      requests tree' = Hub.leave id hub.live ∧ PointsTo dict' tree' pointer .freed := by
  obtain ⟨entry, member, rfl, rfl⟩ := aimed
  obtain ⟨dict', tree', deleted, stores', perm⟩ := delete_run stores member
  exact ⟨dict', tree', deleted, stores', requests_leave listed ascending stores' perm,
    by simp, freed_of_delete deleted⟩

/-- The lookup aims at the session of the connection, if there is one. -/
theorem lookup_aims (stores : Stores dict tree) {hub : Hub} (listed : requests tree = hub.live)
    (request : Mongrel2Request) :
    ∃ tempnode dict', dictLookup compareSession { req := request } dict = .ok (tempnode, dict') ∧
      Stores dict' tree ∧ (tempnode = .null ↔ ¬ hub.Knows request.connId) ∧
      PointsTo dict' tree tempnode
        (if hub.Knows request.connId then .session request.connId else .null) := by
  obtain ⟨dict', looked, stores'⟩ := lookup_run stores request
  refine ⟨_, dict', looked, stores', ?_⟩
  obtain ⟨nothing, absent⟩ | ⟨entry, inTree, found, same⟩ := find_towards stores request.connId
  · have unknown : ¬ hub.Knows request.connId := mt (knows_iff listed _).mp absent
    rw [nothing, if_neg unknown]
    exact ⟨⟨fun _ => unknown, fun _ => rfl⟩, rfl⟩
  · have known : hub.Knows request.connId := (knows_iff listed _).mpr
      (Multiset.mem_coe.mpr (List.mem_map.mpr ⟨entry, inTree, same⟩))
    have nonnull : pointerTo (some entry) ≠ .null := by simp [pointerTo]
    rw [found, if_pos known]
    exact ⟨⟨fun null => absurd null nonnull, fun unknown => absurd known unknown⟩, entry, inTree,
      rfl, same⟩

/-- The insertion enters the session in the list. -/
theorem insert_enters (stores : Stores dict tree) {hub : Hub} (listed : requests tree = hub.live)
    (ascending : Hub.Ascending hub.live) {request : Mongrel2Request}
    (unknown : ¬ hub.Knows request.connId) :
    ∃ dict' tree', dictAllocInsert compareSession { req := request } dict = .ok (1, dict') ∧
      Stores dict' tree' ∧ requests tree' = Hub.enter request hub.live := by
  obtain ⟨dict', tree', inserted, stores', perm⟩ := insert_run stores request
  exact ⟨dict', tree', inserted, stores', requests_enter listed ascending unknown stores' perm⟩

/-- A request of a connection with a session. -/
theorem attend_agrees {request : Mongrel2Request} (nonnull : main.tempnode ≠ .null)
    (tracks : Tracks main { tracker with aim := .session request.connId }) :
    Agree Tracks (answer host request main) (tracker.attend host request) := by
  obtain ⟨socket, ascending, tree, stores, listed, aimed⟩ := tracks
  rw [answer, Tracker.attend, ← socket]
  split
  · rw [closes, if_neg nonnull]
    simp only [bind_assoc]
    refine Agree.bind_same fun frame _ => Agree.bind_same fun opcode _ => ?_
    by_cases close : opcode = opClose
    · obtain ⟨dict', tree', deleted, stores', listed', freed⟩ :=
        delete_leaves stores listed ascending aimed
      rw [Exec.pure_bind, if_pos (decide_eq_true close), if_pos close, deleted, Exec.ok_bind]
      refine Agree.bind_same fun outcome _ => Agree.ok ?_
      exact ⟨rfl, Hub.ascending_leave ascending _, tree', stores', listed', freed⟩
    · rw [Exec.pure_bind, if_neg (by simp [close]), if_neg close]
      exact Agree.ok ⟨socket, ascending, tree, stores, listed, aimed⟩
  · refine Agree.bind_same fun outcome _ => Agree.ok ?_
    exact ⟨rfl, ascending, tree, stores, listed, aimed⟩

/-- The answer to a connection that just got its session. -/
theorem answer_agrees {request : Mongrel2Request} (tracks : Tracks main tracker)
    (null : tracker.aim = .null) :
    Agree Tracks (answer host request main)
      (if 0 < blength request.body then return tracker
      else do
        let (_, pubSocket) ← mongrel2WsReply host tracker.pubSocket (some request) (some HELLO)
        return { tracker with pubSocket }) := by
  obtain ⟨socket, ascending, tree, stores, listed, aimed⟩ := tracks
  rw [answer, ← socket]
  split
  · have unaimed : main.tempnode = .null := by
      rw [null] at aimed
      exact aimed
    rw [closes, if_pos unaimed]
    exact Agree.ok ⟨socket, ascending, tree, stores, listed, aimed⟩
  · refine Agree.bind_same fun outcome _ => Agree.ok ?_
    exact ⟨rfl, ascending, tree, stores, listed, aimed⟩

theorem serve_agrees (tracks : Tracks main tracker) (request : Mongrel2Request) :
    Agree Tracks (serve host libraries request main) (tracker.serve host libraries request) := by
  obtain ⟨socket, ascending, tree, stores, listed, -⟩ := tracks
  obtain ⟨tempnode, dict', looked, stores', null, aimed⟩ := lookup_aims stores listed request
  rw [serve, Tracker.serve, looked, Exec.ok_bind]
  dsimp only
  by_cases known : tracker.Knows request.connId
  · rw [if_neg (mt null.mp (not_not.mpr known)), if_pos known]
    rw [if_pos known] at aimed
    exact attend_agrees (mt null.mp (not_not.mpr known))
      ⟨socket, ascending, tree, stores', listed, aimed⟩
  · rw [if_pos (null.mpr known), if_neg known, Tracker.welcome, ← socket]
    refine Agree.bind_same fun outcome upgraded => ?_
    obtain ⟨code, pubSocket, final⟩ := outcome
    obtain ⟨headers, rfl⟩ := upgrade_request upgraded
    have unknown : ¬ tracker.Knows ({ request with headers } : Mongrel2Request).connId := known
    obtain ⟨dict'', tree', inserted, stores'', listed'⟩ :=
      insert_enters stores' listed ascending unknown
    have asserted : cassert host.ndebug ((1 : Int) = 1) = .ok () := cassert_true _
    dsimp only
    rw [inserted, Exec.ok_bind]
    dsimp only
    rw [asserted, Exec.ok_bind]
    exact answer_agrees ⟨rfl, Hub.ascending_enter ascending _, tree', stores'', listed',
      null.mpr known⟩ rfl

theorem drop_agrees (tracks : Tracks main tracker) (request : Option Mongrel2Request) :
    Agree Tracks (drop request main) (tracker.drop request) := by
  obtain ⟨pubSocket, dict, tempnode⟩ := main
  obtain ⟨⟨socket, live⟩, aim⟩ := tracker
  obtain ⟨rfl, ascending, tree, stores, listed, aimed⟩ := tracks
  rw [drop, Tracker.drop]
  refine Agree.bind_same fun req _ => ?_
  cases aim with
  | null =>
      have null : tempnode = .null := aimed
      dsimp only
      rw [null, dictDeleteFree_null stores.null]
      exact Agree.error _
  | freed =>
      obtain ⟨nonnull, freed⟩ := aimed
      dsimp only
      rw [dictDeleteFree_freed nonnull freed]
      exact Agree.error _
  | session id =>
      obtain ⟨dict', tree', deleted, stores', listed', freed⟩ :=
        delete_leaves stores listed ascending aimed
      dsimp only
      rw [deleted, Exec.ok_bind]
      refine Agree.bind_same fun outcome _ => Agree.ok ?_
      exact ⟨rfl, Hub.ascending_leave ascending _, tree', stores', listed', freed⟩

/-- A turn of the program is a turn of the tracker. -/
theorem turn_agrees (tracks : Tracks main tracker) (arrival : Arrival) :
    Agree Tracks (turn host libraries main arrival) (tracker.turn host libraries arrival) := by
  rw [turn, Tracker.turn]
  refine Agree.bind_same fun request _ => Agree.bind_same fun asking _ => ?_
  cases asking with
  | false => exact drop_agrees tracks request
  | true => exact Agree.bind_same fun req _ => serve_agrees tracks req

/-- Every run of the program is the run of the tracker. -/
theorem run_tracked (host : Host) (libraries : Libraries)
    (pubSocket : Option Mongrel2Socket) (arrivals : List Arrival) :
    Agree Tracks (wsHandshake host libraries pubSocket arrivals)
      (Tracker.run host libraries pubSocket arrivals) :=
  Agree.foldlM (fun _ _ arrival tracks => turn_agrees tracks arrival) arrivals
    ⟨rfl, List.Pairwise.nil, .nil, stores_dictInit, rfl, rfl⟩

/-- The program stops in the fault in which the tracker stops, or it returns with the
socket of the tracker, a dictionary that holds its connections in order, and a
variable that points to what the tracker says. -/
theorem handler_tracked (host : Host) (libraries : Libraries)
    (pubSocket : Option Mongrel2Socket) (arrivals : List Arrival) :
    match Tracker.run host libraries pubSocket arrivals with
    | .error fault => wsHandshake host libraries pubSocket arrivals = .error fault
    | .ok tracker => ∃ main, wsHandshake host libraries pubSocket arrivals = .ok main ∧
        Tracks main tracker := by
  rcases run_tracked host libraries pubSocket arrivals with
    ⟨fault, stopped, modelled⟩ | ⟨main, tracker, ran, modelled, tracks⟩
  · rw [modelled]
    exact stopped
  · rw [modelled]
    exact ⟨main, ran, tracks⟩

end Refinement

end M2Handler.Example.WsHandshakeC
