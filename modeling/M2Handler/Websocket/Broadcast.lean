import M2Handler.Websocket.Sending
import M2Handler.Websocket.SessionRuns

/-!
# Broadcast

The broadcast holds the mutex and walks the dictionary from its first node to
each next one.  Its loop is stated over any reply, which may carry a state of its
own; a run of it is the run of the replies to all sessions in the order of their
connection ids.
-/

namespace M2Handler.Websocket.Session

open Machine Bstr RedBlack RedBlack.Tree Adt Handler

variable {σ : Type} (host : Host)

/-- A step of a loop over the nodes that does not touch the dictionary. -/
def beside {κ β : Type} (run : Exec β) : DictM κ β := fun dict => do
  let result ← run
  return (result, dict)

def broadcastLoop (reply : σ → Mongrel2Request → Exec σ) :
    Nat → Pointer → σ → DictM M2WsSessionId σ
  | 0, _, _ => diverge
  | fuel + 1, iter, state =>
      if iter = .null then pure state
      else do
        let idptr ← loadKey iter
        let state ← beside (reply state idptr.req)
        let iter ← dictNext iter
        broadcastLoop reply fuel iter state

def eachSession (reply : σ → Mongrel2Request → Exec σ) (state : σ) : SessionsM σ := do
  mongrel2WsSessionsStateLock
  let iter ← onDict dictFirst
  let fuel ← onDict steps
  let state ← onDict (broadcastLoop reply fuel iter state)
  mongrel2WsSessionsStateUnlock
  return state

def mongrel2WsBroadcast (pubSocket : Option Mongrel2Socket) (data : Option Bstring) :
    SessionsM (Int × Option Mongrel2Socket) := do
  let reply := fun pubSocket req => do
    let (_, pubSocket) ← mongrel2WsReply host pubSocket (some req) data
    return pubSocket
  let pubSocket ← eachSession reply pubSocket
  return (0, pubSocket)

/-! ## The walk -/

def requests (tree : RedBlack.Tree (Nat × M2WsSessionId)) : List Mongrel2Request :=
  tree.inorder.map fun entry => entry.2.req

variable {dict : Dict M2WsSessionId} {tree : RedBlack.Tree (Nat × M2WsSessionId)}
  (reply : σ → Mongrel2Request → Exec σ)

/-- The run of an action is that of the replies to some requests: it faults with
them, or it ends with them in a dictionary of the same tree. -/
def Replies (tree : RedBlack.Tree (Nat × M2WsSessionId)) (run : Exec (σ × Dict M2WsSessionId))
    (replies : Exec σ) : Prop :=
  (∃ fault, replies = .error fault ∧ run = .error fault) ∨
    ∃ state dict', replies = .ok state ∧ run = .ok (state, dict') ∧ Stores dict' tree

/-- The loop replies to the sessions that are left. -/
theorem broadcastLoop_run {front rest : List (Nat × M2WsSessionId)} {fuel : Nat} (state : σ)
    (stores : Stores dict tree) (place : tree.inorder = front ++ rest)
    (enough : rest.length < fuel) :
    Replies tree (broadcastLoop reply fuel (pointerTo rest.head?) state dict)
      ((rest.map fun entry => entry.2.req).foldlM reply state) := by
  obtain ⟨fuel, rfl⟩ : ∃ less, fuel = less + 1 := ⟨fuel - 1, by omega⟩
  induction rest generalizing front dict state fuel with
  | nil => exact .inr ⟨state, dict, rfl, rfl, stores⟩
  | cons entry rest ih =>
      rw [List.length_cons] at enough
      obtain ⟨fuel, rfl⟩ : ∃ less, fuel = less + 1 := ⟨fuel - 1, by omega⟩
      obtain ⟨path, color, left, right, rfl, -, after⟩ := exists_path place
      obtain ⟨between, loaded, kept⟩ :=
        stores.rewrites (rewrites_loadKey path .left color left right entry)
      have stop : Pointer.node entry.1 ≠ .null := by
        intro same
        cases same
      have step : broadcastLoop reply (fuel + 1 + 1) (.node entry.1) state dict =
          (beside (reply state entry.2.req) >>= fun state => do
            let iter ← dictNext (.node entry.1)
            broadcastLoop reply (fuel + 1) iter state) between := by
        rw [broadcastLoop, if_neg stop]
        exact action_bind loaded _
      change Replies _ (broadcastLoop reply (fuel + 1 + 1) (.node entry.1) state dict) _
      rw [step, List.map_cons, List.foldlM_cons]
      cases replied : reply state entry.2.req with
      | error fault =>
          exact .inl ⟨fault, rfl, fault_bind rfl _⟩
      | ok state' =>
          obtain ⟨later, advanced, keptLater⟩ := kept.rewrites
            (rewrites_dictNext path color left right entry kept.holds.distinct)
          have ran : beside (.ok state') between = .ok (state', between) := rfl
          have moved : (plug path (node color left entry right)).inorder =
              (front ++ [entry]) ++ rest := by
            rw [place]
            simp
          rw [action_bind ran, Exec.ok_bind, action_bind advanced, after]
          exact ih state' keptLater moved fuel (by omega)

/-- The run of a call on a store is that of the replies to some requests: it
faults with them, or it ends with them in a free store of the same tree. -/
def Follows (tree : RedBlack.Tree (Nat × M2WsSessionId)) (run : Exec (σ × M2WsSessionsState))
    (replies : Exec σ) : Prop :=
  (∃ fault, replies = .error fault ∧ run = .error fault) ∨
    ∃ result after, replies = .ok result ∧ run = .ok (result, after) ∧
      after.locked = false ∧ Stores after.dict tree

/-- The broadcast replies to all sessions and keeps the tree. -/
theorem eachSession_run (stores : Stores dict tree) (state : σ) :
    Follows tree (eachSession reply state { dict, locked := false })
      ((requests tree).foldlM reply state) := by
  obtain ⟨between, begun, kept⟩ := stores.rewrites (rewrites_dictFirst tree)
  have counted : steps between = .ok (between.next + 1, between) := rfl
  have enough : tree.inorder.length < between.next + 1 :=
    Nat.lt_succ_of_le kept.holds.length_le
  have start : eachSession reply state { dict, locked := false } =
      (onDict (broadcastLoop reply (between.next + 1) (pointerTo tree.inorder.head?) state) >>=
        fun state => do
          mongrel2WsSessionsStateUnlock
          return state) { dict := between, locked := true } := by
    rw [eachSession, lock_bind, onDict_bind begun, onDict_bind counted]
  have whole : tree.inorder = [] ++ tree.inorder := rfl
  rw [start]
  rcases broadcastLoop_run reply state kept whole enough with
    ⟨fault, replies, stopped⟩ | ⟨state', dict', replies, ran, stores'⟩
  · exact .inl ⟨fault, replies, onDict_fault stopped true _⟩
  · exact .inr ⟨state', _, replies, onDict_bind ran true _, rfl, stores'⟩

/-! ## The sessions of a run -/

/-- The calls made so far are the abstract state. -/
def history : Specification SessionCall (List SessionCall) Int where
  allowed := Turn
  next calls call := calls ++ [call]
  answer calls call := bag.answer (bag.after 0 calls) call

/-- A tree holds the live requests of some calls. -/
structure Enrols (tree : RedBlack.Tree (Nat × M2WsSessionId)) (calls : List SessionCall) :
    Prop where
  inTurn : InTurn calls
  ids : connIds tree = bag.after 0 calls
  live : ∀ req, req ∈ requests tree ↔ LiveRequest calls req

/-- A store that nobody holds has the live requests of some calls. -/
def Records (state : M2WsSessionsState) (calls : List SessionCall) : Prop :=
  state.locked = false ∧ ∃ tree, Stores state.dict tree ∧ Enrols tree calls

theorem mem_connIds_of_mem_requests {req : Mongrel2Request} (member : req ∈ requests tree) :
    req.connId ∈ connIds tree := by
  obtain ⟨entry, inTree, rfl⟩ := List.mem_map.mp member
  exact Multiset.mem_coe.mpr (List.mem_map.mpr ⟨entry, inTree, rfl⟩)

theorem mem_requests_perm {entry : Nat × M2WsSessionId}
    {smaller larger : RedBlack.Tree (Nat × M2WsSessionId)}
    (added : larger.inorder.Perm (entry :: smaller.inorder)) (req : Mongrel2Request) :
    req ∈ requests larger ↔ req = entry.2.req ∨ req ∈ requests smaller :=
  (added.map fun entry => entry.2.req).mem_iff.trans List.mem_cons

variable {calls : List SessionCall}

/-- An added session is live. -/
theorem Enrols.add {tree' : RedBlack.Tree (Nat × M2WsSessionId)} {address : Nat}
    {req : Mongrel2Request}
    (enrols : Enrols tree calls) (turn : Turn calls (.add req))
    (added : tree'.inorder.Perm ((address, { req }) :: tree.inorder)) :
    Enrols tree' (calls ++ [.add req]) where
  inTurn := inTurn_concat.mpr ⟨enrols.inTurn, turn⟩
  ids := by
    rw [connIds_perm added, enrols.ids, bag.after_append]
    rfl
  live other := by
    rw [mem_requests_perm added, enrols.live, liveRequest_concat]
    exact or_congr_left eq_comm

/-- A removed session is the one with the id of the removal. -/
theorem Enrols.remove {tree' : RedBlack.Tree (Nat × M2WsSessionId)} {entry : Nat × M2WsSessionId}
    {req : Mongrel2Request} (enrols : Enrols tree calls) (turn : Turn calls (.remove req))
    (same : entry.2.req.connId = req.connId)
    (removed : tree.inorder.Perm (entry :: tree'.inorder)) :
    Enrols tree' (calls ++ [.remove req]) where
  inTurn := inTurn_concat.mpr ⟨enrols.inTurn, turn⟩
  ids := by
    rw [bag.after_append, ← enrols.ids, connIds_perm removed, same]
    exact (Multiset.erase_cons_head _ _).symm
  live other := by
    have nodup := (bag_inTurn enrols.inTurn).2.1
    rw [← enrols.ids, connIds_perm removed] at nodup
    have apart := (Multiset.nodup_cons.mp nodup).1
    rw [liveRequest_concat, ← enrols.live, mem_requests_perm removed]
    constructor
    · intro stays
      refine ⟨.inr stays, fun equal => apart ?_⟩
      rw [same, equal]
      exact mem_connIds_of_mem_requests stays
    · rintro ⟨rfl | stays, different⟩
      · exact absurd same.symm different
      · exact stays

/-- A question changes nothing. -/
theorem Enrols.contains (enrols : Enrols tree calls) (req : Mongrel2Request) :
    Enrols tree (calls ++ [.contains req]) where
  inTurn := inTurn_concat.mpr ⟨enrols.inTurn, trivial⟩
  ids := by
    rw [enrols.ids, bag.after_append]
    rfl
  live other := by
    rw [liveRequest_concat]
    exact enrols.live other

/-- The store records the calls that are made in turn. -/
theorem simulates_history : Simulates SessionCall.run history Records where
  returns {state calls} call records turn := by
    obtain ⟨dict, locked⟩ := state
    obtain ⟨rfl, tree, stores, enrols⟩ := records
    cases call with
    | add req =>
        obtain ⟨dict', tree', ran, stores', added⟩ := add_stores stores req
        exact ⟨_, ran, rfl, tree', stores', Enrols.add enrols turn added⟩
    | remove req =>
        have stored : req.connId ∈ connIds tree := by
          rw [enrols.ids]
          exact ((bag_inTurn enrols.inTurn).2.2 _).mpr turn
        obtain ⟨entry, dict', tree', ran, stores', same, removed⟩ := remove_stores stores stored
        exact ⟨_, ran, rfl, tree', stores', enrols.remove turn same removed⟩
    | contains req =>
        obtain ⟨dict', ran, stores'⟩ := contains_stores stores req
        rw [enrols.ids] at ran
        exact ⟨_, ran, rfl, tree, stores', enrols.contains req⟩

theorem after_history (earlier later : List SessionCall) :
    history.after earlier later = earlier ++ later := by
  induction later generalizing earlier with
  | nil => exact (List.append_nil earlier).symm
  | cons call later ih =>
      rw [Specification.after, ih]
      exact List.append_assoc earlier [call] later

/-- Calls in turn are those that the history allows. -/
theorem allowedFrom_history (inTurn : InTurn calls) : history.AllowedFrom [] calls := by
  induction calls using List.reverseRecOn with
  | nil => trivial
  | append_singleton calls call ih =>
      obtain ⟨before, turn⟩ := inTurn_concat.mp inTurn
      refine history.allowedFrom_append.mpr ⟨ih before, ?_, trivial⟩
      rw [after_history]
      exact turn

/-- A run in turn ends in a store of the live requests. -/
theorem run_records (inTurn : InTurn calls) :
    ∃ answers state, sessionRun calls = .ok (answers, state) ∧ Records state calls := by
  obtain ⟨started, ⟨unlocked, tree, stores, empty⟩, runs⟩ := exists_started
  have records : Records started [] := by
    refine ⟨unlocked, tree, stores, inTurn_nil, empty, fun req => ⟨fun member => ?_, ?_⟩⟩
    · have stored := mem_connIds_of_mem_requests member
      rw [empty] at stored
      exact absurd stored (Multiset.notMem_zero _)
    · rintro ⟨earlier, later, split, -⟩
      simp at split
  obtain ⟨state, ran, recorded⟩ :=
    simulates_history.run_returns records (allowedFrom_history inTurn)
  rw [after_history, List.nil_append] at recorded
  exact ⟨_, state, (runs calls).trans ran, recorded⟩

/-- The requests of a store without repeated ids are in strictly ascending
order. -/
theorem requests_ascend (stores : Stores dict tree) (nodup : (connIds tree).Nodup) :
    (requests tree).Pairwise fun req other => req.connId < other.connId := by
  have apart : tree.inorder.Pairwise fun entry other => entry.2.req.connId ≠ other.2.req.connId :=
    List.pairwise_map.mp (Multiset.coe_nodup.mp nodup)
  refine List.pairwise_map.mpr ((stores.sorted.and apart).imp ?_)
  rintro entry other ⟨ordered, different⟩
  exact Int32.lt_iff_toInt_lt.mpr
    (lt_of_le_of_ne ordered fun same => different (Int32.toInt_inj.mp same))

/-! ## The broadcast -/

/-- The call of `mongrel2_ws_reply` for a session. -/
def sessionReply (data : Option Bstring) (pubSocket : Option Mongrel2Socket)
    (req : Mongrel2Request) : Exec (Option Mongrel2Socket) := do
  let (_, pubSocket) ← mongrel2WsReply host pubSocket (some req) data
  return pubSocket

def sessionReplies (data : Option Bstring) (sessions : List Mongrel2Request)
    (pubSocket : Option Mongrel2Socket) : Exec (Int × Option Mongrel2Socket) := do
  let pubSocket ← sessions.foldlM (sessionReply host data) pubSocket
  return (0, pubSocket)

theorem sessionReplies_halts {data : Option Bstring} {sessions : List Mongrel2Request}
    {pubSocket : Option Mongrel2Socket} {fault : Fault}
    (faulted : sessionReplies host data sessions pubSocket = .error fault) : fault.Halts := by
  induction sessions generalizing pubSocket with
  | nil => cases faulted
  | cons req sessions ih =>
      rw [sessionReplies, List.foldlM_cons, sessionReply] at faulted
      cases replied : mongrel2WsReply host pubSocket (some req) data with
      | error first =>
          rw [replied] at faulted
          cases faulted
          exact wsReply_halts host replied
      | ok result =>
          rw [replied] at faulted
          exact ih faulted

/-- A broadcast is the replies to all sessions. -/
theorem broadcast_run (stores : Stores dict tree) (data : Option Bstring)
    (pubSocket : Option Mongrel2Socket) :
    Follows tree (mongrel2WsBroadcast host pubSocket data { dict, locked := false })
      (sessionReplies host data (requests tree) pubSocket) := by
  have unfolded : mongrel2WsBroadcast host pubSocket data { dict, locked := false } =
      (eachSession (sessionReply host data) pubSocket { dict, locked := false } >>= fun outcome =>
        .ok ((0, outcome.1), outcome.2)) := rfl
  rw [unfolded, sessionReplies]
  rcases eachSession_run (sessionReply host data) stores pubSocket with
    ⟨fault, replies, stopped⟩ | ⟨result, after, replies, ran, free, stores'⟩
  · rw [replies, stopped]
    exact .inl ⟨fault, rfl, rfl⟩
  · rw [replies, ran]
    exact .inr ⟨_, after, rfl, rfl, free, stores'⟩

end M2Handler.Websocket.Session
