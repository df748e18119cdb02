import M2Handler.Handler.Notices
import M2Handler.Handler.Receiving
import M2Handler.Machine.Lockstep
import M2Handler.Reporting.Handshake
import M2Handler.Websocket.Broadcast

/-!
# The handler `ws_handshake.cpp`

The loop of the program answers the first request of a connection with a
handshake, broadcasts for each empty body and drops a connection on its notice.
It is a hub with an ordered list of connections: the store behind the mutex does
what the list does, and every run sends the same messages and ends in the same
fault.
-/

namespace M2Handler.Example.WsHandshake

open Machine Text Bstr RedBlack RedBlack.Tree Adt Handler Websocket Websocket.Framing
  Websocket.Session

variable (host : Host) (libraries : Libraries)

/-! ## The program -/

def helloText : List Bytes := [
  "\x7b\"message\": \"\x7b\\\"guid\\\": ", "\\\"63636330350000000000000000000000",
  "\\\"\x7d\", \"metadata\": \"\x7b", "\\\"participant\\\": \\\"ccc05-03\\\", ",
  "\\\"timestamp_second\\\": ", "\\\"1326922280\\\", ", "\\\"timestamp_nanosec\\\": ",
  "\\\"553700663\\\", ", "\\\"instance_handle\\\": 12287918211081, ",
  "\\\"topic\\\": \\\"HeartBeat_Pulse\\\"\x7d\"\x7d"].map asciiBytes

/-- The string of the source in pieces. -/
def HELLO : Bstring := bsStatic helloText.flatten (by decide +kernel)

def opClose : UInt8 := 8

structure Main where
  pubSocket : Option Mongrel2Socket
  sessions : M2WsSessionsState

/-- `request != NULL && mongrel2_request_for_disconnect(request) != 1`. -/
def asks (request : Option Mongrel2Request) : Exec Bool :=
  if request.isNone then return false
  else do
    let answer ← mongrel2RequestForDisconnect libraries request
    return answer ≠ 1

/-- The reads of a body that is not empty; a build without `NDEBUG` prints it. -/
def lookAt (body : Option Bstring) : Exec Unit := do
  let data ← deref (bdata body)
  -- The block of a bstring has a NUL behind its bytes, which `mongrel2_ws_frame_debug` can read.
  let frame := data ++ [0]
  let opcode ← mongrel2WsFrameGetOpcode host (blength body).toNat frame
  if opcode = opClose then return ()
  else ifDebug host.ndebug (mongrel2WsFrameDebug host (blength body).toNat frame)

def serve (request : Mongrel2Request) (main : Main) : Exec Main := do
  let (contains, sessions) ← mongrel2WsSessionsStateContains request main.sessions
  let (request, pubSocket, sessions) ←
    if contains ≠ 0 then pure (request, main.pubSocket, sessions)
    else do
      let (_, pubSocket, request) ←
        mongrel2WsReplyUpgrade libraries (some request) main.pubSocket
      let (_, sessions) ← mongrel2WsSessionsStateAdd request sessions
      pure (request, pubSocket, sessions)
  if 0 < blength request.body then do
    lookAt host request.body
    return { pubSocket, sessions }
  else do
    let ((_, pubSocket), sessions) ← mongrel2WsBroadcast host pubSocket (some HELLO) sessions
    return { pubSocket, sessions }

/-- The branch for a notice, which a null request takes too. -/
def drop (request : Option Mongrel2Request) (main : Main) : Exec Main := do
  -- The line about `request->conn_id` is printed first.
  let req ← deref request
  let (_, sessions) ← mongrel2WsSessionsStateRemove req main.sessions
  let (_, pubSocket) ← mongrel2Disconnect main.pubSocket request
  return { pubSocket, sessions }

def turn (main : Main) (arrival : Arrival) : Exec Main := do
  let request ← mongrel2Recv host arrival
  let asking ← asks libraries request
  if asking then do
    let request ← deref request
    serve host libraries request main
  else drop request main

def wsHandshake (pubSocket : Option Mongrel2Socket) (arrivals : List Arrival) : Exec Main := do
  let (_, sessions) ← mongrel2WsSessionsStateInit
  let (_, sessions) ← mongrel2WsSessionsStateUnlock sessions
  arrivals.foldlM (turn host libraries) { pubSocket, sessions }

/-! ## The hub -/

/-- The connections that are served, by ascending id. -/
structure Hub where
  pubSocket : Option Mongrel2Socket
  live : List Mongrel2Request

namespace Hub

def Knows (hub : Hub) (id : Int32) : Prop := ∃ request ∈ hub.live, request.connId = id

instance (hub : Hub) (id : Int32) : Decidable (hub.Knows id) :=
  inferInstanceAs (Decidable (∃ request ∈ hub.live, request.connId = id))

def enter (request : Mongrel2Request) (live : List Mongrel2Request) : List Mongrel2Request :=
  live.filter (fun other => other.connId < request.connId) ++
    request :: live.filter (fun other => request.connId < other.connId)

def leave (id : Int32) (live : List Mongrel2Request) : List Mongrel2Request :=
  live.filter fun other => other.connId ≠ id

/-- A connection that is not known is answered and entered. -/
def greet (request : Mongrel2Request) (hub : Hub) : Exec Hub :=
  if hub.Knows request.connId then return hub
  else do
    let (_, pubSocket, request) ← mongrel2WsReplyUpgrade libraries (some request) hub.pubSocket
    return { pubSocket, live := enter request hub.live }

/-- A request without a body is answered to all connections. -/
def serve (request : Mongrel2Request) (hub : Hub) : Exec Hub := do
  let hub ← hub.greet libraries request
  if 0 < blength request.body then do
    lookAt host request.body
    return hub
  else do
    let pubSocket ← hub.live.foldlM (sessionReply host (some HELLO)) hub.pubSocket
    return { hub with pubSocket }

/-- Only a known connection can be dropped. -/
def drop (request : Option Mongrel2Request) (hub : Hub) : Exec Hub := do
  let req ← deref request
  if hub.Knows req.connId then do
    let (_, pubSocket) ← mongrel2Disconnect hub.pubSocket request
    return { pubSocket, live := leave req.connId hub.live }
  else .error .nullPointer

def turn (hub : Hub) (arrival : Arrival) : Exec Hub := do
  let request ← mongrel2Recv host arrival
  let asking ← asks libraries request
  if asking then do
    let request ← deref request
    hub.serve host libraries request
  else hub.drop request

def run (pubSocket : Option Mongrel2Socket) (arrivals : List Arrival) : Exec Hub :=
  arrivals.foldlM (turn host libraries) { pubSocket, live := [] }

/-! ## Ordered lists of connections -/

def Ascending (live : List Mongrel2Request) : Prop :=
  live.Pairwise fun request other => request.connId < other.connId

theorem mem_enter {request other : Mongrel2Request} {live : List Mongrel2Request} :
    other ∈ enter request live ↔
      other = request ∨ other ∈ live ∧ other.connId ≠ request.connId := by
  simp only [enter, List.mem_append, List.mem_cons, List.mem_filter, decide_eq_true_eq]
  constructor
  · rintro (⟨member, below⟩ | rfl | ⟨member, above⟩)
    · exact .inr ⟨member, fun same => Int32.lt_irrefl (same ▸ below)⟩
    · exact .inl rfl
    · exact .inr ⟨member, fun same => Int32.lt_irrefl (same ▸ above)⟩
  · rintro (rfl | ⟨member, different⟩)
    · exact .inr (.inl rfl)
    · rcases Int32.lt_or_lt_of_ne different with below | above
      · exact .inl ⟨member, below⟩
      · exact .inr (.inr ⟨member, above⟩)

theorem mem_leave {other : Mongrel2Request} {id : Int32} {live : List Mongrel2Request} :
    other ∈ leave id live ↔ other ∈ live ∧ other.connId ≠ id := by
  rw [leave, List.mem_filter, decide_eq_true_eq]

theorem knows_enter {request : Mongrel2Request} {id : Int32} {live : List Mongrel2Request}
    {pubSocket : Option Mongrel2Socket} :
    Knows ⟨pubSocket, enter request live⟩ id ↔
      request.connId = id ∨ ∃ other ∈ live, other.connId = id ∧ id ≠ request.connId := by
  constructor
  · rintro ⟨other, member, rfl⟩
    rcases mem_enter.mp member with rfl | ⟨inside, different⟩
    · exact .inl rfl
    · exact .inr ⟨other, inside, rfl, different⟩
  · rintro (rfl | ⟨other, inside, rfl, different⟩)
    · exact ⟨request, mem_enter.mpr (.inl rfl), rfl⟩
    · exact ⟨other, mem_enter.mpr (.inr ⟨inside, different⟩), rfl⟩

theorem knows_leave {hub hub' : Hub} {id other : Int32} (live : hub'.live = leave id hub.live) :
    hub'.Knows other ↔ hub.Knows other ∧ other ≠ id := by
  unfold Knows
  rw [live]
  constructor
  · rintro ⟨request, member, rfl⟩
    obtain ⟨inside, different⟩ := mem_leave.mp member
    exact ⟨⟨request, inside, rfl⟩, different⟩
  · rintro ⟨⟨request, inside, rfl⟩, different⟩
    exact ⟨request, mem_leave.mpr ⟨inside, different⟩, rfl⟩

theorem ascending_enter {live : List Mongrel2Request} (ascending : Ascending live)
    (request : Mongrel2Request) : Ascending (enter request live) := by
  refine List.pairwise_append.mpr ⟨ascending.filter _, ?_, ?_⟩
  · refine List.pairwise_cons.mpr ⟨fun other member => ?_, ascending.filter _⟩
    exact of_decide_eq_true (List.mem_filter.mp member).2
  · intro earlier before later after
    have below := of_decide_eq_true (List.mem_filter.mp before).2
    rcases List.mem_cons.mp after with rfl | after
    · exact below
    · exact Int32.lt_trans below (of_decide_eq_true (List.mem_filter.mp after).2)

theorem ascending_leave {live : List Mongrel2Request} (ascending : Ascending live) (id : Int32) :
    Ascending (leave id live) :=
  ascending.filter _

/-- Two ordered lists of the same connections are equal. -/
theorem eq_of_ascending {first second : List Mongrel2Request} (ascending : Ascending first)
    (ascending' : Ascending second) (same : ∀ request, request ∈ first ↔ request ∈ second) :
    first = second := by
  have nodup {live : List Mongrel2Request} (ordered : Ascending live) : live.Nodup := by
    refine List.Pairwise.imp ?_ ordered
    rintro request other below rfl
    exact Int32.lt_irrefl below
  have perm : first.Perm second :=
    (List.perm_ext_iff_of_nodup (nodup ascending) (nodup ascending')).mpr same
  refine perm.eq_of_pairwise (fun request other _ _ below above => ?_) ascending ascending'
  exact absurd (Int32.lt_trans below above) Int32.lt_irrefl

end Hub

/-! ## The store and the list -/

/-- The store holds the connections of the hub. -/
structure Serves (main : Main) (hub : Hub) : Prop where
  socket : main.pubSocket = hub.pubSocket
  free : main.sessions.locked = false
  ascending : Hub.Ascending hub.live
  stored : ∃ tree, Stores main.sessions.dict tree ∧ requests tree = hub.live

section Refinement

variable {host libraries} {tree : RedBlack.Tree (Nat × M2WsSessionId)} {hub : Hub}

theorem mem_connIds_iff (id : Int32) :
    id ∈ connIds tree ↔ ∃ request ∈ requests tree, request.connId = id := by
  simp [connIds, requests]

theorem knows_iff (listed : requests tree = hub.live) (id : Int32) :
    hub.Knows id ↔ id ∈ connIds tree := by
  rw [mem_connIds_iff, listed]
  exact Iff.rfl

theorem nodup_connIds (listed : requests tree = hub.live)
    (ascending : Hub.Ascending hub.live) : (connIds tree).Nodup := by
  have ids : connIds tree = Multiset.ofList ((requests tree).map (·.connId)) := by
    rw [connIds, requests, List.map_map]
    rfl
  rw [ids, listed, Multiset.coe_nodup]
  refine List.pairwise_map.mpr (List.Pairwise.imp ?_ ascending)
  intro request other below equal
  exact Int32.lt_irrefl (equal ▸ below)

/-- A handshake that returns replied to its request with the answer to the key, or with
nothing. -/
theorem upgrade_inv {request final : Mongrel2Request} {pubSocket after : Option Mongrel2Socket}
    {code : Int}
    (upgraded : mongrel2WsReplyUpgrade libraries (some request) pubSocket =
      .ok (code, after, final)) :
    final = withHeaders libraries request ∧ ∃ status answer,
      mongrel2Reply pubSocket (some (withHeaders libraries request)) answer =
        .ok (status, after) ∧
      ∀ text, answer = some text → ∃ key, keyOf libraries request = some key ∧
        text.data = upgradeText (acceptOf libraries key) := by
  rw [mongrel2WsReplyUpgrade, deref_some, Exec.ok_bind] at upgraded
  obtain ⟨⟨answer, between⟩, answered, upgraded⟩ := Exec.bind_eq_ok.mp upgraded
  obtain ⟨⟨status, socket⟩, replied, upgraded⟩ := Exec.bind_eq_ok.mp upgraded
  cases upgraded
  by_cases usable : Reporting.UsableKey libraries request
  · obtain ⟨key, found, fits⟩ := usable
    obtain ⟨made, -, bytes, expected⟩ := upgradeHeaders_eq found fits
    rw [answered] at expected
    cases expected
    refine ⟨rfl, status, some made, replied, fun text same => ⟨key, found, ?_⟩⟩
    cases same
    exact bytes
  · by_cases copied : ∀ key, keyOf libraries request = some key → ¬ KeyWraps key
    · have refused := Reporting.keyRefused_of_unusable libraries request usable copied
      rw [upgradeHeaders_refuses refused] at answered
      cases answered
      exact ⟨rfl, status, none, replied, fun text impossible => by cases impossible⟩
    · simp only [not_forall, not_not] at copied
      obtain ⟨key, found, wraps⟩ := copied
      rw [upgradeHeaders_overruns found wraps] at answered
      cases answered

/-- The headers are all that a handshake changes in its request. -/
theorem upgrade_request {request final : Mongrel2Request} {pubSocket after : Option Mongrel2Socket}
    {code : Int}
    (upgraded : mongrel2WsReplyUpgrade libraries (some request) pubSocket =
      .ok (code, after, final)) :
    ∃ headers, final = { request with headers } := by
  obtain ⟨headers, same⟩ := Reporting.withHeaders_eq libraries request
  exact ⟨headers, (upgrade_inv upgraded).1.trans same⟩

/-- A store with one session more, of a connection that is not known. -/
theorem requests_enter {tree' : RedBlack.Tree (Nat × M2WsSessionId)}
    {dict' : Dict M2WsSessionId} (listed : requests tree = hub.live)
    (ascending : Hub.Ascending hub.live) {request : Mongrel2Request} {a : Nat}
    (absent : ¬ hub.Knows request.connId) (stores' : Stores dict' tree')
    (perm : tree'.inorder.Perm ((a, { req := request }) :: tree.inorder)) :
    requests tree' = Hub.enter request hub.live := by
  have ids := connIds_perm perm
  have nodup := nodup_connIds listed ascending
  have nodup' : (connIds tree').Nodup := by
    rw [ids]
    exact Multiset.nodup_cons.mpr ⟨fun member => absent ((knows_iff listed _).mpr member), nodup⟩
  refine Hub.eq_of_ascending (requests_ascend stores' nodup')
    (Hub.ascending_enter ascending request) fun other => ?_
  rw [mem_requests_perm perm, Hub.mem_enter, listed]
  refine or_congr_right ⟨fun member => ⟨member, fun same => absent ⟨other, member, same⟩⟩, ?_⟩
  exact fun entered => entered.1

/-- A store with one session less. -/
theorem requests_leave {tree' : RedBlack.Tree (Nat × M2WsSessionId)}
    {dict' : Dict M2WsSessionId} (listed : requests tree = hub.live)
    (ascending : Hub.Ascending hub.live) {entry : Nat × M2WsSessionId} (stores' : Stores dict' tree')
    (perm : tree.inorder.Perm (entry :: tree'.inorder)) :
    requests tree' = Hub.leave entry.2.req.connId hub.live := by
  have nodup := nodup_connIds listed ascending
  rw [connIds_perm perm] at nodup
  obtain ⟨gone, nodup'⟩ := Multiset.nodup_cons.mp nodup
  refine Hub.eq_of_ascending (requests_ascend stores' nodup')
    (Hub.ascending_leave ascending _) fun other => ?_
  rw [Hub.mem_leave, ← listed, mem_requests_perm perm]
  constructor
  · intro member
    refine ⟨.inr member, fun equal => gone ?_⟩
    rw [← equal]
    exact mem_connIds_of_mem_requests member
  · rintro ⟨rfl | member, different⟩
    · exact absurd rfl different
    · exact member

/-- A request that is not known is entered in the list and in the store. -/
theorem add_enters {dict : Dict M2WsSessionId} (stores : Stores dict tree)
    (listed : requests tree = hub.live) (ascending : Hub.Ascending hub.live)
    (request : Mongrel2Request) (absent : ¬ hub.Knows request.connId) :
    ∃ dict' tree', mongrel2WsSessionsStateAdd request { dict, locked := false } =
        .ok (0, { dict := dict', locked := false }) ∧
      Stores dict' tree' ∧ requests tree' = Hub.enter request hub.live := by
  obtain ⟨dict', tree', added, stores', perm⟩ := add_stores stores request
  exact ⟨dict', tree', added, stores', requests_enter listed ascending absent stores' perm⟩

/-- A known connection leaves the list and the store. -/
theorem remove_leaves {dict : Dict M2WsSessionId} (stores : Stores dict tree)
    (listed : requests tree = hub.live) (ascending : Hub.Ascending hub.live)
    {request : Mongrel2Request} (known : hub.Knows request.connId) :
    ∃ dict' tree', mongrel2WsSessionsStateRemove request { dict, locked := false } =
        .ok (0, { dict := dict', locked := false }) ∧
      Stores dict' tree' ∧ requests tree' = Hub.leave request.connId hub.live := by
  obtain ⟨entry, dict', tree', removed, stores', same, perm⟩ :=
    remove_stores stores ((knows_iff listed _).mp known)
  rw [← same]
  exact ⟨dict', tree', removed, stores', requests_leave listed ascending stores' perm⟩

variable {main : Main}

/-- The lookup answers whether the hub knows the connection. -/
theorem contains_knows (serves : Serves main hub) (request : Mongrel2Request) :
    ∃ sessions, mongrel2WsSessionsStateContains request main.sessions =
        .ok (if hub.Knows request.connId then 1 else 0, sessions) ∧
      Serves { main with sessions } hub := by
  obtain ⟨pubSocket, dict, locked⟩ := main
  obtain ⟨socket, rfl, ascending, tree, stores, listed⟩ := serves
  obtain ⟨dict', asked, stores'⟩ := contains_stores stores request
  rw [if_congr (knows_iff listed request.connId).symm rfl rfl] at asked
  exact ⟨⟨dict', false⟩, asked, socket, rfl, ascending, tree, stores', listed⟩

/-- A broadcast replies to all connections of the hub. -/
theorem broadcast_agrees (serves : Serves main hub) (data : Option Bstring) :
    Agree (fun outcome pubSocket => Serves { pubSocket := outcome.1.2, sessions := outcome.2 }
        { hub with pubSocket })
      (mongrel2WsBroadcast host main.pubSocket data main.sessions)
      (hub.live.foldlM (sessionReply host data) hub.pubSocket) := by
  obtain ⟨pubSocket, dict, locked⟩ := main
  obtain ⟨rfl, rfl, ascending, tree, stores, listed⟩ := serves
  have follows := broadcast_run host stores data hub.pubSocket
  rw [sessionReplies, listed] at follows
  cases replied : hub.live.foldlM (sessionReply host data) hub.pubSocket with
  | error fault =>
      rw [replied] at follows
      rcases follows with ⟨other, same, stopped⟩ | ⟨result, after, impossible, -⟩
      · cases same
        exact .inl ⟨fault, stopped, rfl⟩
      · cases impossible
  | ok final =>
      rw [replied] at follows
      rcases follows with ⟨other, impossible, -⟩ | ⟨result, after, same, ran, free, stores'⟩
      · cases impossible
      · cases same
        exact .inr ⟨_, _, ran, rfl, rfl, free, ascending, tree, stores', listed⟩

theorem serve_agrees (serves : Serves main hub) (request : Mongrel2Request) :
    Agree Serves (serve host libraries request main) (hub.serve host libraries request) := by
  obtain ⟨sessions, asked, kept⟩ := contains_knows serves request
  -- After the handshake the two have the same request, socket and connections.
  have rest {request' : Mongrel2Request} {main' : Main} {hub' : Hub}
      (same : request'.body = request.body) (serves' : Serves main' hub') :
      Agree Serves
        (if 0 < blength request'.body then do
          lookAt host request'.body
          return { pubSocket := main'.pubSocket, sessions := main'.sessions }
        else do
          let ((_, pubSocket), sessions) ←
            mongrel2WsBroadcast host main'.pubSocket (some HELLO) main'.sessions
          return { pubSocket, sessions })
        (if 0 < blength request.body then do
          lookAt host request.body
          return hub'
        else do
          let pubSocket ← hub'.live.foldlM (sessionReply host (some HELLO)) hub'.pubSocket
          return { hub' with pubSocket }) := by
    rw [same]
    split
    · exact Agree.bind_same fun _ _ => Agree.ok serves'
    · exact (broadcast_agrees serves' (some HELLO)).bind fun _ _ after => Agree.ok after
  rw [serve, Hub.serve, Hub.greet, asked, Exec.ok_bind]
  dsimp only
  by_cases known : hub.Knows request.connId
  · rw [if_pos known, if_pos (by decide), if_pos known]
    exact rest rfl kept
  · rw [if_neg known, if_neg (by decide), if_neg known, ← serves.socket, bind_assoc]
    refine Agree.bind_same fun outcome upgraded => ?_
    obtain ⟨code, pubSocket, final⟩ := outcome
    obtain ⟨headers, rfl⟩ := upgrade_request upgraded
    obtain ⟨mainSocket, dict, locked⟩ := main
    obtain ⟨dict', locked'⟩ := sessions
    obtain ⟨socket, rfl, ascending, tree, stores, listed⟩ := kept
    obtain ⟨dict'', tree', added, stores', listed'⟩ :=
      add_enters stores listed ascending { request with headers } known
    have entered : Serves ⟨pubSocket, dict'', false⟩
        ⟨pubSocket, Hub.enter { request with headers } hub.live⟩ :=
      ⟨rfl, rfl, Hub.ascending_enter ascending _, tree', stores', listed'⟩
    dsimp only
    rw [added, Exec.ok_bind, Exec.pure_bind, Exec.pure_bind]
    have kept : ({ request with headers } : Mongrel2Request).body = request.body := rfl
    exact rest kept entered

theorem drop_agrees (serves : Serves main hub) (request : Option Mongrel2Request) :
    Agree Serves (drop request main) (hub.drop request) := by
  cases request with
  | none => exact Agree.error _
  | some request =>
      obtain ⟨pubSocket, dict, locked⟩ := main
      obtain ⟨rfl, rfl, ascending, tree, stores, listed⟩ := serves
      rw [drop, Hub.drop, deref_some, Exec.ok_bind, Exec.ok_bind]
      by_cases known : hub.Knows request.connId
      · obtain ⟨dict', tree', removed, stores', listed'⟩ :=
          remove_leaves stores listed ascending known
        rw [removed, Exec.ok_bind, if_pos known]
        refine Agree.bind_same fun outcome _ => ?_
        exact Agree.ok ⟨rfl, rfl, Hub.ascending_leave ascending _, tree', stores', listed'⟩
      · have represents : Represents { dict, locked := false } (connIds tree) :=
          ⟨rfl, tree, stores, rfl⟩
        have absent : request.connId ∉ connIds tree := mt (knows_iff listed _).mpr known
        rw [remove_faults represents absent, if_neg known]
        exact Agree.error _

/-- A turn of the program is a turn of the hub. -/
theorem turn_agrees (serves : Serves main hub) (arrival : Arrival) :
    Agree Serves (turn host libraries main arrival) (hub.turn host libraries arrival) := by
  rw [turn, Hub.turn]
  refine Agree.bind_same fun request _ => Agree.bind_same fun asking _ => ?_
  cases asking with
  | false => exact drop_agrees serves request
  | true => exact Agree.bind_same fun req _ => serve_agrees serves req

/-- Every run of the program is the run of the hub. -/
theorem run_agrees (host : Host) (libraries : Libraries)
    (pubSocket : Option Mongrel2Socket) (arrivals : List Arrival) :
    Agree Serves (wsHandshake host libraries pubSocket arrivals)
      (Hub.run host libraries pubSocket arrivals) := by
  obtain ⟨locked, initialised, state, unlocked, represents⟩ := init_run
  obtain ⟨free, tree, stores, empty⟩ := represents
  have none : requests tree = [] := by
    have count := congrArg Multiset.card empty
    rw [connIds, Multiset.coe_card, List.length_map, Multiset.card_zero] at count
    rw [requests, List.eq_nil_of_length_eq_zero count]
    rfl
  rw [wsHandshake, initialised, Exec.ok_bind]
  dsimp only
  rw [unlocked, Exec.ok_bind]
  exact Agree.foldlM (fun _ _ arrival serves => turn_agrees serves arrival) arrivals
    ⟨rfl, free, List.Pairwise.nil, tree, stores, none⟩

/-- The program stops in the fault in which the hub stops, or it returns with the
socket of the hub and a free store that holds the connections of the hub in order. -/
theorem wsHandshake_agrees (host : Host) (libraries : Libraries)
    (pubSocket : Option Mongrel2Socket) (arrivals : List Arrival) :
    match Hub.run host libraries pubSocket arrivals with
    | .error fault => wsHandshake host libraries pubSocket arrivals = .error fault
    | .ok hub => ∃ main, wsHandshake host libraries pubSocket arrivals = .ok main ∧
        Serves main hub := by
  rcases run_agrees host libraries pubSocket arrivals with
    ⟨fault, stopped, modelled⟩ | ⟨main, hub, ran, modelled, serves⟩
  · rw [modelled]
    exact stopped
  · rw [modelled]
    exact ⟨main, ran, serves⟩

end Refinement

end M2Handler.Example.WsHandshake
