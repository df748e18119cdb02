import M2Handler.Sha1.Digest

/-!
# Runs of contexts

One context hashes many messages one after another, each in pieces, and gives the
digest of each.  With a key it does the same between two resets.
-/

namespace M2Handler.Sha1

open Machine Hash

/-! ## Digests of messages in pieces -/

def updates (ctx : Sha1Context) (pieces : List Bytes) : Exec Sha1Context :=
  pieces.foldlM (fun ctx piece => sha1Update ctx piece piece.length) ctx

/-- Every message is started, brought in its pieces and finished. -/
def digests (ctx : Sha1Context) : List (List Bytes) → Exec (List Bytes)
  | [] => .ok []
  | pieces :: others => do
      let ctx ← updates (sha1Starts ctx) pieces
      let (output, ctx) ← sha1Finish ctx
      let outputs ← digests ctx others
      return output :: outputs

/-- No piece is longer than the low word of the totals can count. -/
def Counted (pieces : List Bytes) : Prop := ∀ piece ∈ pieces, piece.length < 4294967296

theorem hashing_start {ctx : Sha1Context} (size : ctx.buffer.length = 64) :
    Hashing [] (sha1Starts ctx) where
  state := rfl
  buffer := rfl
  size := size
  total0 := rfl
  total1 := rfl

theorem updates_eq {message : Bytes} {ctx : Sha1Context} (hashing : Hashing message ctx)
    {pieces : List Bytes} (counted : Counted pieces) :
    ∃ ctx', updates ctx pieces = .ok ctx' ∧ Hashing (message ++ pieces.flatten) ctx' ∧
      SamePads ctx ctx' := by
  induction pieces generalizing message ctx with
  | nil => exact ⟨ctx, rfl, by rwa [List.flatten_nil, List.append_nil], rfl, rfl⟩
  | cons piece pieces ih =>
      obtain ⟨next, update, hashing', pads⟩ :=
        sha1Update_eq hashing [] (counted piece List.mem_cons_self)
      obtain ⟨last, rest, hashing'', pads'⟩ :=
        ih hashing' fun other member => counted other (List.mem_cons_of_mem _ member)
      rw [List.append_nil] at update
      refine ⟨last, ?_, ?_, pads'.1.trans pads.1, pads'.2.trans pads.2⟩
      · rw [updates, List.foldlM_cons, update]
        exact rest
      · rwa [List.flatten_cons, ← List.append_assoc]

/-- Whatever a context held before, it gives the digest of every message that it
is started for. -/
theorem digests_eq {ctx : Sha1Context} (size : ctx.buffer.length = 64)
    (messages : List (List Bytes)) (counted : ∀ pieces ∈ messages, Counted pieces) :
    digests ctx messages = .ok (messages.map fun pieces => Hash.sha1 pieces.flatten) := by
  induction messages generalizing ctx with
  | nil => rfl
  | cons pieces others ih =>
      obtain ⟨last, brought, hashing, -⟩ :=
        updates_eq (hashing_start size) (counted pieces List.mem_cons_self)
      obtain ⟨final, finished, size', -⟩ := sha1Finish_eq hashing
      have rest := ih size' fun other member => counted other (List.mem_cons_of_mem _ member)
      rw [digests, brought, Exec.ok_bind, finished, Exec.ok_bind]
      dsimp only
      rw [rest, Exec.ok_bind]
      rfl

def cleared : Sha1Context where
  total0 := 0
  total1 := 0
  state := ⟨0, 0, 0, 0, 0⟩
  buffer := List.replicate 64 0
  ipad := List.replicate 64 0
  opad := List.replicate 64 0

/-- Two messages, `abc` in two pieces and the empty one. -/
theorem digests_eq_two :
    digests cleared [[[97], [98, 99]], []] = .ok [Hash.sha1 [97, 98, 99], Hash.sha1 []] :=
  digests_eq (List.length_replicate ..) [[[97], [98, 99]], []] (by simp [Counted])

/-- `sha1` gives the digest of its input. -/
theorem sha1_eq {stack : Sha1Context} (size : stack.buffer.length = 64) {input : Bytes}
    (counted : input.length < 4294967296) :
    sha1 stack input input.length = .ok (Hash.sha1 input) := by
  obtain ⟨last, brought, hashing, -⟩ := sha1Update_eq (hashing_start size) [] counted
  obtain ⟨final, finished, -⟩ := sha1Finish_eq hashing
  rw [List.append_nil] at brought
  rw [List.nil_append] at finished
  rw [sha1, brought, Exec.ok_bind, finished]
  rfl

/-! ## Keyed digests -/

/-- Every message is brought in its pieces and finished, and the context is reset. -/
def keyedDigests (ctx : Sha1Context) : List (List Bytes) → Exec (List Bytes)
  | [] => .ok []
  | pieces :: others => do
      let ctx ← pieces.foldlM (fun ctx piece => sha1HmacUpdate ctx piece piece.length) ctx
      let (output, ctx) ← sha1HmacFinish ctx
      let ctx ← sha1HmacReset ctx
      let outputs ← keyedDigests ctx others
      return output :: outputs

/-- The loop xors the key into the front of both pads. -/
theorem padLoop_eq (front rest inner outer : Bytes) (extra : Nat) (p q : UInt8)
    (inner_length : inner.length = front.length) (outer_length : outer.length = front.length) :
    padLoop (front ++ rest) rest.length front.length
        (inner ++ List.replicate (rest.length + extra) p)
        (outer ++ List.replicate (rest.length + extra) q) =
      .ok (inner ++ (rest.map (p ^^^ ·) ++ List.replicate extra p),
        outer ++ (rest.map (q ^^^ ·) ++ List.replicate extra q)) := by
  induction rest generalizing front inner outer with
  | nil => simp [padLoop]
  | cons byte rest ih =>
      have next := ih (front ++ [byte]) (inner ++ [p ^^^ byte]) (outer ++ [q ^^^ byte])
        (by simp [inner_length]) (by simp [outer_length])
      have more : rest.length + 1 + extra = (rest.length + extra) + 1 := Nat.add_right_comm _ _ _
      rw [List.length_cons, more, List.replicate_succ, List.replicate_succ, padLoop,
        readByte_append, Exec.ok_bind, ← inner_length, readByte_append, Exec.ok_bind,
        writeByte_append, Exec.ok_bind, inner_length, ← outer_length, readByte_append, Exec.ok_bind,
        writeByte_append, Exec.ok_bind, outer_length]
      simpa using next

/-- The pads of a key. -/
structure Keyed (key : Bytes) (ctx : Sha1Context) : Prop where
  ipad : ctx.ipad = (blockKey key).map (0x36 ^^^ ·)
  opad : ctx.opad = (blockKey key).map (0x5C ^^^ ·)
  size : ctx.buffer.length = 64

/-- The context that a message starts from: the inner pad is hashed. -/
structure Ready (key : Bytes) (ctx : Sha1Context) : Prop where
  keyed : Keyed key ctx
  hashing : Hashing ctx.ipad ctx

theorem Keyed.pads {key : Bytes} {ctx ctx' : Sha1Context} (keyed : Keyed key ctx)
    (pads : SamePads ctx ctx') (size : ctx'.buffer.length = 64) : Keyed key ctx' where
  ipad := pads.1.trans keyed.ipad
  opad := pads.2.trans keyed.opad
  size := size

theorem length_pad (key : Bytes) (p : UInt8) : ((blockKey key).map (p ^^^ ·)).length = 64 := by
  rw [List.length_map, length_blockKey]

/-- A reset gets a context ready. -/
theorem sha1HmacReset_eq {key : Bytes} {ctx : Sha1Context} (keyed : Keyed key ctx) :
    ∃ ctx', sha1HmacReset ctx = .ok ctx' ∧ Ready key ctx' := by
  have width : ctx.ipad.length = 64 := by rw [keyed.ipad, length_pad]
  obtain ⟨next, update, hashing, pads⟩ := sha1Update_eq (hashing_start keyed.size) []
    (show ctx.ipad.length < 4294967296 by omega)
  rw [List.append_nil, width] at update
  rw [List.nil_append] at hashing
  refine ⟨next, update, keyed.pads pads hashing.size, ?_⟩
  rw [pads.1]
  exact hashing

/-- The key with zeros up to the end of a block, xored into the pads. -/
theorem padLoop_key {key : Bytes} (short : key.length ≤ 64) (p q : UInt8) :
    padLoop key key.length 0 (List.replicate 64 p) (List.replicate 64 q) =
      .ok ((key ++ List.replicate (64 - key.length) 0).map (p ^^^ ·),
        (key ++ List.replicate (64 - key.length) 0).map (q ^^^ ·)) := by
  have loop := padLoop_eq [] key [] [] (64 - key.length) p q rfl rfl
  rw [Nat.add_sub_cancel' short] at loop
  simpa only [List.nil_append, List.length_nil, List.map_append, List.map_replicate,
    UInt8.xor_zero] using loop

theorem sha1HmacStarts_eq {stack ctx : Sha1Context} (stackSize : stack.buffer.length = 64)
    (size : ctx.buffer.length = 64) {key : Bytes} (counted : key.length < 4294967296) :
    ∃ ctx', sha1HmacStarts stack ctx key key.length = .ok ctx' ∧ Ready key ctx' := by
  have finish (blocked : Bytes) (whole : blocked ++ List.replicate (64 - blocked.length) 0 =
      blockKey key) (short : blocked.length ≤ 64) :
      ∃ ctx', (padLoop blocked blocked.length 0 (List.replicate 64 0x36)
        (List.replicate 64 0x5C) >>= fun pads =>
          sha1HmacReset { ctx with ipad := pads.1, opad := pads.2 }) = .ok ctx' ∧
        Ready key ctx' := by
    rw [padLoop_key short, whole, Exec.ok_bind]
    exact sha1HmacReset_eq ⟨rfl, rfl, size⟩
  rw [sha1HmacStarts]
  by_cases long : 64 < key.length
  · have digest := length_sha1 key
    obtain ⟨ctx', run, ready⟩ := finish (Hash.sha1 key)
      (by unfold blockKey; dsimp only; rw [if_pos long]) (by omega)
    refine ⟨ctx', ?_, ready⟩
    rw [digest] at run
    rw [if_pos long, sha1_eq stackSize counted, Exec.ok_bind, Exec.pure_bind]
    dsimp only
    exact run
  · obtain ⟨ctx', run, ready⟩ := finish key
      (by unfold blockKey; dsimp only; rw [if_neg long]) (by omega)
    refine ⟨ctx', ?_, ready⟩
    rw [if_neg long]
    exact run

/-- `sha1_hmac_finish` gives the keyed digest of what was hashed behind the pad. -/
theorem sha1HmacFinish_eq {key message : Bytes} {ctx : Sha1Context} (keyed : Keyed key ctx)
    (hashing : Hashing (ctx.ipad ++ message) ctx) :
    ∃ ctx', sha1HmacFinish ctx = .ok (hmac key message, ctx') ∧ Keyed key ctx' := by
  obtain ⟨inner, finished, size, pads⟩ := sha1Finish_eq hashing
  have keyedInner := keyed.pads pads size
  have width : inner.opad.length = 64 := by rw [keyedInner.opad, length_pad]
  have digest := length_sha1 (ctx.ipad ++ message)
  obtain ⟨padded, update, hashingPad, pads⟩ := sha1Update_eq (hashing_start size) []
    (show inner.opad.length < 4294967296 by omega)
  have keyedPadded : Keyed key padded := keyedInner.pads pads hashingPad.size
  obtain ⟨whole, update', hashingWhole, pads⟩ := sha1Update_eq hashingPad []
    (show (Hash.sha1 (ctx.ipad ++ message)).length < 4294967296 by omega)
  have keyedWhole : Keyed key whole := keyedPadded.pads pads hashingWhole.size
  obtain ⟨final, finished', size', pads⟩ := sha1Finish_eq hashingWhole
  rw [List.append_nil, width] at update
  rw [List.append_nil, digest] at update'
  refine ⟨final, ?_, keyedWhole.pads pads size'⟩
  rw [sha1HmacFinish, finished, Exec.ok_bind]
  dsimp only
  have same : (sha1Starts inner).opad = inner.opad := rfl
  rw [same, update, Exec.ok_bind, update', Exec.ok_bind, finished', hmac, ← keyed.ipad,
    ← keyedInner.opad, List.nil_append]

/-- Between two resets a context gives the keyed digest of every message. -/
theorem keyedDigests_ready {key : Bytes} {ctx : Sha1Context} (ready : Ready key ctx)
    {messages : List (List Bytes)} (counted : ∀ pieces ∈ messages, Counted pieces) :
    keyedDigests ctx messages = .ok (messages.map fun pieces => hmac key pieces.flatten) := by
  induction messages generalizing ctx with
  | nil => rfl
  | cons pieces others ih =>
      obtain ⟨keyed, hashing⟩ := ready
      obtain ⟨last, brought, hashing', pads⟩ :=
        updates_eq hashing (counted pieces List.mem_cons_self)
      rw [← pads.1] at hashing'
      obtain ⟨final, finished, keyed'⟩ :=
        sha1HmacFinish_eq (keyed.pads pads hashing'.size) hashing'
      obtain ⟨next, reset, ready'⟩ := sha1HmacReset_eq keyed'
      have rest := ih ready' fun other member => counted other (List.mem_cons_of_mem _ member)
      rw [updates] at brought
      rw [keyedDigests]
      unfold sha1HmacUpdate
      rw [brought, Exec.ok_bind, finished, Exec.ok_bind]
      dsimp only
      rw [reset, Exec.ok_bind, rest, Exec.ok_bind]
      rfl

theorem keyedDigests_eq {stack ctx : Sha1Context} (stackSize : stack.buffer.length = 64)
    (size : ctx.buffer.length = 64) {key : Bytes} (keyCounted : key.length < 4294967296)
    (messages : List (List Bytes)) (counted : ∀ pieces ∈ messages, Counted pieces) :
    (sha1HmacStarts stack ctx key key.length >>= fun ctx => keyedDigests ctx messages) =
      .ok (messages.map fun pieces => hmac key pieces.flatten) := by
  obtain ⟨ctx', started, ready⟩ := sha1HmacStarts_eq stackSize size keyCounted
  rw [started, Exec.ok_bind]
  exact keyedDigests_ready ready counted

/-- Two messages with the key `Jefe`. -/
theorem keyedDigests_eq_two :
    (sha1HmacStarts cleared cleared [74, 101, 102, 101] 4 >>= fun ctx =>
      keyedDigests ctx [[[97], [98, 99]], []]) =
        .ok [hmac [74, 101, 102, 101] [97, 98, 99], hmac [74, 101, 102, 101] []] :=
  keyedDigests_eq (List.length_replicate ..) (List.length_replicate ..) (by decide)
    [[[97], [98, 99]], []] (by simp [Counted])

/-- `sha1_hmac` gives the keyed digest of its input. -/
theorem sha1Hmac_eq {inner stack : Sha1Context} (innerSize : inner.buffer.length = 64)
    (size : stack.buffer.length = 64) {key input : Bytes} (keyCounted : key.length < 4294967296)
    (counted : input.length < 4294967296) :
    sha1Hmac inner stack key key.length input input.length = .ok (hmac key input) := by
  obtain ⟨ctx, started, keyed, hashing⟩ := sha1HmacStarts_eq innerSize size keyCounted
  obtain ⟨last, update, hashing', pads⟩ := sha1Update_eq hashing [] counted
  rw [← pads.1] at hashing'
  obtain ⟨final, finished, -⟩ := sha1HmacFinish_eq (keyed.pads pads hashing'.size) hashing'
  rw [List.append_nil] at update
  rw [sha1Hmac, started, Exec.ok_bind, sha1HmacUpdate, update, Exec.ok_bind, finished]
  rfl

end M2Handler.Sha1
