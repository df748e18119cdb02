import M2Handler.Handler.Response
import M2Handler.Text.Base64
import M2Handler.Websocket.Reply

/-!
# The handshake answer

`bBase64Encode` computes the standard Base64 text of a digest, which is too short
for a line break.  From a key that leaves room for the GUID, the library answers
with the text of its digest; without a key it does not answer.
-/

namespace M2Handler.Websocket

open Machine Text Bstr Handler

/-! ## Base64 -/

section Encoder

variable {out : Bstring} (owned : Owned out)
include owned

theorem bconchars_eq {chars : Bytes} (short : out.data.length + chars.length < 2147483647) :
    Makes (bconchars (some out) chars) (out.data ++ chars) := by
  induction chars generalizing out with
  | nil => exact ⟨out, rfl, owned, (List.append_nil _).symm⟩
  | cons c chars ih =>
      rw [List.length_cons] at short
      obtain ⟨longer, joined, owned', bytes⟩ := bconchar_eq owned c (by omega)
      have rest := ih owned' (by rw [bytes, List.length_append, List.length_singleton]; omega)
      rw [bytes, List.append_assoc] at rest
      rw [bconchars, joined, Exec.ok_bind]
      dsimp only
      rw [if_neg (by decide)]
      exact rest

end Encoder

/-- There is no line break before the index 57. -/
theorem bBase64Break_early (out : Option Bstring) {i : Nat} (early : i < 57) :
    bBase64Break out i = .ok out := by
  rw [bBase64Break, if_neg (by omega)]
  rfl

theorem b64ETable_eq : ∀ value < 64, b64ETable.getD value 0 = base64Char value := by
  decide

/-- The encoder looks up the characters of the group. -/
theorem looked_up (b0 b1 b2 : UInt8) :
    ([b0 >>> 2, ((b0 <<< 4) ||| (b1 >>> 4)) &&& 0x3F, ((b1 <<< 2) ||| (b2 >>> 6)) &&& 0x3F,
      b2 &&& 0x3F].map fun c => b64ETable.getD c.toNat 0) =
      base64Text (sextets (groupOf b0 b1 b2)) := by
  have within := @lt_of_mem_sextets b0 b1 b2
  rw [sextets_groupOf] at within
  rw [sextets_groupOf, base64Text, List.map_map]
  exact List.map_congr_left fun c member =>
    b64ETable_eq c.toNat (within (List.mem_map_of_mem member))

theorem looked_up_two (b0 b1 : UInt8) :
    ([b0 >>> 2, ((b0 <<< 4) ||| (b1 >>> 4)) &&& 0x3F, (b1 <<< 2) &&& 0x3F].map fun c =>
      b64ETable.getD c.toNat 0) = base64Text ((sextets (groupOf b0 b1 0)).take 3) := by
  have nothing : (0 : UInt8) >>> 6 = 0 := by decide
  rw [base64Text, List.map_take, ← base64Text, ← looked_up b0 b1 0, nothing, UInt8.or_zero]
  rfl

theorem looked_up_one (b0 : UInt8) :
    ([b0 >>> 2, (b0 <<< 4) &&& 0x3F].map fun c => b64ETable.getD c.toNat 0) =
      base64Text ((sextets (groupOf b0 0 0)).take 2) := by
  have nothing : (0 : UInt8) >>> 4 = 0 := by decide
  rw [base64Text, List.map_take, ← base64Text, ← looked_up b0 0 0, nothing, UInt8.or_zero]
  rfl

/-- The loop appends the Base64 text. -/
theorem bBase64Loop_eq {data : Bytes} {out : Bstring} {i : Nat} (owned : Owned out)
    (early : i + data.length < 57)
    (short : out.data.length + (base64 data).length < 2147483647) :
    Makes (bBase64Loop (some out) i data) (out.data ++ base64 data) := by
  induction data using base64.induct generalizing out i with
  | case1 b0 b1 b2 rest ih =>
      simp only [List.length_cons] at early
      rw [base64, List.length_append] at short
      have group : Makes (bconchars (some out) (base64Text (sextets (groupOf b0 b1 b2))))
          (out.data ++ base64Text (sextets (groupOf b0 b1 b2))) := bconchars_eq owned (by omega)
      obtain ⟨longer, joined, owned', bytes⟩ := group
      have others := ih (i := i + 3) owned' (by omega)
        (by rw [bytes, List.length_append]; omega)
      rw [bytes, List.append_assoc] at others
      rw [bBase64Loop, bBase64Break_early _ (by omega), Exec.ok_bind]
      dsimp only
      rw [looked_up, joined, Exec.ok_bind]
      exact others
  | case2 b0 b1 =>
      simp only [List.length_cons] at early
      rw [bBase64Loop, bBase64Break_early _ (by omega), Exec.ok_bind]
      dsimp only
      rw [looked_up_two]
      exact bconchars_eq owned short
  | case3 b0 =>
      simp only [List.length_cons] at early
      rw [bBase64Loop, bBase64Break_early _ (by omega), Exec.ok_bind]
      dsimp only
      rw [looked_up_one]
      exact bconchars_eq owned short
  | case4 =>
      rw [bBase64Loop, bBase64Break_early _ (by simpa using early)]
      exact ⟨out, rfl, owned, (List.append_nil _).symm⟩

/-- A digest of less than 57 bytes is encoded without line breaks. -/
theorem bBase64Encode_eq {b : Bstring} (early : b.data.length < 57) :
    Makes (bBase64Encode (some b)) (base64 b.data) := by
  obtain ⟨out, made, owned, empty⟩ := bfromcstr_empty
  have length := length_base64 b.data
  have encoded : Makes (bBase64Loop (some out) 0 b.data) (out.data ++ base64 b.data) :=
    bBase64Loop_eq owned (by omega) (by rw [empty, List.length_nil, length]; omega)
  rw [empty, List.nil_append] at encoded
  rw [bBase64Encode, made, Exec.ok_bind]
  exact encoded

/-! ## The key -/

variable (libraries : Libraries)

/-- The headers that a lookup consults. -/
def headersOf (req : Mongrel2Request) : Option Json :=
  match req.headers with
  | some value => some value
  | none => (bdata req.rawHeaders).bind fun text => libraries.jsonLoads (cString text)

/-- The request after a lookup, which parses the headers when they are not yet
parsed. -/
def withHeaders (req : Mongrel2Request) : Mongrel2Request :=
  match req.headers with
  | some _ => req
  | none => (mongrel2ParseHeaders libraries req).2

def keyOf (req : Mongrel2Request) : Option Bytes :=
  jsonStringValue (jsonObjectGet (headersOf libraries req) websocket08Key)

/-- A lookup copies the string under the key. -/
theorem getHeader_eq (req : Mongrel2Request) (key : Bytes) :
    mongrel2RequestGetHeader libraries req key =
      (bfromcstr (jsonStringValue (jsonObjectGet (headersOf libraries req) key)) >>= fun retval =>
        .ok (retval, withHeaders libraries req)) := by
  unfold mongrel2RequestGetHeader headersOf withHeaders
  cases parsed : req.headers with
  | some value =>
      dsimp only
      rw [if_neg (by simp), parsed]
      rfl
  | none =>
      unfold mongrel2ParseHeaders
      cases (bdata req.rawHeaders).bind fun text => libraries.jsonLoads (cString text) with
      | none => rfl
      | some value => cases value <;> rfl

/-- `HTTP/1.1 101 Switching Protocols` with this value of `Sec-WebSocket-Accept`. -/
def upgradeText (accept : Bytes) : Bytes := upgradeHead ++ accept ++ [13, 10, 13, 10]

def acceptOf (key : Bytes) : Bytes := base64 (libraries.sha1 (key ++ websocket08Guid))

theorem length_acceptOf (key : Bytes) : (acceptOf libraries key).length = 28 := by
  rw [acceptOf, length_base64, libraries.length_sha1]

section Answer

variable {libraries} {req : Mongrel2Request} {key : Bytes} (found : keyOf libraries req = some key)
include found

/-- A key with room for the GUID is answered. -/
theorem calculateAccept_eq (ptr : Option Bstring) (fits : key.length + 36 < 2147483647) :
    ∃ accept, Owned accept ∧ accept.data = acceptOf libraries key ∧
      mongrel2WsCalculateAccept libraries req ptr =
        .ok (0, some accept, withHeaders libraries req) := by
  have guid : websocket08Guid.length = 36 := by decide
  have digest := libraries.length_sha1 (key ++ websocket08Guid)
  obtain ⟨copy, copied, copyOwned, copyBytes⟩ := bfromcstr_eq key (by omega)
  obtain ⟨joined, appended, _, joinedBytes⟩ := bcatcstr_eq copyOwned websocket08Guid
    (by rw [copyBytes, guid]; exact fits)
  obtain ⟨buffer, stored, _, bufferBytes⟩ := blk2bstr_eq (libraries.sha1 (key ++ websocket08Guid))
    sha1Len (by decide) (by decide) (by rw [digest]; decide)
  have whole : buffer.data = libraries.sha1 (key ++ websocket08Guid) := by
    rw [bufferBytes, List.take_of_length_le (by rw [digest]; decide)]
  obtain ⟨accept, encoded, owned, bytes⟩ :=
    bBase64Encode_eq (b := buffer) (by rw [whole, digest]; decide)
  refine ⟨accept, owned, by rw [bytes, whole, acceptOf], ?_⟩
  rw [keyOf] at found
  rw [mongrel2WsCalculateAccept, getHeader_eq, found, copied, Exec.ok_bind, Exec.ok_bind]
  dsimp only
  rw [if_neg (by simp), appended, Exec.ok_bind]
  dsimp only
  rw [if_neg (by simp), bdata, joinedBytes, copyBytes, Option.getD_some, stored, Exec.ok_bind,
    encoded, Exec.ok_bind]
  rfl

/-- The headers carry the value for the key. -/
theorem upgradeHeaders_eq (fits : key.length + 36 < 2147483647) :
    ∃ headers, Owned headers ∧ headers.data = upgradeText (acceptOf libraries key) ∧
      mongrel2WsUpgradeHeaders libraries req = .ok (some headers, withHeaders libraries req) := by
  obtain ⟨start, started, -, -⟩ := bfromcstr_empty
  obtain ⟨accept, -, bytes, accepted⟩ := calculateAccept_eq found (some start) fits
  have length := length_acceptOf libraries key
  have text : cString (acceptOf libraries key) = acceptOf libraries key :=
    cString_eq (absent_base64 _ (by decide))
  have width : blength (some accept) = (28 : Nat) := by
    rw [blength, Bstring.slen, bytes, length]
  have padded : padLeft (blength (some accept)) (acceptOf libraries key) =
      acceptOf libraries key := by
    rw [padLeft, width, Int.toNat_natCast, length, Nat.sub_self]
    rfl
  have nulFree : Absent 0 (upgradeText (acceptOf libraries key)) := by
    have fixed : Absent 0 upgradeHead := by decide
    have last : Absent 0 [13, 10, 13, 10] := by decide
    intro byte member
    rcases List.mem_append.mp member with front | back
    · rcases List.mem_append.mp front with head | value
      · exact fixed byte head
      · exact absent_base64 _ (by decide) byte value
    · exact last byte back
  have size : upgradeHead.length = 97 := by decide
  obtain ⟨headers, formatted, owned, headersBytes⟩ := bformat_eq nulFree websocket08Upgrade
    (by decide) (by
      unfold upgradeText
      simp only [List.length_append, length, size, List.length_cons, List.length_nil]
      omega)
  refine ⟨headers, owned, headersBytes, ?_⟩
  rw [upgradeText] at formatted
  rw [mongrel2WsUpgradeHeaders, started, Exec.ok_bind, accepted, Exec.ok_bind]
  dsimp only
  rw [if_neg (by simp)]
  have data : bdata (some accept) = some (acceptOf libraries key) := congrArg some bytes
  rw [data, deref_some, Exec.ok_bind, text, padded, formatted]
  rfl

end Answer

/-! ## Keys without an answer -/

/-- The length of the key wraps in `bfromcstr`, which allocates less than it
copies. -/
def KeyWraps (key : Bytes) : Prop :=
  2147483647 ≤ key.length ∧ toInt key.length < blockSize key.length

/-- There is no key, or no string of bstrlib holds it with the GUID. -/
def KeyRefused : Option Bytes → Prop
  | none => True
  | some key => 2147483647 ≤ key.length + 36 ∧ ¬ KeyWraps key

section NoAnswer

variable {libraries} {req : Mongrel2Request}

theorem calculateAccept_refuses (ptr : Option Bstring)
    (refused : KeyRefused (keyOf libraries req)) :
    mongrel2WsCalculateAccept libraries req ptr = .ok (-1, ptr, withHeaders libraries req) := by
  have absent (nothing : bfromcstr (keyOf libraries req) = .ok none) :
      mongrel2WsCalculateAccept libraries req ptr = .ok (-1, ptr, withHeaders libraries req) := by
    rw [keyOf] at nothing
    rw [mongrel2WsCalculateAccept, getHeader_eq, nothing, Exec.ok_bind, Exec.ok_bind]
    rfl
  cases found : keyOf libraries req with
  | none => exact absent (by rw [found]; rfl)
  | some key =>
      rw [found] at refused
      obtain ⟨long, fits⟩ := refused
      by_cases copied : key.length < 2147483647
      · obtain ⟨copy, made, owned, bytes⟩ := bfromcstr_eq key copied
        have guid : websocket08Guid.length = 36 := by decide
        obtain ⟨rest, failed⟩ := bcatcstr_refuses owned websocket08Guid (by rw [guid]; decide)
          (by rw [bytes, guid]; exact long)
        rw [keyOf] at found
        rw [mongrel2WsCalculateAccept, getHeader_eq, found, made, Exec.ok_bind, Exec.ok_bind]
        dsimp only
        rw [if_neg (by simp), failed, Exec.ok_bind]
        rfl
      · refine absent ?_
        rw [found, bfromcstr_long key (by omega), if_pos]
        exact not_lt.mp fun wraps => fits ⟨by omega, wraps⟩

theorem upgradeHeaders_refuses (refused : KeyRefused (keyOf libraries req)) :
    mongrel2WsUpgradeHeaders libraries req = .ok (none, withHeaders libraries req) := by
  obtain ⟨start, started, -, -⟩ := bfromcstr_empty
  rw [mongrel2WsUpgradeHeaders, started, Exec.ok_bind, calculateAccept_refuses _ refused,
    Exec.ok_bind]
  rfl

theorem upgradeHeaders_overruns {key : Bytes} (found : keyOf libraries req = some key)
    (wraps : KeyWraps key) : mongrel2WsUpgradeHeaders libraries req = .error .outOfBounds := by
  obtain ⟨long, less⟩ := wraps
  have overrun : bfromcstr (some key) = .error .outOfBounds := by
    rw [bfromcstr_long key long, if_neg (not_le.mpr less)]
  obtain ⟨start, started, -, -⟩ := bfromcstr_empty
  rw [keyOf] at found
  rw [mongrel2WsUpgradeHeaders, started, Exec.ok_bind, mongrel2WsCalculateAccept, getHeader_eq,
    found, overrun]
  rfl

end NoAnswer

/-! ## The answer of RFC 6455 -/

/-- The headers of a request map `sec-websocket-key` to this string. -/
def MapsKey (libraries : Libraries) (req : Mongrel2Request) (key : Bytes) : Prop :=
  jsonObjectGet (headersOf libraries req) websocket08Key = some (.string key)

theorem keyOf_of_mapsKey {req : Mongrel2Request} {key : Bytes} (maps : MapsKey libraries req key)
    (nulFree : Absent 0 key) : keyOf libraries req = some key := by
  rw [keyOf, maps, jsonStringValue, cString_eq nulFree]

theorem keyOf_eq_none {req : Mongrel2Request} (absent : ∀ key, ¬ MapsKey libraries req key) :
    keyOf libraries req = none := by
  unfold keyOf
  unfold MapsKey at absent
  cases value : jsonObjectGet (headersOf libraries req) websocket08Key with
  | none => rfl
  | some member =>
      cases member with
      | string key => exact absurd value (absent key)
      | _ => rfl

/-- Every key that leaves room for the GUID is answered as RFC 6455 says; without
a key there is no answer. -/
theorem handshake_is_rfc (req : Mongrel2Request) (ptr : Option Bstring) :
    (∀ key, MapsKey libraries req key → Absent 0 key → key.length + 36 < 2147483647 →
      ∃ accept headers after, accept.data = base64 (libraries.sha1 (key ++ websocket08Guid)) ∧
        accept.data.length = 28 ∧ Absent 13 accept.data ∧ Absent 10 accept.data ∧
        mongrel2WsCalculateAccept libraries req ptr = .ok (0, some accept, after) ∧
        headers.data = upgradeHead ++ accept.data ++ [13, 10, 13, 10] ∧
        mongrel2WsUpgradeHeaders libraries req = .ok (some headers, after)) ∧
    ((∀ key, ¬ MapsKey libraries req key) →
      ∃ after, mongrel2WsCalculateAccept libraries req ptr = .ok (-1, ptr, after) ∧
        mongrel2WsUpgradeHeaders libraries req = .ok (none, after)) := by
  constructor
  · intro key maps nulFree fits
    have found := keyOf_of_mapsKey libraries maps nulFree
    obtain ⟨accept, -, bytes, accepted⟩ := calculateAccept_eq found ptr fits
    obtain ⟨headers, -, text, answered⟩ := upgradeHeaders_eq found fits
    refine ⟨accept, headers, _, bytes, ?_, ?_, ?_, accepted, ?_, answered⟩
    · rw [bytes, length_acceptOf]
    · rw [bytes]
      exact absent_base64 _ (by decide)
    · rw [bytes]
      exact absent_base64 _ (by decide)
    · rw [text, bytes, upgradeText]
  · intro absent
    have refused : KeyRefused (keyOf libraries req) := by
      rw [keyOf_eq_none libraries absent]
      trivial
    exact ⟨_, calculateAccept_refuses ptr refused, upgradeHeaders_refuses refused⟩

def requestWithKey (key : Bytes) : Mongrel2Request :=
  { requestSeven with headers := some (.object [(websocket08Key, .string key)]) }

theorem mapsKey_requestWithKey (key : Bytes) : MapsKey libraries (requestWithKey key) key :=
  rfl

def sampleLibraries : Libraries where
  jsonLoads _ := none
  sha1 _ := [0xb3, 0x7a, 0x4f, 0x2c, 0xc0, 0x62, 0x4f, 0x16, 0x90, 0xf6, 0x46, 0x06, 0xcf, 0x38,
    0x59, 0x45, 0xb2, 0xbe, 0xc4, 0xea]
  length_sha1 _ := rfl

/-- The answer to the key `dGhlIHNhbXBsZSBub25jZQ==`. -/
theorem handshake_is_rfc_sample :
    ∃ accept headers after, accept.data = asciiBytes "s3pPLMBiTxaQ9kYGzzhZRbK+xOo=" ∧
      mongrel2WsCalculateAccept sampleLibraries
        (requestWithKey (asciiBytes "dGhlIHNhbXBsZSBub25jZQ==")) none =
          .ok (0, some accept, after) ∧
      mongrel2WsUpgradeHeaders sampleLibraries
        (requestWithKey (asciiBytes "dGhlIHNhbXBsZSBub25jZQ==")) = .ok (some headers, after) := by
  obtain ⟨accept, headers, after, bytes, -, -, -, accepted, -, answered⟩ :=
    (handshake_is_rfc sampleLibraries (requestWithKey (asciiBytes "dGhlIHNhbXBsZSBub25jZQ=="))
      none).1 _ (mapsKey_requestWithKey _ _) (by decide) (by decide)
  refine ⟨accept, headers, after, ?_, accepted, answered⟩
  rw [bytes]
  decide

def longestKey : Bytes := List.replicate 2147483611 97

/-- That key is not answered. -/
theorem handshake_refuses_longest :
    longestKey.length + 36 = 2147483647 ∧ Absent 0 longestKey ∧
      MapsKey sampleLibraries (requestWithKey longestKey) longestKey ∧
      mongrel2WsCalculateAccept sampleLibraries (requestWithKey longestKey) none =
        .ok (-1, none, requestWithKey longestKey) ∧
      mongrel2WsUpgradeHeaders sampleLibraries (requestWithKey longestKey) =
        .ok (none, requestWithKey longestKey) := by
  have length : longestKey.length = 2147483611 := List.length_replicate
  have nulFree : Absent 0 longestKey := by
    intro byte member
    rw [List.eq_of_mem_replicate member]
    decide
  have maps := mapsKey_requestWithKey sampleLibraries longestKey
  have refused : KeyRefused (keyOf sampleLibraries (requestWithKey longestKey)) := by
    rw [keyOf_of_mapsKey sampleLibraries maps nulFree, KeyRefused, length]
    exact ⟨by decide, fun wraps => absurd wraps.1 (by rw [length]; decide)⟩
  refine ⟨by rw [length], nulFree, maps, ?_, ?_⟩
  · exact calculateAccept_refuses none refused
  · exact upgradeHeaders_refuses refused

end M2Handler.Websocket
