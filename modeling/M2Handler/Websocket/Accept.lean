import M2Handler.Sha1.Runs
import M2Handler.Websocket.Handshake

/-!
# The accept value with the repository's own SHA-1

The library hashes the key with `sha1.c`.  What that computes is SHA-1 whatever was
on the stack, so the value of `Sec-WebSocket-Accept` is the one that a client checks.
-/

namespace M2Handler.Websocket

open Machine Text Bstr Handler

/-- The hash function of the library is that of `sha1.c`. -/
def OwnSha1 (libraries : Libraries) : Prop :=
  ∀ stack : Sha1.Sha1Context, stack.buffer.length = 64 → ∀ input : Bytes,
    input.length < 2147483648 →
      Sha1.sha1 stack input input.length = .ok (libraries.sha1 input)

theorem sha1_of_own {libraries : Libraries} (own : OwnSha1 libraries) {input : Bytes}
    (short : input.length < 2147483648) : libraries.sha1 input = Hash.sha1 input := by
  have computed := own Sha1.cleared (List.length_replicate ..) input short
  rw [Sha1.sha1_eq (List.length_replicate ..) (by omega)] at computed
  exact (Except.ok.inj computed).symm

/-- A key is answered with the Base64 text of the SHA-1 digest of the key and the
GUID. -/
theorem own_accept_is_rfc {libraries : Libraries} (own : OwnSha1 libraries)
    {req : Mongrel2Request} (ptr : Option Bstring) {key : Bytes} (maps : MapsKey libraries req key)
    (nulFree : Absent 0 key) (fits : key.length + 36 < 2147483647) :
    ∃ accept headers after,
      accept.data = base64 (Hash.sha1 (key ++ websocket08Guid)) ∧
      mongrel2WsCalculateAccept libraries req ptr = .ok (0, some accept, after) ∧
      headers.data = upgradeHead ++ base64 (Hash.sha1 (key ++ websocket08Guid)) ++
        [13, 10, 13, 10] ∧
      mongrel2WsUpgradeHeaders libraries req = .ok (some headers, after) := by
  have found := keyOf_of_mapsKey libraries maps nulFree
  have guid : websocket08Guid.length = 36 := by decide
  have digest : libraries.sha1 (key ++ websocket08Guid) = Hash.sha1 (key ++ websocket08Guid) :=
    sha1_of_own own (by rw [List.length_append, guid]; omega)
  obtain ⟨accept, -, bytes, accepted⟩ := calculateAccept_eq found ptr fits
  obtain ⟨headers, -, text, answered⟩ := upgradeHeaders_eq found fits
  rw [acceptOf, digest] at bytes
  rw [upgradeText, acceptOf, digest] at text
  exact ⟨accept, headers, _, bytes, accepted, text, answered⟩

/-- The library with SHA-1, and no JSON. -/
def ownLibraries : Libraries where
  jsonLoads _ := none
  sha1 := Hash.sha1
  length_sha1 := Hash.length_sha1

/-- The sample handshake of RFC 6455. -/
theorem own_accept_is_rfc_sample :
    ∃ accept headers after, accept.data = asciiBytes "s3pPLMBiTxaQ9kYGzzhZRbK+xOo=" ∧
      mongrel2WsCalculateAccept ownLibraries
        (requestWithKey (asciiBytes "dGhlIHNhbXBsZSBub25jZQ==")) none =
          .ok (0, some accept, after) ∧
      mongrel2WsUpgradeHeaders ownLibraries
        (requestWithKey (asciiBytes "dGhlIHNhbXBsZSBub25jZQ==")) = .ok (some headers, after) := by
  obtain ⟨accept, headers, after, bytes, accepted, -, answered⟩ :=
    own_accept_is_rfc (fun stack size input short => Sha1.sha1_eq size (by omega))
      none (mapsKey_requestWithKey ownLibraries (asciiBytes "dGhlIHNhbXBsZSBub25jZQ=="))
      (by decide) (by decide)
  refine ⟨accept, headers, after, ?_, accepted, answered⟩
  rw [bytes]
  decide +kernel

end M2Handler.Websocket
