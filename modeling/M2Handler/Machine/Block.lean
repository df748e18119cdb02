import M2Handler.Machine.ByteOrder
import M2Handler.Machine.Integer

/-!
# Blocks of memory

A block is the list of its bytes.  Every access names an index relative to the
start of the block, and an access to a byte that the block does not have is a
fault.  The lemmas describe an access to the middle part of a block that is
given as three parts one after the other.
-/

namespace M2Handler.Machine

def readByte (block : Bytes) (index : Int) : Exec UInt8 :=
  if index < 0 then .error .outOfBounds
  else
    match block[index.toNat]? with
    | some byte => .ok byte
    | none => .error .outOfBounds

def writeByte (block : Bytes) (index : Int) (byte : UInt8) : Exec Bytes :=
  if 0 ≤ index ∧ index.toNat < block.length then .ok (block.set index.toNat byte)
  else .error .outOfBounds

def readBlock (block : Bytes) (index : Int) (count : Nat) : Exec Bytes :=
  if count = 0 then .ok []
  else if 0 ≤ index ∧ index.toNat + count ≤ block.length then
    .ok ((block.drop index.toNat).take count)
  else .error .outOfBounds

def writeBlock (block : Bytes) (index : Int) (source : Bytes) : Exec Bytes :=
  if source.length = 0 then .ok block
  else if 0 ≤ index ∧ index.toNat + source.length ≤ block.length then
    .ok (block.take index.toNat ++ source ++ block.drop (index.toNat + source.length))
  else .error .outOfBounds

def orByte (block : Bytes) (index : Int) (bits : UInt8) : Exec Bytes := do
  let byte ← readByte block index
  writeByte block index (byte ||| bits)

/-- The loop `for (int i = index; count > 0; i++, count--)` of the body
`block[start+i] = block[start+i] ^ mask[i%4]`. -/
def xorLoop (mask : Bytes) (start : Int) : (count index : Nat) → Bytes → Exec Bytes
  | 0, _, block => .ok block
  | count + 1, index, block => do
      let byte ← readByte block (start + index)
      let octet ← readByte mask (index % 4)
      let block ← writeByte block (start + index) (byte ^^^ octet)
      if (index : Int) = intMax then .error .signedOverflow
      else xorLoop mask start count (index + 1) block

/-- A read that is not empty stays inside the block or faults. -/
theorem readBlock_at (block : Bytes) (index : Nat) {count : Nat} (positive : 0 < count) :
    readBlock block index count =
      if index + count ≤ block.length then .ok ((block.drop index).take count)
      else .error .outOfBounds := by
  have place : (index : Int).toNat = index := Int.toNat_natCast _
  rw [readBlock, if_neg (by omega), place]
  by_cases inside : index + count ≤ block.length
  · rw [if_pos ⟨by omega, inside⟩, if_pos inside]
  · rw [if_neg (by omega), if_neg inside]

theorem writeBlock_outside {block source : Bytes} {index : Nat} (positive : 0 < source.length)
    (long : block.length < index + source.length) :
    writeBlock block index source = .error .outOfBounds := by
  have place : (index : Int).toNat = index := Int.toNat_natCast _
  rw [writeBlock, if_neg (by omega), place, if_neg (by omega)]

section Parts

variable (before middle after : Bytes)

theorem readByte_append (byte : UInt8) :
    readByte (before ++ byte :: after) (before.length : Int) = .ok byte := by
  have notNegative : ¬ (before.length : Int) < 0 := by omega
  rw [readByte, if_neg notNegative]
  simp

theorem writeByte_append (byte replacement : UInt8) :
    writeByte (before ++ byte :: after) (before.length : Int) replacement =
      .ok (before ++ replacement :: after) := by
  have inside : 0 ≤ (before.length : Int) ∧
      (before.length : Int).toNat < (before ++ byte :: after).length := by
    simp
  rw [writeByte, if_pos inside]
  simp

theorem orByte_append (byte bits : UInt8) :
    orByte (before ++ byte :: after) (before.length : Int) bits =
      .ok (before ++ (byte ||| bits) :: after) := by
  rw [orByte, readByte_append, Exec.ok_bind, writeByte_append]

theorem readBlock_append :
    readBlock (before ++ middle ++ after) (before.length : Int) middle.length = .ok middle := by
  unfold readBlock
  split
  · rename_i empty
    rw [List.eq_nil_of_length_eq_zero empty]
  · rw [if_pos ⟨by omega, by simp⟩]
    simp

theorem writeBlock_append (replacement : Bytes) (sameLength : replacement.length = middle.length) :
    writeBlock (before ++ middle ++ after) (before.length : Int) replacement =
      .ok (before ++ replacement ++ after) := by
  unfold writeBlock
  split
  · rename_i empty
    rw [empty] at sameLength
    rw [List.eq_nil_of_length_eq_zero empty, List.eq_nil_of_length_eq_zero sameLength.symm]
  · rw [if_pos ⟨by omega, by simp [sameLength]⟩]
    simp [sameLength]

end Parts

/-- The bytes of `data`, xored with the four octets of `mask` in turn from the
octet numbered `index`. -/
def xorFrom (mask : Bytes) : Nat → Bytes → Bytes
  | _, [] => []
  | index, byte :: rest => (byte ^^^ mask.getD (index % 4) 0) :: xorFrom mask (index + 1) rest

@[simp] theorem length_xorFrom (mask : Bytes) (index : Nat) (data : Bytes) :
    (xorFrom mask index data).length = data.length := by
  induction data generalizing index with
  | nil => rfl
  | cons byte rest ih => simp [xorFrom, ih]

theorem getElem?_xorFrom (mask : Bytes) (index : Nat) (data : Bytes) (i : Nat) :
    (xorFrom mask index data)[i]? =
      data[i]?.map fun byte => byte ^^^ mask.getD ((index + i) % 4) 0 := by
  induction data generalizing index i with
  | nil => rfl
  | cons byte rest ih =>
      cases i with
      | zero => rfl
      | succ i =>
          rw [xorFrom, List.getElem?_cons_succ, List.getElem?_cons_succ, ih,
            show index + 1 + i = index + (i + 1) by omega]

/-- Xoring twice with the same octets gives the data back. -/
theorem xorFrom_xorFrom (mask : Bytes) (index : Nat) (data : Bytes) :
    xorFrom mask index (xorFrom mask index data) = data := by
  induction data generalizing index with
  | nil => rfl
  | cons byte rest ih =>
      rw [xorFrom, xorFrom, ih, UInt8.xor_assoc, UInt8.xor_self, UInt8.xor_zero]

def xorPrefix (mask : Bytes) (count : Nat) (data : Bytes) : Bytes :=
  xorFrom mask 0 (data.take count) ++ data.drop count

@[simp] theorem length_xorPrefix (mask : Bytes) (count : Nat) (data : Bytes) :
    (xorPrefix mask count data).length = data.length := by
  simp only [xorPrefix, List.length_append, length_xorFrom, List.length_take, List.length_drop]
  omega

theorem xorPrefix_all (mask : Bytes) {count : Nat} {data : Bytes} (all : count = data.length) :
    xorPrefix mask count data = xorFrom mask 0 data := by
  simp [xorPrefix, all]

theorem xorPrefix_xorPrefix (mask : Bytes) {count : Nat} {data : Bytes}
    (inside : count ≤ data.length) :
    xorPrefix mask count (xorPrefix mask count data) = data := by
  have width : (xorFrom mask 0 (data.take count)).length = count := by
    rw [length_xorFrom, List.length_take]
    omega
  have front : (xorPrefix mask count data).take count = xorFrom mask 0 (data.take count) := by
    rw [xorPrefix, List.take_left' width]
  have back : (xorPrefix mask count data).drop count = data.drop count := by
    rw [xorPrefix, List.drop_left' width]
  rw [xorPrefix, front, back, xorFrom_xorFrom, List.take_append_drop]

/-- The octet that the loop reads from a mask of four octets. -/
theorem readByte_mask {mask : Bytes} (octets : mask.length = 4) (index : Nat) :
    readByte mask ((index : Int) % 4) = .ok (mask.getD (index % 4) 0) := by
  have small : index % 4 < mask.length := by omega
  have cast : ((index : Int) % 4).toNat = index % 4 := by omega
  rw [readByte, if_neg (by omega), cast, List.getD_eq_getElem?_getD,
    List.getElem?_eq_getElem small]
  rfl

/-- The loop rewrites exactly the range it is given. -/
theorem xorLoop_append {mask : Bytes} (octets : mask.length = 4) (start : Int)
    (before data after : Bytes) (index : Nat) (position : start + index = before.length)
    (counted : index + data.length ≤ 2147483647) :
    xorLoop mask start data.length index (before ++ data ++ after) =
      .ok (before ++ xorFrom mask index data ++ after) := by
  induction data generalizing before index with
  | nil => simp [xorLoop, xorFrom]
  | cons byte rest ih =>
      rw [List.length_cons] at counted
      have more : ((index : Int) = intMax) = False := by
        apply eq_false
        unfold intMax
        omega
      have next := ih (before ++ [byte ^^^ mask.getD (index % 4) 0]) (index + 1)
        (by simp; omega) (by omega)
      rw [List.length_cons, xorLoop, position, List.append_assoc, List.cons_append,
        readByte_append, Exec.ok_bind, readByte_mask octets, Exec.ok_bind, writeByte_append,
        Exec.ok_bind, if_neg (by simp [more])]
      simpa [xorFrom, List.append_assoc] using next

/-- The loop leaves the block when it is to rewrite more bytes than are there. -/
theorem xorLoop_overruns {mask : Bytes} (octets : mask.length = 4) (start : Int)
    (before data : Bytes) {count : Nat} (index : Nat) (position : start + index = before.length)
    (more : data.length < count) (counted : index + count ≤ 2147483647) :
    xorLoop mask start count index (before ++ data) = .error .outOfBounds := by
  obtain ⟨count, rfl⟩ : ∃ less, count = less + 1 := ⟨count - 1, by omega⟩
  induction data generalizing before index count with
  | nil =>
      have outside : readByte (before ++ []) (before.length : Int) = .error .outOfBounds := by
        rw [readByte, if_neg (by omega)]
        simp
      rw [xorLoop, position, outside]
      rfl
  | cons byte rest ih =>
      rw [List.length_cons] at more
      obtain ⟨count, rfl⟩ : ∃ less, count = less + 1 := ⟨count - 1, by omega⟩
      have inside : ((index : Int) = intMax) = False := by
        apply eq_false
        unfold intMax
        omega
      have next := ih (before ++ [byte ^^^ mask.getD (index % 4) 0]) (index + 1)
        (by simp; omega) count (by omega) (by omega)
      rw [xorLoop, position, readByte_append, Exec.ok_bind, readByte_mask octets, Exec.ok_bind,
        writeByte_append, Exec.ok_bind, if_neg (by simp [inside])]
      simpa [List.append_assoc] using next

end M2Handler.Machine
