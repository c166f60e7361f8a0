import CxlLock.Cas.GlobalLock

/-!
# Addressing in the shared memory region (`shared_memory.cpp`)

The lock records lie in the mapped region behind `state_offset`.  Every algorithm computes the
offset of a record in 64-bit arithmetic and asks `offset_to_ptr` for the pointer, which looks
at the begin of the record only; nobody looks at the pointer.  `TwoTierLock::initialize` checks
the numbers of nodes and locks and no sizes.  On a region that does not hold the records it
stores behind the region, and succeeds when those bytes are mapped as well, such as the rest of
the last page; a store through a null pointer or to bytes that are not mapped ends the process.

`sizesFit_iff`: a call keeps within the region, or refuses it, exactly when its parameters are
refused anyway or the records fit.
-/

namespace CxlLock

/-- The members of `SharedMemoryRegion` that addressing depends on. -/
structure SharedMemoryRegion where
  valid : Bool
  size : UInt64
  deriving DecidableEq

namespace SharedMemoryRegion

/-- `get_size`. -/
def getSize (shm : SharedMemoryRegion) : UInt64 :=
  if shm.valid then shm.size else 0

/-- `offset_to_ptr`.  A pointer into the mapping is its distance from the base address, the
null pointer is `none`. -/
def offsetToPtr (shm : SharedMemoryRegion) (offset : ShmOffset) : Option ShmOffset :=
  if shm.valid = false then none
  else if offset ≥ shm.size then none
  else some offset

lemma offsetToPtr_of_lt {shm : SharedMemoryRegion} {offset : ShmOffset}
    (h : offset.toNat < shm.getSize.toNat) : shm.offsetToPtr offset = some offset := by
  unfold getSize at h
  split at h
  · rename_i hvalid
    have : ¬ offset ≥ shm.size := by
      rw [ge_iff_le, UInt64.le_iff_toNat_le]
      omega
    simp only [offsetToPtr, hvalid, Bool.true_eq_false, if_false, this]
  · simp at h

end SharedMemoryRegion

/-- Bytes that the code accesses through a pointer: `bytes` of them, `field` bytes behind the
pointer. -/
structure ByteRange where
  ptr : Option ShmOffset
  field : UInt64
  bytes : UInt64

/-- The pointer is not null and the bytes lie in the mapped region. -/
def ByteRange.InBounds (shm : SharedMemoryRegion) (r : ByteRange) : Prop :=
  ∃ p, r.ptr = some p ∧ p.toNat + (r.field.toNat + r.bytes.toNat) ≤ shm.getSize.toNat

instance (shm : SharedMemoryRegion) (r : ByteRange) : Decidable (r.InBounds shm) :=
  match h : r.ptr with
  | none => isFalse fun ⟨p, hp, _⟩ => by rw [h] at hp; cases hp
  | some p => decidable_of_iff (p.toNat + (r.field.toNat + r.bytes.toNat) ≤ shm.getSize.toNat)
      ⟨fun hle => ⟨p, h, hle⟩, fun ⟨q, hq, hle⟩ => by rw [h] at hq; cases hq; exact hle⟩

/-- A store to the bytes comes back: the pointer is not null and the bytes are mapped, in the
region or among the `behind` bytes behind it. -/
def ByteRange.Writable (shm : SharedMemoryRegion) (behind : Nat) (r : ByteRange) : Prop :=
  ∃ p, r.ptr = some p ∧ p.toNat + (r.field.toNat + r.bytes.toNat) ≤ shm.getSize.toNat + behind

instance (shm : SharedMemoryRegion) (behind : Nat) (r : ByteRange) :
    Decidable (r.Writable shm behind) :=
  match h : r.ptr with
  | none => isFalse fun ⟨p, hp, _⟩ => by rw [h] at hp; cases hp
  | some p =>
      decidable_of_iff
        (p.toNat + (r.field.toNat + r.bytes.toNat) ≤ shm.getSize.toNat + behind)
        ⟨fun hle => ⟨p, h, hle⟩, fun ⟨q, hq, hle⟩ => by rw [h] at hq; cases hq; exact hle⟩

lemma ByteRange.InBounds.writable {shm : SharedMemoryRegion} {r : ByteRange}
    (h : r.InBounds shm) (behind : Nat) : r.Writable shm behind := by
  obtain ⟨p, hp, hle⟩ := h
  exact ⟨p, hp, Nat.le_trans hle (Nat.le_add_right _ _)⟩

/-- Bytes that are mapped remain writable when more are. -/
lemma ByteRange.Writable.mono {shm : SharedMemoryRegion} {r : ByteRange} {behind behind' : Nat}
    (h : r.Writable shm behind) (hle : behind ≤ behind') : r.Writable shm behind' := by
  obtain ⟨p, hp, hmapped⟩ := h
  exact ⟨p, hp, Nat.le_trans hmapped (Nat.add_le_add_left hle _)⟩

/-! ## The layouts

Entries of all locks come first, then the records of the nodes; `faa_global_lock.cpp`,
`mcs_global_lock.cpp` and `qspinlock_global_lock.cpp` differ in the names only, since all of
their records are `alignas(64)` with less than 64 bytes of data. -/

/-- The offset of the entry of a lock in a table of entries of the given size. -/
def entryOffset (entrySize : UInt64) (lockId : LockId) (stateOffset : ShmOffset) : ShmOffset :=
  stateOffset + lockId.toUInt64 * entrySize

/-- The offset of the record of a node behind the table of entries. -/
def nodeRecordOffset (entrySize recordSize : UInt64) (nodeId : NodeId)
    (stateOffset : ShmOffset) : ShmOffset :=
  stateOffset + maxLockCount.toUInt64 * entrySize + nodeId.toUInt64 * recordSize

/-- The size of a table of entries with the records of the nodes. -/
def recordsSize (entrySize recordSize : UInt64) (nodeCount : UInt32) : UInt64 :=
  maxLockCount.toUInt64 * entrySize + nodeCount.toUInt64 * recordSize

/-- `FaaGlobalLockAlgorithm::get_entry_offset`. -/
def Faa.getEntryOffset : LockId → ShmOffset → ShmOffset := entryOffset 64

/-- `FaaGlobalLockAlgorithm::get_ticket_offset`. -/
def Faa.getTicketOffset : NodeId → ShmOffset → ShmOffset := nodeRecordOffset 64 64

/-- `FaaGlobalLockAlgorithm::get_state_size`. -/
def Faa.getStateSize : UInt32 → UInt64 := recordsSize 64 64

/-- `McsGlobalLockAlgorithm::get_entry_offset`. -/
def Mcs.getEntryOffset : LockId → ShmOffset → ShmOffset := entryOffset 64

/-- `McsGlobalLockAlgorithm::get_node_offset`. -/
def Mcs.getNodeOffset : NodeId → ShmOffset → ShmOffset := nodeRecordOffset 64 64

/-- `McsGlobalLockAlgorithm::get_state_size`. -/
def Mcs.getStateSize : UInt32 → UInt64 := recordsSize 64 64

/-- `QspinlockGlobalLockAlgorithm::get_entry_offset`. -/
def Qspinlock.getEntryOffset : LockId → ShmOffset → ShmOffset := entryOffset 64

/-- `QspinlockGlobalLockAlgorithm::get_node_offset`. -/
def Qspinlock.getNodeOffset : NodeId → ShmOffset → ShmOffset := nodeRecordOffset 64 64

/-- `QspinlockGlobalLockAlgorithm::get_state_size`. -/
def Qspinlock.getStateSize : UInt32 → UInt64 := recordsSize 64 64

section Accesses

variable (shm : SharedMemoryRegion) (nodeCount : UInt32) (stateOffset : ShmOffset)

/-- The stores of an algorithm's two initialization loops: `entry` and `record` give the offset
of a record, the displacement of its first assigned field and the number of bytes assigned. -/
def loopStores (entry : LockId → ShmOffset × UInt64 × UInt64)
    (record : NodeId → ShmOffset × UInt64 × UInt64) : List ByteRange :=
  ((idsBelow maxLockCount).map fun lid =>
      ⟨shm.offsetToPtr (entry lid).1, (entry lid).2.1, (entry lid).2.2⟩) ++
    (idsBelow nodeCount).map fun nid =>
      ⟨shm.offsetToPtr (record nid).1, (record nid).2.1, (record nid).2.2⟩

end Accesses

namespace LockAlgorithm

/-- `get_state_size`. -/
def getStateSize : LockAlgorithm → UInt32 → UInt64
  | .cas => Cas.getStateSize
  | .faa => Faa.getStateSize
  | .mcs => Mcs.getStateSize
  | .qspinlock => Qspinlock.getStateSize

/-- What `initialize` writes behind the `memset`: `next_ticket` to `padding` of the entries
and both fields of the tickets; `tail_node` to `owner_node` of the entries and `waiting_lock`
of the queue nodes; four fields of either record. -/
def loops (shm : SharedMemoryRegion) (stateOffset : ShmOffset) (nodeCount : UInt32) :
    LockAlgorithm → List ByteRange
  | .cas => []
  | .faa => loopStores shm nodeCount (fun lid => (Faa.getEntryOffset lid stateOffset, 0, 16))
      fun nid => (Faa.getTicketOffset nid stateOffset, 0, 8)
  | .mcs => loopStores shm nodeCount (fun lid => (Mcs.getEntryOffset lid stateOffset, 0, 12))
      fun nid => (Mcs.getNodeOffset nid stateOffset, 8, 4)
  | .qspinlock =>
      loopStores shm nodeCount (fun lid => (Qspinlock.getEntryOffset lid stateOffset, 0, 16))
        fun nid => (Qspinlock.getNodeOffset nid stateOffset, 0, 16)

/-- The records that a call for the lock and the node works on. -/
def recordRanges (shm : SharedMemoryRegion) (stateOffset : ShmOffset) (nodeCount : UInt32)
    (lockId : LockId) (nodeId : NodeId) : LockAlgorithm → List ByteRange
  | .cas => [⟨shm.offsetToPtr (Cas.getSlotOffset lockId nodeId nodeCount stateOffset), 0, 4⟩]
  | .faa => [⟨shm.offsetToPtr (Faa.getEntryOffset lockId stateOffset), 0, 64⟩,
      ⟨shm.offsetToPtr (Faa.getTicketOffset nodeId stateOffset), 0, 64⟩]
  | .mcs => [⟨shm.offsetToPtr (Mcs.getEntryOffset lockId stateOffset), 0, 64⟩,
      ⟨shm.offsetToPtr (Mcs.getNodeOffset nodeId stateOffset), 0, 64⟩]
  | .qspinlock => [⟨shm.offsetToPtr (Qspinlock.getEntryOffset lockId stateOffset), 0, 64⟩,
      ⟨shm.offsetToPtr (Qspinlock.getNodeOffset nodeId stateOffset), 0, 64⟩]

/-- The stores of `initialize` of the algorithm, from the `memset` on. -/
def stores (k : LockAlgorithm) (shm : SharedMemoryRegion) (stateOffset : ShmOffset)
    (nodeCount : UInt32) : List ByteRange :=
  ⟨shm.offsetToPtr stateOffset, 0, k.getStateSize nodeCount⟩ :: k.loops shm stateOffset nodeCount

/-- All stores of `initialize` come back. -/
def Returns (k : LockAlgorithm) (shm : SharedMemoryRegion) (behind : Nat)
    (stateOffset : ShmOffset) (nodeCount : UInt32) : Prop :=
  ∀ r ∈ k.stores shm stateOffset nodeCount, r.Writable shm behind

instance (k : LockAlgorithm) (shm : SharedMemoryRegion) (behind : Nat) (stateOffset : ShmOffset)
    (nodeCount : UInt32) : Decidable (k.Returns shm behind stateOffset nodeCount) :=
  inferInstanceAs (Decidable (∀ r ∈ k.stores shm stateOffset nodeCount, r.Writable shm behind))

/-- `initialize` of the algorithm: the result, or `none` for a call that does not return, and
the stores that come back. -/
def initializeStores (k : LockAlgorithm) (shm : SharedMemoryRegion) (behind : Nat)
    (stateOffset : ShmOffset) (nodeCount : UInt32) : Option LockResult × List ByteRange :=
  if nodeCount = 0 ∨ maxNodeCount < nodeCount then (some .errorInvalidParam, [])
  else if k.Returns shm behind stateOffset nodeCount then
    (some .success, k.stores shm stateOffset nodeCount)
  else
    (none, (k.stores shm stateOffset nodeCount).takeWhile fun r => r.Writable shm behind)

end LockAlgorithm

/-- The number of nodes `TwoTierLock::initialize` works with. -/
def effectiveNodeCount (nodeCount maxLocks : UInt32) : UInt32 :=
  if nodeCount > 0 then nodeCount else maxLocks

/-- `TwoTierLock::initialize` with the mutex array, the region and the algorithm given: the
result, or `none` for a call that does not return, and the stores that come back. -/
def twoTierInitializeStores (k : LockAlgorithm) (shm : SharedMemoryRegion) (behind : Nat)
    (initialized : Bool) (nodeId : NodeId) (stateOffset : ShmOffset)
    (maxLocks nodeCount : UInt32) : Option LockResult × List ByteRange :=
  if nodeId = invalidNodeId then (some .errorInvalidParam, [])
  else if maxLocks = 0 ∨ maxLockCount < maxLocks then (some .errorInvalidParam, [])
  else if initialized then (some .errorUnknown, [])
  else k.initializeStores shm behind stateOffset (effectiveNodeCount nodeCount maxLocks)

/-! ## What fits -/

/-- `get_state_size` in unbounded integers. -/
def LockAlgorithm.stateSize (k : LockAlgorithm) (nodeCount : Nat) : Nat :=
  match k with
  | .cas => 1024 * nodeCount * 4
  | _ => 1024 * 64 + nodeCount * 64

/-- The 64-bit computation of `get_state_size` does not wrap around. -/
lemma LockAlgorithm.toNat_getStateSize (k : LockAlgorithm) (nodeCount : UInt32) :
    (k.getStateSize nodeCount).toNat = k.stateSize nodeCount.toNat := by
  have := nodeCount.toNat_lt
  cases k <;>
    simp only [getStateSize, stateSize, Cas.getStateSize, Faa.getStateSize, Mcs.getStateSize,
      Qspinlock.getStateSize, recordsSize, maxLockCount, UInt64.toNat_add, UInt64.toNat_mul,
      UInt32.toNat_toUInt64, UInt32.reduceToNat, UInt64.reduceToNat] <;>
    omega

section Fits

variable (k : LockAlgorithm) (shm : SharedMemoryRegion) (behind : Nat) (stateOffset : ShmOffset)

/-- The range of the lock records lies inside the mapped region. -/
def Fits (nodeCount : UInt32) : Prop :=
  stateOffset.toNat + k.stateSize nodeCount.toNat ≤ shm.getSize.toNat

instance (nodeCount : UInt32) : Decidable (Fits k shm stateOffset nodeCount) :=
  inferInstanceAs (Decidable (_ ≤ _))

/-- The parameters are refused, whatever the region is. -/
def ParametersRefused (initialized : Bool) (nodeId : NodeId) (maxLocks nodeCount : UInt32) :
    Prop :=
  nodeId = invalidNodeId ∨ (maxLocks = 0 ∨ maxLockCount < maxLocks) ∨ initialized = true ∨
    maxNodeCount < effectiveNodeCount nodeCount maxLocks

/-- `TwoTierLock::initialize` accepts no sizes that do not fit: after a success the records
and all bytes the call wrote lie in the region, as do the records that a call for any lock
and node works on, and a region that is too small makes the call return an error before it
has written anything. -/
structure SizesFit (initialized : Bool) (nodeId : NodeId) (maxLocks nodeCount : UInt32) :
    Prop where
  range : (twoTierInitializeStores k shm behind initialized nodeId stateOffset maxLocks
    nodeCount).1 = some .success →
      Fits k shm stateOffset (effectiveNodeCount nodeCount maxLocks)
  stores : (twoTierInitializeStores k shm behind initialized nodeId stateOffset maxLocks
    nodeCount).1 = some .success → ∀ r ∈ (twoTierInitializeStores k shm behind initialized nodeId
      stateOffset maxLocks nodeCount).2, r.InBounds shm
  records : (twoTierInitializeStores k shm behind initialized nodeId stateOffset maxLocks
    nodeCount).1 = some .success → ∀ l, l < maxLocks →
      ∀ n, n < effectiveNodeCount nodeCount maxLocks →
        ∀ r ∈ k.recordRanges shm stateOffset (effectiveNodeCount nodeCount maxLocks) l n,
          r.InBounds shm
  tooSmall : ¬ Fits k shm stateOffset (effectiveNodeCount nodeCount maxLocks) →
    ∃ rc, rc ≠ .success ∧ twoTierInitializeStores k shm behind initialized nodeId stateOffset
      maxLocks nodeCount = (some rc, [])

variable {k shm behind stateOffset}

/-- A range behind an offset that the region covers is in bounds. -/
lemma inBounds_of_le {offset : ShmOffset} {field bytes : UInt64}
    (hpos : 0 < field.toNat + bytes.toNat)
    (h : offset.toNat + (field.toNat + bytes.toNat) ≤ shm.getSize.toNat) :
    ByteRange.InBounds shm ⟨shm.offsetToPtr offset, field, bytes⟩ :=
  ⟨offset, SharedMemoryRegion.offsetToPtr_of_lt (by omega), h⟩

variable (shm) in
lemma toNat_entryOffset {l : LockId} (hl : l < maxLockCount)
    (h : stateOffset.toNat + 1024 * 64 ≤ shm.getSize.toNat) :
    (entryOffset 64 l stateOffset).toNat = stateOffset.toNat + l.toNat * 64 := by
  have hsize := shm.getSize.toNat_lt
  have hl' : l.toNat < 1024 := UInt32.lt_iff_toNat_lt.1 hl
  simp only [entryOffset, UInt64.toNat_add, UInt64.toNat_mul, UInt32.toNat_toUInt64,
    UInt64.reduceToNat]
  omega

lemma toNat_nodeRecordOffset {nodeCount : UInt32} {n : NodeId} (hn : n < nodeCount)
    (h : stateOffset.toNat + (1024 * 64 + nodeCount.toNat * 64) ≤ shm.getSize.toNat) :
    (nodeRecordOffset 64 64 n stateOffset).toNat =
      stateOffset.toNat + (1024 * 64 + n.toNat * 64) := by
  have hsize := shm.getSize.toNat_lt
  have hn' : n.toNat < nodeCount.toNat := UInt32.lt_iff_toNat_lt.1 hn
  simp only [nodeRecordOffset, maxLockCount, UInt64.toNat_add, UInt64.toNat_mul,
    UInt32.toNat_toUInt64, UInt32.reduceToNat, UInt64.reduceToNat]
  omega

/-- What lies within the entry of a lock is in bounds. -/
lemma entry_inBounds {nodeCount : UInt32} {l : LockId} (hl : l < maxLockCount)
    {field bytes : UInt64} (hpos : 0 < field.toNat + bytes.toNat)
    (hbytes : field.toNat + bytes.toNat ≤ 64)
    (h : stateOffset.toNat + (1024 * 64 + nodeCount.toNat * 64) ≤ shm.getSize.toNat) :
    ByteRange.InBounds shm ⟨shm.offsetToPtr (entryOffset 64 l stateOffset), field, bytes⟩ := by
  have hl' : l.toNat < 1024 := UInt32.lt_iff_toNat_lt.1 hl
  refine inBounds_of_le hpos ?_
  rw [toNat_entryOffset shm hl (by omega)]
  omega

/-- What lies within the record of a node is in bounds. -/
lemma nodeRecord_inBounds {nodeCount : UInt32} {n : NodeId} (hn : n < nodeCount)
    {field bytes : UInt64} (hpos : 0 < field.toNat + bytes.toNat)
    (hbytes : field.toNat + bytes.toNat ≤ 64)
    (h : stateOffset.toNat + (1024 * 64 + nodeCount.toNat * 64) ≤ shm.getSize.toNat) :
    ByteRange.InBounds shm
      ⟨shm.offsetToPtr (nodeRecordOffset 64 64 n stateOffset), field, bytes⟩ := by
  have hn' : n.toNat < nodeCount.toNat := UInt32.lt_iff_toNat_lt.1 hn
  refine inBounds_of_le hpos ?_
  rw [toNat_nodeRecordOffset hn h]
  omega

/-- The slot of a node is in bounds. -/
lemma slot_inBounds {nodeCount : UInt32} (hcount : nodeCount ≤ maxNodeCount) {l : LockId}
    (hl : l < maxLockCount) {n : NodeId} (hn : n < nodeCount)
    (h : Fits .cas shm stateOffset nodeCount) :
    ByteRange.InBounds shm
      ⟨shm.offsetToPtr (Cas.getSlotOffset l n nodeCount stateOffset), 0, 4⟩ := by
  have hsize := shm.getSize.toNat_lt
  have hl' : l.toNat + 1 ≤ 1024 := UInt32.lt_iff_toNat_lt.1 hl
  have hn' : n.toNat < nodeCount.toNat := UInt32.lt_iff_toNat_lt.1 hn
  have hrow : (l.toNat + 1) * nodeCount.toNat ≤ 1024 * nodeCount.toNat :=
    Nat.mul_le_mul_right _ hl'
  rw [Nat.add_mul, Nat.one_mul] at hrow
  simp only [Fits, LockAlgorithm.stateSize] at h
  have hslot : (Cas.getSlotOffset l n nodeCount stateOffset).toNat =
      stateOffset.toNat + (l.toNat * nodeCount.toNat + n.toNat) * 4 := by
    rw [Cas.getSlotOffset, UInt64.add_assoc, UInt64.toNat_add, Cas.toNat_slot hcount hl hn]
    omega
  refine inBounds_of_le (by decide) ?_
  rw [hslot]
  simp only [UInt64.reduceToNat]
  omega

/-- The `memset` stays in bounds. -/
lemma memset_inBounds {nodeCount : UInt32} (hpos : nodeCount ≠ 0)
    (h : Fits k shm stateOffset nodeCount) :
    ByteRange.InBounds shm ⟨shm.offsetToPtr stateOffset, 0, k.getStateSize nodeCount⟩ := by
  have hcount : 0 < nodeCount.toNat :=
    Nat.pos_of_ne_zero fun hz => hpos (UInt32.toNat_inj.1 hz)
  have hstate : 0 < k.stateSize nodeCount.toNat := by
    cases k <;> simp only [LockAlgorithm.stateSize] <;> omega
  refine inBounds_of_le ?_ ?_ <;>
    rw [k.toNat_getStateSize, UInt64.toNat_zero, Nat.zero_add]
  · exact hstate
  · exact h

/-- So do the loops that fill the records. -/
lemma loopStores_inBounds {nodeCount : UInt32} {entryField entryBytes field bytes : UInt64}
    (hentry : 0 < entryField.toNat + entryBytes.toNat ∧
      entryField.toNat + entryBytes.toNat ≤ 64)
    (hrecord : 0 < field.toNat + bytes.toNat ∧ field.toNat + bytes.toNat ≤ 64)
    (h : stateOffset.toNat + (1024 * 64 + nodeCount.toNat * 64) ≤ shm.getSize.toNat) :
    ∀ r ∈ loopStores shm nodeCount
        (fun lid => (entryOffset 64 lid stateOffset, entryField, entryBytes))
        (fun nid => (nodeRecordOffset 64 64 nid stateOffset, field, bytes)),
      r.InBounds shm := by
  intro r hr
  simp only [loopStores, List.mem_append, List.mem_map] at hr
  obtain ⟨lid, hlid, rfl⟩ | ⟨nid, hnid, rfl⟩ := hr
  · exact entry_inBounds (mem_idsBelow.1 hlid) hentry.1 hentry.2 h
  · exact nodeRecord_inBounds (mem_idsBelow.1 hnid) hrecord.1 hrecord.2 h

lemma loops_inBounds {nodeCount : UInt32} (h : Fits k shm stateOffset nodeCount) :
    ∀ r ∈ k.loops shm stateOffset nodeCount, r.InBounds shm := by
  cases k with
  | cas =>
      intro r hr
      cases hr
  | faa => exact loopStores_inBounds (by decide) (by decide) h
  | mcs => exact loopStores_inBounds (by decide) (by decide) h
  | qspinlock => exact loopStores_inBounds (by decide) (by decide) h

/-- On a region that holds the records `initialize` returns. -/
lemma returns_of_fits {nodeCount : UInt32} (hpos : nodeCount ≠ 0)
    (h : Fits k shm stateOffset nodeCount) : k.Returns shm behind stateOffset nodeCount := by
  intro r hr
  obtain rfl | hr := List.mem_cons.1 hr
  · exact (memset_inBounds hpos h).writable behind
  · exact (loops_inBounds h r hr).writable behind

/-- Every record of a managed lock and a participating node is in bounds. -/
lemma recordRanges_inBounds {nodeCount : UInt32} (hcount : nodeCount ≤ maxNodeCount)
    {l : LockId} (hl : l < maxLockCount) {n : NodeId} (hn : n < nodeCount)
    (h : Fits k shm stateOffset nodeCount) :
    ∀ r ∈ k.recordRanges shm stateOffset nodeCount l n, r.InBounds shm := by
  intro r hr
  cases k with
  | cas =>
      obtain rfl := List.mem_singleton.1 hr
      exact slot_inBounds hcount hl hn h
  | faa | mcs | qspinlock =>
      simp only [LockAlgorithm.recordRanges, List.mem_cons, List.not_mem_nil, or_false] at hr
      obtain rfl | rfl := hr
      · exact entry_inBounds hl (by decide) (by decide) h
      · exact nodeRecord_inBounds hn (by decide) (by decide) h

/-! ## The result -/

section Result

variable {initialized : Bool} {nodeId : NodeId} {maxLocks nodeCount : UInt32}

variable (k shm behind stateOffset) in
lemma initialize_refused (h : ParametersRefused initialized nodeId maxLocks nodeCount) :
    ∃ rc, rc ≠ .success ∧ twoTierInitializeStores k shm behind initialized nodeId stateOffset
      maxLocks nodeCount = (some rc, []) := by
  unfold twoTierInitializeStores
  split_ifs with hnode hlocks hinit
  · exact ⟨_, by decide, rfl⟩
  · exact ⟨_, by decide, rfl⟩
  · exact ⟨_, by decide, rfl⟩
  · obtain h | h | h | h := h
    · exact absurd h hnode
    · exact absurd h hlocks
    · exact absurd h hinit
    · rw [LockAlgorithm.initializeStores, if_pos (Or.inr h)]
      exact ⟨_, by decide, rfl⟩

variable (nodeCount) in
lemma effectiveNodeCount_ne_zero (h : maxLocks ≠ 0) :
    effectiveNodeCount nodeCount maxLocks ≠ 0 := by
  unfold effectiveNodeCount
  split
  · rename_i hpos
    rintro rfl
    exact absurd hpos (by decide)
  · exact h

variable (k shm behind stateOffset) in
lemma initialize_accepted (h : ¬ ParametersRefused initialized nodeId maxLocks nodeCount) :
    twoTierInitializeStores k shm behind initialized nodeId stateOffset maxLocks nodeCount =
      if k.Returns shm behind stateOffset (effectiveNodeCount nodeCount maxLocks) then
        (some .success, k.stores shm stateOffset (effectiveNodeCount nodeCount maxLocks))
      else
        (none, (k.stores shm stateOffset (effectiveNodeCount nodeCount maxLocks)).takeWhile
          fun r => r.Writable shm behind) := by
  unfold ParametersRefused at h
  simp only [not_or] at h
  obtain ⟨hnode, ⟨hzero, hlocks⟩, hinit, hcount⟩ := h
  have hne := effectiveNodeCount_ne_zero nodeCount hzero
  simp only [twoTierInitializeStores, LockAlgorithm.initializeStores, hnode, hzero, hlocks,
    hinit, hcount, hne, or_self, if_false, Bool.false_eq_true]

lemma accepted_counts (h : ¬ ParametersRefused initialized nodeId maxLocks nodeCount) :
    maxLocks ≠ 0 ∧ maxLocks ≤ maxLockCount ∧
      effectiveNodeCount nodeCount maxLocks ≤ maxNodeCount := by
  unfold ParametersRefused at h
  simp only [not_or] at h
  exact ⟨h.2.1.1, UInt32.not_lt.1 h.2.1.2, UInt32.not_lt.1 h.2.2.2⟩

lemma sizesFit_of_refused (h : ParametersRefused initialized nodeId maxLocks nodeCount) :
    SizesFit k shm behind stateOffset initialized nodeId maxLocks nodeCount := by
  obtain ⟨rc, hrc, hcall⟩ := initialize_refused k shm behind stateOffset h
  have hfails : (twoTierInitializeStores k shm behind initialized nodeId stateOffset maxLocks
      nodeCount).1 ≠ some .success := by
    rw [hcall]
    exact fun hok => hrc (Option.some.inj hok)
  exact ⟨fun hok => absurd hok hfails, fun hok => absurd hok hfails,
    fun hok => absurd hok hfails, fun _ => ⟨rc, hrc, hcall⟩⟩

lemma sizesFit_of_fits (ha : ¬ ParametersRefused initialized nodeId maxLocks nodeCount)
    (h : Fits k shm stateOffset (effectiveNodeCount nodeCount maxLocks)) :
    SizesFit k shm behind stateOffset initialized nodeId maxLocks nodeCount where
  range _ := h
  stores hok r hr := by
    rw [initialize_accepted k shm behind stateOffset ha] at hok hr
    split_ifs at hok hr
    obtain rfl | hr := List.mem_cons.1 hr
    · exact memset_inBounds (effectiveNodeCount_ne_zero _ (accepted_counts ha).1) h
    · exact loops_inBounds h r hr
  records _ l hl n hn := by
    have hl' : l < maxLockCount := UInt32.lt_of_lt_of_le hl (accepted_counts ha).2.1
    exact recordRanges_inBounds (accepted_counts ha).2.2 hl' hn h
  tooSmall hnot := absurd h hnot

/-- A region that does not hold the records is not refused: the call stores behind it, or does
not return. -/
lemma not_sizesFit (ha : ¬ ParametersRefused initialized nodeId maxLocks nodeCount)
    (h : ¬ Fits k shm stateOffset (effectiveNodeCount nodeCount maxLocks)) :
    ¬ SizesFit k shm behind stateOffset initialized nodeId maxLocks nodeCount := by
  intro hsizes
  obtain ⟨rc, hrc, hcall⟩ := hsizes.tooSmall h
  rw [initialize_accepted k shm behind stateOffset ha] at hcall
  split_ifs at hcall
  · exact hrc (Option.some.inj (congrArg Prod.fst hcall)).symm
  · exact Option.some_ne_none rc (congrArg Prod.fst hcall).symm

end Result

end Fits

/-- **Accepted sizes fit** exactly when the parameters are refused or the records lie in the
region: `initialize` does not look at the size of the region. -/
theorem sizesFit_iff (k : LockAlgorithm) (shm : SharedMemoryRegion) (behind : Nat)
    (stateOffset : ShmOffset) (initialized : Bool) (nodeId : NodeId)
    (maxLocks nodeCount : UInt32) :
    SizesFit k shm behind stateOffset initialized nodeId maxLocks nodeCount ↔
      ParametersRefused initialized nodeId maxLocks nodeCount ∨
        Fits k shm stateOffset (effectiveNodeCount nodeCount maxLocks) := by
  by_cases ha : ParametersRefused initialized nodeId maxLocks nodeCount
  · exact iff_of_true (sizesFit_of_refused ha) (Or.inl ha)
  · refine ⟨fun h => Or.inr ?_, fun h => sizesFit_of_fits ha (h.resolve_left ha)⟩
    by_contra hnot
    exact not_sizesFit ha hnot h

/-- A region of 4000 bytes is accepted for the 4096 bytes of a slot table, since the mapping
takes a whole page. -/
theorem small_region_accepted : ¬ ∀ (k : LockAlgorithm) (shm : SharedMemoryRegion)
    (behind : Nat) (stateOffset : ShmOffset) (initialized : Bool) (nodeId : NodeId)
    (maxLocks nodeCount : UInt32),
    SizesFit k shm behind stateOffset initialized nodeId maxLocks nodeCount := fun h =>
  absurd ((h .cas ⟨true, 4000⟩ 96 0 false 0 1 1).range (by decide)) (by decide)

end CxlLock
