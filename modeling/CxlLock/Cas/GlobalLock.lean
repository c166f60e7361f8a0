import CxlLock.LockInterface

/-!
# The slot table lock (`cas_global_lock.cpp`), whole calls

Every lock has one slot for each node, a 32-bit word with a `LockSlotState`.  A node requests
the lock by a store of `WAITING` to its slot, the lock manager grants it by an exchange of
`WAITING` for `LOCKED`, and the node gives it back by a store of `IDLE`.

The shared memory is its 32-bit words, addressed by byte offset.  The offset of a slot is
computed as in `get_slot_offset`, modulo `2 ^ 64`; different slots lie at different offsets,
whatever the offset of the table is (`getSlotOffset_inj`).
-/

namespace CxlLock

/-- The 32-bit words of the shared memory region. -/
abbrev ShmWords := ShmOffset → UInt32

namespace Cas

open LockSlotState

/-- `get_slot_offset`. -/
def getSlotOffset (lockId : LockId) (nodeId : NodeId) (nodeCount : UInt32)
    (stateOffset : ShmOffset) : ShmOffset :=
  stateOffset + lockId.toUInt64 * nodeCount.toUInt64 * 4 + nodeId.toUInt64 * 4

/-- `get_state_size`. -/
def getStateSize (nodeCount : UInt32) : UInt64 :=
  maxLockCount.toUInt64 * nodeCount.toUInt64 * 4

/-- `read_slot_state`, as the word that is read. -/
def readSlotState (lockId : LockId) (nodeId : NodeId) (nodeCount : UInt32)
    (stateOffset : ShmOffset) (shm : ShmWords) : UInt32 :=
  shm (getSlotOffset lockId nodeId nodeCount stateOffset)

/-- `write_slot_state`. -/
def writeSlotState (lockId : LockId) (nodeId : NodeId) (nodeCount : UInt32)
    (stateOffset : ShmOffset) (state : LockSlotState) (shm : ShmWords) : ShmWords :=
  Function.update shm (getSlotOffset lockId nodeId nodeCount stateOffset) state.toWord

/-! ## The operations -/

/-- `CasGlobalLockAlgorithm::initialize`: the `memset` of the state region. -/
def initializeShm (stateOffset : ShmOffset) (nodeCount : UInt32) (shm : ShmWords) :
    LockResult × ShmWords :=
  if nodeCount = 0 ∨ maxNodeCount < nodeCount then (.errorInvalidParam, shm)
  else
    (.success, fun addr => if addr - stateOffset < getStateSize nodeCount then 0 else shm addr)

/-- `CasGlobalLockAlgorithm::acquire_lock`. -/
def acquireLock (stateOffset : ShmOffset) (nodeCount : UInt32) (nodeId : NodeId)
    (lockId : LockId) (shm : ShmWords) : LockResult × ShmWords :=
  if nodeId = invalidNodeId then (.errorInvalidParam, shm)
  else (.success, writeSlotState lockId nodeId nodeCount stateOffset waiting shm)

/-- `CasGlobalLockAlgorithm::release_lock`. -/
def releaseLock (stateOffset : ShmOffset) (nodeCount : UInt32) (nodeId : NodeId)
    (lockId : LockId) (shm : ShmWords) : LockResult × ShmWords :=
  if nodeId = invalidNodeId then (.errorInvalidParam, shm)
  else (.success, writeSlotState lockId nodeId nodeCount stateOffset idle shm)

/-- `CasGlobalLockAlgorithm::check_grant`: a pass over the slots that looks for a holder, and
a second one that looks for the first waiting node. -/
def checkGrant (stateOffset : ShmOffset) (nodeCount : UInt32) (lockId : LockId)
    (shm : ShmWords) : NodeId :=
  if nodeCount = 0 then invalidNodeId
  else if (idsBelow nodeCount).any fun nid =>
      readSlotState lockId nid nodeCount stateOffset shm == locked.toWord then invalidNodeId
  else
    ((idsBelow nodeCount).find? fun nid =>
      readSlotState lockId nid nodeCount stateOffset shm == waiting.toWord).getD invalidNodeId

/-- `CasGlobalLockAlgorithm::grant_lock`. -/
def grantLock (stateOffset : ShmOffset) (nodeCount : UInt32) (nodeId : NodeId)
    (lockId : LockId) (shm : ShmWords) : LockResult × ShmWords :=
  if nodeId = invalidNodeId then (.errorInvalidParam, shm)
  else if readSlotState lockId nodeId nodeCount stateOffset shm = waiting.toWord then
    (.success, writeSlotState lockId nodeId nodeCount stateOffset locked shm)
  else (.errorBusy, shm)

/-- The slot table path of `poll_for_grant`. -/
def pollGranted (stateOffset : ShmOffset) (nodeCount : UInt32) (nodeId : NodeId)
    (lockId : LockId) (shm : ShmWords) : Bool :=
  readSlotState lockId nodeId nodeCount stateOffset shm == locked.toWord

/-- `CasGlobalLockAlgorithm`, with its table at `stateOffset`, as an instance of the plugin
interface. -/
def algorithm (stateOffset : ShmOffset) : GlobalLockAlgorithm ShmWords where
  initializeShm := initializeShm stateOffset
  acquireLock := acquireLock stateOffset
  releaseLock nodeCount nodeId lockId shm :=
    some (releaseLock stateOffset nodeCount nodeId lockId shm)
  checkGrant nodeCount lockId shm := (checkGrant stateOffset nodeCount lockId shm, shm)
  grantLock := grantLock stateOffset
  pollGranted := pollGranted stateOffset

/-! ## The slots are apart from each other and inside the table -/

section Slots

variable {nodeCount : UInt32} {l j : LockId} {n k : NodeId}

/-- The offset of a slot within the table does not wrap around. -/
lemma toNat_slot (hcount : nodeCount ≤ maxNodeCount) (hl : l < maxLockCount)
    (hn : n < nodeCount) :
    (l.toUInt64 * nodeCount.toUInt64 * 4 + n.toUInt64 * 4).toNat =
      (l.toNat * nodeCount.toNat + n.toNat) * 4 := by
  simp only [UInt32.le_iff_toNat_le, UInt32.lt_iff_toNat_lt, maxNodeCount, maxLockCount,
    UInt32.reduceToNat] at hcount hl hn
  have hmul : l.toNat * nodeCount.toNat ≤ 1024 * 64 := Nat.mul_le_mul (by omega) hcount
  simp only [UInt64.toNat_add, UInt64.toNat_mul, UInt32.toNat_toUInt64, UInt64.reduceToNat]
  omega

/-- Different slots are different words. -/
theorem getSlotOffset_inj (hcount : nodeCount ≤ maxNodeCount) (hl : l < maxLockCount)
    (hn : n < nodeCount) (hj : j < maxLockCount) (hk : k < nodeCount)
    {stateOffset : ShmOffset} :
    getSlotOffset l n nodeCount stateOffset = getSlotOffset j k nodeCount stateOffset ↔
      l = j ∧ n = k := by
  refine ⟨fun h => ?_, fun h => by rw [h.1, h.2]⟩
  have hpos : n.toNat < nodeCount.toNat := UInt32.lt_iff_toNat_lt.1 hn
  have hkpos : k.toNat < nodeCount.toNat := UInt32.lt_iff_toNat_lt.1 hk
  simp only [getSlotOffset, UInt64.add_assoc, UInt64.add_right_inj] at h
  have hnat : l.toNat * nodeCount.toNat + n.toNat = j.toNat * nodeCount.toNat + k.toNat := by
    have := congrArg UInt64.toNat h
    rw [toNat_slot hcount hl hn, toNat_slot hcount hj hk] at this
    omega
  have hn' : n.toNat = k.toNat := by
    rw [← Nat.mul_add_mod_of_lt (a := l.toNat) hpos, hnat, Nat.mul_add_mod_of_lt hkpos]
  refine ⟨UInt32.toNat_inj.1 ?_, UInt32.toNat_inj.1 hn'⟩
  exact Nat.eq_of_mul_eq_mul_right (Nat.zero_lt_of_lt hpos) (by omega)

/-- A store to a slot changes that slot and no other. -/
lemma readSlotState_write (hcount : nodeCount ≤ maxNodeCount) (hl : l < maxLockCount)
    (hn : n < nodeCount) (hj : j < maxLockCount) (hk : k < nodeCount)
    (stateOffset : ShmOffset) (state : LockSlotState) (shm : ShmWords) :
    readSlotState j k nodeCount stateOffset
        (writeSlotState l n nodeCount stateOffset state shm) =
      if j = l ∧ k = n then state.toWord else readSlotState j k nodeCount stateOffset shm := by
  simp only [readSlotState, writeSlotState, Function.update_apply,
    getSlotOffset_inj hcount hj hk hl hn]

/-- `initialize` sets every slot to `IDLE`. -/
lemma readSlotState_initialize (hcount : nodeCount ≤ maxNodeCount) (hl : l < maxLockCount)
    (hn : n < nodeCount) (stateOffset : ShmOffset) (shm : ShmWords) :
    readSlotState l n nodeCount stateOffset (initializeShm stateOffset nodeCount shm).2 =
      idle.toWord := by
  have hzero : ¬ (nodeCount = 0 ∨ maxNodeCount < nodeCount) := by
    refine not_or.2 ⟨?_, UInt32.not_lt.2 hcount⟩
    rintro rfl
    exact absurd hn (UInt32.not_lt.2 (UInt32.zero_le))
  have hin : getSlotOffset l n nodeCount stateOffset - stateOffset < getStateSize nodeCount := by
    have hrel : getSlotOffset l n nodeCount stateOffset - stateOffset =
        l.toUInt64 * nodeCount.toUInt64 * 4 + n.toUInt64 * 4 := by
      rw [getSlotOffset, UInt64.add_assoc, UInt64.add_comm, UInt64.add_sub_cancel]
    have hpos : n.toNat < nodeCount.toNat := UInt32.lt_iff_toNat_lt.1 hn
    have hl' : l.toNat + 1 ≤ 1024 := UInt32.lt_iff_toNat_lt.1 hl
    have hcount' : nodeCount.toNat ≤ 64 := UInt32.le_iff_toNat_le.1 hcount
    have hrow : (l.toNat + 1) * nodeCount.toNat ≤ 1024 * nodeCount.toNat :=
      Nat.mul_le_mul_right _ hl'
    rw [hrel, UInt64.lt_iff_toNat_lt, toNat_slot hcount hl hn]
    simp only [getStateSize, maxLockCount, UInt64.toNat_mul, UInt32.toNat_toUInt64,
      UInt32.reduceToNat, UInt64.reduceToNat]
    rw [Nat.add_mul, Nat.one_mul] at hrow
    omega
  simp only [readSlotState, initializeShm, hzero, if_false, hin, if_true, toWord]

end Slots

end Cas

end CxlLock
