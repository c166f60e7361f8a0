import Mathlib.Logic.Function.Basic
import Mathlib.Order.Basic
import Mathlib.Algebra.Group.Nat.Defs

/-!
# Common types of the lock system (`lock_types.h`)

Identifiers are the source's fixed-width integers, so that the sentinels (`-1` cast to the
type) and the index arithmetic are those of the code.  Shared memory holds 32-bit words;
`LockSlotState` and the other enumerations are stored in it as their numeric values.
-/

namespace CxlLock

/-- Identifier of a participating node. -/
abbrev NodeId := UInt32

/-- Identifier of a distributed lock. -/
abbrev LockId := UInt32

/-- Byte offset within the shared memory region. -/
abbrev ShmOffset := UInt64

/-- `INVALID_NODE_ID`, the sentinel for "no node". -/
def invalidNodeId : NodeId := 0xFFFFFFFF

/-- `INVALID_LOCK_ID`, the sentinel for "no lock". -/
def invalidLockId : LockId := 0xFFFFFFFF

/-- `MAX_NODE_COUNT`. -/
def maxNodeCount : UInt32 := 64

/-- `MAX_LOCK_COUNT`. -/
def maxLockCount : UInt32 := 1024

/-- State of a node's slot in the global lock table. -/
inductive LockSlotState
  /-- The node is not interested in this lock. -/
  | idle
  /-- The node wants the lock and polls for the grant. -/
  | waiting
  /-- The node holds the global lock. -/
  | locked
  deriving DecidableEq, Repr

/-- The value of a slot state in shared memory. -/
def LockSlotState.toWord : LockSlotState → UInt32
  | .idle => 0
  | .waiting => 1
  | .locked => 2

@[simp] lemma LockSlotState.toWord_inj {a b : LockSlotState} : a.toWord = b.toWord ↔ a = b := by
  cases a <;> cases b <;> decide

/-- Result code of the lock operations. -/
inductive LockResult
  | success
  | errorInvalidParam
  | errorTimeout
  | errorBusy
  | errorNotOwner
  | errorShmFailure
  | errorNodeNotRegistered
  | errorLockNotInitialized
  | errorUnknown
  deriving DecidableEq, Repr

/-- The size of a running system, as `TwoTierLock::initialize`, the algorithms' `initialize`
and `LockManager::initialize` accept it. -/
structure SystemSize where
  /-- Number of participating nodes. -/
  nodeCount : UInt32
  /-- Number of locks the system manages. -/
  maxLocks : UInt32
  nodeCount_pos : 0 < nodeCount
  nodeCount_le : nodeCount ≤ maxNodeCount
  maxLocks_pos : 0 < maxLocks
  maxLocks_le : maxLocks ≤ maxLockCount

/-- The system with the given numbers of nodes and locks. -/
def SystemSize.of (nodeCount maxLocks : UInt32)
    (h : 0 < nodeCount ∧ nodeCount ≤ maxNodeCount ∧ 0 < maxLocks ∧ maxLocks ≤ maxLockCount :=
      by decide) : SystemSize where
  nodeCount := nodeCount
  maxLocks := maxLocks
  nodeCount_pos := h.1
  nodeCount_le := h.2.1
  maxLocks_pos := h.2.2.1
  maxLocks_le := h.2.2.2

/-- A node id that is below some node count within the limit is not the sentinel. -/
lemma ne_invalidNodeId {n count : NodeId} (hcount : count ≤ maxNodeCount) (hn : n < count) :
    n ≠ invalidNodeId := by
  rintro rfl
  simp only [UInt32.le_iff_toNat_le, UInt32.lt_iff_toNat_lt, invalidNodeId, maxNodeCount,
    UInt32.reduceToNat] at hcount hn
  omega

/-- A lock id within the table is not the sentinel. -/
lemma ne_invalidLockId {l : LockId} (hl : l < maxLockCount) : l ≠ invalidLockId := by
  rintro rfl
  exact absurd hl (by decide)

lemma SystemSize.node_ne_invalid (size : SystemSize) {n : NodeId} (hn : n < size.nodeCount) :
    n ≠ invalidNodeId :=
  ne_invalidNodeId size.nodeCount_le hn

lemma SystemSize.nodeCount_ne_zero (size : SystemSize) : size.nodeCount ≠ 0 := fun h =>
  absurd (h ▸ size.nodeCount_pos) (by decide)

/-- The algorithms' `initialize` accepts the node count. -/
lemma SystemSize.nodeCount_valid (size : SystemSize) :
    ¬ (size.nodeCount = 0 ∨ maxNodeCount < size.nodeCount) :=
  not_or.2 ⟨size.nodeCount_ne_zero, UInt32.not_lt.2 size.nodeCount_le⟩

/-- The local mutex array's `initialize` accepts the number of locks. -/
lemma SystemSize.maxLocks_valid (size : SystemSize) :
    ¬ (size.maxLocks = 0 ∨ maxLockCount < size.maxLocks) :=
  not_or.2 ⟨(UInt32.ne_of_lt size.maxLocks_pos).symm, UInt32.not_lt.2 size.maxLocks_le⟩

lemma SystemSize.lock_lt (size : SystemSize) {l : LockId} (hl : l < size.maxLocks) :
    l < maxLockCount :=
  UInt32.lt_iff_toNat_lt.2 (Nat.lt_of_lt_of_le (UInt32.lt_iff_toNat_lt.1 hl)
    (UInt32.le_iff_toNat_le.1 size.maxLocks_le))

lemma SystemSize.lock_ne_invalid (size : SystemSize) {l : LockId} (hl : l < size.maxLocks) :
    l ≠ invalidLockId :=
  ne_invalidLockId (size.lock_lt hl)

/-- The ids `0, …, count - 1` in the order of the source's `for` loops. -/
def idsBelow (count : UInt32) : List UInt32 :=
  (List.range count.toNat).map UInt32.ofNat

lemma mem_idsBelow {count i : UInt32} : i ∈ idsBelow count ↔ i < count := by
  simp only [idsBelow, List.mem_map, List.mem_range, UInt32.lt_iff_toNat_lt]
  constructor
  · rintro ⟨k, hk, rfl⟩
    have := count.toNat_lt
    rwa [UInt32.toNat_ofNat_of_lt' (Nat.lt_trans hk this)]
  · intro h
    exact ⟨i.toNat, h, UInt32.ofNat_toNat⟩

lemma pairwise_idsBelow (count : UInt32) : (idsBelow count).Pairwise (· < ·) := by
  refine List.pairwise_map.2 (List.pairwise_lt_range.imp_of_mem fun {i j} hi hj hij => ?_)
  have := count.toNat_lt
  rw [List.mem_range] at hi hj
  rw [UInt32.lt_iff_toNat_lt, UInt32.toNat_ofNat_of_lt' (Nat.lt_trans hi this),
    UInt32.toNat_ofNat_of_lt' (Nat.lt_trans hj this)]
  exact hij

instance decidableForallBelow (count : UInt32) (p : UInt32 → Prop) [DecidablePred p] :
    Decidable (∀ i, i < count → p i) :=
  have := List.decidableBAll p (idsBelow count)
  decidable_of_iff (∀ i ∈ idsBelow count, p i) (by simp only [mem_idsBelow])

instance decidableExistsBelow (count : UInt32) (p : UInt32 → Prop) [DecidablePred p] :
    Decidable (∃ i, i < count ∧ p i) :=
  have := List.decidableBEx p (idsBelow count)
  decidable_of_iff (∃ i ∈ idsBelow count, p i) (by simp only [mem_idsBelow])

/-- Declared here so that it is found before an instance that runs through all values. -/
instance decidableForallSome (o : Option UInt32) (p : UInt32 → Prop) [DecidablePred p] :
    Decidable (∀ i ∈ o, p i) :=
  Option.decidableForallMem o

/-- The counter of a `for` loop over ids, after its increment: no wrap below a bound. -/
lemma lt_add_one_iff {i n bound : UInt32} (hi : i < bound) : n < i + 1 ↔ n < i ∨ n = i := by
  simp only [UInt32.lt_iff_toNat_lt, ← UInt32.toNat_inj, UInt32.toNat_add,
    UInt32.reduceToNat] at *
  have := bound.toNat_lt
  rw [Nat.mod_eq_of_lt (by omega)]
  omega

end CxlLock
