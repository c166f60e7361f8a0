import CxlLock.SharedMemory

/-!
# The slots of a node in the slot table lock

The slots are a two-dimensional table, flattened with `node_count` slots for each lock, and
`check_grant` of a lock scans the row of that lock.  The slot of a node id from `node_count` on
lies in the row of a later lock; `TwoTierLock::initialize` and `CasGlobalLockAlgorithm` refuse
no node id but the sentinel, where the queue locks compare the id with `node_count_`.

`ownSlots_iff`: where the call can return, because the table is mapped, an accepted node has
slots of its own exactly when its id is below the number of nodes.
-/

namespace CxlLock.Cas

open LockSlotState

/-- The operation reads and writes no other word than the one at `addr`. -/
def TouchesOnly {α : Type} (op : ShmWords → α × ShmWords) (addr : ShmOffset) : Prop :=
  (∀ shm a, a ≠ addr → (op shm).2 a = shm a) ∧
    ∀ shm shm', shm addr = shm' addr →
      (op shm).1 = (op shm').1 ∧ (op shm).2 addr = (op shm').2 addr

/-- The slots that `check_grant` reads. -/
def scannedSlots (stateOffset : ShmOffset) (nodeCount : UInt32) (lockId : LockId) :
    List ShmOffset :=
  (idsBelow nodeCount).map fun nid => getSlotOffset lockId nid nodeCount stateOffset

/-- The node works on slots of its own: each of its calls for a lock touches the one slot that
`check_grant` scans for it, no other lock and node have this slot, a request for a free lock is
the next to be granted, and requests and releases change the slots of no other lock or node. -/
structure OwnSlots (stateOffset : ShmOffset) (nodeCount maxLocks : UInt32) (nodeId : NodeId) :
    Prop where
  acquire : ∀ l, l < maxLocks → TouchesOnly (acquireLock stateOffset nodeCount nodeId l)
    (getSlotOffset l nodeId nodeCount stateOffset)
  poll : ∀ l, l < maxLocks → TouchesOnly
    (fun shm => (pollGranted stateOffset nodeCount nodeId l shm, shm))
    (getSlotOffset l nodeId nodeCount stateOffset)
  release : ∀ l, l < maxLocks → TouchesOnly (releaseLock stateOffset nodeCount nodeId l)
    (getSlotOffset l nodeId nodeCount stateOffset)
  scanned : ∀ l, l < maxLocks →
    getSlotOffset l nodeId nodeCount stateOffset ∈ scannedSlots stateOffset nodeCount l
  unshared : ∀ l, l < maxLocks → ∀ j, j < maxLocks → ∀ k, k < nodeCount → ¬ (j = l ∧ k = nodeId) →
    getSlotOffset j k nodeCount stateOffset ≠ getSlotOffset l nodeId nodeCount stateOffset
  granted : ∀ l, l < maxLocks → ∀ shm, (∀ a ∈ scannedSlots stateOffset nodeCount l, shm a = 0) →
    checkGrant stateOffset nodeCount l (acquireLock stateOffset nodeCount nodeId l shm).2 = nodeId
  others : ∀ l, l < maxLocks → ∀ j, j < maxLocks → ∀ k, k < nodeCount → ¬ (j = l ∧ k = nodeId) →
    ∀ shm, readSlotState j k nodeCount stateOffset
        (acquireLock stateOffset nodeCount nodeId l shm).2 =
      readSlotState j k nodeCount stateOffset shm ∧
    readSlotState j k nodeCount stateOffset (releaseLock stateOffset nodeCount nodeId l shm).2 =
      readSlotState j k nodeCount stateOffset shm

section

variable {stateOffset : ShmOffset} {nodeCount maxLocks : UInt32} {n k : NodeId} {l : LockId}

/-- Slots in the row of one lock are the same for the same node only, however large the node
ids are. -/
lemma getSlotOffset_row_inj : getSlotOffset l n nodeCount stateOffset =
    getSlotOffset l k nodeCount stateOffset ↔ n = k := by
  refine ⟨fun h => ?_, fun h => by rw [h]⟩
  simp only [getSlotOffset, UInt64.add_right_inj] at h
  have hn := n.toNat_lt
  have hk := k.toNat_lt
  have hnat := congrArg UInt64.toNat h
  simp only [UInt64.toNat_mul, UInt32.toNat_toUInt64, UInt64.reduceToNat] at hnat
  exact UInt32.toNat_inj.1 (by omega)

lemma mem_scannedSlots : getSlotOffset l n nodeCount stateOffset ∈
    scannedSlots stateOffset nodeCount l ↔ n < nodeCount := by
  simp only [scannedSlots, List.mem_map, getSlotOffset_row_inj, exists_eq_right, mem_idsBelow]

/-- Nothing but the scanned slots matters to `check_grant`. -/
lemma checkGrant_congr {shm shm' : ShmWords}
    (h : ∀ a ∈ scannedSlots stateOffset nodeCount l, shm a = shm' a) :
    checkGrant stateOffset nodeCount l shm = checkGrant stateOffset nodeCount l shm' := by
  have hread : ∀ nid ∈ idsBelow nodeCount, readSlotState l nid nodeCount stateOffset shm =
      readSlotState l nid nodeCount stateOffset shm' := fun nid hnid =>
    h _ (mem_scannedSlots.2 (mem_idsBelow.1 hnid))
  have hany : ((idsBelow nodeCount).any fun nid =>
      readSlotState l nid nodeCount stateOffset shm == locked.toWord) =
      (idsBelow nodeCount).any fun nid =>
        readSlotState l nid nodeCount stateOffset shm' == locked.toWord := by
    rw [Bool.eq_iff_iff, List.any_eq_true, List.any_eq_true]
    exact exists_congr fun nid => and_congr_right fun hnid => by rw [hread nid hnid]
  have hfind : ((idsBelow nodeCount).find? fun nid =>
      readSlotState l nid nodeCount stateOffset shm == waiting.toWord) =
      (idsBelow nodeCount).find? fun nid =>
        readSlotState l nid nodeCount stateOffset shm' == waiting.toWord := by
    rw [← List.head?_filter, ← List.head?_filter,
      List.filter_congr fun nid hnid => by rw [hread nid hnid]]
  unfold checkGrant
  rw [hany, hfind]

/-- A store of a fixed value to the slot touches the slot only. -/
lemma touchesOnly_write (rc : LockResult) (addr : ShmOffset) (v : UInt32) :
    TouchesOnly (fun shm => (rc, Function.update shm addr v)) addr := by
  refine ⟨fun shm a ha => Function.update_of_ne ha _ _, fun shm shm' _ => ⟨rfl, ?_⟩⟩
  show Function.update shm addr v addr = Function.update shm' addr v addr
  rw [Function.update_self, Function.update_self]

lemma acquireLock_touches (hn : n ≠ invalidNodeId) :
    TouchesOnly (acquireLock stateOffset nodeCount n l)
      (getSlotOffset l n nodeCount stateOffset) := by
  unfold acquireLock
  simp only [hn, if_false]
  exact touchesOnly_write _ _ _

lemma releaseLock_touches (hn : n ≠ invalidNodeId) :
    TouchesOnly (releaseLock stateOffset nodeCount n l)
      (getSlotOffset l n nodeCount stateOffset) := by
  unfold releaseLock
  simp only [hn, if_false]
  exact touchesOnly_write _ _ _

lemma pollGranted_touches :
    TouchesOnly (fun shm => (pollGranted stateOffset nodeCount n l shm, shm))
      (getSlotOffset l n nodeCount stateOffset) := by
  refine ⟨fun _ _ _ => rfl, fun shm shm' h => ⟨?_, h⟩⟩
  simp only [pollGranted, readSlotState, h]

/-- A request for a lock on which nobody waits or holds is the next to be granted. -/
lemma checkGrant_acquireLock (hinv : n ≠ invalidNodeId) (hn : n < nodeCount) {shm : ShmWords}
    (hidle : ∀ a ∈ scannedSlots stateOffset nodeCount l, shm a = 0) :
    checkGrant stateOffset nodeCount l (acquireLock stateOffset nodeCount n l shm).2 = n := by
  have hpos : nodeCount ≠ 0 := by
    rintro rfl
    exact absurd hn UInt32.not_lt_zero
  have hread : ∀ k, k < nodeCount → readSlotState l k nodeCount stateOffset
      (acquireLock stateOffset nodeCount n l shm).2 = if k = n then waiting.toWord else 0 := by
    intro k hk
    simp only [acquireLock, hinv, if_false, readSlotState, writeSlotState,
      Function.update_apply, getSlotOffset_row_inj]
    split_ifs
    · rfl
    · exact hidle _ (mem_scannedSlots.2 hk)
  have hnone : (idsBelow nodeCount).any (fun nid => readSlotState l nid nodeCount stateOffset
      (acquireLock stateOffset nodeCount n l shm).2 == locked.toWord) = false := by
    refine List.any_eq_false.2 fun nid hnid => ?_
    rw [hread nid (mem_idsBelow.1 hnid)]
    split_ifs <;> decide
  have hfind : (idsBelow nodeCount).find? (fun nid => readSlotState l nid nodeCount stateOffset
      (acquireLock stateOffset nodeCount n l shm).2 == waiting.toWord) = some n := by
    cases hf : (idsBelow nodeCount).find? (fun nid => readSlotState l nid nodeCount stateOffset
        (acquireLock stateOffset nodeCount n l shm).2 == waiting.toWord) with
    | none =>
        have := List.find?_eq_none.1 hf n (mem_idsBelow.2 hn)
        rw [hread n hn] at this
        simp at this
    | some k =>
        have hk := List.find?_some hf
        rw [hread k (mem_idsBelow.1 (List.mem_of_find?_eq_some hf))] at hk
        split_ifs at hk with hkn
        · rw [hkn]
        · exact absurd hk (by decide)
  simp only [checkGrant, hpos, if_false, hnone, Bool.false_eq_true, hfind, Option.getD_some]

/-- An accepted node id below the number of nodes. -/
lemma ownSlots_of_lt (hinv : n ≠ invalidNodeId) (hlocks : maxLocks ≤ maxLockCount)
    (hcount : nodeCount ≤ maxNodeCount) (hn : n < nodeCount) :
    OwnSlots stateOffset nodeCount maxLocks n where
  acquire _ _ := acquireLock_touches hinv
  poll _ _ := pollGranted_touches
  release _ _ := releaseLock_touches hinv
  scanned _ _ := mem_scannedSlots.2 hn
  unshared l hl j hj k hk hne := by
    have hl' := UInt32.lt_of_lt_of_le hl hlocks
    have hj' := UInt32.lt_of_lt_of_le hj hlocks
    rwa [Ne, getSlotOffset_inj hcount hj' hk hl' hn]
  granted _ _ _ hidle := checkGrant_acquireLock hinv hn hidle
  others l hl j hj k hk hne shm := by
    have hl' := UInt32.lt_of_lt_of_le hl hlocks
    have hj' := UInt32.lt_of_lt_of_le hj hlocks
    simp only [acquireLock, releaseLock, hinv, if_false,
      readSlotState_write hcount hl' hn hj' hk, hne, and_self]

end

/-- **Every accepted node has its own slots** exactly when the parameters are refused, the call
does not return because the table is not mapped, or the node id is below the number of nodes: the
upper bound on node ids is not checked. -/
theorem ownSlots_iff (shm : SharedMemoryRegion) (behind : Nat) (stateOffset : ShmOffset)
    (initialized : Bool) (nodeId : NodeId) (maxLocks nodeCount : UInt32) :
    ((twoTierInitializeStores .cas shm behind initialized nodeId stateOffset maxLocks
        nodeCount).1 = some .success →
      OwnSlots stateOffset (effectiveNodeCount nodeCount maxLocks) maxLocks nodeId) ↔
      ParametersRefused initialized nodeId maxLocks nodeCount ∨
        ¬ LockAlgorithm.cas.Returns shm behind stateOffset
            (effectiveNodeCount nodeCount maxLocks) ∨
          nodeId < effectiveNodeCount nodeCount maxLocks := by
  by_cases ha : ParametersRefused initialized nodeId maxLocks nodeCount
  · obtain ⟨rc, hrc, hcall⟩ := initialize_refused .cas shm behind stateOffset ha
    refine iff_of_true (fun hok => ?_) (Or.inl ha)
    rw [hcall] at hok
    exact absurd (Option.some.inj hok) hrc
  rw [initialize_accepted .cas shm behind stateOffset ha]
  by_cases hreturns : LockAlgorithm.cas.Returns shm behind stateOffset
      (effectiveNodeCount nodeCount maxLocks)
  · obtain ⟨hzero, hlocks, hcount⟩ := accepted_counts ha
    have hinv : nodeId ≠ invalidNodeId := fun h => ha (Or.inl h)
    have hpos : 0 < maxLocks := UInt32.pos_iff_ne_zero.2 hzero
    rw [if_pos hreturns]
    constructor
    · intro h
      exact Or.inr (Or.inr (mem_scannedSlots.1 ((h rfl).scanned 0 hpos)))
    · intro h _
      exact ownSlots_of_lt hinv hlocks hcount
        ((h.resolve_left ha).resolve_left (not_not.2 hreturns))
  · rw [if_neg hreturns]
    exact iff_of_true (fun hok => absurd hok (Option.some_ne_none _).symm)
      (Or.inr (Or.inl hreturns))

/-- In a system of one node and two locks, node 1 is accepted, and its request for lock 0 goes
to the slot of node 0 for lock 1. -/
theorem accepted_node_aliases : ¬ ∀ (shm : SharedMemoryRegion) (behind : Nat)
    (stateOffset : ShmOffset) (initialized : Bool) (nodeId : NodeId) (maxLocks nodeCount : UInt32),
    (twoTierInitializeStores .cas shm behind initialized nodeId stateOffset maxLocks
        nodeCount).1 = some .success →
      OwnSlots stateOffset (effectiveNodeCount nodeCount maxLocks) maxLocks nodeId := fun h =>
  (h ⟨true, 4096⟩ 0 0 false 1 2 1 (by decide)).unshared 0 (by decide) 1 (by decide) 0 (by decide)
    (by decide) (by decide)

end CxlLock.Cas
