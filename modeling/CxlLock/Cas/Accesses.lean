import CxlLock.Cas.GlobalLock
import CxlLock.SoftwareConsistency

/-!
# The slot table lock by its accesses (`cas_global_lock.cpp`)

The operations with every access to shared memory and every flush, in the order of the source.
The locations are the words of the region by their offsets.

Every store of a slot is followed by a flush of the slot, and the `memset` by a flush of the
whole table, so that all operations write back all they store (`program_writtenBack`).
-/

namespace CxlLock.Cas

open AccessProgram LockSlotState

/-- The lines of the words. -/
def lines : Lines ShmOffset Nat := linesOf id

/-- A program over the words. -/
abbrev Accesses (α : Type) := Prog ShmOffset UInt32 α

namespace Accesses

section Operations

variable (stateOffset : ShmOffset) (nodeCount : UInt32)

/-- `write_slot_state`. -/
def writeSlotState (lockId : LockId) (nodeId : NodeId) (state : LockSlotState)
    (k : Accesses LockResult) : Accesses LockResult :=
  .store (getSlotOffset lockId nodeId nodeCount stateOffset) state.toWord <|
  .flush ⟨getSlotOffset lockId nodeId nodeCount stateOffset, 4⟩ k

/-- `CasGlobalLockAlgorithm::initialize`. -/
def initializeShm : Accesses LockResult :=
  if nodeCount = 0 ∨ maxNodeCount < nodeCount then .ret .errorInvalidParam
  else
    .fill ⟨stateOffset, (getStateSize nodeCount).toNat⟩
      (fun addr => addr - stateOffset < getStateSize nodeCount) 0 <|
    .flush ⟨stateOffset, (getStateSize nodeCount).toNat⟩ <|
    .ret .success

/-- `CasGlobalLockAlgorithm::acquire_lock`. -/
def acquireLock (nodeId : NodeId) (lockId : LockId) : Accesses LockResult :=
  if nodeId = invalidNodeId then .ret .errorInvalidParam
  else writeSlotState stateOffset nodeCount lockId nodeId waiting <| .ret .success

/-- `CasGlobalLockAlgorithm::release_lock`. -/
def releaseLock (nodeId : NodeId) (lockId : LockId) : Accesses LockResult :=
  if nodeId = invalidNodeId then .ret .errorInvalidParam
  else writeSlotState stateOffset nodeCount lockId nodeId idle <| .ret .success

/-- The loop of `check_grant` that looks for a holder. -/
def anyLocked (lockId : LockId) : List NodeId → Accesses Bool
  | [] => .ret false
  | nid :: nids =>
      .load (getSlotOffset lockId nid nodeCount stateOffset) fun st =>
      if st = locked.toWord then .ret true else anyLocked lockId nids

/-- The loop of `check_grant` that looks for the first waiting node. -/
def firstWaiting (lockId : LockId) : List NodeId → Accesses NodeId
  | [] => .ret invalidNodeId
  | nid :: nids =>
      .load (getSlotOffset lockId nid nodeCount stateOffset) fun st =>
      if st = waiting.toWord then .ret nid else firstWaiting lockId nids

/-- `CasGlobalLockAlgorithm::check_grant`. -/
def checkGrant (lockId : LockId) : Accesses NodeId :=
  if nodeCount = 0 then .ret invalidNodeId
  else
    (anyLocked stateOffset nodeCount lockId (idsBelow nodeCount)).bind fun held =>
    if held then .ret invalidNodeId
    else firstWaiting stateOffset nodeCount lockId (idsBelow nodeCount)

/-- `CasGlobalLockAlgorithm::grant_lock`. -/
def grantLock (nodeId : NodeId) (lockId : LockId) : Accesses LockResult :=
  if nodeId = invalidNodeId then .ret .errorInvalidParam
  else
    .compareExchange (getSlotOffset lockId nodeId nodeCount stateOffset) waiting.toWord
      locked.toWord fun granted =>
    if granted then
      .flush ⟨getSlotOffset lockId nodeId nodeCount stateOffset, 4⟩ <| .ret .success
    else .ret .errorBusy

/-- The accesses of a call. -/
def program : Operation → Accesses Answer
  | .initializeShm count => (initializeShm stateOffset count).bind fun rc => .ret (.inl rc)
  | .acquireLock nodeId lockId =>
      (acquireLock stateOffset nodeCount nodeId lockId).bind fun rc => .ret (.inl rc)
  | .releaseLock nodeId lockId =>
      (releaseLock stateOffset nodeCount nodeId lockId).bind fun rc => .ret (.inl rc)
  | .checkGrant count lockId => (checkGrant stateOffset count lockId).bind fun n => .ret (.inr n)
  | .grantLock nodeId lockId =>
      (grantLock stateOffset nodeCount nodeId lockId).bind fun rc => .ret (.inl rc)

/-- One iteration of `TwoTierLock::poll_for_grant`, the slot table path. -/
def pollForGrant (nodeId : NodeId) (lockId : LockId) : Accesses Bool :=
  .load (getSlotOffset lockId nodeId nodeCount stateOffset) fun val =>
  .ret (val == locked.toWord)

/-- The words that the iteration reads. -/
def pollReads (nodeId : NodeId) (lockId : LockId) : List ShmOffset :=
  [getSlotOffset lockId nodeId nodeCount stateOffset]

attribute [local simp] Prog.Every in
lemma pollForGrant_loads (n : NodeId) (l : LockId) :
    (pollForGrant stateOffset nodeCount n l).Every fun t _ =>
      ∀ e ∈ t, ∃ x ∈ pollReads stateOffset nodeCount n l, ∃ v, e = .load x v := by
  simp [pollForGrant, pollReads, Prog.Every]

lemma pollForGrant_outcome (n : NodeId) (l : LockId) (m : ShmWords) :
    (pollForGrant stateOffset nodeCount n l).outcome m =
      some (Cas.pollGranted stateOffset nodeCount n l m, m) := by
  simp [pollForGrant, Cas.pollGranted, readSlotState]

/-! ## Write-back -/

lemma lines_flushed {x : ShmOffset} {ln : Nat} :
    lines.flushed ⟨x, 4⟩ ln = true ↔ ln = lines.line x :=
  flushed_of_le (by omega) (by omega)

variable {stateOffset} in
lemma initializeShm_writtenBack (hoff : stateOffset.toNat % 64 = 0) :
    (initializeShm stateOffset nodeCount).Every fun t _ => WrittenBack lines t := by
  unfold initializeShm
  split_ifs with hcount
  · exact writtenBack_nil
  · simp only [Prog.Every, writtenBack_fill, flushedIn_flush]
    refine ⟨?_, by simp⟩
    intro ln hfilled
    obtain ⟨i, hi, rfl⟩ := filled_iff.1 hfilled
    -- the line of the byte is that of the last multiple of 64 before it
    have hline : lineAt (id stateOffset) i = lineAt (id stateOffset) (64 * (i / 64)) :=
      lineAt_div hoff i
    have hlt : 64 * (i / 64) < (getStateSize nodeCount).toNat :=
      Nat.lt_of_le_of_lt (Nat.mul_div_le i 64) hi
    rw [hline]
    exact .inl (flushed_of_lt hlt)

lemma acquireLock_writtenBack (nodeId : NodeId) (lockId : LockId) :
    (acquireLock stateOffset nodeCount nodeId lockId).Every fun t _ => WrittenBack lines t := by
  unfold acquireLock
  split_ifs with hn
  · exact writtenBack_nil
  · simp [writeSlotState, Prog.Every, lines_flushed]

lemma releaseLock_writtenBack (nodeId : NodeId) (lockId : LockId) :
    (releaseLock stateOffset nodeCount nodeId lockId).Every fun t _ => WrittenBack lines t := by
  unfold releaseLock
  split_ifs with hn
  · exact writtenBack_nil
  · simp [writeSlotState, Prog.Every, lines_flushed]

lemma anyLocked_readOnly (lockId : LockId) (nids : List NodeId) :
    (anyLocked stateOffset nodeCount lockId nids).Every fun t _ => ReadOnly lines t := by
  induction nids with
  | nil => exact readOnly_nil
  | cons nid nids ih =>
      simp only [anyLocked, Prog.Every]
      intro st
      by_cases hst : st = locked.toWord
      · simp [hst, Prog.Every, readOnly_cons, Event.Touches]
      · rw [if_neg hst]
        refine ih.mono fun t _ hread => ?_
        simpa [readOnly_cons, Event.Touches] using hread

lemma firstWaiting_readOnly (lockId : LockId) (nids : List NodeId) :
    (firstWaiting stateOffset nodeCount lockId nids).Every fun t _ => ReadOnly lines t := by
  induction nids with
  | nil => exact readOnly_nil
  | cons nid nids ih =>
      simp only [firstWaiting, Prog.Every]
      intro st
      by_cases hst : st = waiting.toWord
      · simp [hst, Prog.Every, readOnly_cons, Event.Touches]
      · rw [if_neg hst]
        refine ih.mono fun t _ hread => ?_
        simpa [readOnly_cons, Event.Touches] using hread

lemma checkGrant_writtenBack (lockId : LockId) :
    (checkGrant stateOffset nodeCount lockId).Every fun t _ => WrittenBack lines t := by
  unfold checkGrant
  split_ifs with hcount
  · exact writtenBack_nil
  · rw [Prog.every_bind]
    refine (anyLocked_readOnly stateOffset nodeCount lockId _).mono fun t held hread => ?_
    split_ifs with hheld
    · simpa [Prog.Every] using hread.writtenBack
    · refine (firstWaiting_readOnly stateOffset nodeCount lockId _).mono fun t' _ hread' => ?_
      exact hread.writtenBack_append.2 hread'.writtenBack

lemma grantLock_writtenBack (nodeId : NodeId) (lockId : LockId) :
    (grantLock stateOffset nodeCount nodeId lockId).Every fun t _ => WrittenBack lines t := by
  unfold grantLock
  split_ifs with hn
  · exact writtenBack_nil
  · simp [Prog.Every, lines_flushed]

variable {stateOffset} in
/-- The operations write back all they store. -/
lemma program_writtenBack (hoff : stateOffset.toNat % 64 = 0) (op : Operation) :
    (program stateOffset nodeCount op).Every fun t _ => WrittenBack lines t := by
  cases op with
  | initializeShm count =>
      simpa [program, Prog.every_bind, Prog.Every] using initializeShm_writtenBack count hoff
  | acquireLock n l =>
      simpa [program, Prog.every_bind, Prog.Every] using
        acquireLock_writtenBack stateOffset nodeCount n l
  | releaseLock n l =>
      simpa [program, Prog.every_bind, Prog.Every] using
        releaseLock_writtenBack stateOffset nodeCount n l
  | checkGrant count l =>
      simpa [program, Prog.every_bind, Prog.Every] using
        checkGrant_writtenBack stateOffset count l
  | grantLock n l =>
      simpa [program, Prog.every_bind, Prog.Every] using
        grantLock_writtenBack stateOffset nodeCount n l

end Operations

/-! ## The whole calls -/

section Outcome

variable (stateOffset : ShmOffset) (nodeCount : UInt32) (shm : ShmWords)

theorem initializeShm_outcome :
    (initializeShm stateOffset nodeCount).outcome shm =
      some (Cas.initializeShm stateOffset nodeCount shm) := by
  unfold initializeShm Cas.initializeShm
  split_ifs with hcount
  · simp
  · simp

theorem acquireLock_outcome (n : NodeId) (l : LockId) :
    (acquireLock stateOffset nodeCount n l).outcome shm =
      some (Cas.acquireLock stateOffset nodeCount n l shm) := by
  unfold acquireLock Cas.acquireLock
  split_ifs with hn
  · simp
  · simp [writeSlotState, Cas.writeSlotState]

theorem releaseLock_outcome (n : NodeId) (l : LockId) :
    (releaseLock stateOffset nodeCount n l).outcome shm =
      some (Cas.releaseLock stateOffset nodeCount n l shm) := by
  unfold releaseLock Cas.releaseLock
  split_ifs with hn
  · simp
  · simp [writeSlotState, Cas.writeSlotState]

lemma anyLocked_outcome (l : LockId) (nids : List NodeId) :
    (anyLocked stateOffset nodeCount l nids).outcome shm =
      some (nids.any fun nid =>
        readSlotState l nid nodeCount stateOffset shm == locked.toWord, shm) := by
  induction nids with
  | nil => rfl
  | cons nid nids ih =>
      simp only [anyLocked, Prog.outcome_load, List.any_cons, readSlotState] at ih ⊢
      split_ifs with hst
      · simp [hst]
      · simp [hst, ih]

lemma firstWaiting_outcome (l : LockId) (nids : List NodeId) :
    (firstWaiting stateOffset nodeCount l nids).outcome shm =
      some ((nids.find? fun nid =>
        readSlotState l nid nodeCount stateOffset shm == waiting.toWord).getD invalidNodeId,
        shm) := by
  induction nids with
  | nil => rfl
  | cons nid nids ih =>
      by_cases hst : shm (getSlotOffset l nid nodeCount stateOffset) = waiting.toWord
      · simp [firstWaiting, readSlotState, hst]
      · rw [firstWaiting, Prog.outcome_load, if_neg hst, ih,
          List.find?_cons_of_neg (by simpa [readSlotState] using hst)]

theorem checkGrant_outcome (l : LockId) :
    (checkGrant stateOffset nodeCount l).outcome shm =
      some (Cas.checkGrant stateOffset nodeCount l shm, shm) := by
  unfold checkGrant Cas.checkGrant
  by_cases hcount : nodeCount = 0
  · simp [hcount]
  · simp only [hcount, if_false, Prog.outcome_bind, anyLocked_outcome, Option.bind_some]
    split_ifs with hheld
    · rfl
    · exact firstWaiting_outcome stateOffset nodeCount shm l (idsBelow nodeCount)

theorem grantLock_outcome (n : NodeId) (l : LockId) :
    (grantLock stateOffset nodeCount n l).outcome shm =
      some (Cas.grantLock stateOffset nodeCount n l shm) := by
  unfold grantLock Cas.grantLock
  by_cases hn : n = invalidNodeId
  · simp [hn]
  · by_cases hwaiting : shm (getSlotOffset l n nodeCount stateOffset) = waiting.toWord
    · simp [hn, readSlotState, Cas.writeSlotState, hwaiting]
    · simp [hn, readSlotState, hwaiting]

end Outcome

end Accesses

end CxlLock.Cas
