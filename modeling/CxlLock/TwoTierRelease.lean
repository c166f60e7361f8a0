import CxlLock.Cas.Interleaving
import CxlLock.DistributedLock

/-!
# `TwoTierLock::release` by a thread without the local mutex

`release` updates the global records first and unlocks the local mutex second.  Only the
second step knows the thread, so a thread that never took the lock is refused after the global
lock has been given back: `refused_release_unlocks` is a run in which another thread of the
same node is inside.  `lock_interface.h` leaves it to the caller of `release_lock` to verify
that it holds the lock.

`NothingToRelease` says for each algorithm when `release_lock` changes no record, and with it
when such a call is refused without any effect.
-/

namespace CxlLock

open Transition

/-- The members of `TwoTierLock` that `release` depends on. -/
structure TwoTierLock where
  initialized : Bool
  nodeId : NodeId
  stateOffset : ShmOffset
  maxLocks : UInt32
  nodeCount : UInt32

/-- The algorithm with its records at `stateOffset`. -/
def LockAlgorithm.algorithmAt (stateOffset : ShmOffset) :
    (k : LockAlgorithm) → GlobalLockAlgorithm k.Shm
  | .cas => Cas.algorithm stateOffset
  | .faa => Faa.algorithm
  | .mcs => Mcs.algorithm
  | .qspinlock => Qspinlock.algorithm

namespace TwoTierLock

variable {T : Type} [DecidableEq T]

/-- `TwoTierLock::release` by thread `t`; `none` when `release_lock` does not return. -/
def release (lock : TwoTierLock) (k : LockAlgorithm) (t : T) (lockId : LockId)
    (localLocks : LocalLockArray T) (shm : k.Shm) :
    Option (LockResult × LocalLockArray T × k.Shm) :=
  if lock.initialized = false then some (.errorLockNotInitialized, localLocks, shm)
  else if lockId ≥ lock.maxLocks then some (.errorInvalidParam, localLocks, shm)
  else
    ((k.algorithmAt lock.stateOffset).releaseLock lock.nodeCount lock.nodeId lockId shm).map
      fun r =>
        (if r.1 ≠ .success then r.1 else (localLocks.release t lockId).1,
          (localLocks.release t lockId).2, r.2)

/-- The call returns an error and has changed neither the local mutexes nor the records. -/
def Refused (lock : TwoTierLock) (k : LockAlgorithm) (t : T) (lockId : LockId)
    (localLocks : LocalLockArray T) (shm : k.Shm) : Prop :=
  ∃ rc, rc ≠ .success ∧ lock.release k t lockId localLocks shm = some (rc, localLocks, shm)

/-- The records that `release_lock` stores to have the values already that it stores, or its
own checks refuse the node. -/
def NothingToRelease (lock : TwoTierLock) (lockId : LockId) :
    (k : LockAlgorithm) → k.Shm → Prop
  | .cas, shm => lock.nodeId = invalidNodeId ∨
      Cas.readSlotState lockId lock.nodeId lock.nodeCount lock.stateOffset shm =
        LockSlotState.idle.toWord
  | .faa, shm => lock.nodeId = invalidNodeId ∨
      shm.ticket lock.nodeId = ⟨0, 0⟩ ∧ (shm.entry lockId).ownerNode = invalidNodeId
  | .mcs, shm => Mcs.paramError lock.nodeCount lock.nodeId lockId = true ∨
      (shm.entry lockId).ownerNode ≠ lock.nodeId
  | .qspinlock, shm => Qspinlock.paramError lock.nodeCount lock.nodeId lockId = true ∨
      (shm.entry lockId).ownerNode ≠ lock.nodeId

section

variable {lock : TwoTierLock} {l : LockId}

lemma cas_releaseLock_inert {shm : ShmWords} :
    (∃ rc, Cas.releaseLock lock.stateOffset lock.nodeCount lock.nodeId l shm = (rc, shm)) ↔
      lock.NothingToRelease l .cas shm := by
  unfold Cas.releaseLock NothingToRelease
  split_ifs with hinv
  · exact ⟨fun _ => .inl hinv, fun _ => ⟨_, rfl⟩⟩
  · simp only [Prod.mk.injEq, exists_eq_left', Cas.writeSlotState, Cas.readSlotState,
      Function.update_eq_self_iff, hinv, false_or]
    exact eq_comm

lemma faa_releaseLock_inert {shm : FaaShm} :
    (∃ rc, Faa.releaseLock lock.nodeId l shm = (rc, shm)) ↔
      lock.NothingToRelease l .faa shm := by
  unfold NothingToRelease
  by_cases hinv : lock.nodeId = invalidNodeId
  · simp [Faa.releaseLock, hinv]
  · simp only [Faa.releaseLock, hinv, if_false, Prod.mk.injEq, exists_eq_left', false_or]
    constructor
    · intro h
      have hticket := congrArg (fun s => (s.ticket lock.nodeId).ticket) h
      have hactive := congrArg (fun s => (s.ticket lock.nodeId).active) h
      have howner := congrArg (fun s => (s.entry l).ownerNode) h
      simp only [FaaShm.storeOwner_ticket, FaaShm.storeActive_ticket, FaaShm.storeTicket_ticket,
        FaaShm.storeActive_active, FaaShm.storeOwner_ownerNode, if_true] at hticket hactive howner
      rw [← howner]
      refine ⟨?_, rfl⟩
      rcases hrecord : shm.ticket lock.nodeId with ⟨ticket, active⟩
      simp only [hrecord] at hticket hactive
      rw [← hticket, ← hactive]
    · rintro ⟨hrecord, howner⟩
      obtain ⟨entry, ticket⟩ := shm
      simp only [FaaShm.storeOwner, FaaShm.storeActive, FaaShm.storeTicket, FaaShm.mk.injEq,
        Function.update_idem, Function.update_self, Function.update_eq_self_iff]
      simp only at hrecord howner
      rw [hrecord]
      refine ⟨?_, rfl⟩
      rw [← howner]

lemma mcs_releaseLock_inert {shm : McsShm} :
    (∃ rc, Mcs.releaseLock lock.nodeCount lock.nodeId l shm = some (rc, shm)) ↔
      lock.NothingToRelease l .mcs shm := by
  unfold NothingToRelease
  by_cases hparam : Mcs.paramError lock.nodeCount lock.nodeId l = true
  · simp [Mcs.releaseLock, hparam]
  by_cases howner : (shm.entry l).ownerNode = lock.nodeId
  · -- every way on takes the node out of `owner_node` or out of its own link
    have hinv : lock.nodeId ≠ invalidNodeId := by
      simp only [Mcs.paramError, Bool.or_eq_true, beq_iff_eq, not_or] at hparam
      exact hparam.1.1
    simp only [Mcs.releaseLock, hparam, howner, ne_eq, not_true_eq_false, Bool.false_eq_true,
      if_false, or_self, iff_false, not_exists]
    intro rc h
    split_ifs at h with hnext htail
    · have hshm := congrArg (fun r => r.map fun r => (r.2.entry l).ownerNode) h
      simp only [Option.map_some, Mcs.emptyQueue_ownerNode, if_true, howner,
        Option.some.injEq] at hshm
      exact hinv hshm.symm
    · have hshm := congrArg (fun r => r.map fun r => (r.2.node lock.nodeId).nextNode) h
      simp only [Option.map_some, Mcs.passLock_nextNode, if_true, Option.some.injEq] at hshm
      exact hnext hshm.symm
  · simp [Mcs.releaseLock, hparam, howner]

lemma qspinlock_releaseLock_inert {shm : QspinShm} :
    (∃ rc, Qspinlock.releaseLock lock.nodeCount lock.nodeId l shm = (rc, shm)) ↔
      lock.NothingToRelease l .qspinlock shm := by
  unfold NothingToRelease
  by_cases hparam : Qspinlock.paramError lock.nodeCount lock.nodeId l = true
  · simp [Qspinlock.releaseLock, hparam]
  by_cases howner : (shm.entry l).ownerNode = lock.nodeId
  · have hinv : lock.nodeId ≠ invalidNodeId := by
      simp only [Qspinlock.paramError, Bool.or_eq_true, beq_iff_eq, not_or] at hparam
      exact hparam.1.1
    simp only [Qspinlock.releaseLock, hparam, howner, ne_eq, not_true_eq_false,
      Bool.false_eq_true, if_false, or_self, iff_false, not_exists]
    intro rc h
    split_ifs at h with hnext htail
    · have hshm := congrArg (fun r => (r.2.entry l).ownerNode) h
      simp only [Qspinlock.emptyQueue_ownerNode, if_true, howner] at hshm
      exact hinv hshm.symm
    · have hshm := congrArg (fun r => (r.2.entry l).ownerNode) h
      simp only [Qspinlock.forceRelease_ownerNode, if_true, howner] at hshm
      exact hinv hshm.symm
    · have hshm := congrArg (fun r => (r.2.node lock.nodeId).nextNode) h
      simp only [Qspinlock.passLock_nextNode, if_true] at hshm
      exact hnext hshm.symm
  · simp [Qspinlock.releaseLock, hparam, howner]

/-- `release_lock` returns and leaves the records as they are exactly when there is nothing to
release. -/
lemma releaseLock_inert (k : LockAlgorithm) {shm : k.Shm} :
    (∃ rc, (k.algorithmAt lock.stateOffset).releaseLock lock.nodeCount lock.nodeId l shm =
      some (rc, shm)) ↔ lock.NothingToRelease l k shm := by
  cases k with
  | cas =>
      simp only [LockAlgorithm.algorithmAt, Cas.algorithm, Option.some.injEq]
      exact cas_releaseLock_inert
  | faa =>
      simp only [LockAlgorithm.algorithmAt, Faa.algorithm, Option.some.injEq]
      exact faa_releaseLock_inert
  | mcs => exact mcs_releaseLock_inert
  | qspinlock =>
      simp only [LockAlgorithm.algorithmAt, Qspinlock.algorithm, Option.some.injEq]
      exact qspinlock_releaseLock_inert

variable {k : LockAlgorithm} {t : T} {localLocks : LocalLockArray T} {shm : k.Shm}

/-- Without the local mutex a `release` that returns has failed and changed no mutex. -/
lemma release_of_not_owner (ht : localLocks.owner l ≠ some t) {rc : LockResult}
    {localLocks' : LocalLockArray T} {shm' : k.Shm}
    (h : lock.release k t l localLocks shm = some (rc, localLocks', shm')) :
    rc ≠ .success ∧ localLocks' = localLocks := by
  obtain ⟨hfail, hsame⟩ := LocalLockArray.release_of_not_owner ht
  unfold release at h
  split_ifs at h with hinit hlock
  · cases h
    exact ⟨by decide, rfl⟩
  · cases h
    exact ⟨by decide, rfl⟩
  · obtain ⟨r, -, h⟩ := Option.map_eq_some_iff.1 h
    obtain ⟨hrc, hlocks, -⟩ := by simpa only [Prod.mk.injEq] using h
    subst hrc hlocks
    refine ⟨?_, hsame⟩
    split_ifs with hr
    · exact hr
    · exact hfail

/-- Without the local mutex, `release` is refused with no effect exactly when it stops at its
own checks or there is nothing to release. -/
lemma refused_iff (ht : localLocks.owner l ≠ some t) : lock.Refused k t l localLocks shm ↔
    lock.initialized = false ∨ lock.maxLocks ≤ l ∨ lock.NothingToRelease l k shm := by
  have hsame := (LocalLockArray.release_of_not_owner ht).2
  by_cases hinit : lock.initialized = false
  · refine ⟨fun _ => .inl hinit, fun _ => ⟨.errorLockNotInitialized, by decide, ?_⟩⟩
    rw [release, if_pos hinit]
  by_cases hlock : lock.maxLocks ≤ l
  · refine ⟨fun _ => .inr (.inl hlock), fun _ => ⟨.errorInvalidParam, by decide, ?_⟩⟩
    rw [release, if_neg hinit, if_pos hlock]
  · rw [or_iff_right hinit, or_iff_right hlock, ← releaseLock_inert k]
    constructor
    · rintro ⟨rc, -, h⟩
      rw [release, if_neg hinit, if_neg hlock] at h
      obtain ⟨⟨rc', shm'⟩, hr, h⟩ := Option.map_eq_some_iff.1 h
      obtain rfl : shm' = shm := congrArg (fun r => r.2.2) h
      exact ⟨rc', hr⟩
    · rintro ⟨rc, hr⟩
      have h : lock.release k t l localLocks shm =
          some (if rc ≠ .success then rc else (localLocks.release t l).1, localLocks, shm) := by
        rw [release, if_neg hinit, if_neg hlock, hr, Option.map_some, hsame]
      exact ⟨_, (release_of_not_owner ht h).1, h⟩

/-- **When a refused release changes nothing.**  For a thread without the local mutex a
`release` that returns has failed and changed no local mutex; it has also left the records as
they were exactly when it stops at its own checks or there is nothing to release. -/
theorem release_refused_iff (lock : TwoTierLock) (k : LockAlgorithm) (t : T) (l : LockId)
    (localLocks : LocalLockArray T) (shm : k.Shm) (ht : localLocks.owner l ≠ some t) :
    (lock.Refused k t l localLocks shm ↔
      lock.initialized = false ∨ lock.maxLocks ≤ l ∨ lock.NothingToRelease l k shm) ∧
    ∀ rc localLocks' shm', lock.release k t l localLocks shm = some (rc, localLocks', shm') →
      rc ≠ .success ∧ localLocks' = localLocks :=
  ⟨refused_iff ht, fun _ _ _ h => release_of_not_owner ht h⟩

end

/-- Under the slot table, thread `false` of node 0 is inside lock 0, and node 1 is idle. -/
lemma thread_inside : ∃ s : Cas.State Bool, (Cas.machine (.of 2 1) 0).system.Reachable s ∧
    (s.pc (0, false)).inside 0 = true ∧
      ((s.mem.localLocks 0).owner 0 = some false ∧ (s.mem.localLocks 1).owner 0 = none) ∧
      Cas.readSlotState 0 0 2 0 s.mem.shm ≠ LockSlotState.idle.toWord ∧
      Cas.readSlotState 0 1 2 0 s.mem.shm = LockSlotState.idle.toWord := by
  obtain ⟨s, hs, hp⟩ := LabelledSystem.exists_of_exec (fun _ _ => True)
    ([.party (0, false) (.acquire 0 0), .party (0, false) (.clock 0),
      .party (0, false) (.clock 0), .manager, .manager, .manager, .manager,
      .party (0, false) (.clock 0)])
    (fun s : Cas.State Bool => decide ((s.pc (0, false)).inside 0 = true ∧
      ((s.mem.localLocks 0).owner 0 = some false ∧ (s.mem.localLocks 1).owner 0 = none) ∧
      Cas.readSlotState 0 0 2 0 s.mem.shm ≠ LockSlotState.idle.toWord ∧
      Cas.readSlotState 0 1 2 0 s.mem.shm = LockSlotState.idle.toWord))
    (Cas.zeroedStart_init Bool (.of 2 1) 0) (by decide +kernel)
  exact ⟨s, hs, of_decide_eq_true hp⟩

/-- A thread of node 1 is refused with no effect, a second thread of node 0 is not. -/
theorem release_refused_run : ∃ s : Cas.State Bool,
    (Cas.machine (.of 2 1) 0).system.Reachable s ∧ (s.pc (0, false)).inside 0 = true ∧
      TwoTierLock.Refused ⟨true, 1, 0, 1, 2⟩ .cas true 0 (s.mem.localLocks 1) s.mem.shm ∧
      ¬ TwoTierLock.Refused ⟨true, 0, 0, 1, 2⟩ .cas true 0 (s.mem.localLocks 0) s.mem.shm := by
  obtain ⟨s, hs, hinside, ⟨howner, hnone⟩, hslot, hidle⟩ := thread_inside
  have hother := (release_refused_iff ⟨true, 1, 0, 1, 2⟩ .cas true 0
    (s.mem.localLocks 1) s.mem.shm (by simp [hnone])).1
  have hsame := (release_refused_iff ⟨true, 0, 0, 1, 2⟩ .cas true 0
    (s.mem.localLocks 0) s.mem.shm (by simp [howner])).1
  refine ⟨s, hs, hinside, hother.2 (.inr (.inr (.inr hidle))), fun h => ?_⟩
  rcases hsame.1 h with hinit | hlock | hnode | hidle
  · cases hinit
  · exact absurd hlock (by decide)
  · exact absurd hnode (by decide)
  · exact hslot hidle

/-- Under the slot table, thread `false` of node 0 is inside lock 0; a `release` by thread
`true` of the same node is refused by the mutex, but has stored `IDLE` to the slot. -/
theorem refused_release_unlocks : ¬ ∀ (size : SystemSize) (stateOffset : ShmOffset)
    (s : Cas.State Bool), (Cas.machine size stateOffset).system.Reachable s →
      ∀ (n : NodeId) (t : Bool) (l : LockId), n < size.nodeCount →
        (s.mem.localLocks n).owner l ≠ some t →
          TwoTierLock.Refused ⟨true, n, stateOffset, size.maxLocks, size.nodeCount⟩ .cas t l
            (s.mem.localLocks n) s.mem.shm := by
  intro h
  obtain ⟨s, hs, -, ⟨howner, -⟩, hslot, -⟩ := thread_inside
  have ht : (s.mem.localLocks 0).owner 0 ≠ some true := by simp [howner]
  rcases (refused_iff ht).1 (h (.of 2 1) 0 s hs 0 true 0 (by decide) ht) with
    hinit | hlock | hnode | hidle
  · cases hinit
  · exact absurd hlock (by decide)
  · exact absurd hnode (by decide)
  · exact hslot hidle

end TwoTierLock

end CxlLock
