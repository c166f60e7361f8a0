import CxlLock.Lib.Transition
import CxlLock.LockInterface

/-!
# Runs of whole calls

The coarse model of the running system: every step is one whole call of the global
algorithm (`acquire_lock`, `release_lock`), one poll, or one turn of the manager's scan loop
(`check_grant` followed by `grant_lock`), and the steps of different nodes come in any order.
It is the common frame for the results about several locks and about nodes joining.

A node waits for at most one lock at a time (`waitingFor`), and may hold any number of locks
(`holds`) while it does.  It holds a lock from the poll that sees the grant until its
`release_lock`.  While a node holds or waits for `l`, its local mutex for `l` is taken, so
`acquire_lock` on `l` is not called again.  `cancel` is the `release_lock` that
`TwoTierLock::acquire` and `try_acquire` call when the poll gives up.
-/

namespace CxlLock

open Transition

/-- The records in shared memory and what each node has asked for and obtained. -/
structure CallState (Shm : Type) where
  shm : Shm
  /-- The lock the node has requested and polls for. -/
  waitingFor : NodeId → Option LockId
  /-- The locks the node is inside the critical section of. -/
  holds : NodeId → LockId → Bool

/-- One atomic step of a run of whole calls. -/
inductive CallEvent
  /-- `acquire_lock`. -/
  | acquire (n : NodeId) (l : LockId)
  /-- One iteration of `poll_for_grant`. -/
  | poll (n : NodeId)
  /-- The poll gave up: `release_lock` withdraws the request. -/
  | cancel (n : NodeId)
  /-- `release_lock` by a node that holds the lock. -/
  | release (n : NodeId) (l : LockId)
  /-- One turn of the loop in `run_single_scan`. -/
  | scan (l : LockId)
  deriving DecidableEq

namespace CallState

variable {Shm : Type}

/-- The node has the lock from now on and no longer polls for it. -/
def enter (s : CallState Shm) (n : NodeId) (l : LockId) : CallState Shm :=
  { s with
    waitingFor := Function.update s.waitingFor n none
    holds := Function.update s.holds n (Function.update (s.holds n) l true) }

/-- The node's critical section for the lock ends, with the given records. -/
def leave (s : CallState Shm) (shm : Shm) (n : NodeId) (l : LockId) : CallState Shm :=
  { s with
    shm := shm
    holds := Function.update s.holds n (Function.update (s.holds n) l false) }

/-- The node polls for `w` from now on, with the given records. -/
def await (s : CallState Shm) (shm : Shm) (n : NodeId) (w : Option LockId) : CallState Shm :=
  { s with shm := shm, waitingFor := Function.update s.waitingFor n w }

/-- The node has requested the lock and not released it since. -/
def Engaged (s : CallState Shm) (n : NodeId) (l : LockId) : Prop :=
  s.waitingFor n = some l ∨ s.holds n l = true

/-- No lock is held by two nodes. -/
def Exclusive (s : CallState Shm) : Prop :=
  ∀ l n m, s.holds n l = true → s.holds m l = true → n = m

@[simp] lemma enter_shm (s : CallState Shm) (n : NodeId) (l : LockId) :
    (s.enter n l).shm = s.shm := rfl

@[simp] lemma leave_shm (s : CallState Shm) (shm : Shm) (n : NodeId) (l : LockId) :
    (s.leave shm n l).shm = shm := rfl

@[simp] lemma await_shm (s : CallState Shm) (shm : Shm) (n : NodeId) (w : Option LockId) :
    (s.await shm n w).shm = shm := rfl

@[simp] lemma enter_waitingFor (s : CallState Shm) (n k : NodeId) (l : LockId) :
    (s.enter n l).waitingFor k = if k = n then none else s.waitingFor k := by
  simp [enter, Function.update_apply]

@[simp] lemma leave_waitingFor (s : CallState Shm) (shm : Shm) (n k : NodeId) (l : LockId) :
    (s.leave shm n l).waitingFor k = s.waitingFor k := rfl

@[simp] lemma await_waitingFor (s : CallState Shm) (shm : Shm) (n k : NodeId)
    (w : Option LockId) :
    (s.await shm n w).waitingFor k = if k = n then w else s.waitingFor k := by
  simp [await, Function.update_apply]

@[simp] lemma await_holds (s : CallState Shm) (shm : Shm) (n : NodeId) (w : Option LockId) :
    (s.await shm n w).holds = s.holds := rfl

@[simp] lemma enter_holds (s : CallState Shm) (n k : NodeId) (l j : LockId) :
    (s.enter n l).holds k j = true ↔ k = n ∧ j = l ∨ s.holds k j = true := by
  by_cases hk : k = n
  · by_cases hj : j = l <;> simp [enter, hk, hj]
  · simp [enter, hk]

@[simp] lemma leave_holds (s : CallState Shm) (shm : Shm) (n k : NodeId) (l j : LockId) :
    (s.leave shm n l).holds k j = true ↔ ¬ (k = n ∧ j = l) ∧ s.holds k j = true := by
  by_cases hk : k = n
  · by_cases hj : j = l <;> simp [leave, hk, hj]
  · simp [leave, hk]

lemma enter_engaged {s : CallState Shm} {n : NodeId} {l : LockId}
    (hw : s.waitingFor n = some l) (k : NodeId) (j : LockId) :
    (s.enter n l).Engaged k j ↔ s.Engaged k j := by
  rw [Engaged, Engaged, enter_waitingFor, enter_holds]
  by_cases hk : k = n
  · simp [hk, hw, @eq_comm _ l j]
  · simp [hk]

lemma await_none_engaged {s : CallState Shm} {n : NodeId} {l : LockId}
    (hw : s.waitingFor n = some l) (hh : ¬ s.holds n l = true) (shm : Shm) (k : NodeId)
    (j : LockId) :
    (s.await shm n none).Engaged k j ↔ ¬ (k = n ∧ j = l) ∧ s.Engaged k j := by
  rw [Engaged, Engaged, await_waitingFor, await_holds]
  by_cases hk : k = n
  · by_cases hj : j = l
    · simp [hk, hj, hh]
    · simp [hk, hj, hw, Ne.symm hj]
  · simp [hk]

lemma await_some_engaged {s : CallState Shm} {n : NodeId} {l : LockId}
    (hw : s.waitingFor n = none) (shm : Shm) (k : NodeId) (j : LockId) :
    (s.await shm n (some l)).Engaged k j ↔ k = n ∧ j = l ∨ s.Engaged k j := by
  rw [Engaged, Engaged, await_waitingFor, await_holds]
  by_cases hk : k = n
  · simp [hk, hw, @eq_comm _ l j]
  · simp [hk]

lemma leave_engaged {s : CallState Shm} {n : NodeId} {l : LockId}
    (hw : ¬ s.waitingFor n = some l) (shm : Shm) (k : NodeId) (j : LockId) :
    (s.leave shm n l).Engaged k j ↔ ¬ (k = n ∧ j = l) ∧ s.Engaged k j := by
  rw [Engaged, Engaged, leave_waitingFor, leave_holds]
  by_cases hk : k = n
  · by_cases hj : j = l
    · simp [hk, hj, hw]
    · simp [hk, hj]
  · simp [hk]

end CallState

/-- The state after one atomic step. -/
def callNext {Shm : Type} (alg : GlobalLockAlgorithm Shm) (size : SystemSize)
    (s : CallState Shm) : CallEvent → Option (CallState Shm)
  | .acquire n l =>
      if n < size.nodeCount ∧ l < size.maxLocks ∧ s.waitingFor n = none ∧
          s.holds n l = false then
        match alg.acquireLock size.nodeCount n l s.shm with
        | (.success, shm) => some (s.await shm n (some l))
        | (_, shm) => some { s with shm := shm }
      else none
  | .poll n =>
      match s.waitingFor n with
      | none => none
      | some l =>
          if alg.pollGranted size.nodeCount n l s.shm then some (s.enter n l) else some s
  | .cancel n =>
      match s.waitingFor n with
      | none => none
      | some l =>
          (alg.releaseLock size.nodeCount n l s.shm).map fun r => s.await r.2 n none
  | .release n l =>
      if s.holds n l = true then
        (alg.releaseLock size.nodeCount n l s.shm).map fun r => s.leave r.2 n l
      else none
  | .scan l =>
      if l < size.maxLocks then
        some { s with shm := (alg.scanLock size.nodeCount l s.shm).2 }
      else none

/-- The system of whole calls, started right after `initialize`. -/
def callSystem {Shm : Type} (alg : GlobalLockAlgorithm Shm) (size : SystemSize) :
    LabelledSystem (CallState Shm) CallEvent where
  init s := (∃ shm, s.shm = (alg.initializeShm size.nodeCount shm).2) ∧
    (∀ n, s.waitingFor n = none) ∧ ∀ n l, s.holds n l = false
  next := callNext alg size

/-- No request is ever withdrawn. -/
def NoTimeout {Shm : Type} (_ : CallState Shm) : CallEvent → Prop
  | .cancel _ => False
  | _ => True

instance {Shm : Type} (s : CallState Shm) : ∀ e, Decidable (NoTimeout s e)
  | .cancel _ => .isFalse id
  | .acquire _ _ | .poll _ | .release _ _ | .scan _ => .isTrue trivial

section Steps

variable {Shm : Type} {alg : GlobalLockAlgorithm Shm} {size : SystemSize} {s s' : CallState Shm}

/-- What a step of a run of whole calls can do. -/
inductive CallStep (alg : GlobalLockAlgorithm Shm) (size : SystemSize) (s : CallState Shm) :
    CallEvent → CallState Shm → Prop
  | acquire {n l shm} : n < size.nodeCount → l < size.maxLocks → s.waitingFor n = none →
      s.holds n l = false → alg.acquireLock size.nodeCount n l s.shm = (.success, shm) →
      CallStep alg size s (.acquire n l) (s.await shm n (some l))
  | refused {n l rc shm} : n < size.nodeCount → l < size.maxLocks →
      alg.acquireLock size.nodeCount n l s.shm = (rc, shm) → rc ≠ .success →
      CallStep alg size s (.acquire n l) { s with shm := shm }
  | granted {n l} : s.waitingFor n = some l →
      alg.pollGranted size.nodeCount n l s.shm = true →
      CallStep alg size s (.poll n) (s.enter n l)
  | notGranted {n l} : s.waitingFor n = some l →
      alg.pollGranted size.nodeCount n l s.shm = false → CallStep alg size s (.poll n) s
  | cancel {n l rc shm} : s.waitingFor n = some l →
      alg.releaseLock size.nodeCount n l s.shm = some (rc, shm) →
      CallStep alg size s (.cancel n) (s.await shm n none)
  | release {n l rc shm} : s.holds n l = true →
      alg.releaseLock size.nodeCount n l s.shm = some (rc, shm) →
      CallStep alg size s (.release n l) (s.leave shm n l)
  | scan {l} : l < size.maxLocks →
      CallStep alg size s (.scan l) { s with shm := (alg.scanLock size.nodeCount l s.shm).2 }

/-- Every step of the system is one of the cases of `CallStep`. -/
theorem CallStep.of_next {e : CallEvent} (h : callNext alg size s e = some s') :
    CallStep alg size s e s' := by
  cases e with
  | acquire n l =>
      simp only [callNext] at h
      split at h
      · rename_i hen
        obtain ⟨hn, hl, hw, hh⟩ := hen
        rcases hr : alg.acquireLock size.nodeCount n l s.shm with ⟨rc, shm⟩
        rw [hr] at h
        by_cases hrc : rc = .success
        · subst hrc
          cases h
          exact .acquire hn hl hw hh hr
        · have h' : some { s with shm := shm } = some s' := by
            cases rc <;> first | exact absurd rfl hrc | exact h
          cases h'
          exact .refused hn hl hr hrc
      · cases h
  | poll n =>
      simp only [callNext] at h
      cases hw : s.waitingFor n with
      | none => simp [hw] at h
      | some l =>
          simp only [hw] at h
          split at h <;> cases h
          · exact .granted hw (by assumption)
          · exact .notGranted hw (Bool.eq_false_iff.2 (by assumption))
  | cancel n =>
      simp only [callNext] at h
      cases hw : s.waitingFor n with
      | none => simp [hw] at h
      | some l =>
          simp only [hw, Option.map_eq_some_iff] at h
          obtain ⟨⟨rc, shm⟩, hr, rfl⟩ := h
          exact .cancel hw hr
  | release n l =>
      simp only [callNext] at h
      split at h
      · obtain ⟨⟨rc, shm⟩, hr, rfl⟩ := Option.map_eq_some_iff.1 h
        exact .release (by assumption) hr
      · cases h
  | scan l =>
      simp only [callNext] at h
      split at h
      · cases h
        exact .scan (by assumption)
      · cases h

/-! ## Bookkeeping common to all algorithms -/

/-- Requests and critical sections are within the system's size, and no node waits for a lock
it holds. -/
structure CallState.Valid (size : SystemSize) (s : CallState Shm) : Prop where
  holds_lt : ∀ n l, s.holds n l = true → n < size.nodeCount ∧ l < size.maxLocks
  waiting_lt : ∀ n l, s.waitingFor n = some l → n < size.nodeCount ∧ l < size.maxLocks
  waiting_not_holds : ∀ n l, s.waitingFor n = some l → ¬ s.holds n l = true

namespace CallState.Valid

lemma of_idle (hw : ∀ n, s.waitingFor n = none) (hh : ∀ n l, s.holds n l = false) :
    s.Valid size where
  holds_lt n l hn := by simp [hh n l] at hn
  waiting_lt n l hn := by simp [hw n] at hn
  waiting_not_holds n l hn := by simp [hw n] at hn

lemma engaged_lt (h : s.Valid size) {n : NodeId} {l : LockId} (hn : s.Engaged n l) :
    n < size.nodeCount ∧ l < size.maxLocks :=
  hn.elim (h.waiting_lt n l) (h.holds_lt n l)

/-- A node that has no request stays valid whatever the records say. -/
lemma await_none (h : s.Valid size) (shm : Shm) (n : NodeId) : (s.await shm n none).Valid size := by
  refine ⟨h.holds_lt, fun k j hk => ?_, fun k j hk => ?_⟩ <;>
    rw [CallState.await_waitingFor] at hk <;> split_ifs at hk
  · exact h.waiting_lt k j hk
  · exact h.waiting_not_holds k j hk

lemma await_some (h : s.Valid size) {n : NodeId} {l : LockId} (hn : n < size.nodeCount)
    (hl : l < size.maxLocks) (hh : s.holds n l = false) (shm : Shm) :
    (s.await shm n (some l)).Valid size := by
  refine ⟨h.holds_lt, fun k j hk => ?_, fun k j hk => ?_⟩ <;>
    rw [CallState.await_waitingFor] at hk <;> split_ifs at hk with hkn
  · obtain rfl := Option.some.inj hk
    exact ⟨hkn ▸ hn, hl⟩
  · exact h.waiting_lt k j hk
  · obtain rfl := Option.some.inj hk
    simp [hkn, hh]
  · exact h.waiting_not_holds k j hk

lemma enter (h : s.Valid size) {n : NodeId} {l : LockId} (hw : s.waitingFor n = some l) :
    (s.enter n l).Valid size := by
  constructor
  · intro k j hk
    rcases (CallState.enter_holds s n k l j).1 hk with ⟨rfl, rfl⟩ | hk
    · exact h.waiting_lt k j hw
    · exact h.holds_lt k j hk
  · intro k j hk
    rw [CallState.enter_waitingFor] at hk
    split_ifs at hk
    exact h.waiting_lt k j hk
  · intro k j hk hj
    rw [CallState.enter_waitingFor] at hk
    split_ifs at hk with hkn
    rcases (CallState.enter_holds s n k l j).1 hj with ⟨hkn', -⟩ | hj
    · exact hkn hkn'
    · exact h.waiting_not_holds k j hk hj

lemma leave (h : s.Valid size) (shm : Shm) (n : NodeId) (l : LockId) :
    (s.leave shm n l).Valid size := by
  constructor
  · exact fun k j hk => h.holds_lt k j ((CallState.leave_holds s shm n k l j).1 hk).2
  · exact h.waiting_lt
  · exact fun k j hk hj =>
      h.waiting_not_holds k j hk ((CallState.leave_holds s shm n k l j).1 hj).2

lemma step (h : s.Valid size) {e : CallEvent} (hs : CallStep alg size s e s') :
    s'.Valid size := by
  cases hs with
  | acquire hn hl _ hh _ => exact h.await_some hn hl hh _
  | granted hw _ => exact h.enter hw
  | cancel => exact h.await_none _ _
  | release => exact h.leave _ _ _
  | notGranted => exact h
  | refused | scan => exact ⟨h.holds_lt, h.waiting_lt, h.waiting_not_holds⟩

end CallState.Valid

end Steps

/-- **What has to be shown of an algorithm for exclusion over whole calls**: an invariant of
the runs whose steps meet `ok`, under which no lock has two holders. -/
structure CallInvariant {Shm : Type} (alg : GlobalLockAlgorithm Shm) (size : SystemSize) where
  /-- The condition on a step, seen in the state before it. -/
  ok : CallState Shm → CallEvent → Prop
  /-- The invariant. -/
  inv : CallState Shm → Prop
  inv_init : ∀ s, (callSystem alg size).init s → inv s
  inv_step : ∀ s e s', s.Valid size → inv s → ok s e → CallStep alg size s e s' → inv s'
  exclusive : ∀ s, s.Valid size → inv s → s.Exclusive

namespace CallInvariant

variable {Shm : Type} {alg : GlobalLockAlgorithm Shm} {size : SystemSize}

lemma reachable (I : CallInvariant alg size) {s : CallState Shm}
    (hs : (callSystem alg size).ReachableWhen I.ok s) : s.Valid size ∧ I.inv s := by
  refine LabelledSystem.ReachableWhen.invariant (I := fun s => s.Valid size ∧ I.inv s)
    (fun s hi => ⟨.of_idle hi.2.1 hi.2.2, I.inv_init s hi⟩) (fun s e s' h hok hnext => ?_) hs
  have hstep := CallStep.of_next hnext
  exact ⟨h.1.step hstep, I.inv_step s e s' h.1 h.2 hok hstep⟩

theorem exclusive_of_reachable (I : CallInvariant alg size) {s : CallState Shm}
    (hs : (callSystem alg size).ReachableWhen I.ok s) : s.Exclusive :=
  I.exclusive s (I.reachable hs).1 (I.reachable hs).2

end CallInvariant

end CxlLock
