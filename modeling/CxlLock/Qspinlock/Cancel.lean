import CxlLock.Qspinlock.SeveralLocks

/-!
# Timeouts of qspinlock

A request that times out is withdrawn by `release_lock`, which refuses everybody but the
owner, so a node that gives up behind somebody else stays linked in the queue.  Its record is
then free for another request.  A release that follows the old link sets `locked` in a record
that meanwhile names another lock, and the poll for that lock succeeds although another node
is inside (`stale_link_breaks_exclusion`).

Here each node has at most one lock or request at a time.  `HandOverWakesOnly` is the condition
under which exclusion holds; it is exactly the condition under which a release leaves nobody
with a poll that is going to succeed for a lock it does not own.
-/

namespace CxlLock.Qspinlock

open Transition

/-- A node requests a lock only when it is inside no critical section. -/
def OneAtATime (size : SystemSize) (s : CallState QspinShm) : CallEvent → Prop
  | .acquire n _ => ∀ j, j < size.maxLocks → s.holds n j = false
  | _ => True

/-- The condition on a step: one lock at a time, and no hand-over lets in the wrong node. -/
def WakesOwners (size : SystemSize) (s : CallState QspinShm) (e : CallEvent) : Prop :=
  OneAtATime size s e ∧ HandOverWakesOnly s e

/-- Whoever polls with success is the owner. -/
def PollsOwned (s : CallState QspinShm) : Prop :=
  ∀ n l, s.waitingFor n = some l → pollGranted n l s.shm = true →
    (s.shm.entry l).ownerNode = n

instance (size : SystemSize) (s : CallState QspinShm) : ∀ e, Decidable (OneAtATime size s e)
  | .acquire n _ => inferInstanceAs (Decidable (∀ j, j < size.maxLocks → s.holds n j = false))
  | .poll _ | .cancel _ | .release _ _ | .scan _ => .isTrue trivial

instance (s : CallState QspinShm) (n : NodeId) (l : LockId) : Decidable (WakesOnly s n l) :=
  inferInstanceAs (Decidable (_ → _ → ∀ j, s.waitingFor _ = some j → _ → _))

instance (s : CallState QspinShm) : ∀ e, Decidable (HandOverWakesOnly s e)
  | .release n l => inferInstanceAs (Decidable (WakesOnly s n l))
  | .cancel n => inferInstanceAs (Decidable (∀ l, s.waitingFor n = some l → WakesOnly s n l))
  | .acquire _ _ | .poll _ | .scan _ => .isTrue trivial

instance (size : SystemSize) (s : CallState QspinShm) (e : CallEvent) :
    Decidable (WakesOwners size s e) :=
  inferInstanceAs (Decidable (_ ∧ _))

variable {size : SystemSize} {s s' : CallState QspinShm}

/-- A node inside a critical section has no request. -/
def HoldsAlone (s : CallState QspinShm) : Prop :=
  ∀ n l, s.holds n l = true → s.waitingFor n = none

lemma HoldsAlone.step (h : HoldsAlone s) (hv : s.Valid size) {e : CallEvent}
    (hok : OneAtATime size s e) (hs : CallStep algorithm size s e s') : HoldsAlone s' := by
  intro k j hk
  cases hs with
  | @acquire n l shm _ _ hw hh hr =>
      have hkn : k ≠ n := by
        rintro rfl
        exact absurd hk (by simp [hok j (hv.holds_lt k j hk).2])
      rw [CallState.await_waitingFor, if_neg hkn]
      exact h k j hk
  | refused => exact h k j hk
  | @granted n l hw _ =>
      rw [CallState.enter_waitingFor]
      split_ifs with hkn
      · rfl
      · rcases (CallState.enter_holds s n k l j).1 hk with ⟨hkn', -⟩ | hk
        · exact absurd hkn' hkn
        · exact h k j hk
  | notGranted => exact h k j hk
  | @cancel n l rc shm _ _ =>
      rw [CallState.await_waitingFor]
      split_ifs
      · rfl
      · exact h k j hk
  | @release n l rc shm _ _ => exact h k j ((CallState.leave_holds s shm n k l j).1 hk).2
  | scan => exact h k j hk

lemma OwnerKnown.pollsOwned (h : OwnerKnown size s) : PollsOwned s := by
  intro n l hw hg
  have hpoll : (s.shm.node n).locked = 2 ∧ (s.shm.node n).waitingLock = l := by
    simpa [pollGranted] using hg
  exact h.granted_owner n l hw hpoll.2 hpoll.1

/-- The owner invariant as the exclusion argument with timeouts. -/
def cancelInvariant (size : SystemSize) : CallInvariant algorithm size where
  ok := WakesOwners size
  inv s := OwnerKnown size s ∧ HoldsAlone s
  inv_init _ hs := ⟨.init hs, fun n _ _ => hs.2.1 n⟩
  inv_step _ _ _ hv h hok hs := ⟨h.1.step hv hok.2 hs, h.2.step hv hok.1 hs⟩
  exclusive _ _ h := h.1.exclusive

/-- If nobody but owners polls with success after a `release_lock`, it has met the condition. -/
lemma wakesOnly_of_pollsOwned {n : NodeId} {l : LockId} (hn : n < size.nodeCount)
    (hl : l < size.maxLocks) {rc : LockResult} {shm' : QspinShm}
    (hr : releaseLock size.nodeCount n l s.shm = (rc, shm')) (hs' : s'.shm = shm')
    (hself : ∀ j, s.waitingFor n = some j → j = l)
    (hwaiting : ∀ k, k ≠ n → s'.waitingFor k = s.waitingFor k) (h : PollsOwned s') :
    WakesOnly s n l := by
  intro howner hnext j hw hwait
  by_cases hsn : (s.shm.node n).nextNode = n
  · exact .inl (hself j (hsn ▸ hw))
  have hshm : s'.shm = passLock s.shm n l (s.shm.node n).nextNode := by
    rcases releaseLock_cases s.shm size.nodeCount_le hn (size.lock_lt hl) with
      ⟨hne, -⟩ | ⟨-, hnone, -⟩ | ⟨-, hnone, -⟩ | ⟨-, -, heq⟩
    · exact absurd howner hne
    · exact absurd hnone hnext
    · exact absurd hnone hnext
    · exact hs'.trans (congrArg Prod.snd (heq.symm.trans hr)).symm
  have howned := h _ j ((hwaiting _ hsn).trans hw) (by simp [pollGranted, hshm, hsn, hwait])
  rw [hshm, passLock_ownerNode] at howned
  split_ifs at howned with hjl
  · exact .inl hjl
  · exact .inr howned

/-- **Exclusion with timeouts.**  In every run in which no hand-over lets a node into another
lock than the one handed over, no lock is held by two nodes; and from a state of such a run,
a call leaves only owners with a successful poll exactly when it meets this condition. -/
theorem qspin_exclusive_of_wakesOwners (size : SystemSize) (s : CallState QspinShm)
    (hs : (callSystem algorithm size).ReachableWhen (WakesOwners size) s) :
    s.Exclusive ∧ ∀ e s', callNext algorithm size s e = some s' → OneAtATime size s e →
      (PollsOwned s' ↔ HandOverWakesOnly s e) := by
  obtain ⟨hv, howner, halone⟩ := (cancelInvariant size).reachable hs
  refine ⟨howner.exclusive, fun e s' hnext hone => ⟨fun hpolls => ?_, fun hok =>
    (howner.step hv hok (CallStep.of_next hnext)).pollsOwned⟩⟩
  cases CallStep.of_next hnext with
  | @cancel n l rc shm hw hr =>
      intro j hj
      obtain rfl := Option.some.inj (hw.symm.trans hj)
      obtain ⟨hn, hl⟩ := hv.waiting_lt n l hw
      refine wakesOnly_of_pollsOwned hn hl (Option.some.inj hr) rfl
        (fun j hj => (Option.some.inj (hw.symm.trans hj)).symm) (fun k hk => ?_) hpolls
      rw [CallState.await_waitingFor, if_neg hk]
  | @release n l rc shm hh hr =>
      obtain ⟨hn, hl⟩ := hv.holds_lt n l hh
      have hwaiting : ∀ k, k ≠ n → (s.leave shm n l).waitingFor k = s.waitingFor k :=
        fun _ _ => rfl
      refine wakesOnly_of_pollsOwned hn hl (Option.some.inj hr) rfl (fun j hj => ?_) hwaiting
        hpolls
      rw [halone n l hh] at hj
      cases hj
  | acquire | refused | granted | notGranted | scan => trivial

/-- Node 1 gives up behind node 0 and requests the lock again; when it is handed the lock
through the old link, it polls for this lock. -/
theorem qspin_exclusive_after_cancel : ∃ s : CallState QspinShm,
    s.Exclusive ∧ (s.shm.entry 0).ownerNode = 1 ∧ s.waitingFor 1 = some 0 := by
  obtain ⟨s, hs, hp⟩ := LabelledSystem.exists_of_exec (WakesOwners (.of 2 2))
    ([.acquire 0 0, .poll 0, .acquire 1 0, .cancel 1, .acquire 1 0, .release 0 0])
    (fun s => (s.shm.entry 0).ownerNode == 1 && s.waitingFor 1 == some 0)
    (startState_init (.of 2 2)) (by decide +kernel)
  rw [Bool.and_eq_true, beq_iff_eq, beq_iff_eq] at hp
  exact ⟨s, (qspin_exclusive_of_wakesOwners (.of 2 2) s hs).1, hp⟩

/-- Node 1 gives up lock 0 behind node 0 and requests lock 1, which node 2 holds.  The release
of lock 0 follows the old link and wakes node 1, which enters lock 1 as well. -/
theorem stale_link_breaks_exclusion : ¬ ∀ (size : SystemSize) (s : CallState QspinShm),
    (callSystem algorithm size).ReachableWhen (OneAtATime size) s → s.Exclusive := by
  intro h
  obtain ⟨s, hs, hp⟩ := LabelledSystem.exists_of_exec (OneAtATime (.of 3 2))
    ([.acquire 0 0, .poll 0, .acquire 1 0, .cancel 1, .acquire 2 1, .poll 2, .acquire 1 1,
      .release 0 0, .poll 1])
    (fun s => s.holds 1 1 && s.holds 2 1) (startState_init (.of 3 2)) (by decide +kernel)
  rw [Bool.and_eq_true] at hp
  exact absurd (h (.of 3 2) s hs 1 1 2 hp.1 hp.2) (by decide)

end CxlLock.Qspinlock
