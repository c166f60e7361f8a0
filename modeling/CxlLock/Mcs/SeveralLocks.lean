import CxlLock.CallRuns
import CxlLock.Mcs.GlobalLock

/-!
# MCS with several locks: one queue node for the queues of all locks

A node that holds one lock and requests another writes the links of its only `McsNode`
again, so a later `release_lock` may follow a link that belongs to the queue of another
lock.  The node it then hands the lock to is woken although the lock it polls for still
belongs to somebody else.  `mcs_handOver_breaks_exclusion` is that run.

As long as every hand-over goes to a node whose record says that it waits for the lock that
is handed over, `owner_node` tells the truth: the node inside the critical section of a lock
is its owner, and so there is only one.
-/

namespace CxlLock.Mcs

open Transition

/-- A `release_lock` of `n` on `l` that hands the lock over hands it to a node that waits for
the same lock. -/
def HandsToWaiter (shm : McsShm) (n : NodeId) (l : LockId) : Prop :=
  (shm.entry l).ownerNode = n → (shm.node n).nextNode ≠ invalidNodeId →
    (shm.node (shm.node n).nextNode).waitingLock = l

/-- The condition on a step: if it is a `release_lock`, it meets `HandsToWaiter`. -/
def HandOverMatches (s : CallState McsShm) : CallEvent → Prop
  | .release n l => HandsToWaiter s.shm n l
  | .cancel n =>
      match s.waitingFor n with
      | some l => HandsToWaiter s.shm n l
      | none => True
  | _ => True

instance (shm : McsShm) (n : NodeId) (l : LockId) : Decidable (HandsToWaiter shm n l) :=
  inferInstanceAs (Decidable (_ → _ → _))

instance (s : CallState McsShm) : ∀ e, Decidable (HandOverMatches s e)
  | .release n l => inferInstanceAs (Decidable (HandsToWaiter s.shm n l))
  | .cancel n =>
      match h : s.waitingFor n with
      | some l => decidable_of_iff (HandsToWaiter s.shm n l) (by simp [HandOverMatches, h])
      | none => .isTrue (by simp [HandOverMatches, h])
  | .acquire _ _ | .poll _ | .scan _ => .isTrue trivial

variable {size : SystemSize} {s s' : CallState McsShm}

/-- `owner_node` names every node that is inside the critical section of the lock or whose
next poll will let it in. -/
structure OwnerKnown (s : CallState McsShm) : Prop where
  holds_owner : ∀ n l, s.holds n l = true → (s.shm.entry l).ownerNode = n
  granted_owner : ∀ n l, s.waitingFor n = some l → (s.shm.node n).waitingLock = l →
    (s.shm.node n).locked ≠ 1 → (s.shm.entry l).ownerNode = n

namespace OwnerKnown

lemma exclusive (h : OwnerKnown s) : s.Exclusive := fun l n m hn hm =>
  (h.holds_owner n l hn).symm.trans (h.holds_owner m l hm)

lemma init (h : (callSystem algorithm size).init s) : OwnerKnown s where
  holds_owner n l hn := by simp [h.2.2 n l] at hn
  granted_owner n l hn := by simp [h.2.1 n] at hn

/-- Two locks with different owners are different. -/
lemma ne_of_owner {k n : NodeId} {j l : LockId} (hk : (s.shm.entry j).ownerNode = k)
    (hn : (s.shm.entry l).ownerNode = n) (hkj : ¬ (k = n ∧ j = l)) : j ≠ l := by
  rintro rfl
  exact hkj ⟨hk.symm.trans hn, rfl⟩

/-- A `release_lock` of `n` on `l` that meets `HandsToWaiter` leaves `owner_node` right for
every other holder and every other request. -/
lemma after_release (h : OwnerKnown s) (hv : s.Valid size) {n : NodeId} {l : LockId}
    (hn : n < size.nodeCount) (hl : l < size.maxLocks) (hok : HandsToWaiter s.shm n l)
    {rc : LockResult} {shm' : McsShm}
    (hr : releaseLock size.nodeCount n l s.shm = some (rc, shm')) :
    (∀ k j, s.holds k j = true → ¬ (k = n ∧ j = l) → (shm'.entry j).ownerNode = k) ∧
      (∀ k j, s.waitingFor k = some j → ¬ (k = n ∧ j = l) → (shm'.node k).waitingLock = j →
        (shm'.node k).locked ≠ 1 → (shm'.entry j).ownerNode = k) := by
  have hne : ∀ k j, s.waitingFor k = some j → invalidLockId ≠ j := fun k j hk =>
    (size.lock_ne_invalid (hv.waiting_lt k j hk).2).symm
  rcases releaseLock_cases size.nodeCount_le hn (size.lock_lt hl) hr with
    ⟨-, -, rfl⟩ | ⟨howner, -, -, -, rfl⟩ | ⟨howner, hnext, -, rfl⟩
  · exact ⟨fun k j hk _ => h.holds_owner k j hk, fun k j hk _ => h.granted_owner k j hk⟩
  · constructor
    · intro k j hk hkj
      have hkowner := h.holds_owner k j hk
      rw [emptyQueue_ownerNode, if_neg (ne_of_owner hkowner howner hkj)]
      exact hkowner
    · intro k j hk hkj hwait hlocked
      rw [emptyQueue_waitingLock] at hwait
      rw [emptyQueue_locked] at hlocked
      split_ifs at hwait hlocked
      · exact absurd hwait (hne k j hk)
      · have hkowner := h.granted_owner k j hk hwait hlocked
        rw [emptyQueue_ownerNode, if_neg (ne_of_owner hkowner howner hkj)]
        exact hkowner
  · constructor
    · intro k j hk hkj
      have hkowner := h.holds_owner k j hk
      rw [passLock_ownerNode, if_neg (ne_of_owner hkowner howner hkj)]
      exact hkowner
    · intro k j hk hkj hwait hlocked
      rw [passLock_waitingLock] at hwait
      rw [passLock_locked] at hlocked
      split_ifs at hwait hlocked with hkn hsucc
      · exact absurd hwait (hne k j hk)
      · -- the successor waits for `l` itself, so the new owner is right for its request
        obtain rfl : j = l := hwait.symm.trans (hsucc ▸ hok howner hnext)
        rw [passLock_ownerNode, if_pos rfl, hsucc]
      · have hkowner := h.granted_owner k j hk hwait hlocked
        rw [passLock_ownerNode, if_neg (ne_of_owner hkowner howner hkj)]
        exact hkowner

/-- A node that has just queued up polls in vain, and nobody else is concerned. -/
lemma acquire (h : OwnerKnown s) {n : NodeId} {l : LockId} (hn : n < size.nodeCount)
    (hl : l < size.maxLocks) :
    OwnerKnown (s.await (acquireLock size.nodeCount n l s.shm).2 n (some l)) := by
  obtain ⟨-, howner, hlocked, hwait⟩ :=
    acquireLock_spec s.shm size.nodeCount_le hn (size.lock_lt hl)
  constructor
  · intro k j hk
    rw [CallState.await_shm, howner]
    exact h.holds_owner k j hk
  · intro k j hk hkwait hklocked
    rw [CallState.await_waitingFor] at hk
    rw [CallState.await_shm, hwait] at hkwait
    rw [CallState.await_shm, hlocked] at hklocked
    rw [CallState.await_shm, howner]
    split_ifs at hk hkwait hklocked
    · exact absurd rfl hklocked
    · exact h.granted_owner k j hk hkwait hklocked

/-- A node whose poll succeeds is the owner of the lock. -/
lemma enter (h : OwnerKnown s) {n : NodeId} {l : LockId} (hw : s.waitingFor n = some l)
    (hg : pollGranted n l s.shm = true) : OwnerKnown (s.enter n l) := by
  have hpoll : (s.shm.node n).waitingLock = l ∧ (s.shm.node n).locked ≠ 1 := by
    simp only [pollGranted, Bool.and_eq_true, Bool.or_eq_true, beq_iff_eq] at hg
    exact ⟨hg.2, by rcases hg.1 with h2 | h0 <;> simp [*]⟩
  constructor
  · intro k j hk
    rcases (CallState.enter_holds s n k l j).1 hk with ⟨rfl, rfl⟩ | hk
    · exact h.granted_owner k j hw hpoll.1 hpoll.2
    · exact h.holds_owner k j hk
  · intro k j hk
    rw [CallState.enter_waitingFor] at hk
    split_ifs at hk
    exact h.granted_owner k j hk

/-- A grant gives a lock without owner to a node that waits for it. -/
lemma grant (h : OwnerKnown s) (hv : s.Valid size) {m : NodeId} {l : LockId}
    (howner : (s.shm.entry l).ownerNode = invalidNodeId)
    (hwait : (s.shm.node m).waitingLock = l) :
    OwnerKnown { s with shm := (s.shm.storeLocked m 2).storeOwner l m } := by
  -- nobody has `l`, since its owner is invalid
  have hother : ∀ k j, k < size.nodeCount → (s.shm.entry j).ownerNode = k → j ≠ l := by
    rintro k j hk hkowner rfl
    exact size.node_ne_invalid hk (hkowner.symm.trans howner)
  constructor
  · intro k j hk
    have hkowner := h.holds_owner k j hk
    rw [McsShm.storeOwner_ownerNode, if_neg (hother k j (hv.holds_lt k j hk).1 hkowner),
      McsShm.storeLocked_entry]
    exact hkowner
  · intro k j hk hkwait hklocked
    rw [McsShm.storeOwner_node, McsShm.storeLocked_waitingLock] at hkwait
    rw [McsShm.storeOwner_node, McsShm.storeLocked_locked] at hklocked
    split_ifs at hklocked with hkm
    · obtain rfl : j = l := hkwait.symm.trans (hkm ▸ hwait)
      rw [McsShm.storeOwner_ownerNode, if_pos rfl, hkm]
    · have hkowner := h.granted_owner k j hk hkwait hklocked
      rw [McsShm.storeOwner_ownerNode, if_neg (hother k j (hv.waiting_lt k j hk).1 hkowner),
        McsShm.storeLocked_entry]
      exact hkowner

lemma step (h : OwnerKnown s) (hv : s.Valid size) {e : CallEvent} (hok : HandOverMatches s e)
    (hs : CallStep algorithm size s e s') : OwnerKnown s' := by
  cases hs with
  | @acquire n l shm hn hl hw hh hr =>
      obtain rfl : (acquireLock size.nodeCount n l s.shm).2 = shm := congrArg Prod.snd hr
      exact h.acquire hn hl
  | @refused n l rc shm hn hl hr hrc =>
      obtain ⟨hsuccess, -⟩ :=
        acquireLock_spec s.shm size.nodeCount_le hn (size.lock_lt hl)
      exact absurd ((congrArg Prod.fst hr).symm.trans hsuccess) hrc
  | granted hw hg => exact h.enter hw hg
  | notGranted => exact h
  | @cancel n l rc shm hw hr =>
      obtain ⟨hn, hl⟩ := hv.waiting_lt n l hw
      have hmatch : HandsToWaiter s.shm n l := by simpa [HandOverMatches, hw] using hok
      obtain ⟨hholds, hgranted⟩ := h.after_release hv hn hl hmatch hr
      constructor
      · intro k j hk
        refine hholds k j hk ?_
        rintro ⟨rfl, rfl⟩
        exact hv.waiting_not_holds k j hw hk
      · intro k j hk
        rw [CallState.await_waitingFor] at hk
        split_ifs at hk with hkn
        exact hgranted k j hk fun hkj => hkn hkj.1
  | @release n l rc shm hh hr =>
      obtain ⟨hn, hl⟩ := hv.holds_lt n l hh
      obtain ⟨hholds, hgranted⟩ := h.after_release hv hn hl hok hr
      constructor
      · intro k j hk
        rw [CallState.leave_holds] at hk
        exact hholds k j hk.2 hk.1
      · intro k j hk
        refine hgranted k j hk ?_
        rintro ⟨rfl, rfl⟩
        exact hv.waiting_not_holds k j hk hh
  | @scan l hl =>
      rcases scanLock_cases s.shm size.nodeCount_le (size.lock_lt hl) with
        hsame | ⟨m, hm, howner, -, hwait, hgrant⟩
      · rw [hsame]
        exact h
      · rw [hgrant]
        exact h.grant hv howner hwait

end OwnerKnown

/-- The owner invariant as the exclusion argument for MCS over whole calls. -/
def callInvariant (size : SystemSize) : CallInvariant algorithm size where
  ok := HandOverMatches
  inv := OwnerKnown
  inv_init _ := OwnerKnown.init
  inv_step _ _ _ hv h hok hs := h.step hv hok hs
  exclusive _ _ := OwnerKnown.exclusive

/-! ## Exclusion over several locks -/

/-- **Exclusion with several locks.**  In every run in which each hand-over goes to a node
that waits for the lock handed over, no lock is held by two nodes. -/
theorem mcs_exclusive_of_handOverMatches (size : SystemSize) (s : CallState McsShm)
    (hs : (callSystem algorithm size).ReachableWhen HandOverMatches s) : s.Exclusive :=
  (callInvariant size).exclusive_of_reachable hs

/-- The state of `size` right after `initialize` of a zeroed region. -/
def startState (size : SystemSize) : CallState McsShm where
  shm := (initializeShm size.nodeCount ⟨fun _ => ⟨0, 0, 0⟩, fun _ => ⟨0, 0, 0⟩⟩).2
  waitingFor _ := none
  holds _ _ := false

lemma startState_init (size : SystemSize) : (callSystem algorithm size).init (startState size) :=
  ⟨⟨_, rfl⟩, fun _ => rfl, fun _ _ => rfl⟩

/-- Node 0 hands lock 0 over to node 1, which waits for it and enters. -/
theorem mcs_exclusive_after_handOver : ∃ s : CallState McsShm,
    s.Exclusive ∧ s.holds 1 0 = true := by
  obtain ⟨s, hs, hp⟩ := LabelledSystem.exists_of_exec (HandOverMatches)
    ([.acquire 0 0, .scan 0, .poll 0, .acquire 1 0, .release 0 0, .poll 1])
    (fun s => s.holds 1 0) (startState_init (.of 2 2)) (by decide +kernel)
  exact ⟨s, mcs_exclusive_of_handOverMatches (.of 2 2) s hs, hp⟩

/-- Without the condition two nodes can be inside one lock.  Node 0 holds locks 0 and 1 when
node 1 queues behind it for lock 0; the release of lock 1 follows that link and wakes
node 1, which enters lock 0 as well. -/
theorem mcs_handOver_breaks_exclusion : ¬ ∀ (size : SystemSize) (s : CallState McsShm),
    (callSystem algorithm size).ReachableWhen NoTimeout s → s.Exclusive := by
  intro h
  obtain ⟨s, hs, hp⟩ := LabelledSystem.exists_of_exec (NoTimeout)
    ([.acquire 0 0, .scan 0, .poll 0, .acquire 0 1, .scan 1, .poll 0, .acquire 1 0,
      .release 0 1, .poll 1])
    (fun s => s.holds 0 0 && s.holds 1 0) (startState_init (.of 2 2)) (by decide +kernel)
  rw [Bool.and_eq_true] at hp
  exact absurd (h (.of 2 2) s hs 0 0 1 hp.1 hp.2) (by decide)

end CxlLock.Mcs
