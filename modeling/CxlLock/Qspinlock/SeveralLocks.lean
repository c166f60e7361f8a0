import CxlLock.CallRuns
import CxlLock.Qspinlock.GlobalLock

/-!
# Qspinlock with several locks: one queue node for the queues of all locks

As for MCS, a node has one `QspinNode` for all locks, and both the fast and the slow path of
`acquire_lock` write it again.  A node that holds two locks can be followed in the queue of
the first while it releases the second; the second lock is then handed to a node that polls
for the first, and that poll succeeds.  `qspin_handOver_breaks_exclusion` is that run.

If every hand-over goes to a node that waits for the lock handed over, then `owner_node` is
the node inside the critical section.  The fast path takes a lock by the lock word alone, so
the invariant also says that an owned lock has its locked bit set.
-/

namespace CxlLock.Qspinlock

open Transition

/-- A `release_lock` of `n` on `l` that hands the lock over hands it to a node that waits for
the same lock. -/
def HandsToWaiter (shm : QspinShm) (n : NodeId) (l : LockId) : Prop :=
  (shm.entry l).ownerNode = n → (shm.node n).nextNode ≠ invalidNodeId →
    (shm.node (shm.node n).nextNode).waitingLock = l

/-- The condition on a step: if it is a `release_lock`, it meets `HandsToWaiter`. -/
def HandOverMatches (s : CallState QspinShm) : CallEvent → Prop
  | .release n l => HandsToWaiter s.shm n l
  | .cancel n =>
      match s.waitingFor n with
      | some l => HandsToWaiter s.shm n l
      | none => True
  | _ => True

instance (shm : QspinShm) (n : NodeId) (l : LockId) : Decidable (HandsToWaiter shm n l) :=
  inferInstanceAs (Decidable (_ → _ → _))

instance (s : CallState QspinShm) : ∀ e, Decidable (HandOverMatches s e)
  | .release n l => inferInstanceAs (Decidable (HandsToWaiter s.shm n l))
  | .cancel n =>
      match h : s.waitingFor n with
      | some l => decidable_of_iff (HandsToWaiter s.shm n l) (by simp [HandOverMatches, h])
      | none => .isTrue (by simp [HandOverMatches, h])
  | .acquire _ _ | .poll _ | .scan _ => .isTrue trivial

variable {size : SystemSize} {s s' : CallState QspinShm}

/-- A `release_lock` of `n` on `l` that hands the lock over does not let a node that polls for
another lock into that one, unless it is the owner already. -/
def WakesOnly (s : CallState QspinShm) (n : NodeId) (l : LockId) : Prop :=
  (s.shm.entry l).ownerNode = n → (s.shm.node n).nextNode ≠ invalidNodeId →
    ∀ j, s.waitingFor (s.shm.node n).nextNode = some j →
      (s.shm.node (s.shm.node n).nextNode).waitingLock = j →
        j = l ∨ (s.shm.entry j).ownerNode = (s.shm.node n).nextNode

/-- The condition on a step: if it is a `release_lock`, it meets `WakesOnly`. -/
def HandOverWakesOnly (s : CallState QspinShm) : CallEvent → Prop
  | .release n l => WakesOnly s n l
  | .cancel n => ∀ l, s.waitingFor n = some l → WakesOnly s n l
  | _ => True

lemma HandsToWaiter.wakesOnly {n : NodeId} {l : LockId} (h : HandsToWaiter s.shm n l) :
    WakesOnly s n l := fun howner hnext _ _ hwait =>
  .inl (hwait.symm.trans (h howner hnext))

lemma HandOverMatches.wakesOnly {e : CallEvent} (h : HandOverMatches s e) :
    HandOverWakesOnly s e := by
  cases e with
  | release n l => exact HandsToWaiter.wakesOnly h
  | cancel n =>
      intro l hw
      exact HandsToWaiter.wakesOnly (by simpa [HandOverMatches, hw] using h)
  | acquire | poll | scan => trivial

/-- `owner_node` names every node that is inside the critical section of the lock or whose
next poll will let it in, and an owned lock is marked as locked. -/
structure OwnerKnown (size : SystemSize) (s : CallState QspinShm) : Prop where
  holds_owner : ∀ n l, s.holds n l = true → (s.shm.entry l).ownerNode = n
  granted_owner : ∀ n l, s.waitingFor n = some l → (s.shm.node n).waitingLock = l →
    (s.shm.node n).locked = 2 → (s.shm.entry l).ownerNode = n
  owner_locked : ∀ l, l < size.maxLocks → (s.shm.entry l).ownerNode ≠ invalidNodeId →
    qspinLocked (s.shm.entry l).lockWord = 1

/-- `OwnerKnown` for the words `shm'`, but for the request of node `n` for lock `l`. -/
structure OwnerKnownBut (size : SystemSize) (s : CallState QspinShm) (n : NodeId) (l : LockId)
    (shm' : QspinShm) : Prop where
  holds_owner : ∀ k j, s.holds k j = true → ¬ (k = n ∧ j = l) → (shm'.entry j).ownerNode = k
  granted_owner : ∀ k j, s.waitingFor k = some j → ¬ (k = n ∧ j = l) →
    (shm'.node k).waitingLock = j → (shm'.node k).locked = 2 → (shm'.entry j).ownerNode = k
  owner_locked : ∀ j, j < size.maxLocks → (shm'.entry j).ownerNode ≠ invalidNodeId →
    qspinLocked (shm'.entry j).lockWord = 1

namespace OwnerKnown

lemma exclusive (h : OwnerKnown size s) : s.Exclusive := fun l n m hn hm =>
  (h.holds_owner n l hn).symm.trans (h.holds_owner m l hm)

lemma init (h : (callSystem algorithm size).init s) : OwnerKnown size s where
  holds_owner n l hn := by simp [h.2.2 n l] at hn
  granted_owner n l hn := by simp [h.2.1 n] at hn
  owner_locked l hl howner := by
    obtain ⟨⟨shm, hshm⟩, -⟩ := h
    refine absurd ?_ howner
    rw [hshm]
    simp [algorithm, initializeShm, size.lock_lt hl, size.nodeCount_ne_zero,
      UInt32.not_lt.2 size.nodeCount_le]

/-- A lock whose word is not marked as locked has no owner. -/
lemma free_of_not_locked (h : OwnerKnown size s) {l : LockId} (hl : l < size.maxLocks)
    (hw : qspinLocked (s.shm.entry l).lockWord ≠ 1) {k : NodeId} (hk : k < size.nodeCount) :
    (s.shm.entry l).ownerNode ≠ k := by
  rintro rfl
  exact hw (h.owner_locked l hl (size.node_ne_invalid hk))

/-- Two locks with different owners are different. -/
lemma ne_of_owner {k n : NodeId} {j l : LockId} (hk : (s.shm.entry j).ownerNode = k)
    (hn : (s.shm.entry l).ownerNode = n) (hkj : ¬ (k = n ∧ j = l)) : j ≠ l := by
  rintro rfl
  exact hkj ⟨hk.symm.trans hn, rfl⟩

/-- If `n` gives up `l` and nobody gets it, `owner_node` stays right for every other holder and
every other request. -/
lemma after_clear (h : OwnerKnown size s) (hv : s.Valid size) {n : NodeId} {l : LockId}
    (howner : (s.shm.entry l).ownerNode = n) {shm' : QspinShm}
    (hown : ∀ j, (shm'.entry j).ownerNode =
      if j = l then invalidNodeId else (s.shm.entry j).ownerNode)
    (hword : ∀ j, j ≠ l → (shm'.entry j).lockWord = (s.shm.entry j).lockWord)
    (hwaitingLock : ∀ k, (shm'.node k).waitingLock =
      if k = n then invalidLockId else (s.shm.node k).waitingLock)
    (hlocked : ∀ k, (shm'.node k).locked = if k = n then 0 else (s.shm.node k).locked) :
    OwnerKnownBut size s n l shm' := by
  refine ⟨fun k j hk hkj => ?_, fun k j hk hkj hwait h2 => ?_, fun j hj howner' => ?_⟩
  · have hkowner := h.holds_owner k j hk
    rw [hown, if_neg (ne_of_owner hkowner howner hkj)]
    exact hkowner
  · rw [hwaitingLock] at hwait
    rw [hlocked] at h2
    split_ifs at hwait h2
    · exact absurd hwait.symm (size.lock_ne_invalid (hv.waiting_lt k j hk).2)
    · have hkowner := h.granted_owner k j hk hwait h2
      rw [hown, if_neg (ne_of_owner hkowner howner hkj)]
      exact hkowner
  · rw [hown] at howner'
    split_ifs at howner' with hjl
    · exact absurd rfl howner'
    · rw [hword j hjl]
      exact h.owner_locked j hj howner'

/-- A `release_lock` of `n` on `l` that meets `WakesOnly` leaves `owner_node` right for
every other holder and every other request. -/
lemma after_release (h : OwnerKnown size s) (hv : s.Valid size) {n : NodeId} {l : LockId}
    (hn : n < size.nodeCount) (hl : l < size.maxLocks) (hok : WakesOnly s n l)
    {rc : LockResult} {shm' : QspinShm}
    (hr : releaseLock size.nodeCount n l s.shm = (rc, shm')) :
    OwnerKnownBut size s n l shm' := by
  rcases releaseLock_cases s.shm size.nodeCount_le hn (size.lock_lt hl) with
    ⟨-, heq⟩ | ⟨howner, -, -, heq⟩ | ⟨howner, -, -, heq⟩ | ⟨howner, hnext, heq⟩ <;>
    obtain ⟨-, rfl⟩ := Prod.mk.inj (heq.symm.trans hr)
  · exact ⟨fun k j hk _ => h.holds_owner k j hk, fun k j hk _ => h.granted_owner k j hk,
      h.owner_locked⟩
  · exact h.after_clear hv howner (emptyQueue_ownerNode _ _ _)
      (fun j hj => (emptyQueue_lockWord _ _ _ j).trans (if_neg hj))
      (fun k => emptyQueue_waitingLock _ _ k _) fun k => emptyQueue_locked _ _ k _
  · exact h.after_clear hv howner (forceRelease_ownerNode _ _ _)
      (fun j _ => forceRelease_lockWord _ _ _ j)
      (fun k => forceRelease_waitingLock _ _ k _) fun k => forceRelease_locked _ _ k _
  · refine ⟨fun k j hk hkj => ?_, fun k j hk hkj hwait h2 => ?_, fun j hj howner' => ?_⟩
    · have hkowner := h.holds_owner k j hk
      rw [passLock_ownerNode, if_neg (ne_of_owner hkowner howner hkj)]
      exact hkowner
    · rw [passLock_waitingLock] at hwait
      rw [passLock_locked] at h2
      split_ifs at hwait h2 with hkn hsucc
      · exact absurd hwait.symm (size.lock_ne_invalid (hv.waiting_lt k j hk).2)
      · -- if the successor polls for a lock, it is the owner of that lock afterwards
        subst hsucc
        rw [passLock_ownerNode]
        split_ifs with hjl
        · rfl
        · exact (hok howner hnext j hk hwait).resolve_left hjl
      · have hkowner := h.granted_owner k j hk hwait h2
        rw [passLock_ownerNode, if_neg (ne_of_owner hkowner howner hkj)]
        exact hkowner
    · rw [passLock_ownerNode] at howner'
      rw [passLock_lockWord]
      split_ifs at howner' ⊢
      · exact qspinLocked_heldWord _
      · exact h.owner_locked j hj howner'

/-- On the fast path the caller becomes the owner of a lock that nobody has. -/
lemma acquire_fast (h : OwnerKnown size s) (hv : s.Valid size) {n : NodeId} {l : LockId}
    (hl : l < size.maxLocks) (hword : (s.shm.entry l).lockWord = 0) :
    OwnerKnown size (s.await (fastPath (prepareNode s.shm n l) n l) n (some l)) := by
  have hother : ∀ k j, k < size.nodeCount → (s.shm.entry j).ownerNode = k → j ≠ l := by
    rintro k j hk hkowner rfl
    exact h.free_of_not_locked hl (by rw [hword]; decide) hk hkowner
  refine ⟨fun k j hk => ?_, fun k j hk hwait h2 => ?_, fun j hj howner => ?_⟩
  · have hkowner := h.holds_owner k j hk
    rw [CallState.await_shm, fastPath_ownerNode,
      if_neg (hother k j (hv.holds_lt k j hk).1 hkowner), prepareNode_entry]
    exact hkowner
  · rw [CallState.await_waitingFor] at hk
    rw [CallState.await_shm, fastPath_waitingLock, prepareNode_waitingLock] at hwait
    rw [CallState.await_shm, fastPath_locked, prepareNode_locked] at h2
    rw [CallState.await_shm, fastPath_ownerNode, prepareNode_entry]
    split_ifs at hk hwait h2 with hkn
    · rw [if_pos hwait.symm, hkn]
    · have hkowner := h.granted_owner k j hk hwait h2
      rw [if_neg (hother k j (hv.waiting_lt k j hk).1 hkowner)]
      exact hkowner
  · rw [CallState.await_shm, fastPath_ownerNode, prepareNode_entry] at howner
    rw [CallState.await_shm, fastPath_lockWord, prepareNode_entry]
    split_ifs at howner ⊢
    · exact qspinLocked_heldWord _
    · exact h.owner_locked j hj howner

/-- On the slow path the caller polls in vain, and nobody else is concerned. -/
lemma acquire_slow (h : OwnerKnown size s) {n : NodeId} {l : LockId} :
    OwnerKnown size (s.await (slowPath (prepareNode s.shm n l) n l) n (some l)) := by
  refine ⟨fun k j hk => ?_, fun k j hk hwait h2 => ?_, fun j hj howner => ?_⟩
  · rw [CallState.await_shm, slowPath_ownerNode, prepareNode_entry]
    exact h.holds_owner k j hk
  · rw [CallState.await_waitingFor] at hk
    rw [CallState.await_shm, slowPath_waitingLock, prepareNode_waitingLock] at hwait
    rw [CallState.await_shm, slowPath_locked, prepareNode_locked] at h2
    rw [CallState.await_shm, slowPath_ownerNode, prepareNode_entry]
    split_ifs at hk hwait h2
    · exact absurd h2 (by decide)
    · exact h.granted_owner k j hk hwait h2
  · rw [CallState.await_shm, slowPath_ownerNode, prepareNode_entry] at howner
    rw [CallState.await_shm, slowPath_lockWord, prepareNode_entry]
    have hlocked := h.owner_locked j hj howner
    split_ifs with hjl
    · rw [qspinLocked_setTail, ← hjl]
      exact hlocked
    · exact hlocked

/-- A node whose poll succeeds is the owner of the lock. -/
lemma enter (h : OwnerKnown size s) {n : NodeId} {l : LockId} (hw : s.waitingFor n = some l)
    (hg : pollGranted n l s.shm = true) : OwnerKnown size (s.enter n l) := by
  have hpoll : (s.shm.node n).locked = 2 ∧ (s.shm.node n).waitingLock = l := by
    simpa [pollGranted] using hg
  refine ⟨fun k j hk => ?_, fun k j hk => ?_, h.owner_locked⟩
  · rcases (CallState.enter_holds s n k l j).1 hk with ⟨rfl, rfl⟩ | hk
    · exact h.granted_owner k j hw hpoll.2 hpoll.1
    · exact h.holds_owner k j hk
  · rw [CallState.enter_waitingFor] at hk
    split_ifs at hk
    exact h.granted_owner k j hk

/-- A grant gives a lock that is not marked as locked to a node that waits for it. -/
lemma grant (h : OwnerKnown size s) (hv : s.Valid size) {m : NodeId} {l : LockId}
    (hl : l < size.maxLocks) (hword : qspinLocked (s.shm.entry l).lockWord = 0)
    (hwait : (s.shm.node m).waitingLock = l) :
    OwnerKnown size { s with shm := grantStores (s.shm.storeGip l 1) m l } := by
  have hother : ∀ k j, k < size.nodeCount → (s.shm.entry j).ownerNode = k → j ≠ l := by
    rintro k j hk hkowner rfl
    exact h.free_of_not_locked hl (by rw [hword]; decide) hk hkowner
  refine ⟨fun k j hk => ?_, fun k j hk hkwait h2 => ?_, fun j hj howner => ?_⟩
  · have hkowner := h.holds_owner k j hk
    rw [grantStores_ownerNode, if_neg (hother k j (hv.holds_lt k j hk).1 hkowner),
      QspinShm.storeGip_ownerNode]
    exact hkowner
  · rw [grantStores_waitingLock, QspinShm.storeGip_node] at hkwait
    rw [grantStores_locked, QspinShm.storeGip_node] at h2
    rw [grantStores_ownerNode, QspinShm.storeGip_ownerNode]
    split_ifs at h2 with hkm
    · rw [if_pos (hkwait.symm.trans (hkm ▸ hwait)), hkm]
    · have hkowner := h.granted_owner k j hk hkwait h2
      rw [if_neg (hother k j (hv.waiting_lt k j hk).1 hkowner)]
      exact hkowner
  · rw [grantStores_ownerNode, QspinShm.storeGip_ownerNode] at howner
    rw [grantStores_lockWord, QspinShm.storeGip_lockWord]
    split_ifs at howner ⊢
    · exact qspinLocked_heldWord _
    · exact h.owner_locked j hj howner

lemma step (h : OwnerKnown size s) (hv : s.Valid size) {e : CallEvent}
    (hok : HandOverWakesOnly s e) (hs : CallStep algorithm size s e s') :
    OwnerKnown size s' := by
  cases hs with
  | @acquire n l shm hn hl hw hh hr =>
      rcases acquireLock_cases s.shm size.nodeCount_le hn (size.lock_lt hl) with
        ⟨hword, heq⟩ | ⟨hword, heq⟩ <;>
        obtain ⟨-, rfl⟩ := Prod.mk.inj (heq.symm.trans hr)
      · exact h.acquire_fast hv hl hword
      · exact h.acquire_slow
  | @refused n l rc shm hn hl hr hrc =>
      rcases acquireLock_cases s.shm size.nodeCount_le hn (size.lock_lt hl) with
        ⟨-, heq⟩ | ⟨-, heq⟩ <;>
        exact absurd (Prod.mk.inj (heq.symm.trans hr)).1.symm hrc
  | granted hw hg => exact h.enter hw hg
  | notGranted => exact h
  | @cancel n l rc shm hw hr =>
      obtain ⟨hn, hl⟩ := hv.waiting_lt n l hw
      have hafter := h.after_release hv hn hl (hok l hw) (Option.some.inj hr)
      refine ⟨fun k j hk => hafter.holds_owner k j hk ?_, fun k j hk => ?_, hafter.owner_locked⟩
      · rintro ⟨rfl, rfl⟩
        exact hv.waiting_not_holds k j hw hk
      · rw [CallState.await_waitingFor] at hk
        split_ifs at hk with hkn
        exact hafter.granted_owner k j hk fun hkj => hkn hkj.1
  | @release n l rc shm hh hr =>
      obtain ⟨hn, hl⟩ := hv.holds_lt n l hh
      have hafter := h.after_release hv hn hl hok (Option.some.inj hr)
      refine ⟨fun k j hk => ?_, fun k j hk => hafter.granted_owner k j hk ?_, hafter.owner_locked⟩
      · rw [CallState.leave_holds] at hk
        exact hafter.holds_owner k j hk.2 hk.1
      · rintro ⟨rfl, rfl⟩
        exact hv.waiting_not_holds k j hk hh
  | @scan l hl =>
      rcases scanLock_cases s.shm size.nodeCount_le (size.lock_lt hl) with
        hsame | ⟨m, -, hm, hword, -, hwait, hgrant⟩
      · rw [hsame]
        exact h
      · rw [hgrant]
        exact h.grant hv hl hword hwait

end OwnerKnown

/-- The owner invariant as the exclusion argument for qspinlock over whole calls. -/
def callInvariant (size : SystemSize) : CallInvariant algorithm size where
  ok := HandOverMatches
  inv := OwnerKnown size
  inv_init _ := OwnerKnown.init
  inv_step _ _ _ hv h hok hs := h.step hv hok.wakesOnly hs
  exclusive _ _ := OwnerKnown.exclusive

/-! ## Exclusion over several locks -/

/-- **Exclusion with several locks.**  In every run in which each hand-over goes to a node
that waits for the lock handed over, no lock is held by two nodes. -/
theorem qspin_exclusive_of_handOverMatches (size : SystemSize) (s : CallState QspinShm)
    (hs : (callSystem algorithm size).ReachableWhen HandOverMatches s) : s.Exclusive :=
  (callInvariant size).exclusive_of_reachable hs

/-- The state of `size` right after `initialize` of a zeroed region. -/
def startState (size : SystemSize) : CallState QspinShm where
  shm := (initializeShm size.nodeCount ⟨fun _ => ⟨0, 0, 0, 0⟩, fun _ => ⟨0, 0, 0, 0⟩⟩).2
  waitingFor _ := none
  holds _ _ := false

lemma startState_init (size : SystemSize) : (callSystem algorithm size).init (startState size) :=
  ⟨⟨_, rfl⟩, fun _ => rfl, fun _ _ => rfl⟩

/-- Node 0 hands lock 0 over to node 1, which waits for it and enters. -/
theorem qspin_exclusive_after_handOver : ∃ s : CallState QspinShm,
    s.Exclusive ∧ s.holds 1 0 = true := by
  obtain ⟨s, hs, hp⟩ := LabelledSystem.exists_of_exec (HandOverMatches)
    ([.acquire 0 0, .poll 0, .acquire 1 0, .release 0 0, .poll 1])
    (fun s => s.holds 1 0) (startState_init (.of 2 2)) (by decide +kernel)
  exact ⟨s, qspin_exclusive_of_handOverMatches (.of 2 2) s hs, hp⟩

/-- Without the condition two nodes can be inside one lock.  Node 0 has taken locks 0 and 1
on the fast path when node 1 queues behind it for lock 0; the release of lock 1 follows that
link and wakes node 1, which enters lock 0 as well. -/
theorem qspin_handOver_breaks_exclusion : ¬ ∀ (size : SystemSize) (s : CallState QspinShm),
    (callSystem algorithm size).ReachableWhen NoTimeout s → s.Exclusive := by
  intro h
  obtain ⟨s, hs, hp⟩ := LabelledSystem.exists_of_exec (NoTimeout)
    ([.acquire 0 0, .poll 0, .acquire 0 1, .poll 0, .acquire 1 0, .release 0 1,
      .poll 1])
    (fun s => s.holds 0 0 && s.holds 1 0) (startState_init (.of 2 2)) (by decide +kernel)
  rw [Bool.and_eq_true] at hp
  exact absurd (h (.of 2 2) s hs 0 0 1 hp.1 hp.2) (by decide)

end CxlLock.Qspinlock
