import CxlLock.Mcs.SeveralLocks

/-!
# Timeouts of MCS

A request that times out is to be withdrawn by `release_lock`, which refuses everybody but the
owner.  A node that gives up while it waits behind somebody else stays in the queue, and the
next release makes it the owner of a lock that it no longer asks for
(`cancelled_node_becomes_owner`).

`NamesEngaged` says where the name of a node can stand: as tail, head or owner of a lock, or behind
a link, only while the node has requested the lock and not released it.  It is kept by the
runs in which every hand-over goes to a node that waits for the lock handed over and a node
gives up only when it has just become the owner; in those runs a withdrawn request is gone.
-/

namespace CxlLock.Mcs

open Transition

/-- The nodes in the queue of a lock: its head, its tail, and the node behind a link that was
written for this lock.  A link is written by the node to which it leads, so it belongs to the
lock that this node waits for. -/
inductive InQueue (shm : McsShm) (l : LockId) : NodeId → Prop
  | head : InQueue shm l (shm.entry l).headNode
  | tail : InQueue shm l (shm.entry l).tailNode
  | link {a : NodeId} : InQueue shm l a → a ≠ invalidNodeId →
      (shm.node (shm.node a).nextNode).waitingLock = l → InQueue shm l (shm.node a).nextNode

/-- A node gives up a request only when it is the owner of the lock by then. -/
def CancelsOwned (s : CallState McsShm) : CallEvent → Prop
  | .cancel n => ∀ l, s.waitingFor n = some l → (s.shm.entry l).ownerNode = n
  | _ => True

/-- The condition on a step: hand-overs match, and only owners give up. -/
def CancelsInTime (s : CallState McsShm) (e : CallEvent) : Prop :=
  HandOverMatches s e ∧ CancelsOwned s e

instance (s : CallState McsShm) : ∀ e, Decidable (CancelsOwned s e)
  | .cancel n => inferInstanceAs (Decidable (∀ l, s.waitingFor n = some l → _))
  | .acquire _ _ | .poll _ | .release _ _ | .scan _ => .isTrue trivial

instance (s : CallState McsShm) (e : CallEvent) : Decidable (CancelsInTime s e) :=
  inferInstanceAs (Decidable (_ ∧ _))

variable {size : SystemSize} {s s' : CallState McsShm}

/-- Tail, head, owner and `waiting_lock` name only nodes with a request or hold; the node at
the tail of a lock is not linked to another one that waits for this lock. -/
structure NamesEngaged (size : SystemSize) (s : CallState McsShm) : Prop where
  tail : ∀ l, l < size.maxLocks → (s.shm.entry l).tailNode = invalidNodeId ∨
    s.Engaged (s.shm.entry l).tailNode l
  head : ∀ l, l < size.maxLocks → (s.shm.entry l).headNode = invalidNodeId ∨
    s.Engaged (s.shm.entry l).headNode l
  owner : ∀ l, l < size.maxLocks → (s.shm.entry l).ownerNode = invalidNodeId ∨
    s.Engaged (s.shm.entry l).ownerNode l
  waiting : ∀ n l, n < size.nodeCount → l < size.maxLocks →
    (s.shm.node n).waitingLock = l → s.Engaged n l
  next_lt : ∀ n, n < size.nodeCount → (s.shm.node n).nextNode = invalidNodeId ∨
    (s.shm.node n).nextNode < size.nodeCount
  next_ne : ∀ n l, s.Engaged n l → (s.shm.node n).nextNode ≠ n
  last : ∀ n l, n < size.nodeCount → l < size.maxLocks → (s.shm.entry l).tailNode = n →
    (s.shm.node n).nextNode = invalidNodeId ∨
      (s.shm.node (s.shm.node n).nextNode).waitingLock ≠ l

namespace NamesEngaged

/-- A node without request or hold is in no position of the queue, and not the owner. -/
lemma engaged_of_inQueue (h : NamesEngaged size s) (hv : s.Valid size) {n : NodeId} {l : LockId}
    (hl : l < size.maxLocks) (hq : InQueue s.shm l n) : n = invalidNodeId ∨ s.Engaged n l := by
  induction hq with
  | head => exact h.head l hl
  | tail => exact h.tail l hl
  | @link a _ ha hwait ih =>
      have halt := (hv.engaged_lt (ih.resolve_left ha)).1
      rcases h.next_lt a halt with hinv | hlt
      · exact .inl hinv
      · exact .inr (h.waiting _ l hlt hl hwait)

lemma init (hs : (callSystem algorithm size).init s) : NamesEngaged size s := by
  obtain ⟨⟨shm, hshm⟩, hwaiting, hholds⟩ := hs
  have hentry : ∀ l, l < size.maxLocks →
      s.shm.entry l = ⟨invalidNodeId, invalidNodeId, invalidNodeId⟩ := fun l hl => by
    rw [hshm]
    simp [algorithm, initializeShm, size.nodeCount_valid, size.lock_lt hl]
  have hnode : ∀ n, n < size.nodeCount → s.shm.node n = ⟨0, 0, invalidLockId⟩ := fun n hn => by
    rw [hshm]
    simp [algorithm, initializeShm, size.nodeCount_valid, hn]
  constructor
  · exact fun l hl => .inl (by rw [hentry l hl])
  · exact fun l hl => .inl (by rw [hentry l hl])
  · exact fun l hl => .inl (by rw [hentry l hl])
  · intro n l hn hl hwait
    rw [hnode n hn] at hwait
    exact absurd hwait.symm (size.lock_ne_invalid hl)
  · intro n hn
    rw [hnode n hn]
    exact .inr size.nodeCount_pos
  · intro n l hn
    simp [CallState.Engaged, hwaiting, hholds] at hn
  · intro n l hn hl htail
    rw [hentry l hl] at htail
    exact absurd htail.symm (size.node_ne_invalid hn)

lemma acquire (h : NamesEngaged size s) (hv : s.Valid size) {n : NodeId} {l : LockId}
    (hn : n < size.nodeCount) (hl : l < size.maxLocks) (hw : s.waitingFor n = none)
    (hh : s.holds n l = false) :
    NamesEngaged size (s.await (acquireLock size.nodeCount n l s.shm).2 n (some l)) := by
  have hninv := size.node_ne_invalid hn
  have hfree : ¬ s.Engaged n l := by simp [CallState.Engaged, hw, hh]
  have htailne : (s.shm.entry l).tailNode ≠ n := by
    intro htail
    rcases h.tail l hl with hinv | hengaged
    · exact hninv (htail.symm.trans hinv)
    · exact hfree (htail ▸ hengaged)
  have htailinv : (s.shm.entry l).tailNode ≠ invalidNodeId →
      (s.shm.entry l).tailNode < size.nodeCount := fun hne =>
    (hv.engaged_lt ((h.tail l hl).resolve_left hne)).1
  obtain ⟨-, howner, -, hwait⟩ := acquireLock_spec s.shm size.nodeCount_le hn (size.lock_lt hl)
  obtain ⟨htail, hhead, hnext⟩ :=
    acquireLock_queue s.shm size.nodeCount_le hn (size.lock_lt hl) htailne
  have hengaged := CallState.await_some_engaged (l := l) hw
    (acquireLock size.nodeCount n l s.shm).2
  constructor
  · intro j hj
    rw [CallState.await_shm, htail, hengaged]
    split_ifs with hjl
    · exact .inr (.inl ⟨rfl, hjl⟩)
    · exact (h.tail j hj).imp_right .inr
  · intro j hj
    rw [CallState.await_shm, hhead, hengaged]
    split_ifs with hjl
    · exact .inr (.inl ⟨rfl, hjl.1⟩)
    · exact (h.head j hj).imp_right .inr
  · intro j hj
    rw [CallState.await_shm, howner, hengaged]
    exact (h.owner j hj).imp_right .inr
  · intro k j hk hj hkj
    rw [CallState.await_shm, hwait] at hkj
    rw [hengaged]
    split_ifs at hkj with hkn
    · exact .inl ⟨hkn, hkj.symm⟩
    · exact .inr (h.waiting k j hk hj hkj)
  · intro k hk
    rw [CallState.await_shm, hnext]
    split_ifs
    · exact .inr hn
    · exact .inl rfl
    · exact h.next_lt k hk
  · intro k j hk
    rw [CallState.await_shm, hnext]
    split_ifs with hkt hkn
    · exact fun hnk => htailne (hkt.1.symm.trans hnk.symm)
    · exact hkn ▸ hninv.symm
    · rcases (hengaged k j).1 hk with ⟨rfl, -⟩ | hk
      · exact absurd rfl hkn
      · exact h.next_ne k j hk
  · intro k j hk hj hkj
    rw [CallState.await_shm, htail] at hkj
    rw [CallState.await_shm, hnext]
    by_cases hkt : k = (s.shm.entry l).tailNode ∧ k ≠ invalidNodeId
    · -- the old tail: it is linked to the caller, which waits for `l`
      rw [if_pos hkt, hwait, if_pos rfl]
      right
      rintro rfl
      rw [if_pos rfl] at hkj
      exact htailne (hkt.1.symm.trans hkj.symm)
    · rw [if_neg hkt]
      by_cases hkn : k = n
      · exact .inl (if_pos hkn)
      · rw [if_neg hkn, hwait]
        have hjl : j ≠ l := by
          rintro rfl
          rw [if_pos rfl] at hkj
          exact hkn hkj.symm
        rw [if_neg hjl] at hkj
        split_ifs with hnk
        · exact .inr hjl.symm
        · exact h.last k j hk hj hkj

/-- A step that resets the record of `n` and takes its name out of the entries of `l`. -/
lemma after_reset (h : NamesEngaged size s) {n : NodeId} {l : LockId} (hn : n < size.nodeCount)
    (hengaged : ∀ k j, s'.Engaged k j ↔ ¬ (k = n ∧ j = l) ∧ s.Engaged k j)
    (hnext : ∀ k, (s'.shm.node k).nextNode =
      if k = n then invalidNodeId else (s.shm.node k).nextNode)
    (hwait : ∀ k, (s'.shm.node k).waitingLock =
      if k = n then invalidLockId else (s.shm.node k).waitingLock)
    (htail : ∀ j, j < size.maxLocks → (s'.shm.entry j).tailNode = invalidNodeId ∨
      (s'.shm.entry j).tailNode = (s.shm.entry j).tailNode ∧
        s'.Engaged (s'.shm.entry j).tailNode j)
    (hhead : ∀ j, j < size.maxLocks → (s'.shm.entry j).headNode = invalidNodeId ∨
      s'.Engaged (s'.shm.entry j).headNode j)
    (howner : ∀ j, j < size.maxLocks → (s'.shm.entry j).ownerNode = invalidNodeId ∨
      s'.Engaged (s'.shm.entry j).ownerNode j) : NamesEngaged size s' := by
  constructor
  · exact fun j hj => (htail j hj).imp_right And.right
  · exact hhead
  · exact howner
  · intro k j hk hj hkj
    rw [hwait] at hkj
    split_ifs at hkj with hkn
    · exact absurd hkj.symm (size.lock_ne_invalid hj)
    · exact (hengaged k j).2 ⟨fun hk' => hkn hk'.1, h.waiting k j hk hj hkj⟩
  · intro k hk
    rw [hnext]
    split_ifs
    · exact .inl rfl
    · exact h.next_lt k hk
  · intro k j hk
    rw [hnext]
    split_ifs with hkn
    · exact hkn ▸ (size.node_ne_invalid hn).symm
    · exact h.next_ne k j ((hengaged k j).1 hk).2
  · intro k j hk hj hkj
    rcases htail j hj with hinv | ⟨hold, -⟩
    · exact absurd (hkj.symm.trans hinv) (size.node_ne_invalid hk)
    · rw [hnext]
      split_ifs
      · exact .inl rfl
      · rw [hwait]
        split_ifs
        · exact .inr (size.lock_ne_invalid hj).symm
        · exact h.last k j hk hj (hold.symm.trans hkj)

/-- A `release_lock` by the owner that meets `HandsToWaiter` takes the caller's name out of
every place where it stood for this lock. -/
lemma after_release (h : NamesEngaged size s) (hv : s.Valid size) {n : NodeId} {l : LockId}
    (hnl : s.Engaged n l) (howner : (s.shm.entry l).ownerNode = n)
    (hok : HandsToWaiter s.shm n l) {rc : LockResult}
    (hr : releaseLock size.nodeCount n l s.shm = some (rc, s'.shm))
    (hengaged : ∀ k j, s'.Engaged k j ↔ ¬ (k = n ∧ j = l) ∧ s.Engaged k j) :
    NamesEngaged size s' := by
  obtain ⟨hn, hl⟩ := hv.engaged_lt hnl
  have hother : ∀ k j, j ≠ l → s.Engaged k j → s'.Engaged k j := fun k j hj hk =>
    (hengaged k j).2 ⟨fun hkj => hj hkj.2, hk⟩
  rcases releaseLock_cases size.nodeCount_le hn (size.lock_lt hl) hr with
    ⟨hne, -⟩ | ⟨-, -, -, -, hshm⟩ | ⟨-, hnext, -, hshm⟩
  · exact absurd howner hne
  · refine h.after_reset hn hengaged (fun k => by rw [hshm, emptyQueue_nextNode])
      (fun k => by rw [hshm, emptyQueue_waitingLock]) (fun j hj => ?_) (fun j hj => ?_)
      fun j hj => ?_
    · rw [hshm, emptyQueue_tailNode]
      split_ifs with hjl
      · exact .inl rfl
      · exact (h.tail j hj).imp_right fun ht => ⟨rfl, hother _ j hjl ht⟩
    · rw [hshm, emptyQueue_headNode]
      split_ifs with hjl
      · exact .inl rfl
      · exact (h.head j hj).imp_right (hother _ j hjl)
    · rw [hshm, emptyQueue_ownerNode]
      split_ifs with hjl
      · exact .inl rfl
      · exact (h.owner j hj).imp_right (hother _ j hjl)
  · -- the successor waits for `l`, so it has requested it and is not the caller
    have hsucc := hok howner hnext
    have hslt := (h.next_lt n hn).resolve_left hnext
    have hsne := h.next_ne n l hnl
    have hsl : s'.Engaged (s.shm.node n).nextNode l :=
      (hengaged _ l).2 ⟨fun hs => hsne hs.1, h.waiting _ l hslt hl hsucc⟩
    refine h.after_reset hn hengaged (fun k => by rw [hshm, passLock_nextNode])
      (fun k => by rw [hshm, passLock_waitingLock]) (fun j hj => ?_) (fun j hj => ?_)
      fun j hj => ?_
    · rw [hshm, passLock_tailNode]
      refine (h.tail j hj).imp_right fun ht => ⟨rfl, (hengaged _ j).2 ⟨?_, ht⟩⟩
      rintro ⟨htail, rfl⟩
      exact (h.last n j hn hj htail).elim hnext fun hne => hne hsucc
    · rw [hshm, passLock_headNode]
      split_ifs with hjl
      · exact .inr (hjl ▸ hsl)
      · exact (h.head j hj).imp_right (hother _ j hjl)
    · rw [hshm, passLock_ownerNode]
      split_ifs with hjl
      · exact .inr (hjl ▸ hsl)
      · exact (h.owner j hj).imp_right (hother _ j hjl)

/-- A grant goes to a node that waits for the lock. -/
lemma grant (h : NamesEngaged size s) {m : NodeId} {l : LockId} (hm : m < size.nodeCount)
    (hl : l < size.maxLocks) (hwait : (s.shm.node m).waitingLock = l) :
    NamesEngaged size { s with shm := (s.shm.storeLocked m 2).storeOwner l m } := by
  constructor
  · intro j hj
    rw [McsShm.storeOwner_tailNode]
    exact h.tail j hj
  · intro j hj
    rw [McsShm.storeOwner_headNode]
    exact h.head j hj
  · intro j hj
    rw [McsShm.storeOwner_ownerNode]
    split_ifs with hjl
    · exact .inr (hjl ▸ h.waiting m l hm hl hwait)
    · exact h.owner j hj
  · intro k j hk hj hkj
    exact h.waiting k j hk hj (by simpa using hkj)
  · intro k hk
    simpa using h.next_lt k hk
  · intro k j hk
    simpa using h.next_ne k j hk
  · intro k j hk hj hkj
    have hlast := h.last k j hk hj (by simpa using hkj)
    simpa using hlast

lemma step (h : NamesEngaged size s) (hv : s.Valid size) (ho : OwnerKnown s) {e : CallEvent}
    (hok : CancelsInTime s e) (hs : CallStep algorithm size s e s') : NamesEngaged size s' := by
  obtain ⟨hmatch, hcancel⟩ := hok
  cases hs with
  | @acquire n l shm hn hl hw hh hr =>
      obtain rfl : (acquireLock size.nodeCount n l s.shm).2 = shm := congrArg Prod.snd hr
      exact h.acquire hv hn hl hw hh
  | @refused n l rc shm hn hl hr hrc =>
      obtain ⟨hsuccess, -⟩ :=
        acquireLock_spec s.shm size.nodeCount_le hn (size.lock_lt hl)
      exact absurd ((congrArg Prod.fst hr).symm.trans hsuccess) hrc
  | @granted n l hw hg =>
      have hengaged := CallState.enter_engaged hw
      constructor
      · exact fun j hj => (h.tail j hj).imp_right (hengaged _ j).2
      · exact fun j hj => (h.head j hj).imp_right (hengaged _ j).2
      · exact fun j hj => (h.owner j hj).imp_right (hengaged _ j).2
      · exact fun k j hk hj hkj => (hengaged k j).2 (h.waiting k j hk hj hkj)
      · exact h.next_lt
      · exact fun k j hk => h.next_ne k j ((hengaged k j).1 hk)
      · exact h.last
  | notGranted => exact h
  | @cancel n l rc shm hw hr =>
      have hhand : HandsToWaiter s.shm n l := by simpa [HandOverMatches, hw] using hmatch
      have hh := hv.waiting_not_holds n l hw
      exact h.after_release hv (.inl hw) (hcancel l hw) hhand hr
        (CallState.await_none_engaged hw hh shm)
  | @release n l rc shm hh hr =>
      have hw : ¬ s.waitingFor n = some l := fun hw => hv.waiting_not_holds n l hw hh
      exact h.after_release hv (.inr hh) (ho.holds_owner n l hh) hmatch hr
        (CallState.leave_engaged hw shm)
  | @scan l hl =>
      rcases scanLock_cases s.shm size.nodeCount_le (size.lock_lt hl) with
        hsame | ⟨m, hm, -, -, hwait, hgrant⟩
      · rw [hsame]
        exact h
      · rw [hgrant]
        exact h.grant hm hl hwait

end NamesEngaged

/-- The places of the nodes, with the owner invariant that they need, as an exclusion argument
with timeouts. -/
def namesInvariant (size : SystemSize) : CallInvariant algorithm size where
  ok := CancelsInTime
  inv s := OwnerKnown s ∧ NamesEngaged size s
  inv_init _ hs := ⟨.init hs, .init hs⟩
  inv_step _ _ _ hv h hok hs := ⟨h.1.step hv hok.1 hs, h.2.step hv h.1 hok hs⟩
  exclusive _ _ h := h.1.exclusive

/-- Only `acquire_lock` of a node makes a request of it. -/
lemma engaged_of_step {e : CallEvent} (hs : CallStep algorithm size s e s') (hv : s.Valid size)
    {n : NodeId} {l : LockId} (hn : s'.Engaged n l) : s.Engaged n l ∨ e = .acquire n l := by
  cases hs with
  | acquire _ _ hw _ _ =>
      rcases (CallState.await_some_engaged hw _ n l).1 hn with ⟨rfl, rfl⟩ | hn
      · exact .inr rfl
      · exact .inl hn
  | refused => exact .inl hn
  | granted hw _ => exact .inl ((CallState.enter_engaged hw n l).1 hn)
  | notGranted => exact .inl hn
  | cancel hw _ =>
      have hh := hv.waiting_not_holds _ _ hw
      exact .inl ((CallState.await_none_engaged hw hh _ n l).1 hn).2
  | release hh _ =>
      have hw := fun hw => hv.waiting_not_holds _ _ hw hh
      exact .inl ((CallState.leave_engaged hw _ n l).1 hn).2
  | scan => exact .inl hn

/-! ## After a cancelled request -/

/-- The condition on the steps after `n` has given up its request for `l`: the node does not
request `l` again. -/
def NoNewRequest (n : NodeId) (l : LockId) (e : CallEvent) : Prop :=
  e ≠ .acquire n l

instance (n : NodeId) (l : LockId) (e : CallEvent) : Decidable (NoNewRequest n l e) :=
  inferInstanceAs (Decidable (_ ≠ _))

/-- What giving up is to achieve: in every state reached from here, as long as `n` does not
request `l` again, `n` is in no position of the queue of `l` and not the owner. -/
def Withdrawn (size : SystemSize) (ok : CallState McsShm → CallEvent → Prop) (n : NodeId)
    (l : LockId) (s : CallState McsShm) : Prop :=
  ∀ t, ((callSystem algorithm size).startingAt s).ReachableWhen
      (fun s e => ok s e ∧ NoNewRequest n l e) t →
    ¬ InQueue t.shm l n ∧ (t.shm.entry l).ownerNode ≠ n

/-- **A request given up in time is withdrawn.**  In the runs whose hand-overs match and in
which a node gives up only as the owner, a node that has given up is in no position of the
queue and does not become the owner until it requests the lock again. -/
theorem mcs_cancel_withdraws (size : SystemSize) (s s' : CallState McsShm) (n : NodeId)
    (l : LockId) (hs : (callSystem algorithm size).ReachableWhen CancelsInTime s)
    (hw : s.waitingFor n = some l) (hok : CancelsInTime s (.cancel n))
    (hnext : callNext algorithm size s (.cancel n) = some s') :
    Withdrawn size CancelsInTime n l s' := by
  intro t ht
  have hv := ((namesInvariant size).reachable hs).1
  obtain ⟨hn, hl⟩ := hv.waiting_lt n l hw
  have hs' : (callSystem algorithm size).ReachableWhen CancelsInTime s' := hs.step hok hnext
  have hgone : ¬ s'.Engaged n l := by
    have hh := hv.waiting_not_holds n l hw
    cases CallStep.of_next hnext with
    | @cancel _ j rc shm hw' hr =>
        obtain rfl := Option.some.inj (hw.symm.trans hw')
        intro hengaged
        exact ((CallState.await_none_engaged hw hh shm n l).1 hengaged).1 ⟨rfl, rfl⟩
  -- along the rest of the run the node does not come back
  have hrest : (callSystem algorithm size).ReachableWhen CancelsInTime t ∧ ¬ t.Engaged n l := by
    induction ht with
    | start h =>
        obtain rfl : _ = s' := h
        exact ⟨hs', hgone⟩
    | step _ hok hnext ih =>
        have hv := ((namesInvariant size).reachable ih.1).1
        refine ⟨ih.1.step hok.1 hnext, fun hengaged => ?_⟩
        exact (engaged_of_step (CallStep.of_next hnext) hv hengaged).elim ih.2 hok.2
  obtain ⟨hvt, -, hnames⟩ := (namesInvariant size).reachable hrest.1
  constructor
  · intro hq
    exact (hnames.engaged_of_inQueue hvt hl hq).elim (size.node_ne_invalid hn) hrest.2
  · intro howner
    have h := hnames.owner l hl
    rw [howner] at h
    exact h.elim (size.node_ne_invalid hn) hrest.2

/-- Node 1 is handed lock 0 at the moment it gives up, and withdraws; node 0 requests the lock
again and is granted it. -/
theorem mcs_cancel_withdraws_run : ∃ s s' t : CallState McsShm,
    callNext algorithm (.of 2 1) s (.cancel 1) = some s' ∧
      (¬ InQueue t.shm 0 1 ∧ (t.shm.entry 0).ownerNode ≠ 1) ∧ t.holds 0 0 = true := by
  obtain ⟨s, hs, hp⟩ := LabelledSystem.exists_of_exec CancelsInTime
    ([.acquire 0 0, .scan 0, .poll 0, .acquire 1 0, .release 0 0])
    (fun s => s.waitingFor 1 == some 0 && decide (CancelsInTime s (.cancel 1)) &&
      (callNext algorithm (.of 2 1) s (.cancel 1)).any fun s' =>
        (((callSystem algorithm (.of 2 1)).startingAt s').exec
          (fun s e => CancelsInTime s e ∧ NoNewRequest 1 0 e) s'
          [.acquire 0 0, .scan 0, .poll 0]).any fun t => t.holds 0 0)
    (startState_init (.of 2 1)) (by decide +kernel)
  simp only [Bool.and_eq_true, beq_iff_eq, decide_eq_true_eq, Option.any_eq_true] at hp
  obtain ⟨⟨hw, hok⟩, s', hnext, t, ht, hholds⟩ := hp
  exact ⟨s, s', t, hnext, mcs_cancel_withdraws (.of 2 1) s s' 1 0 hs hw hok hnext t
    ((LabelledSystem.ReachableWhen.start rfl).exec ht), hholds⟩

/-- Node 1 gives up behind node 0, and is refused as it is not the owner.  It stays in the
queue, and the release of node 0 makes it the owner. -/
theorem cancelled_node_becomes_owner : ¬ ∀ (size : SystemSize) (s s' : CallState McsShm)
    (n : NodeId) (l : LockId), (callSystem algorithm size).Reachable s →
      s.waitingFor n = some l → callNext algorithm size s (.cancel n) = some s' →
      Withdrawn size (fun _ _ => True) n l s' := by
  intro h
  obtain ⟨s, hs, hp⟩ := LabelledSystem.exists_of_exec (fun _ _ => True)
    ([.acquire 0 0, .scan 0, .poll 0, .acquire 1 0])
    (fun s => s.waitingFor 1 == some 0 &&
      (callNext algorithm (.of 2 1) s (.cancel 1)).any fun s' =>
        (((callSystem algorithm (.of 2 1)).startingAt s').exec
          (fun _ e => True ∧ NoNewRequest 1 0 e) s' [.release 0 0]).any fun t =>
            (t.shm.entry 0).ownerNode == 1)
    (startState_init (.of 2 1)) (by decide +kernel)
  simp only [Bool.and_eq_true, beq_iff_eq, Option.any_eq_true] at hp
  obtain ⟨hw, s', hnext, t, ht, howner⟩ := hp
  exact (h (.of 2 1) s s' 1 0 hs hw hnext t ((LabelledSystem.ReachableWhen.start rfl).exec ht)).2
    howner

end CxlLock.Mcs
