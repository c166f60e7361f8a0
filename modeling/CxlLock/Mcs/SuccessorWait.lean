import CxlLock.Mcs.NoLostWaiter

/-!
# Does the MCS release wait for somebody who never comes?

A `release_lock` that reads no successor and cannot take itself out of the tail waits for its
`next_node` to be set, and this loop has no bound.  What it relies on is the exchange of the tail
that has made its own `compare_exchange` fail: the node that has stored itself there links itself
behind its predecessor next.

`mcs_release_has_successor` says so for all runs: while a node is in the loop, its `next_node` is
set, or some other node has exchanged the tail from it to itself and has the store to that
`next_node` as its next access.  Once the store is made, it stays until the loop is left.

The proof reads the successor off the queue that the records represent (`QueueInv`).  There are
runs that leave this picture, when the late store of the invalid head erases a waiter; but from
there on nobody gets the lock any more, so that nobody comes to the loop either (`HeadLost`).
-/

namespace CxlLock.Mcs

open Transition LinkedQueue

/-- Records for each node from which tail its `acquire_lock` has exchanged to itself. -/
def recordExchange (l : LockId) (s : State) (e : Turn NodeId Unit) (_ : State)
    (exchanged : NodeId → Option NodeId) : NodeId → Option NodeId :=
  match e with
  | .party n _ =>
      match s.pc n with
      | .idle => Function.update exchanged n none
      | .casTail oldTail =>
          if (s.mem.shm.entry l).tailNode = oldTail then
            Function.update exchanged n (some oldTail)
          else exchanged
      | _ => exchanged
  | .manager => exchanged

/-- All interleavings, with the exchange of each node's last `acquire_lock`. -/
def exchangeSystem (size : SystemSize) (l : LockId) :
    LabelledSystem (State × (NodeId → Option NodeId)) (Turn NodeId Unit) :=
  (machine size l).system.withHistory (fun _ => none) (recordExchange l)

/-- `m` has exchanged the tail from `n` to itself, and the next access of its `acquire_lock` is
the store to the link of `n`. -/
structure LinksNext (size : SystemSize) (s : State) (exchanged : NodeId → Option NodeId)
    (n m : NodeId) : Prop where
  other : m ≠ n
  participates : m < size.nodeCount
  exchanged : exchanged m = some n
  next : s.pc m = .linkPred n

/-- The run `es` leads from `s` to `s'`, and all the time `n` waits for its successor. -/
def WaitsThrough (size : SystemSize) (l : LockId) (n : NodeId) (s : State)
    (es : List (Turn NodeId Unit)) (s' : State) : Prop :=
  (machine size l).system.exec (fun t _ => t.pc n = .spinNext) s es = some s' ∧
    s'.pc n = .spinNext

/-- The next access of `n` ends the loop, with a successor to hand the lock to. -/
def LeavesLoop (l : LockId) (n : NodeId) (s : State) : Prop :=
  ∃ succ, succ ≠ invalidNodeId ∧ nodeStep l n s.mem (s.pc n) = (s.mem, .passHead succ)

/-! ## After a waiter has been erased -/

/-- A late store of the invalid head has erased a waiter that had stored itself there: nobody
has the lock, and the manager finds nobody to give it to. -/
structure HeadLost (l : LockId) (s : State) : Prop where
  free : ∀ n, ¬ HasLock s n
  head : (s.mem.shm.entry l).headNode = invalidNodeId
  tail : (s.mem.shm.entry l).tailNode ≠ invalidNodeId
  arrived : ∀ n, s.pc n ≠ .storeHead
  manager : s.mgr = .loadOwner ∨ s.mgr = .loadHead

section Steps

variable {size : SystemSize} {l : LockId} {s : State} {n : NodeId}

/-- A node stores itself to the tail, or takes itself out of it. -/
lemma nodeStep_tailNode_cases (l : LockId) (n : NodeId) (m : Memory) (pc : NodePc) :
    ((nodeStep l n m pc).1.shm.entry l).tailNode = (m.shm.entry l).tailNode ∨
      ((nodeStep l n m pc).1.shm.entry l).tailNode = n ∨
      pc = .casTailEmpty ∧ ((nodeStep l n m pc).1.shm.entry l).tailNode = invalidNodeId := by
  cases pc with
  | casTail | casTailEmpty | loadTail | pollWaiting | critical | loadNext | spinNext =>
      simp only [nodeStep]
      split_ifs <;> simp
  | _ => simp [nodeStep]

/-- Only after joining an empty queue does a node store itself as the head. -/
lemma nodeStep_storeHead {m : Memory} {pc : NodePc} (h : (nodeStep l n m pc).2 = .storeHead) :
    (m.shm.entry l).tailNode = invalidNodeId := by
  cases pc with
  | casTail oldTail =>
      simp only [nodeStep] at h
      split_ifs at h with htail hold
      exact htail.trans hold
  | casTailEmpty | loadTail | pollWaiting | critical | loadNext | spinNext =>
      simp only [nodeStep] at h
      split_ifs at h
  | _ => simp [nodeStep] at h

/-- Whoever stores another head than the invalid one has just joined or hands the lock over. -/
lemma nodeStep_headNode {m : Memory} {pc : NodePc} (hstore : pc ≠ .storeHead)
    (hpass : ∀ succ, pc ≠ .passHead succ) :
    ((nodeStep l n m pc).1.shm.entry l).headNode = (m.shm.entry l).headNode ∨
      ((nodeStep l n m pc).1.shm.entry l).headNode = invalidNodeId := by
  cases pc with
  | storeHead => exact absurd rfl hstore
  | passHead succ => exact absurd rfl (hpass succ)
  | casTail | casTailEmpty | loadTail | pollWaiting | critical | loadNext | spinNext =>
      simp only [nodeStep]
      split_ifs <;> simp
  | _ => simp [nodeStep]

/-- While nobody has the lock, no access of a node changes that. -/
lemma free_node (hI : Inv size l s) (hfree : ∀ k, ¬ HasLock s k) (k : NodeId) :
    ¬ HasLock (s.move n (nodeStep l n s.mem (s.pc n))) k := by
  rcases nodeStep_effect (n := n) hI with hq | hpc | ⟨succ, hpc | hpc⟩
  · exact fun hk => hfree k (hq.hasLock hk)
  · rw [hpc]
    exact hI.not_hasLock_clearOwner hpc k
  · exact absurd (.inl (by simp [hpc])) (hfree n)
  · exact absurd (.inl (by simp [hpc])) (hfree n)

/-- The waiter stays erased. -/
lemma HeadLost.node (hI : Inv size l s) (h : HeadLost l s) (hn : n < size.nodeCount) :
    HeadLost l (s.move n (nodeStep l n s.mem (s.pc n))) := by
  have hholding := holding_eq_false (h.free n)
  refine ⟨free_node hI h.free, ?_, ?_, fun k => ?_, h.manager⟩
  · rcases nodeStep_headNode (l := l) (n := n) (m := s.mem) (h.arrived n)
      (fun succ hpc => by simp [hpc] at hholding) with hsame | hinvalid
    · exact hsame.trans h.head
    · exact hinvalid
  · rw [Config.move_mem]
    rcases nodeStep_tailNode_cases l n s.mem (s.pc n) with hsame | hself | ⟨hpc, -⟩
    · rw [hsame]
      exact h.tail
    · rw [hself]
      exact size.node_ne_invalid hn
    · simp [hpc] at hholding
  · rw [Config.move_pc]
    split_ifs
    · exact fun hstore => h.tail (nodeStep_storeHead hstore)
    · exact h.arrived k

lemma HeadLost.manage (h : HeadLost l s) :
    HeadLost l (s.manage (managerStep size.nodeCount l s.mem s.mgr)) := by
  obtain ⟨hfree, hhead, htail, harrived, hmgr⟩ := h
  rcases hmgr with hmgr | hmgr
  · simp only [hmgr, managerStep]
    split_ifs
    · exact ⟨hfree, hhead, htail, harrived, .inl rfl⟩
    · exact ⟨hfree, hhead, htail, harrived, .inr rfl⟩
  · rw [hmgr, managerStep, if_pos (.inl hhead)]
    exact ⟨hfree, hhead, htail, harrived, .inl rfl⟩

/-- The late store of the invalid head, when the first node of the queue has arrived. -/
lemma Represents.headLost {q : List NodeId} (hI : Inv size l s) (hR : Represents size l s (view q))
    (hpc : s.pc n = .clearHead) {f : NodeId} (hf : q.head? = some f)
    (hstore : s.pc f ≠ .storeHead) :
    HeadLost l (s.move n (nodeStep l n s.mem (s.pc n))) := by
  have howner := hI.owner_ne_invalid (n := n) (by simp [hpc])
  refine ⟨free_node hI (hI.emptying n (by simp [hpc])), by simp [nodeStep, hpc], ?_, fun k => ?_,
    ?_⟩
  · have htail := hR.links.tail
    obtain ⟨z, hz⟩ : ∃ z, q.getLast? = some z :=
      Option.isSome_iff_exists.1 (List.getLast?_isSome.2 (List.ne_nil_of_mem
        (List.mem_of_mem_head? hf)))
    have hzv := hR.links.ne_invalid hI (List.mem_of_getLast? hz)
    simpa [nodeStep, hpc, htail, view, hz] using hzv
  · rw [Config.move_pc]
    split_ifs
    · simp [nodeStep, hpc]
    · intro hk
      have hfront : some f = some k := hf.symm.trans (hR.links.first k hk)
      exact hstore (Option.some.inj hfront ▸ hk)
  · -- the lock has an owner, so the manager is not about to grant it
    left
    have hdeciding : s.mgr.deciding = false :=
      Bool.eq_false_iff.2 fun hdec => howner (hI.deciding hdec).1
    rw [Config.move_mgr]
    cases hmgr : s.mgr with
    | loadOwner => rfl
    | grantOwner g => exact absurd (hI.committing g hmgr) howner
    | _ => simp [hmgr] at hdeciding

/-! ## The successor -/

/-- The records represent a queue, or nobody gets the lock any more. -/
def QueueOrLost (size : SystemSize) (l : LockId) (s : State) : Prop :=
  QueueInv size l s ∨ HeadLost l s

lemma QueueOrLost.node (hI : Inv size l s) (h : QueueOrLost size l s) (hn : n < size.nodeCount) :
    QueueOrLost size l (s.move n (nodeStep l n s.mem (s.pc n))) := by
  rcases h with (habandoned | ⟨q, hord, hR⟩) | hlost
  · exact .inl (.inl (habandoned.node hI))
  · by_cases hok : s.pc n = .clearHead → ∀ f, q.head? = some f → s.pc f = .storeHead
    · exact .inl (hR.node hI hord hn hok)
    · simp only [not_forall] at hok
      obtain ⟨hpc, f, hf, hstore⟩ := hok
      exact .inr (hR.headLost hI hpc hf hstore)
  · exact .inr (hlost.node hI hn)

/-- A node that waits for its successor has found another node in the tail. -/
def TailTaken (l : LockId) (s : State) : Prop :=
  ∀ n, s.pc n = .spinNext → (s.mem.shm.entry l).tailNode ≠ n

/-- Only a failed exchange of the tail leads to the loop. -/
lemma nodeStep_spinNext {m : Memory} {pc : NodePc} (h : (nodeStep l n m pc).2 = .spinNext) :
    pc = .spinNext ∨ pc = .casTailEmpty ∧ (m.shm.entry l).tailNode ≠ n := by
  cases pc with
  | spinNext => exact .inl rfl
  | casTailEmpty =>
      simp only [nodeStep] at h
      split_ifs at h with htail
      exact .inr ⟨rfl, htail⟩
  | casTail | loadTail | pollWaiting | critical | loadNext =>
      simp only [nodeStep] at h
      split_ifs at h
  | _ => simp [nodeStep] at h

lemma TailTaken.node (hI : Inv size l s) (h : TailTaken l s) :
    TailTaken l (s.move n (nodeStep l n s.mem (s.pc n))) := by
  intro k hk
  rw [Config.move_mem]
  by_cases hkn : k = n
  · subst hkn
    rw [Config.move_pc, if_pos rfl] at hk
    rcases nodeStep_spinNext hk with hpc | ⟨hpc, htail⟩
    · simp only [hpc, nodeStep]
      split_ifs <;> exact h k hpc
    · simp [nodeStep, hpc, htail]
  · rw [Config.move_pc, if_neg hkn] at hk
    have hvalid := size.node_ne_invalid (hI.participates k (by simp [hk]))
    rcases nodeStep_tailNode_cases l n s.mem (s.pc n) with hsame | hself | ⟨-, hinvalid⟩
    · rw [hsame]
      exact h k hk
    · rw [hself]
      exact Ne.symm hkn
    · rw [hinvalid]
      exact hvalid.symm

/-- In every reachable state. -/
lemma queueOrLost_of_reachable (hs : (machine size l).system.Reachable s) :
    Inv size l s ∧ QueueOrLost size l s ∧ TailTaken l s := by
  refine (machine_neverBlocks size l).invariant
    (I := fun s => Inv size l s ∧ QueueOrLost size l s ∧ TailTaken l s)
    (fun s h => ⟨Inv.init h, .inl (QueueInv.init h), fun n hn => ?_⟩) (fun s n c h _ hn => ?_)
    (fun s h _ => ?_) hs
  · simp [h.2.1 n, machine] at hn
  · obtain ⟨hI, hqueue, htail⟩ := h
    exact ⟨hI.node hn, hqueue.node hI hn, htail.node hI⟩
  · obtain ⟨hI, hqueue, htail⟩ := h
    refine ⟨hI.manager, hqueue.imp (QueueInv.manager hI) HeadLost.manage, fun n hn => ?_⟩
    rw [Config.manage_mem, (managerStep_queue size l s.mem s.mgr).1]
    exact htail n hn

/-- The node behind a node in the loop has set its link, or is about to. -/
lemma exists_successor (hs : (machine size l).system.Reachable s) (hn : s.pc n = .spinNext) :
    ∃ m, m ≠ n ∧ m < size.nodeCount ∧ Linked s n m := by
  obtain ⟨hI, hqueue, htail⟩ := queueOrLost_of_reachable hs
  have hlock : HasLock s n := .inl (by simp [hn])
  rcases hqueue with (habandoned | ⟨q, hord, hR⟩) | hlost
  · exact absurd hlock (habandoned.free n)
  · have hfront : q.head? = some n := hR.grants.token n hlock
    have hback : q.getLast? ≠ some n := fun hback =>
      htail n hn (hR.links.tail.trans (by rw [view, hback, Option.getD_some]))
    rcases Consecutive.exists_right (List.mem_of_mem_head? hfront) with hlast | ⟨m, hm⟩
    · exact absurd hlast hback
    · have hmn : m ≠ n := by
        rintro rfl
        exact hm.ne_head hord.nodup hfront
      have hqueued := hR.links.mem_queue.1 hm.mem_right
      have hidle : s.pc m ≠ .idle := by
        rintro hpc
        simp [hpc] at hqueued
      exact ⟨m, hmn, hI.participates m hidle, hR.links.linked n m hm⟩
  · exact absurd hlock (hlost.free n)

end Steps

/-! ## Who has exchanged the tail -/

section Exchanges

variable {size : SystemSize} {l : LockId} {s s' : State} {n m : NodeId}
  {exchanged : NodeId → Option NodeId}

/-- A node that links itself behind another one has just exchanged the tail from it, or has
found itself in the tail. -/
lemma nodeStep_linkPred {m : Memory} {pc : NodePc} {a : NodeId}
    (h : (nodeStep l n m pc).2 = .linkPred a) :
    a = n ∨ pc = .casTail a ∧ (m.shm.entry l).tailNode = a := by
  cases pc with
  | casTail oldTail =>
      simp only [nodeStep] at h
      split_ifs at h with htail
      obtain rfl : oldTail = a := NodePc.linkPred.inj h
      exact .inr ⟨rfl, htail⟩
  | loadTail =>
      simp only [nodeStep] at h
      split_ifs at h
      exact .inl (NodePc.linkPred.inj h).symm
  | casTailEmpty | pollWaiting | critical | loadNext | spinNext =>
      simp only [nodeStep] at h
      split_ifs at h
  | _ => simp [nodeStep] at h

/-- The record about a node changes only when the node moves. -/
lemma recordExchange_of_ne {c : Unit} (hm : m ≠ n) :
    recordExchange l s (.party n c) s' exchanged m = exchanged m := by
  cases hpc : s.pc n with
  | casTail oldTail =>
      simp only [recordExchange, hpc]
      split_ifs
      · exact Function.update_of_ne hm _ _
      · rfl
  | _ => simp [recordExchange, hpc, hm]

/-- A node that links itself behind another one has exchanged the tail from that one. -/
lemma exchanged_of_linkPred {p : State × (NodeId → Option NodeId)}
    (hp : (exchangeSystem size l).Reachable p) :
    ∀ m a, p.1.pc m = .linkPred a → a ≠ m → p.2 m = some a := by
  refine LabelledSystem.Reachable.invariant
    (I := fun p => ∀ m a, p.1.pc m = .linkPred a → a ≠ m → p.2 m = some a)
    (fun p h m a hpc => ?_) (fun p e p' h hnext => ?_) hp
  · have hidle : p.1.pc m = .idle := h.1.2.1 m
    simp [hidle] at hpc
  · obtain ⟨t, ht, rfl⟩ := Option.map_eq_some_iff.1 hnext
    intro m a hpc ham
    cases e with
    | party k c =>
        obtain ⟨-, rfl⟩ := (machine_neverBlocks size l).next_party ht
        by_cases hmk : m = k
        · subst hmk
          rw [Config.move_pc, if_pos rfl] at hpc
          rcases nodeStep_linkPred hpc with hself | ⟨hcas, htail⟩
          · exact absurd hself ham
          · simp [recordExchange, hcas, htail]
        · rw [Config.move_pc, if_neg hmk] at hpc
          simpa only [recordExchange_of_ne hmk] using h m a hpc ham
    | manager =>
        obtain rfl := (machine_neverBlocks size l).next_manager ht
        exact h m a hpc ham

end Exchanges

/-! ## The loop ends -/

section Waiting

variable {size : SystemSize} {l : LockId} {s s' : State} {n m : NodeId}
  {e : Turn NodeId Unit} {es : List (Turn NodeId Unit)}

lemma waitsThrough_cons : WaitsThrough size l n s (e :: es) s' ↔ s.pc n = .spinNext ∧
    ∃ t, (machine size l).system.next s e = some t ∧ WaitsThrough size l n t es s' := by
  simp only [WaitsThrough, LabelledSystem.exec]
  split_ifs with hn
  · simp only [Option.bind_eq_some_iff, hn, true_and]
    constructor
    · rintro ⟨⟨t, ht, hrun⟩, hn'⟩
      exact ⟨t, ht, hrun, hn'⟩
    · rintro ⟨t, ht, hrun, hn'⟩
      exact ⟨⟨t, ht, hrun⟩, hn'⟩
  · simp [hn]

/-- While a node waits, its link changes only by a node that links itself there. -/
lemma nodeStep_nextNode_waiting (hn : s.pc n = .spinNext) (k : NodeId) :
    ((nodeStep l k s.mem (s.pc k)).1.shm.node n).nextNode = (s.mem.shm.node n).nextNode ∨
      ((nodeStep l k s.mem (s.pc k)).1.shm.node n).nextNode = k := by
  by_cases hlink : ∃ a, s.pc k = .linkPred a
  · obtain ⟨a, ha⟩ := hlink
    by_cases han : n = a
    · exact .inr (by simp [ha, nodeStep, han])
    · exact .inl (by simp [ha, nodeStep, han])
  · left
    by_cases hnk : n = k
    · subst hnk
      simp only [hn, nodeStep]
      split_ifs <;> rfl
    · exact nodeStep_nextNode (not_exists.1 hlink) hnk

/-- A link that is set stays set as long as the node waits. -/
lemma linkSet_step (hn : s.pc n = .spinNext) (hnext : (machine size l).system.next s e = some s')
    (hset : (s.mem.shm.node n).nextNode ≠ invalidNodeId) :
    (s'.mem.shm.node n).nextNode ≠ invalidNodeId := by
  cases e with
  | party k c =>
      obtain ⟨hk, rfl⟩ := (machine_neverBlocks size l).next_party hnext
      rw [Config.move_mem]
      rcases nodeStep_nextNode_waiting (l := l) hn k with hsame | hlinked
      · rw [hsame]
        exact hset
      · rw [hlinked]
        exact size.node_ne_invalid hk
  | manager =>
      obtain rfl := (machine_neverBlocks size l).next_manager hnext
      obtain ⟨-, -, hsame, -⟩ := managerStep_queue size l s.mem s.mgr
      rw [Config.manage_mem, hsame]
      exact hset

lemma linkSet_run (hrun : WaitsThrough size l n s es s')
    (hset : (s.mem.shm.node n).nextNode ≠ invalidNodeId) :
    (s'.mem.shm.node n).nextNode ≠ invalidNodeId := by
  induction es generalizing s with
  | nil =>
      obtain rfl : s = s' := Option.some.inj hrun.1
      exact hset
  | cons e es ih =>
      obtain ⟨hn, t, ht, hrun⟩ := waitsThrough_cons.1 hrun
      exact ih hrun (linkSet_step hn ht hset)

/-- Another node's turn leaves a node where it is. -/
lemma next_pc_of_ne {c : Unit} (he : e ≠ .party m c)
    (hnext : (machine size l).system.next s e = some s') : s'.pc m = s.pc m := by
  cases e with
  | party k c' =>
      obtain ⟨-, rfl⟩ := (machine_neverBlocks size l).next_party hnext
      rw [Config.move_pc, if_neg]
      rintro rfl
      exact he rfl
  | manager =>
      obtain rfl := (machine_neverBlocks size l).next_manager hnext
      rw [Config.manage_pc]

/-- The successor's store sets the link, whenever it comes. -/
lemma linkSet_of_turn (hrun : WaitsThrough size l n s es s') (hpc : s.pc m = .linkPred n)
    (hturn : .party m () ∈ es) : (s'.mem.shm.node n).nextNode ≠ invalidNodeId := by
  induction es generalizing s with
  | nil => simp at hturn
  | cons e es ih =>
      obtain ⟨hn, t, ht, hrun⟩ := waitsThrough_cons.1 hrun
      by_cases he : e = .party m ()
      · subst he
        obtain ⟨hm, rfl⟩ := (machine_neverBlocks size l).next_party ht
        refine linkSet_run hrun ?_
        simpa [hpc, nodeStep] using size.node_ne_invalid hm
      · refine ih hrun ((next_pc_of_ne he ht).trans hpc) ?_
        exact (List.mem_cons.1 hturn).resolve_left (Ne.symm he)

lemma leavesLoop_of_linkSet (hn : s.pc n = .spinNext)
    (hset : (s.mem.shm.node n).nextNode ≠ invalidNodeId) : LeavesLoop l n s :=
  ⟨_, hset, by rw [hn, nodeStep, if_neg hset]⟩

end Waiting

/-- **The MCS release never waits for nobody.**  While a node is in the loop of `release_lock`
that waits for its `next_node`, the link is set, or another node has exchanged the tail from it
and has the store to this link as its next access.  The loop ends at the node's next access once
the link is set, and so after any run in which that other node has had its turn. -/
theorem mcs_release_has_successor (size : SystemSize) (l : LockId) (s : State)
    (exchanged : NodeId → Option NodeId) (hs : (exchangeSystem size l).Reachable (s, exchanged))
    (n : NodeId) (hn : s.pc n = .spinNext) :
    ((s.mem.shm.node n).nextNode ≠ invalidNodeId ∧
      ∀ es s', WaitsThrough size l n s es s' → LeavesLoop l n s') ∨
    ∃ m, LinksNext size s exchanged n m ∧
      ∀ es s', WaitsThrough size l n s es s' → .party m () ∈ es → LeavesLoop l n s' := by
  obtain ⟨m, hmn, hm, ⟨hlink, -⟩ | ⟨-, hpc⟩⟩ := exists_successor hs.forget hn
  · left
    have hset : (s.mem.shm.node n).nextNode ≠ invalidNodeId :=
      hlink ▸ size.node_ne_invalid hm
    exact ⟨hset, fun es s' hrun => leavesLoop_of_linkSet hrun.2 (linkSet_run hrun hset)⟩
  · right
    refine ⟨m, ⟨hmn, hm, exchanged_of_linkPred hs m n hpc hmn.symm, hpc⟩, ?_⟩
    exact fun es s' hrun hturn => leavesLoop_of_linkSet hrun.2 (linkSet_of_turn hrun hpc hturn)

/-- Node 0 has the lock, node 1 has exchanged the tail and not linked itself yet, and node 0
releases. -/
theorem mcs_release_has_successor_run : ∃ s exchanged, s.pc 0 = .spinNext ∧
    (s.mem.shm.node 0).nextNode = invalidNodeId ∧
    ∃ m, LinksNext (.of 2 1) s exchanged 0 m ∧ ∀ es s', WaitsThrough (.of 2 1) 0 0 s es s' →
      .party m () ∈ es → LeavesLoop 0 0 s' := by
  obtain ⟨⟨s, exchanged⟩, hs, hp⟩ := LabelledSystem.exists_of_exec
    (S := exchangeSystem (.of 2 1) 0) (s := (zeroedStart (.of 2 1) 0, fun _ => none))
    (fun _ _ => True)
    (turns 0 5 ++ managerTurns 6 ++ turns 0 2 ++ turns 1 6 ++ turns 0 3)
    (fun p => p.1.pc 0 == .spinNext && (p.1.mem.shm.node 0).nextNode == invalidNodeId)
    ⟨zeroedStart_init (.of 2 1) (l := 0) (by decide), rfl⟩ (by decide +kernel)
  rw [Bool.and_eq_true, beq_iff_eq, beq_iff_eq] at hp
  refine ⟨s, exchanged, hp.1, hp.2, ?_⟩
  exact (mcs_release_has_successor (.of 2 1) 0 s exchanged hs 0 hp.1).resolve_left
    fun h => h.1 hp.2

end CxlLock.Mcs
