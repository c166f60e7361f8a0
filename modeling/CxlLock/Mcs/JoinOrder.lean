import CxlLock.Mcs.NoLostWaiter

/-!
# In which order the interleaved MCS lock lets its nodes in

`Mcs.Fifo` has the order for whole calls; here it is for single accesses.  The order is decided
by the exchange of the tail in `acquire_lock`: the nodes enter in the order of their exchanges,
and none is passed over (`mcs_enters_in_join_order`), whatever other accesses lie between.

The run keeps two lists beside the state, the nodes in the order of their exchanges and the nodes
in the order of their successful polls.  While the records represent a queue, what has joined and
not entered is the queue without a first entry that is inside (`JoinOrder`).
-/

namespace CxlLock.Mcs

open Transition LinkedQueue

/-- The nodes in the order in which they have joined the queue, and in that in which they have
entered. -/
structure JoinHistory where
  joined : List NodeId := []
  entered : List NodeId := []
  deriving DecidableEq

/-- What an access adds to the history. -/
def JoinHistory.record (l : LockId) (s : State) (e : Turn NodeId Unit) (s' : State)
    (h : JoinHistory) : JoinHistory :=
  match e with
  | .party n _ =>
      { joined := if s.pc n = .casTail (s.mem.shm.entry l).tailNode then h.joined ++ [n]
          else h.joined
        entered := if s.pc n ≠ .critical ∧ s'.pc n = .critical then h.entered ++ [n]
          else h.entered }
  | .manager => h

/-- The runs with their history. -/
def joinSystem (size : SystemSize) (l : LockId) :
    LabelledSystem (State × JoinHistory) (Turn NodeId Unit) :=
  (machine size l).system.withHistory {} (JoinHistory.record l)

/-- The entries of the queue that have not entered. -/
def outside (s : State) : List NodeId → List NodeId
  | [] => []
  | f :: rest => if (s.pc f).holding = true then rest else f :: rest

/-- What has joined and not entered is the queue without a first entry that is inside. -/
def JoinOrder (size : SystemSize) (l : LockId) (s : State) (h : JoinHistory) : Prop :=
  Abandoned l s ∧ h.entered <+: h.joined ∨
    ∃ q, Ordered s.mem q ∧ Represents size l s (view q) ∧ h.joined = h.entered ++ outside s q

section Steps

variable {size : SystemSize} {l : LockId} {s : State} {n : NodeId} {q : List NodeId}
  {hist : JoinHistory}

lemma outside_congr {s' : State} (hf : ∀ f, q.head? = some f →
    (s'.pc f).holding = (s.pc f).holding) : outside s' q = outside s q := by
  cases q with
  | nil => rfl
  | cons f rest => rw [outside, outside, hf f rfl]

/-- An access that leaves the queue as it is lets its node in, or nobody. -/
lemma nodeStep_holding (hshape : ¬ Reshapes l s n) :
    (nodeStep l n s.mem (s.pc n)).2 = .critical ∧ (s.pc n).holding = false ∨
      (nodeStep l n s.mem (s.pc n)).2.holding = (s.pc n).holding ∧
        ((nodeStep l n s.mem (s.pc n)).2 = .critical → s.pc n = .critical) := by
  cases hpc : s.pc n <;> simp only [Reshapes, hpc] at hshape <;> simp only [nodeStep] <;>
    (try split_ifs) <;> simp_all

/-- Joining adds an entry that waits. -/
lemma outside_join (hnq : n ∉ q) {r : Memory × NodePc}
    (hr : r.2.holding = false) : outside (s.move n r) (q ++ [n]) = outside s q ++ [n] := by
  cases q with
  | nil =>
      show (if ((s.move n r).pc n).holding = true then [] else [n]) = [n]
      rw [Config.move_pc, if_pos rfl, hr]
      rfl
  | cons f rest =>
      have hfn : f ≠ n := by
        rintro rfl
        exact hnq (List.mem_cons_self ..)
      rw [List.cons_append, outside, outside, Config.move_pc, if_neg hfn]
      split_ifs <;> rfl

section Record

variable {r : Memory × NodePc}

/-- The node exchanges the tail. -/
lemma record_joins (hjoin : s.pc n = .casTail (s.mem.shm.entry l).tailNode)
    (hr : r.2.holding = false) : hist.record l s (.party n .unit) (s.move n r) =
      { hist with joined := hist.joined ++ [n] } := by
  have hentered : ¬ r.2 = .critical := fun hpc => by
    rw [hpc] at hr
    cases hr
  simp only [JoinHistory.record, Config.move_pc, if_true, if_pos hjoin, hentered, and_false,
    if_false]

/-- The last successful poll. -/
lemma record_enters (hjoin : s.pc n ≠ .casTail (s.mem.shm.entry l).tailNode)
    (hbefore : s.pc n ≠ .critical) (hr : r.2 = .critical) :
    hist.record l s (.party n .unit) (s.move n r) =
      { hist with entered := hist.entered ++ [n] } := by
  simp only [JoinHistory.record, Config.move_pc, if_true, hjoin, if_false, ne_eq, hbefore,
    not_false_eq_true, hr, and_self]

/-- Any other access. -/
lemma record_else (hjoin : s.pc n ≠ .casTail (s.mem.shm.entry l).tailNode)
    (hr : r.2 = .critical → s.pc n = .critical) :
    hist.record l s (.party n .unit) (s.move n r) = hist := by
  have hentered : ¬ (s.pc n ≠ .critical ∧ r.2 = .critical) := fun h => h.1 (hr h.2)
  simp only [JoinHistory.record, Config.move_pc, if_true, hjoin, hentered, if_false]

end Record

/-- Nobody enters an abandoned lock. -/
lemma Abandoned.record (habandoned : Abandoned l s) (hI : Inv size l s)
    (hinitial : hist.entered <+: hist.joined) :
    Abandoned l (s.move n (nodeStep l n s.mem (s.pc n))) ∧
      (hist.record l s (.party n .unit) (s.move n (nodeStep l n s.mem (s.pc n)))).entered <+:
        (hist.record l s (.party n .unit) (s.move n (nodeStep l n s.mem (s.pc n)))).joined := by
  have habandoned' := habandoned.node (n := n) hI
  refine ⟨habandoned', ?_⟩
  have hout : ¬ (s.pc n ≠ .critical ∧
      (s.move n (nodeStep l n s.mem (s.pc n))).pc n = .critical) := by
    rintro ⟨-, hpc⟩
    exact habandoned'.free n (.inl (by rw [hpc]; rfl))
  simp only [JoinHistory.record, hout, if_false]
  split_ifs
  · exact hinitial.trans (List.prefix_append _ _)
  · exact hinitial

section Node

variable (hI : Inv size l s) (hn : n < size.nodeCount) (hord : Ordered s.mem q)
  (hR : Represents size l s (view q)) (hjoined : hist.joined = hist.entered ++ outside s q)
include hI hn hord hR hjoined

/-- A node joins behind all others. -/
lemma JoinOrder.joins (hjoin : s.pc n = .casTail (s.mem.shm.entry l).tailNode) :
    JoinOrder size l (s.move n (nodeStep l n s.mem (s.pc n)))
      (hist.record l s (.party n .unit) (s.move n (nodeStep l n s.mem (s.pc n)))) := by
  have hnq : n ∉ q := fun hmem => by
    have := hR.links.mem_queue.1 hmem
    simp [hjoin] at this
  have hafter : (nodeStep l n s.mem (s.pc n)).2.holding = false := by
    rw [hjoin, nodeStep, if_pos rfl]
    dsimp only
    split_ifs <;> rfl
  refine .inr ⟨q ++ [n], ?_, hR.join hI hn hjoin, ?_⟩
  · simpa [nodeStep, hjoin] using hord.concat hnq (s.mem.shm.storeTail l n)
  · rw [outside_join hnq hafter, record_joins hjoin hafter, hjoined, List.append_assoc]

/-- The first node leaves the queue, or the records stop representing one. -/
lemma JoinOrder.reshapes (hjoin : s.pc n ≠ .casTail (s.mem.shm.entry l).tailNode)
    (hshape : Reshapes l s n) :
    JoinOrder size l (s.move n (nodeStep l n s.mem (s.pc n)))
      (hist.record l s (.party n .unit) (s.move n (nodeStep l n s.mem (s.pc n)))) := by
  obtain ⟨pc, hpc⟩ : ∃ pc, s.pc n = pc := ⟨_, rfl⟩
  cases pc with
  | casTail oldTail =>
      simp only [Reshapes, hpc] at hshape
      exact absurd (hshape ▸ hpc) hjoin
  | critical =>
      -- `ERROR_NOT_OWNER`
      have hne : (s.mem.shm.entry l).ownerNode ≠ n := by simpa [Reshapes, hpc] using hshape
      rw [record_else hjoin fun _ => hpc]
      exact .inl ⟨hR.notOwner hI hpc hne, hjoined ▸ List.prefix_append _ _⟩
  | casTailEmpty =>
      have htail : (s.mem.shm.entry l).tailNode = n := by simpa [Reshapes, hpc] using hshape
      have hlock : HasLock s n := .inl (by simp [hpc])
      rw [record_else hjoin (by simp [nodeStep, hpc, htail])]
      refine .inr ⟨[], ⟨by simp, by simp, by simp⟩, hR.leave hI hord.nodup hn hpc htail, ?_⟩
      rw [hjoined, hR.eq_singleton hord.nodup hlock htail]
      simp [outside, hpc]
  | wake succ =>
      obtain ⟨rest, rfl, hR'⟩ := hR.wake hI hord.nodup hpc
      have hnodup := List.nodup_cons.1 hord.nodup
      have hne : succ ≠ n := by
        rintro rfl
        exact hnodup.1 (List.mem_cons_self ..)
      have hsucc : (s.pc succ).holding = false := by
        refine Bool.eq_false_iff.2 fun hholds => hne ?_
        exact hI.unique succ n (.inl hholds) (.inl (by simp [hpc]))
      have hord' : Ordered s.mem (succ :: rest) := ⟨hnodup.2, (List.pairwise_cons.1 hord.order).2,
        fun k hk => hord.joined k (List.mem_cons_of_mem n hk)⟩
      rw [record_else hjoin (by simp [nodeStep, hpc])]
      refine .inr ⟨succ :: rest, hord'.keep hjoin, hR', ?_⟩
      rw [hjoined, outside, outside, if_pos (by simp [hpc]), Config.move_pc, if_neg hne, hsucc]
      rfl
  | _ => simp [Reshapes, hpc] at hshape

/-- An access that leaves the queue as it is: the first node enters, or nobody does. -/
lemma JoinOrder.stays (hjoin : s.pc n ≠ .casTail (s.mem.shm.entry l).tailNode)
    (hshape : ¬ Reshapes l s n)
    (hok : s.pc n = .clearHead → (s.mem.shm.entry l).headNode = n) :
    JoinOrder size l (s.move n (nodeStep l n s.mem (s.pc n)))
      (hist.record l s (.party n .unit) (s.move n (nodeStep l n s.mem (s.pc n)))) := by
  have hR' := hR.keep hI (view_wf hord.nodup) hn hshape fun hpc =>
    hR.storeHead_of_clearHead hI (view_wf hord.nodup) hpc (hok hpc)
  have hpcn : (s.move n (nodeStep l n s.mem (s.pc n))).pc n = (nodeStep l n s.mem (s.pc n)).2 := by
    rw [Config.move_pc, if_pos rfl]
  refine .inr ⟨q, hord.keep hjoin, hR', ?_⟩
  rcases nodeStep_holding hshape with ⟨henters, hbefore⟩ | ⟨hsame, hstays⟩
  · have hfront : q.head? = some n := hR'.grants.token n (.inl (by rw [hpcn, henters]; rfl))
    have hpc : s.pc n ≠ .critical := fun hpc => by
      rw [hpc] at hbefore
      cases hbefore
    rw [record_enters hjoin hpc henters]
    cases q with
    | nil => cases hfront
    | cons f rest =>
        obtain rfl : f = n := Option.some.inj hfront
        rw [outside, hbefore] at hjoined
        rw [outside, hpcn, henters]
        simpa using hjoined
  · rw [record_else hjoin hstays, outside_congr (s := s), hjoined]
    intro f _
    rw [Config.move_pc]
    split_ifs with hfn
    · rw [hfn, hsame]
    · rfl

end Node

/-- An access of a node keeps the order. -/
lemma JoinOrder.node (hI : Inv size l s) (h : JoinOrder size l s hist) (hn : n < size.nodeCount)
    (hok : s.pc n = .clearHead → (s.mem.shm.entry l).headNode = n) :
    JoinOrder size l (s.move n (nodeStep l n s.mem (s.pc n)))
      (hist.record l s (.party n .unit) (s.move n (nodeStep l n s.mem (s.pc n)))) := by
  rcases h with ⟨habandoned, hinitial⟩ | ⟨q, hord, hR, hjoined⟩
  · exact .inl (habandoned.record hI hinitial)
  by_cases hjoin : s.pc n = .casTail (s.mem.shm.entry l).tailNode
  · exact .joins hI hn hord hR hjoined hjoin
  by_cases hshape : Reshapes l s n
  · exact .reshapes hI hn hord hR hjoined hjoin hshape
  · exact .stays hI hn hord hR hjoined hjoin hshape hok

lemma JoinOrder.manager (hI : Inv size l s) (h : JoinOrder size l s hist) :
    JoinOrder size l (s.manage (managerStep size.nodeCount l s.mem s.mgr)) hist := by
  rcases h with ⟨habandoned, hinitial⟩ | ⟨q, hord, hR, hjoined⟩
  · exact .inl ⟨habandoned.manager hI, hinitial⟩
  · obtain ⟨-, -, -, -, hjoins, hjoinedAt⟩ := managerStep_queue size l s.mem s.mgr
    refine .inr ⟨q, ⟨hord.nodup, ?_, ?_⟩, hR.manager hI (view_wf hord.nodup), hjoined⟩
    · simpa [hjoinedAt] using hord.order
    · simpa [hjoins, hjoinedAt] using hord.joined

end Steps

/-! ## The order of the runs -/

section Runs

variable {size : SystemSize} {l : LockId} {p : State × JoinHistory}

lemma joinOrder_of_reachable
    (hp : (joinSystem size l).ReachableWhen (fun p => ClearsOwnHead l p.1) p) :
    Inv size l p.1 ∧ JoinOrder size l p.1 p.2 := by
  refine hp.invariant (I := fun p => Inv size l p.1 ∧ JoinOrder size l p.1 p.2)
    (fun p hi => ?_) fun p e p' h hok hnext => ?_
  · refine ⟨.init hi.1, ?_⟩
    rcases QueueInv.init hi.1 with habandoned | ⟨q, hord, hR⟩
    · exact .inl ⟨habandoned, hi.2 ▸ List.prefix_refl _⟩
    · have hpc : ∀ n, p.1.pc n = .idle := hi.1.2.1
      have hnil : q = [] := List.eq_nil_iff_forall_not_mem.2 fun n hn => by
        have := hR.links.mem_queue.1 hn
        simp [hpc n] at this
      refine .inr ⟨q, hord, hR, ?_⟩
      rw [hi.2, hnil]
      rfl
  · obtain ⟨s', hs', rfl⟩ := Option.map_eq_some_iff.1 hnext
    cases e with
    | party n c =>
        obtain ⟨hn, rfl⟩ := (machine_neverBlocks size l).next_party hs'
        exact ⟨h.1.node hn, h.2.node h.1 hn hok⟩
    | manager =>
        obtain rfl := (machine_neverBlocks size l).next_manager hs'
        exact ⟨h.1.manager, h.2.manager h.1⟩

end Runs

end CxlLock.Mcs
