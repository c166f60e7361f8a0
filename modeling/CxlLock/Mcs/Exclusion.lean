import CxlLock.Mcs.Interleaving

/-!
# Mutual exclusion of the interleaved MCS lock

`HasLock` says that the lock has been handed to a node: it is inside or on its way out, or
its record is no longer marked as waiting although it has a request.  The manager's
`locked = 2`, the predecessor's `locked = 0` and the node's own way through `release_lock` all
move this token, and nothing makes a second one:

* the manager hands out the token only after reading an invalid owner, and from that read on
  nobody has it (`deciding`);
* a node passes it on or drops it only while it is the owner, and only after that does the
  owner become invalid (`owning`, `emptying`);
* between the two stores of `grant_lock` the token is out and the owner still invalid
  (`owned`); the manager is the only one that could hand out another and is busy.

`nodeStep_effect` is the one case analysis over the accesses of a node.
-/

namespace CxlLock.Mcs

open Transition

/-- The lock has been handed to the node and the node has not handed it on. -/
def HasLock (s : State) (n : NodeId) : Prop :=
  (s.pc n).holding = true ∨ (s.pc n).requesting = true ∧ (s.mem.shm.node n).locked ≠ 1

structure Inv (size : SystemSize) (l : LockId) (s : State) : Prop where
  participates : ∀ n, s.pc n ≠ .idle → n < size.nodeCount
  unique : ∀ n m, HasLock s n → HasLock s m → n = m
  deciding : s.mgr.deciding = true →
    (s.mem.shm.entry l).ownerNode = invalidNodeId ∧ ∀ n, ¬ HasLock s n
  candidate : ∀ h ∈ s.mgr.candidate, h < size.nodeCount
  committing : ∀ h, s.mgr = .grantOwner h → (s.mem.shm.entry l).ownerNode = invalidNodeId
  owned : ∀ n, HasLock s n →
    (s.mem.shm.entry l).ownerNode ≠ invalidNodeId ∨ ∃ h, s.mgr = .grantOwner h
  owning : ∀ n, (s.pc n).owning = true → (s.mem.shm.entry l).ownerNode = n
  emptying : ∀ n, (s.pc n).emptying = true → ∀ m, ¬ HasLock s m
  successor : ∀ n succ, s.pc n = .passHead succ ∨ s.pc n = .passOwner succ →
    succ ≠ invalidNodeId
  waking : ∀ n succ, s.pc n = .wake succ → (s.mem.shm.entry l).ownerNode ≠ invalidNodeId
  polled : ∀ n v, s.pc n = .pollWaiting v → v ≠ 1 → (s.mem.shm.node n).locked ≠ 1

namespace Inv

variable {size : SystemSize} {l : LockId} {s : State} {n : NodeId}

/-- While a node is past its ownership check the lock has an owner. -/
lemma owner_ne_invalid (h : Inv size l s) (hn : (s.pc n).owning = true) :
    (s.mem.shm.entry l).ownerNode ≠ invalidNodeId := by
  have hidle : s.pc n ≠ .idle := by
    rintro hpc
    simp [hpc] at hn
  exact h.owning n hn ▸ size.node_ne_invalid (h.participates n hidle)

lemma owning_of_emptying {pc : NodePc} (hpc : pc.emptying = true) : pc.owning = true := by
  cases pc <;> simp_all

end Inv

/-! ## One access of a node -/

section NodeSteps

variable {size : SystemSize} {l : LockId} {s : State} {n : NodeId}

/-- An access of `n` that leaves the owner and the marks of all other nodes alone and does not
give `n` the lock. -/
structure Quiet (l : LockId) (s s' : State) (n : NodeId) : Prop where
  owner : (s'.mem.shm.entry l).ownerNode = (s.mem.shm.entry l).ownerNode
  locked : ∀ k, k ≠ n → (s'.mem.shm.node k).locked = (s.mem.shm.node k).locked
  token : HasLock s' n → HasLock s n
  owning : (s'.pc n).owning = true →
    (s.pc n).owning = true ∨ (s.mem.shm.entry l).ownerNode = n
  emptying : (s'.pc n).emptying = true →
    (s.pc n).emptying = true ∨ HasLock s n ∧ ¬ HasLock s' n
  successor : ∀ succ, s'.pc n = .passHead succ ∨ s'.pc n = .passOwner succ →
    succ ≠ invalidNodeId
  waking : ∀ succ, s'.pc n ≠ .wake succ
  polled : ∀ v, s'.pc n = .pollWaiting v → v ≠ 1 → (s'.mem.shm.node n).locked ≠ 1

attribute [local simp] nodeStep in
/-- Only two accesses of a node store an owner. -/
lemma nodeStep_owner {m : Memory} {pc : NodePc} (hclear : pc ≠ .clearOwner)
    (hpass : ∀ succ, pc ≠ .passOwner succ) :
    ((nodeStep l n m pc).1.shm.entry l).ownerNode = (m.shm.entry l).ownerNode := by
  cases pc with
  | clearOwner => exact absurd rfl hclear
  | passOwner succ => exact absurd rfl (hpass succ)
  | casTail | loadTail | pollWaiting | critical | loadNext | casTailEmpty | spinNext =>
      simp only [nodeStep]
      split_ifs <;> simp
  | _ => simp [nodeStep]

/-- Only waking the successor touches the mark of another node. -/
lemma nodeStep_locked {m : Memory} {pc : NodePc} (hwake : ∀ succ, pc ≠ .wake succ)
    {k : NodeId} (hk : k ≠ n) :
    ((nodeStep l n m pc).1.shm.node k).locked = (m.shm.node k).locked := by
  cases pc with
  | wake succ => exact absurd rfl (hwake succ)
  | casTail | loadTail | pollWaiting | critical | loadNext | casTailEmpty | spinNext =>
      simp only [nodeStep]
      split_ifs <;> simp
  | _ => simp [nodeStep, hk]

/-- No access of a node gives it the lock: its poll succeeds only with a mark that says that
it has been handed the lock before. -/
lemma nodeStep_token (h : Inv size l s)
    (hn : HasLock (s.move n (nodeStep l n s.mem (s.pc n))) n) : HasLock s n := by
  simp only [HasLock, Config.move_pc, Config.move_mem, if_true] at hn ⊢
  cases hpc : s.pc n with
  | pollWaiting v =>
      refine .inr ⟨rfl, ?_⟩
      simp only [nodeStep, hpc] at hn
      split_ifs at hn with hgranted
      · apply h.polled n v hpc
        rintro rfl
        simp at hgranted
      · simpa using hn
  | casTail | loadTail | critical | loadNext | casTailEmpty | spinNext =>
      simp only [nodeStep, hpc] at hn
      split_ifs at hn <;> simp_all
  | _ => simp_all [nodeStep]

/-- Only the owner gets past its ownership check. -/
lemma nodeStep_owning (hn : (nodeStep l n s.mem (s.pc n)).2.owning = true) :
    (s.pc n).owning = true ∨ (s.mem.shm.entry l).ownerNode = n := by
  cases hpc : s.pc n with
  | critical =>
      simp only [nodeStep, hpc] at hn
      split_ifs at hn with howner
      · simp at hn
      · exact .inr (not_not.1 howner)
  | casTail | loadTail | pollWaiting | loadNext | casTailEmpty | spinNext =>
      simp only [nodeStep, hpc] at hn
      split_ifs at hn <;> simp_all
  | _ => simp_all [nodeStep]

/-- A node that empties the queue gives up the lock. -/
lemma nodeStep_emptying (hn : (nodeStep l n s.mem (s.pc n)).2.emptying = true) :
    (s.pc n).emptying = true ∨ HasLock s n ∧
      ¬ HasLock (s.move n (nodeStep l n s.mem (s.pc n))) n := by
  cases hpc : s.pc n with
  | casTailEmpty =>
      refine .inr ⟨.inl (by simp [hpc]), ?_⟩
      simp only [nodeStep, hpc] at hn ⊢
      split_ifs at hn ⊢ with htail
      · simp [HasLock]
      · simp at hn
  | casTail | loadTail | pollWaiting | critical | loadNext | spinNext =>
      simp only [nodeStep, hpc] at hn
      split_ifs at hn <;> simp_all
  | _ => simp_all [nodeStep]

/-- The successor that a node hands the lock to has been read as a valid link. -/
lemma nodeStep_successor (h : Inv size l s) {succ : NodeId}
    (hn : (nodeStep l n s.mem (s.pc n)).2 = .passHead succ ∨
      (nodeStep l n s.mem (s.pc n)).2 = .passOwner succ) : succ ≠ invalidNodeId := by
  cases hpc : s.pc n with
  | passHead next =>
      obtain rfl : next = succ := by simpa [nodeStep, hpc] using hn
      exact h.successor n next (.inl hpc)
  | loadNext | spinNext =>
      simp only [nodeStep, hpc] at hn
      split_ifs at hn with hnext
      · simp at hn
      · obtain rfl : (s.mem.shm.node n).nextNode = succ := by simpa using hn
        exact hnext
  | casTail | loadTail | pollWaiting | critical | casTailEmpty =>
      simp only [nodeStep, hpc] at hn
      split_ifs at hn <;> simp at hn
  | _ => simp [nodeStep, hpc] at hn

/-- What a poll has read is what the record says. -/
lemma nodeStep_polled {v : UInt32} (hn : (nodeStep l n s.mem (s.pc n)).2 = .pollWaiting v) :
    ((nodeStep l n s.mem (s.pc n)).1.shm.node n).locked = v := by
  cases hpc : s.pc n with
  | pollLocked => simpa [nodeStep, hpc] using hn
  | casTail | loadTail | pollWaiting | critical | loadNext | casTailEmpty | spinNext =>
      simp only [nodeStep, hpc] at hn
      split_ifs at hn
  | _ => simp [nodeStep, hpc] at hn

/-- Only the store of the owner is followed by waking the successor. -/
lemma nodeStep_waking (hpass : ∀ succ, s.pc n ≠ .passOwner succ) (succ : NodeId) :
    (nodeStep l n s.mem (s.pc n)).2 ≠ .wake succ := by
  intro hn
  cases hpc : s.pc n with
  | passOwner next => exact hpass next hpc
  | casTail | loadTail | pollWaiting | critical | loadNext | casTailEmpty | spinNext =>
      simp only [nodeStep, hpc] at hn
      split_ifs at hn
  | _ => simp [nodeStep, hpc] at hn

/-- All accesses of a node but three are quiet. -/
lemma nodeStep_quiet (h : Inv size l s) (hclear : s.pc n ≠ .clearOwner)
    (hpass : ∀ succ, s.pc n ≠ .passOwner succ) (hwake : ∀ succ, s.pc n ≠ .wake succ) :
    Quiet l s (s.move n (nodeStep l n s.mem (s.pc n))) n := by
  have hpc : (s.move n (nodeStep l n s.mem (s.pc n))).pc n = (nodeStep l n s.mem (s.pc n)).2 := by
    rw [Config.move_pc, if_pos rfl]
  refine ⟨nodeStep_owner hclear hpass, fun k hk => nodeStep_locked hwake hk,
    nodeStep_token h, ?_, ?_, ?_, ?_, ?_⟩ <;> rw [hpc]
  · exact nodeStep_owning
  · exact nodeStep_emptying
  · exact fun succ => nodeStep_successor h
  · exact nodeStep_waking hpass
  · intro v hv hne
    rw [Config.move_mem, nodeStep_polled hv]
    exact hne

/-- The three are clearing the owner, passing it on, and waking the successor. -/
lemma nodeStep_effect (h : Inv size l s) :
    Quiet l s (s.move n (nodeStep l n s.mem (s.pc n))) n ∨
      s.pc n = .clearOwner ∨ ∃ succ, s.pc n = .passOwner succ ∨ s.pc n = .wake succ := by
  by_cases hclear : s.pc n = .clearOwner
  · exact .inr (.inl hclear)
  by_cases hpass : ∃ succ, s.pc n = .passOwner succ
  · obtain ⟨succ, hpc⟩ := hpass
    exact .inr (.inr ⟨succ, .inl hpc⟩)
  by_cases hwake : ∃ succ, s.pc n = .wake succ
  · obtain ⟨succ, hpc⟩ := hwake
    exact .inr (.inr ⟨succ, .inr hpc⟩)
  exact .inl (nodeStep_quiet h hclear (not_exists.1 hpass) (not_exists.1 hwake))

/-- An access of `n` does not touch the counters and marks of other nodes, unless it wakes
them. -/
lemma hasLock_move_of_ne {r : Memory × NodePc} {k : NodeId} (hk : k ≠ n)
    (hlocked : (r.1.shm.node k).locked = (s.mem.shm.node k).locked) :
    HasLock (s.move n r) k ↔ HasLock s k := by
  simp [HasLock, hk, hlocked]

/-- Tokens only disappear. -/
lemma Quiet.hasLock {r : Memory × NodePc} (hq : Quiet l s (s.move n r) n) {k : NodeId}
    (hk : HasLock (s.move n r) k) : HasLock s k := by
  by_cases hkn : k = n
  · exact hkn ▸ hq.token (hkn ▸ hk)
  · exact (hasLock_move_of_ne hkn (hq.locked k hkn)).1 hk

lemma Inv.quiet (h : Inv size l s) (hn : n < size.nodeCount) {r : Memory × NodePc}
    (hq : Quiet l s (s.move n r) n) : Inv size l (s.move n r) := by
  have htoken : ∀ k, HasLock (s.move n r) k → HasLock s k := fun k => hq.hasLock
  have hpc : ∀ k, k ≠ n → (s.move n r).pc k = s.pc k := fun k hk => by
    rw [Config.move_pc, if_neg hk]
  constructor
  · intro k hk
    by_cases hkn : k = n
    · exact hkn ▸ hn
    · exact h.participates k (hpc k hkn ▸ hk)
  · exact fun k m hk hm => h.unique k m (htoken k hk) (htoken m hm)
  · intro hdec
    obtain ⟨howner, hfree⟩ := h.deciding hdec
    exact ⟨hq.owner.trans howner, fun k hk => hfree k (htoken k hk)⟩
  · exact h.candidate
  · exact fun g hg => hq.owner.trans (h.committing g hg)
  · intro k hk
    rw [hq.owner]
    exact h.owned k (htoken k hk)
  · intro k hk
    rw [hq.owner]
    by_cases hkn : k = n
    · subst hkn
      exact (hq.owning hk).elim (h.owning k) id
    · exact h.owning k (hpc k hkn ▸ hk)
  · intro k hk m hm
    by_cases hkn : k = n
    · subst hkn
      rcases hq.emptying hk with hk' | ⟨hk', hdrop⟩
      · exact h.emptying k hk' m (htoken m hm)
      · obtain rfl := h.unique m k (htoken m hm) hk'
        exact hdrop hm
    · exact h.emptying k (hpc k hkn ▸ hk) m (htoken m hm)
  · intro k succ hk
    by_cases hkn : k = n
    · subst hkn
      exact hq.successor succ hk
    · exact h.successor k succ (hpc k hkn ▸ hk)
  · intro k succ hk
    by_cases hkn : k = n
    · subst hkn
      exact absurd hk (hq.waking succ)
    · rw [hq.owner]
      exact h.waking k succ (hpc k hkn ▸ hk)
  · intro k v hk hv
    by_cases hkn : k = n
    · subst hkn
      exact hq.polled v hk hv
    · rw [hq.locked k hkn]
      exact h.polled k v (hpc k hkn ▸ hk) hv

/-- An access of `n` on its way out of `release_lock`.  What is left to show is about the owner
and about who has the lock. -/
lemma Inv.handOn (h : Inv size l s) (hn : n < size.nodeCount) {r : Memory × NodePc}
    (hnotOwning : r.2.owning = false) (hnotPolled : ∀ v, r.2 ≠ .pollWaiting v)
    (hlocked : ∀ k, (s.mem.shm.node k).locked ≠ 1 → (r.1.shm.node k).locked ≠ 1)
    (hunique : ∀ k m, HasLock (s.move n r) k → HasLock (s.move n r) m → k = m)
    (hdeciding : s.mgr.deciding = true →
      (r.1.shm.entry l).ownerNode = invalidNodeId ∧ ∀ k, ¬ HasLock (s.move n r) k)
    (hcommitting : ∀ g, s.mgr = .grantOwner g → (r.1.shm.entry l).ownerNode = invalidNodeId)
    (howned : ∀ k, HasLock (s.move n r) k →
      (r.1.shm.entry l).ownerNode ≠ invalidNodeId ∨ ∃ g, s.mgr = .grantOwner g)
    (howning : ∀ k, k ≠ n → (s.pc k).owning = true → (r.1.shm.entry l).ownerNode = k)
    (hemptying : ∀ k, k ≠ n → (s.pc k).emptying = true → ∀ m, ¬ HasLock (s.move n r) m)
    (hwaking : ∀ k succ, (s.move n r).pc k = .wake succ →
      (r.1.shm.entry l).ownerNode ≠ invalidNodeId) : Inv size l (s.move n r) := by
  have hafter : ¬ r.2.owning = true := Bool.eq_false_iff.1 hnotOwning
  constructor
  · intro k hk
    by_cases hkn : k = n
    · exact hkn ▸ hn
    · exact h.participates k (by rwa [Config.move_pc, if_neg hkn] at hk)
  · exact hunique
  · exact hdeciding
  · exact h.candidate
  · exact hcommitting
  · exact howned
  · intro k hk
    obtain ⟨hkn, hk⟩ := Config.of_move_pc (fun pc : NodePc => pc.owning = true) hafter hk
    exact howning k hkn hk
  · intro k hk
    obtain ⟨hkn, hk⟩ := Config.of_move_pc (fun pc : NodePc => pc.emptying = true)
      (fun hr => hafter (owning_of_emptying hr)) hk
    exact hemptying k hkn hk
  · intro k succ hk
    obtain ⟨-, hk⟩ := Config.of_move_pc
      (fun pc : NodePc => pc = .passHead succ ∨ pc = .passOwner succ)
      (fun hr => hafter (by rcases hr with hr | hr <;> simp [hr])) hk
    exact h.successor k succ hk
  · exact hwaking
  · intro k v hk hv
    obtain ⟨-, hk⟩ := Config.of_move_pc (fun pc : NodePc => pc = .pollWaiting v) (hnotPolled v) hk
    exact hlocked k (h.polled k v hk hv)

/-- When the owner is cleared, nobody has the lock. -/
lemma Inv.not_hasLock_clearOwner (h : Inv size l s) (hpc : s.pc n = .clearOwner) (k : NodeId) :
    ¬ HasLock (s.move n (nodeStep l n s.mem .clearOwner)) k := by
  intro hk
  by_cases hkn : k = n
  · simp [HasLock, nodeStep, hkn] at hk
  · refine h.emptying n (by simp [hpc]) k ?_
    exact (hasLock_move_of_ne hkn (by simp [nodeStep])).1 hk

/-- Passing the owner on leaves the lock where it is. -/
lemma Inv.hasLock_passOwner {succ : NodeId} (hpc : s.pc n = .passOwner succ) {k : NodeId}
    (hk : HasLock (s.move n (nodeStep l n s.mem (.passOwner succ))) k) : HasLock s k := by
  by_cases hkn : k = n
  · exact hkn ▸ .inl (by simp [hpc])
  · exact (hasLock_move_of_ne hkn (by simp [nodeStep])).1 hk

/-- Waking the successor moves the lock there, if the successor has a request. -/
lemma Inv.hasLock_wake (h : Inv size l s) {succ : NodeId} (hpc : s.pc n = .wake succ)
    {k : NodeId} (hk : HasLock (s.move n (nodeStep l n s.mem (.wake succ))) k) : k = succ := by
  by_contra hks
  by_cases hkn : k = n
  · simp [HasLock, nodeStep, hkn] at hk
  · have hk' := (hasLock_move_of_ne hkn (by simp [nodeStep, hks])).1 hk
    exact hkn (h.unique k n hk' (.inl (by simp [hpc])))

lemma Inv.clearOwner (h : Inv size l s) (hpc : s.pc n = .clearOwner) :
    Inv size l (s.move n (nodeStep l n s.mem (s.pc n))) := by
  have howner := h.owning n (by simp [hpc])
  have hn := h.participates n (by simp [hpc])
  have hfree := h.not_hasLock_clearOwner hpc
  have hinvalid : ((nodeStep l n s.mem .clearOwner).1.shm.entry l).ownerNode =
      invalidNodeId := by simp [nodeStep]
  rw [hpc]
  refine h.handOn hn (by simp [nodeStep]) (by simp [nodeStep]) (by simp [nodeStep])
    (fun k _ hk => absurd hk (hfree k)) (fun _ => ⟨hinvalid, hfree⟩) (fun _ _ => hinvalid)
    (fun k hk => absurd hk (hfree k)) (fun k hkn hk => ?_) (fun _ _ _ => hfree)
    (fun k succ hk => ?_)
  · exact absurd ((h.owning k hk).symm.trans howner) hkn
  · exact absurd (.inl (by rw [hk]; rfl)) (hfree k)

lemma Inv.passOwner (h : Inv size l s) {succ : NodeId} (hpc : s.pc n = .passOwner succ) :
    Inv size l (s.move n (nodeStep l n s.mem (s.pc n))) := by
  have hvalid := h.owner_ne_invalid (n := n) (by simp [hpc])
  have hn : HasLock s n := .inl (by simp [hpc])
  have howner := h.owning n (by simp [hpc])
  have hpart := h.participates n (by simp [hpc])
  have htoken := fun k hk => Inv.hasLock_passOwner (l := l) (k := k) hpc hk
  have howner' : ((nodeStep l n s.mem (.passOwner succ)).1.shm.entry l).ownerNode ≠
      invalidNodeId := by simpa [nodeStep] using h.successor n succ (.inr hpc)
  rw [hpc]
  refine h.handOn hpart (by simp [nodeStep]) (by simp [nodeStep]) (by simp [nodeStep])
    (fun k m hk hm => h.unique k m (htoken k hk) (htoken m hm))
    (fun hdec => absurd hn ((h.deciding hdec).2 n))
    (fun g hg => absurd (h.committing g hg) hvalid) (fun _ _ => .inl howner')
    (fun k hkn hk => ?_) (fun k _ hk => absurd hn (h.emptying k hk n)) (fun _ _ _ => howner')
  exact absurd ((h.owning k hk).symm.trans howner) hkn

lemma Inv.wake (h : Inv size l s) {succ : NodeId} (hpc : s.pc n = .wake succ) :
    Inv size l (s.move n (nodeStep l n s.mem (s.pc n))) := by
  have hn : HasLock s n := .inl (by simp [hpc])
  have howner := h.waking n succ hpc
  have hpart := h.participates n (by simp [hpc])
  have howner' : ((nodeStep l n s.mem (.wake succ)).1.shm.entry l).ownerNode =
      (s.mem.shm.entry l).ownerNode := by simp [nodeStep]
  rw [hpc]
  refine h.handOn hpart (by simp [nodeStep]) (by simp [nodeStep]) (fun k hk => ?_)
    (fun k m hk hm => (h.hasLock_wake hpc hk).trans (h.hasLock_wake hpc hm).symm)
    (fun hdec => absurd hn ((h.deciding hdec).2 n))
    (fun g hg => absurd (h.committing g hg) howner) (fun _ _ => .inl (howner'.symm ▸ howner))
    (fun k _ hk => howner'.trans (h.owning k hk))
    (fun k _ hk => absurd hn (h.emptying k hk n)) (fun _ _ _ => howner'.symm ▸ howner)
  by_cases hks : k = succ
  · simp [nodeStep, hks]
  · simpa [nodeStep, hks] using hk

lemma Inv.node (h : Inv size l s) (hn : n < size.nodeCount) :
    Inv size l (s.move n (nodeStep l n s.mem (s.pc n))) := by
  rcases nodeStep_effect h with hquiet | hpc | ⟨succ, hpc | hpc⟩
  · exact h.quiet hn hquiet
  · exact h.clearOwner hpc
  · exact h.passOwner hpc
  · exact h.wake hpc

end NodeSteps

/-! ## One access of the manager, and runs -/

section Runs

variable {size : SystemSize} {l : LockId} {s : State}

/-- The manager marks only the node that it grants the lock to. -/
lemma managerStep_locked {nodeCount : UInt32} {m : Memory} {pc : ManagerPc} {k : NodeId}
    (hpc : pc ≠ .grantLocked k) :
    ((managerStep nodeCount l m pc).1.shm.node k).locked = (m.shm.node k).locked := by
  cases pc with
  | grantLocked head =>
      have hk : k ≠ head := fun hk => hpc (hk ▸ rfl)
      simp [managerStep, hk]
  | loadOwner | loadHead | loadWaiting =>
      simp only [managerStep]
      split_ifs <;> rfl
  | _ => simp [managerStep]

lemma hasLock_manage {nodeCount : UInt32} {k : NodeId}
    (hk : HasLock (s.manage (managerStep nodeCount l s.mem s.mgr)) k) :
    HasLock s k ∨ s.mgr = .grantLocked k := by
  by_cases hmgr : s.mgr = .grantLocked k
  · exact .inr hmgr
  · left
    simpa only [HasLock, Config.manage_pc, Config.manage_mem, managerStep_locked hmgr] using hk

lemma Inv.manager (h : Inv size l s) :
    Inv size l (s.manage (managerStep size.nodeCount l s.mem s.mgr)) := by
  have hvalid : ∀ k, (s.pc k).owning = true → (s.mem.shm.entry l).ownerNode ≠ invalidNodeId :=
    fun k hk => h.owner_ne_invalid hk
  obtain ⟨hpart, hunique, hdec, hcand, hcommit, howned, howning, hempty, hsucc, hwake,
    hpolled⟩ := h
  cases hmgr : s.mgr with
  | loadOwner =>
      simp only [managerStep]
      split_ifs with howner
      · exact ⟨hpart, hunique, by simp, by simp, by simp, fun _ _ => .inl howner, howning,
          hempty, hsucc, hwake, hpolled⟩
      · -- an invalid owner, and no grant on its way: nobody has the lock
        have hfree : ∀ k, ¬ HasLock s k := by
          intro k hk
          rcases howned k hk with hne | ⟨g, hg⟩
          · exact howner hne
          · simp [hmgr] at hg
        exact ⟨hpart, hunique, fun _ => ⟨not_not.1 howner, hfree⟩, by simp, by simp,
          fun k hk => absurd hk (hfree k), howning, hempty, hsucc, hwake, hpolled⟩
  | loadHead =>
      obtain ⟨howner, hfree⟩ := hdec (by simp [hmgr])
      simp only [managerStep]
      split_ifs with hhead
      · exact ⟨hpart, hunique, by simp, by simp, by simp, fun k hk => absurd hk (hfree k),
          howning, hempty, hsucc, hwake, hpolled⟩
      · refine ⟨hpart, hunique, fun _ => ⟨howner, hfree⟩, ?_, by simp,
          fun k hk => absurd hk (hfree k), howning, hempty, hsucc, hwake, hpolled⟩
        simpa using (not_or.1 hhead).2
  | loadLocked head =>
      obtain ⟨howner, hfree⟩ := hdec (by simp [hmgr])
      exact ⟨hpart, hunique, fun _ => ⟨howner, hfree⟩,
        by simpa [hmgr, managerStep] using hcand, by simp [managerStep],
        fun k hk => absurd hk (hfree k), howning, hempty, hsucc, hwake, hpolled⟩
  | loadWaiting head locked =>
      obtain ⟨howner, hfree⟩ := hdec (by simp [hmgr])
      simp only [managerStep]
      split_ifs
      · exact ⟨hpart, hunique, fun _ => ⟨howner, hfree⟩, by simpa [hmgr] using hcand,
          by simp, fun k hk => absurd hk (hfree k), howning, hempty, hsucc, hwake, hpolled⟩
      · exact ⟨hpart, hunique, by simp, by simp, by simp, fun k hk => absurd hk (hfree k),
          howning, hempty, hsucc, hwake, hpolled⟩
  | grantLocked head =>
      obtain ⟨howner, hfree⟩ := hdec (by simp [hmgr])
      -- the only token is the one given to the head
      have htoken : ∀ k, HasLock (s.manage (managerStep size.nodeCount l s.mem
          (.grantLocked head))) k → k = head := by
        intro k hk
        rcases hasLock_manage (hmgr ▸ hk) with hk | hk
        · exact absurd hk (hfree k)
        · obtain rfl : head = k := by simpa [hmgr] using hk
          rfl
      refine ⟨hpart, fun n m hn hm => (htoken n hn).trans (htoken m hm).symm, by
        simp [managerStep], by simpa [hmgr, managerStep] using hcand, by simpa [managerStep],
        by simp [managerStep], howning, ?_, hsucc, hwake, ?_⟩
      · intro k hk
        exact absurd howner (hvalid k (Inv.owning_of_emptying hk))
      · intro k v hk hv
        by_cases hkh : k = head
        · simp [managerStep, hkh]
        · simpa [managerStep, hkh] using hpolled k v hk hv
  | grantOwner head =>
      have howner := hcommit head hmgr
      have hhead := hcand head (by simp [hmgr])
      simp only [managerStep]
      have hvalidHead := size.node_ne_invalid hhead
      refine ⟨hpart, hunique, by simp, by simp, by simp, fun k _ => .inl (by simpa),
        fun k hk => absurd howner (hvalid k hk), hempty, hsucc, fun k succ _ => by simpa,
        hpolled⟩

lemma Inv.init (h : (machine size l).system.init s) : Inv size l s := by
  obtain ⟨-, hpc, hmgr⟩ := h
  replace hpc : ∀ n, s.pc n = .idle := hpc
  replace hmgr : s.mgr = .loadOwner := hmgr
  constructor <;> simp [HasLock, hpc, hmgr]

/-- The invariant holds in every reachable state. -/
lemma inv_of_reachable (hs : (machine size l).system.Reachable s) : Inv size l s := by
  refine (machine_neverBlocks size l).invariant (fun _ => Inv.init) (fun s n c h _ hn => ?_)
    (fun s h _ => ?_) hs
  · exact h.node hn
  · exact h.manager

end Runs

/-! ## Exclusion -/

/-- **Mutual exclusion of the MCS lock, access by access.** -/
theorem mcs_exclusive (size : SystemSize) (l : LockId) (s : State)
    (hs : (machine size l).system.Reachable s) : Exclusive s := fun n m hn hm =>
  (inv_of_reachable hs).unique n m (.inl (by simp [hn])) (.inl (by simp [hm]))

/-- Node 0 is granted the lock by the manager and hands it over to node 1, which enters. -/
theorem mcs_exclusive_run : ∃ s : State, Exclusive s ∧ s.pc 1 = .critical := by
  obtain ⟨s, hs, hp⟩ := LabelledSystem.exists_of_exec (fun _ _ => True)
    (turns 0 5 ++ managerTurns 6 ++ turns 0 2 ++ turns 1 7 ++ turns 0 8 ++ turns 1 2)
    (fun s => s.pc 1 == .critical) (zeroedStart_init (.of 2 1) (l := 0) (by decide))
    (by decide +kernel)
  exact ⟨s, mcs_exclusive (.of 2 1) 0 s hs, beq_iff_eq.1 hp⟩

end CxlLock.Mcs
