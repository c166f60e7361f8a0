import CxlLock.Qspinlock.Exclusion

/-!
# Does a node that has entered the qspinlock find itself as the owner?

`owner_node` is stored after the lock word has already changed hands.  There are two ways in
which a node that has entered finds another value there and is refused by `release_lock`:

* it enters between the stores of `grant_lock` to its `locked` and to the owner, and releases
  at once, as for MCS;
* its predecessor has given the lock word back and clears the owner only after the node has
  stored its own id: `late_clear_erases_owner`.

`KeepsOwner` excludes the two, and then whoever has the lock is the owner.  The proof follows
who has the lock, as for exclusion.  While the fast path has not stored its id yet, and while
the lock is handed over, the owner is somebody else, and between the two stores of the manager
the lock stays where it is (`granting`).
-/

namespace CxlLock.Qspinlock

open Transition

/-- What `release_lock` of node `n` returns at the node's next access, if it returns there. -/
def releaseResult (l : LockId) (n : NodeId) (shm : QspinShm) : NodePc → Option LockResult
  | .critical => if (shm.entry l).ownerNode ≠ n then some .errorNotOwner else none
  | .resetWaiting | .forceWaiting => some .success
  | _ => none

/-- A `release_lock` that node `n` is about to call finds the node as the owner, and one that
is about to return returns `SUCCESS`. -/
def ReleaseOwned (l : LockId) (s : State) (n : NodeId) : Prop :=
  (s.pc n = .critical → (s.mem.entry l).ownerNode = n) ∧
    ∀ rc, releaseResult l n s.mem (s.pc n) = some rc → rc = .success

/-- A node of the system is handing the lock over to node `k`, whose id is the owner. -/
def HandedTo (size : SystemSize) (s : State) (k : NodeId) : Prop :=
  ∃ m, m < size.nodeCount ∧ (s.pc m = .passWord k ∨ s.pc m = .wake k)

/-- The condition on an access of a node: it does not begin `release_lock` while the manager
is between its two stores for this node, and if it stores the invalid owner, the node that was
the owner neither has the lock nor is being handed it. -/
def KeepsOwner (size : SystemSize) (l : LockId) (s : State) : Turn NodeId Unit → Prop
  | .party n _ => (s.pc n = .critical → s.mgr ≠ .grantOwner n) ∧
      (s.pc n = .clearOwner ∨ s.pc n = .forceOwner →
        ¬ HasLock s (s.mem.entry l).ownerNode ∧ ¬ HandedTo size s (s.mem.entry l).ownerNode)
  | .manager => True

instance (s : State) (k : NodeId) : Decidable (HasLock s k) :=
  inferInstanceAs (Decidable (_ ∨ _))

instance (size : SystemSize) (s : State) (k : NodeId) : Decidable (HandedTo size s k) :=
  inferInstanceAs (Decidable (∃ m, m < size.nodeCount ∧ _))

instance (size : SystemSize) (l : LockId) (s : State) : ∀ e, Decidable (KeepsOwner size l s e)
  | .party _ _ => inferInstanceAs (Decidable (_ ∧ _))
  | .manager => .isTrue trivial

/-! ## Who the owner is -/

/-- The node has stored its id as the owner and not begun to store another one. -/
def NodePc.settled : NodePc → Prop
  | .fastLocked | .fastOwner | .passWord _ | .wake _ => False
  | _ => True

/-- The owner in terms of who has the lock. -/
structure Granted (size : SystemSize) (l : LockId) (s : State) : Prop where
  participates : ∀ n, s.pc n ≠ .idle → n < size.nodeCount
  owner : ∀ n, HasLock s n → (s.pc n).settled →
    (s.mem.entry l).ownerNode = n ∨ s.mgr = .grantOwner n
  passing : ∀ n succ, s.pc n = .passWord succ ∨ s.pc n = .wake succ →
    (s.mem.entry l).ownerNode = succ
  granting : ∀ h, s.mgr = .grantOwner h → (s.mem.entry l).lockWord ≠ 0 ∧
    ∀ k, HasLock s k → k = h ∧ ((s.pc k).requesting = true ∨ s.pc k = .critical)

section Steps

variable {size : SystemSize} {l : LockId} {s : State} {n : NodeId}

/-- A node that holds the lock, other than one that has just entered, does so while the manager
is not between its two stores. -/
lemma Granted.not_granting (h : Granted size l s) (hn : HasLock s n)
    (hreq : (s.pc n).requesting = false) (hcrit : s.pc n ≠ .critical) (k : NodeId) :
    s.mgr ≠ .grantOwner k := by
  intro hmgr
  rcases ((h.granting k hmgr).2 n hn).2 with hreq' | hcrit'
  · rw [hreq] at hreq'
    cases hreq'
  · exact hcrit hcrit'

/-- An access that leaves the owner alone and gives nobody the lock. -/
lemma Granted.keep (h : Granted size l s) {r : QspinShm × NodePc} (hn : n < size.nodeCount)
    (howner : (r.1.entry l).ownerNode = (s.mem.entry l).ownerNode)
    (hword : (r.1.entry l).lockWord = (s.mem.entry l).lockWord ∨ (r.1.entry l).lockWord ≠ 0)
    (htoken : ∀ k, HasLock (s.move n r) k → HasLock s k)
    (hsettled : HasLock (s.move n r) n → r.2.settled → (s.pc n).settled)
    (hpass : ∀ succ, r.2 = .passWord succ ∨ r.2 = .wake succ → s.pc n = .passWord succ)
    (hgrant : HasLock (s.move n r) n → r.2.requesting = true ∨ r.2 = .critical ∨
      ∀ k, s.mgr ≠ .grantOwner k) :
    Granted size l (s.move n r) := by
  refine ⟨fun k hk => ?_, fun k hk hset => ?_, fun k succ hk => ?_, fun k hmgr => ?_⟩
  · by_cases hkn : k = n
    · exact hkn ▸ hn
    · rw [Config.move_pc, if_neg hkn] at hk
      exact h.participates k hk
  · rw [Config.move_mem, howner, Config.move_mgr]
    apply h.owner k (htoken k hk)
    rw [Config.move_pc] at hset
    split_ifs at hset with hkn
    · exact hkn ▸ hsettled (hkn ▸ hk) hset
    · exact hset
  · rw [Config.move_mem, howner]
    rw [Config.move_pc] at hk
    split_ifs at hk with hkn
    · exact h.passing n succ (.inl (hpass succ hk))
    · exact h.passing k succ hk
  · rw [Config.move_mgr] at hmgr
    obtain ⟨hzero, honly⟩ := h.granting k hmgr
    constructor
    · rw [Config.move_mem]
      rcases hword with hword | hword
      · rwa [hword]
      · exact hword
    · intro j hj
      obtain ⟨hjk, hpc⟩ := honly j (htoken j hj)
      refine ⟨hjk, ?_⟩
      rw [Config.move_pc]
      split_ifs with hjn
      · rcases hgrant (hjn ▸ hj) with hreq | hcrit | hnot
        · exact .inl hreq
        · exact .inr hcrit
        · exact absurd hmgr (hnot k)
      · exact hpc

/-- An access while the manager is not between its two stores. -/
lemma Granted.store (h : Granted size l s) {r : QspinShm × NodePc} (hn : n < size.nodeCount)
    (hmgr : ∀ j, s.mgr ≠ .grantOwner j)
    (howner : ∀ j, HasLock (s.move n r) j → ((s.move n r).pc j).settled →
      (r.1.entry l).ownerNode = j)
    (hpass : ∀ j succ, (s.move n r).pc j = .passWord succ ∨ (s.move n r).pc j = .wake succ →
      (r.1.entry l).ownerNode = succ) :
    Granted size l (s.move n r) := by
  refine ⟨fun j hj => ?_, fun j hj hset => .inl (howner j hj hset), hpass,
    fun j hj => absurd hj (hmgr j)⟩
  by_cases hjn : j = n
  · exact hjn ▸ hn
  · rw [Config.move_pc, if_neg hjn] at hj
    exact h.participates j hj

/-- A node that hands the lock over has it. -/
lemma hasLock_of_passing {k succ : NodeId} (hk : s.pc k = .passWord succ ∨ s.pc k = .wake succ) :
    HasLock s k := by
  rcases hk with hk | hk <;> exact .inl (by simp [hk])

/-- An access of `n` while nobody else has the lock: what is left to show is about `n`. -/
lemma Granted.alone (h : Granted size l s) {r : QspinShm × NodePc} (hn : n < size.nodeCount)
    (hmgr : ∀ j, s.mgr ≠ .grantOwner j) (hothers : ∀ k, k ≠ n → ¬ HasLock s k)
    (hlocked : ∀ k, k ≠ n → (r.1.node k).locked = (s.mem.node k).locked)
    (howner : HasLock (s.move n r) n → r.2.settled → (r.1.entry l).ownerNode = n)
    (hpass : ∀ succ, r.2 = .passWord succ ∨ r.2 = .wake succ →
      (r.1.entry l).ownerNode = succ) :
    Granted size l (s.move n r) := by
  apply h.store hn hmgr
  · intro j hj hset
    by_cases hjn : j = n
    · subst hjn
      exact howner hj (by rwa [Config.move_pc, if_pos rfl] at hset)
    · exact absurd ((hasLock_move_of_ne hjn (hlocked j hjn)).1 hj) (hothers j hjn)
  · intro j succ hj
    rw [Config.move_pc] at hj
    split_ifs at hj with hjn
    · exact hpass succ hj
    · exact absurd (hasLock_of_passing hj) (hothers j hjn)

/-- While `n` has the lock nobody else has it. -/
lemma not_hasLock_of_ne (hinv : Inv l s) (hlock : HasLock s n) :
    ∀ k, k ≠ n → ¬ HasLock s k := fun k hk hk' => hk (hinv.unique k n hk' hlock)

/-- Only four accesses of a node store the owner. -/
lemma nodeStep_owner {pc : NodePc} (shm : QspinShm) (hfast : pc ≠ .fastOwner)
    (hclear : pc ≠ .clearOwner) (hforce : pc ≠ .forceOwner)
    (hpass : ∀ succ, pc ≠ .passOwner succ) :
    ((nodeStep l n shm pc).1.entry l).ownerNode = (shm.entry l).ownerNode := by
  cases pc with
  | fastOwner => exact absurd rfl hfast
  | clearOwner => exact absurd rfl hclear
  | forceOwner => exact absurd rfl hforce
  | passOwner succ => exact absurd rfl (hpass succ)
  | casFast | casWord | pollWaiting | critical | loadNext | casRelease | spinNext | recheckNext =>
      simp only [nodeStep]
      split_ifs <;> simp
  | _ => simp [nodeStep]

/-- A node that waits goes on waiting, enters, or takes the fast path. -/
lemma nodeStep_requesting {pc : NodePc} (shm : QspinShm) (hpc : pc.requesting = true)
    (hfast : pc = .casFast → (shm.entry l).lockWord ≠ 0) :
    (nodeStep l n shm pc).2.requesting = true ∨ (nodeStep l n shm pc).2 = .critical := by
  cases pc with
  | casFast => simp [nodeStep, hfast rfl]
  | casWord =>
      simp only [nodeStep]
      split_ifs <;> simp
  | pollWaiting =>
      simp only [nodeStep]
      split_ifs <;> simp
  | storeWaiting | loadWord | storePending | linkPred | pollLocked => simp [nodeStep]
  | _ => simp at hpc

/-- Only the end of the fast path makes a node settled that was not and still has the lock. -/
lemma nodeStep_settled (hlock : HasLock (s.move n (nodeStep l n s.mem (s.pc n))) n)
    (hset : (nodeStep l n s.mem (s.pc n)).2.settled) (hfast : s.pc n ≠ .fastOwner) :
    (s.pc n).settled := by
  cases hpc : s.pc n with
  | fastLocked => simp [hpc, nodeStep, NodePc.settled] at hset
  | fastOwner => exact absurd hpc hfast
  | passWord succ => simp [hpc, nodeStep, NodePc.settled] at hset
  | wake succ => simp [hpc, nodeStep, HasLock] at hlock
  | _ => trivial

/-- Only the store of the owner for the successor begins a hand-over. -/
lemma nodeStep_passing {pc : NodePc} {succ : NodeId} (shm : QspinShm)
    (hpass : ∀ succ, pc ≠ .passOwner succ)
    (h : (nodeStep l n shm pc).2 = .passWord succ ∨ (nodeStep l n shm pc).2 = .wake succ) :
    pc = .passWord succ := by
  cases pc with
  | passOwner succ => exact absurd rfl (hpass succ)
  | passWord k => simpa [nodeStep] using h
  | casFast | casWord | pollWaiting | critical | loadNext | casRelease | spinNext | recheckNext =>
      simp only [nodeStep] at h
      split_ifs at h <;> simp at h
  | _ => simp [nodeStep] at h

/-- The fast path takes the lock from a word that is 0: nobody has it. -/
lemma Granted.casFast (hinv : Inv l s) (h : Granted size l s) (hn : n < size.nodeCount)
    (hpc : s.pc n = .casFast) (hword : (s.mem.entry l).lockWord = 0) :
    Granted size l (s.move n (nodeStep l n s.mem (s.pc n))) := by
  have hfree : ∀ k, ¬ HasLock s k := fun k hk => hinv.nonzero k hk hword
  rw [hpc]
  apply h.alone hn (fun j hj => (h.granting j hj).1 hword) fun k _ => hfree k
  · simp [nodeStep, hword]
  · simp [nodeStep, hword, NodePc.settled]
  · simp [nodeStep, hword]

/-- The fast path stores its id: it has the lock, and nobody else has it. -/
lemma Granted.fastOwner (hinv : Inv l s) (h : Granted size l s) (hn : n < size.nodeCount)
    (hpc : s.pc n = .fastOwner) : Granted size l (s.move n (nodeStep l n s.mem (s.pc n))) := by
  have hlock : HasLock s n := .inl (by simp [hpc])
  have hmgr := h.not_granting hlock (by simp [hpc]) (by simp [hpc])
  rw [hpc]
  apply h.alone hn hmgr (not_hasLock_of_ne hinv hlock)
  · simp [nodeStep]
  · simp [nodeStep]
  · simp [nodeStep]

/-- Passing the owner on: the releasing node has the lock and is going to wake the new owner. -/
lemma Granted.passOwner (hinv : Inv l s) (h : Granted size l s) (hn : n < size.nodeCount)
    {succ : NodeId} (hpc : s.pc n = .passOwner succ) :
    Granted size l (s.move n (nodeStep l n s.mem (s.pc n))) := by
  have hlock : HasLock s n := .inl (by simp [hpc])
  have hmgr := h.not_granting hlock (by simp [hpc]) (by simp [hpc])
  rw [hpc]
  apply h.alone hn hmgr (not_hasLock_of_ne hinv hlock)
  · simp [nodeStep]
  · simp [nodeStep, NodePc.settled]
  · intro next hnext
    obtain rfl : succ = next := by simpa [nodeStep] using hnext
    simp [nodeStep]

/-- Emptying the queue: nobody has the lock afterwards. -/
lemma Granted.casRelease (hinv : Inv l s) (h : Granted size l s) (hn : n < size.nodeCount)
    (hpc : s.pc n = .casRelease (s.mem.entry l).lockWord)
    (hlast : qspinTailIdx (s.mem.entry l).lockWord = qspinNodeToTail n) :
    Granted size l (s.move n (nodeStep l n s.mem (s.pc n))) := by
  have hlock : HasLock s n := .inl (by simp [hpc])
  have hmgr := h.not_granting hlock (by simp [hpc]) (by simp [hpc])
  rw [hpc]
  apply h.alone hn hmgr (not_hasLock_of_ne hinv hlock)
  · simp [nodeStep, hlast]
  · simp [HasLock, nodeStep, hlast]
  · simp [nodeStep, hlast]

/-- Storing the lock word for the successor keeps the lock where it is. -/
lemma Granted.passWord (hinv : Inv l s) (h : Granted size l s) (hn : n < size.nodeCount)
    {succ : NodeId} (hpc : s.pc n = .passWord succ) :
    Granted size l (s.move n (nodeStep l n s.mem (s.pc n))) := by
  have hlock : HasLock s n := .inl (by simp [hpc])
  have hmgr := h.not_granting hlock (by simp [hpc]) (by simp [hpc])
  have howner := h.passing n succ (.inl hpc)
  rw [hpc]
  apply h.alone hn hmgr (not_hasLock_of_ne hinv hlock)
  · simp [nodeStep]
  · simp [nodeStep, NodePc.settled]
  · intro next hnext
    obtain rfl : succ = next := by simpa [nodeStep] using hnext
    simpa [nodeStep] using howner

/-- Waking the successor hands the lock to the owner. -/
lemma Granted.wake (hinv : Inv l s) (h : Granted size l s) (hn : n < size.nodeCount)
    {succ : NodeId} (hpc : s.pc n = .wake succ) :
    Granted size l (s.move n (nodeStep l n s.mem (s.pc n))) := by
  have hlock : HasLock s n := .inl (by simp [hpc])
  have hothers := not_hasLock_of_ne hinv hlock
  have hmgr := h.not_granting hlock (by simp [hpc]) (by simp [hpc])
  have howner := h.passing n succ (.inr hpc)
  rw [hpc]
  apply h.store hn hmgr
  · intro j hj _
    by_cases hjn : j = n
    · subst hjn
      simp [HasLock, nodeStep] at hj
    · by_cases hjs : j = succ
      · simpa [nodeStep, hjs] using howner
      · rw [hasLock_move_of_ne hjn (by simp [nodeStep, hjs])] at hj
        exact absurd hj (hothers j hjn)
  · intro j next hj
    rw [Config.move_pc] at hj
    split_ifs at hj with hjn
    · simp [nodeStep] at hj
    · exact absurd (hasLock_of_passing hj) (hothers j hjn)

/-- Storing the invalid owner, when the owner neither has the lock nor is being handed it. -/
lemma Granted.clear (h : Granted size l s) (hn : n < size.nodeCount)
    (hpc : s.pc n = .clearOwner ∨ s.pc n = .forceOwner)
    (hlock : ¬ HasLock s (s.mem.entry l).ownerNode)
    (hhanded : ¬ HandedTo size s (s.mem.entry l).ownerNode) :
    Granted size l (s.move n (nodeStep l n s.mem (s.pc n))) := by
  have htoken : ∀ k, HasLock (s.move n (nodeStep l n s.mem (s.pc n))) k →
      k ≠ n ∧ HasLock s k := by
    intro k hk
    by_cases hkn : k = n
    · subst hkn
      rcases hpc with hpc | hpc <;> simp [HasLock, nodeStep, hpc] at hk
    · refine ⟨hkn, ?_⟩
      rcases hpc with hpc | hpc <;> simpa [HasLock, nodeStep, hpc, hkn] using hk
  refine ⟨fun j hj => ?_, fun j hj hset => .inr ?_, fun j succ hj => ?_, fun j hmgr => ?_⟩
  · by_cases hjn : j = n
    · exact hjn ▸ hn
    · rw [Config.move_pc, if_neg hjn] at hj
      exact h.participates j hj
  · obtain ⟨hjn, hj⟩ := htoken j hj
    rw [Config.move_pc, if_neg hjn] at hset
    rcases h.owner j hj hset with howner | hmgr
    · exact absurd (howner ▸ hj) hlock
    · exact hmgr
  · exfalso
    rw [Config.move_pc] at hj
    split_ifs at hj with hjn
    · rcases hpc with hpc | hpc <;> simp [nodeStep, hpc] at hj
    · apply hhanded
      rw [h.passing j succ hj]
      refine ⟨j, h.participates j ?_, hj⟩
      rcases hj with hj | hj <;> simp [hj]
  · obtain ⟨hword, honly⟩ := h.granting j hmgr
    constructor
    · rcases hpc with hpc | hpc <;> simpa [nodeStep, hpc] using hword
    · intro k hk
      obtain ⟨hkn, hk⟩ := htoken k hk
      rw [Config.move_pc, if_neg hkn]
      exact honly k hk

/-- The quiet accesses other than those to the owner. -/
lemma Granted.quiet (h : Granted size l s) (hn : n < size.nodeCount)
    (hq : Quiet l s (s.move n (nodeStep l n s.mem (s.pc n))) n)
    (hfast : s.pc n = .casFast → (s.mem.entry l).lockWord ≠ 0)
    (hfastOwner : s.pc n ≠ .fastOwner) (hclear : s.pc n ≠ .clearOwner)
    (hforce : s.pc n ≠ .forceOwner) (hpass : ∀ succ, s.pc n ≠ .passOwner succ)
    (hcritical : s.pc n = .critical → s.mgr ≠ .grantOwner n) :
    Granted size l (s.move n (nodeStep l n s.mem (s.pc n))) := by
  apply h.keep hn
  · exact nodeStep_owner s.mem hfastOwner hclear hforce hpass
  · exact hq.word.imp id And.left
  · exact fun k hk => hq.hasLock hk
  · exact fun hlock hset => nodeStep_settled hlock hset hfastOwner
  · exact fun succ hsucc => nodeStep_passing s.mem hpass hsucc
  · intro hlock
    have hlock' := hq.token hlock
    cases hreq : (s.pc n).requesting with
    | true =>
        rcases nodeStep_requesting s.mem hreq hfast with hreq' | hcrit
        · exact .inl hreq'
        · exact .inr (.inl hcrit)
    | false =>
        refine .inr (.inr fun k hk => ?_)
        by_cases hcrit : s.pc n = .critical
        · obtain rfl := ((h.granting k hk).2 n hlock').1
          exact hcritical hcrit hk
        · exact h.not_granting hlock' hreq hcrit k hk

lemma Granted.node (hinv : Inv l s) (h : Granted size l s) (hn : n < size.nodeCount)
    (hok : KeepsOwner size l s (.party n ())) :
    Granted size l (s.move n (nodeStep l n s.mem (s.pc n))) := by
  obtain ⟨hcritical, hinvalid⟩ := hok
  by_cases hfast : s.pc n = .casFast ∧ (s.mem.entry l).lockWord = 0
  · exact h.casFast hinv hn hfast.1 hfast.2
  by_cases hfastOwner : s.pc n = .fastOwner
  · exact h.fastOwner hinv hn hfastOwner
  by_cases hclear : s.pc n = .clearOwner ∨ s.pc n = .forceOwner
  · exact h.clear hn hclear (hinvalid hclear).1 (hinvalid hclear).2
  by_cases hpass : ∃ succ, s.pc n = .passOwner succ
  · obtain ⟨succ, hpc⟩ := hpass
    exact h.passOwner hinv hn hpc
  rw [not_or] at hclear
  rcases nodeStep_effect hinv hn with
    hq | ⟨hpc, hword⟩ | ⟨hpc, hlast⟩ | ⟨succ, hpc | hpc⟩
  · exact h.quiet hn hq (fun hpc hword => hfast ⟨hpc, hword⟩) hfastOwner hclear.1 hclear.2
      (fun succ hpc => hpass ⟨succ, hpc⟩) hcritical
  · exact absurd ⟨hpc, hword⟩ hfast
  · exact h.casRelease hinv hn hpc hlast
  · exact h.passWord hinv hn hpc
  · exact h.wake hinv hn hpc

/-- Between its stores for a node the manager finds nobody else with the lock. -/
lemma Granted.manager (hinv : Inv l s) (h : Granted size l s) :
    Granted size l (s.manage (managerStep size.nodeCount l s.mem s.mgr)) := by
  obtain ⟨hpart, howner, hpassing, hgranting⟩ := h
  cases hmgr : s.mgr with
  | loadWord | loadGip | loadPending | loadWaiting =>
      replace howner : ∀ n, HasLock s n → (s.pc n).settled → (s.mem.entry l).ownerNode = n :=
        fun n hn hset => by simpa [hmgr] using howner n hn hset
      simp only [managerStep]
      split_ifs <;>
        exact ⟨hpart, fun n hn hset => .inl (howner n hn hset), hpassing, by simp⟩
  | loadLocked | storeGip | grantWord | loadNext | storePending | clearGip =>
      replace howner : ∀ n, HasLock s n → (s.pc n).settled → (s.mem.entry l).ownerNode = n :=
        fun n hn hset => by simpa [hmgr] using howner n hn hset
      refine ⟨hpart, fun n hn hset => .inl ?_, fun n succ hn => ?_, by simp [managerStep]⟩
      · have hn' : HasLock s n := by simpa [HasLock, managerStep] using hn
        simpa [managerStep] using howner n hn' hset
      · simpa [managerStep] using hpassing n succ hn
  | grantLocked head =>
      -- nobody had the lock; now at most the head has it, and its id is stored next
      obtain ⟨hfree, hword, -⟩ := hinv.deciding (by simp [hmgr])
      have htoken : ∀ k, HasLock (s.manage (managerStep size.nodeCount l s.mem
          (.grantLocked head))) k → k = head ∧ (s.pc k).requesting = true := by
        intro k hk
        rcases hk with hhold | ⟨hreq, hlocked⟩
        · exact absurd (.inl hhold) (hfree k)
        · refine ⟨?_, hreq⟩
          by_contra hne
          apply hfree k
          refine .inr ⟨hreq, ?_⟩
          simpa [managerStep, hne] using hlocked
      refine ⟨hpart, fun k hk _ => .inr ?_, fun k succ hk => ?_, fun k hk => ?_⟩
      · simp [managerStep, (htoken k hk).1]
      · have hpc : s.pc k = .passWord succ ∨ s.pc k = .wake succ := hk
        exact absurd (hasLock_of_passing hpc) (hfree k)
      · obtain rfl : head = k := by simpa [managerStep] using hk
        refine ⟨by simpa [managerStep] using hword, fun j hj => ?_⟩
        exact ⟨(htoken j hj).1, .inl (htoken j hj).2⟩
  | grantOwner head =>
      obtain ⟨-, honly⟩ := hgranting head hmgr
      have htoken : ∀ k, HasLock (s.manage (managerStep size.nodeCount l s.mem
          (.grantOwner head))) k → HasLock s k := fun k hk => by
        simpa [HasLock, managerStep] using hk
      refine ⟨hpart, fun k hk _ => .inl ?_, fun k succ hk => ?_, by simp [managerStep]⟩
      · simp [managerStep, (honly k (htoken k hk)).1]
      · have hpc : s.pc k = .passWord succ ∨ s.pc k = .wake succ := hk
        rcases (honly k (hasLock_of_passing hpc)).2 with hreq | hcrit
        · rcases hpc with hpc | hpc <;> simp [hpc] at hreq
        · rcases hpc with hpc | hpc <;> simp [hpc] at hcrit

lemma Granted.init (h : (machine size l).system.init s) : Granted size l s := by
  obtain ⟨-, hpc, hmgr⟩ := h
  replace hpc : ∀ n, s.pc n = .idle := hpc
  replace hmgr : s.mgr = .loadWord := hmgr
  constructor <;> simp [HasLock, hpc, hmgr]

/-- In the runs that meet the condition whoever has the lock is the owner, with the named
exceptions. -/
lemma granted_of_keepsOwner
    (hs : (machine size l).system.ReachableWhen (KeepsOwner size l) s) :
    Inv l s ∧ Granted size l s := by
  refine (machine_neverBlocks size l).invariant (I := fun s => Inv l s ∧ Granted size l s)
    (fun _ hi => ⟨Inv.init hi, Granted.init hi⟩) (fun s n c h hok hn => ?_) (fun s h _ => ?_) hs
  · exact ⟨h.1.node hn, h.2.node h.1 hn hok⟩
  · exact ⟨h.1.manager, h.2.manager h.1⟩

end Steps

/-! ## The release of a node that has entered -/

/-- **Who entered can release.**  In a run all of whose accesses meet `KeepsOwner`, every
`release_lock` of a node that has entered finds the node as the owner and succeeds. -/
theorem qspin_releaseOwned_of_keepsOwner (size : SystemSize) (l : LockId) (s : State)
    (hs : (machine size l).system.ReachableWhen (KeepsOwner size l) s) (n : NodeId)
    (hok : KeepsOwner size l s (.party n ())) : ReleaseOwned l s n := by
  obtain ⟨-, hgranted⟩ := granted_of_keepsOwner hs
  by_cases hpc : s.pc n = .critical
  · have hlock : HasLock s n := .inl (by simp [hpc])
    have howner : (s.mem.entry l).ownerNode = n := by
      rcases hgranted.owner n hlock (by simp [hpc, NodePc.settled]) with howner | hmgr
      · exact howner
      · exact absurd hmgr (hok.1 hpc)
    refine ⟨fun _ => howner, fun rc hrc => ?_⟩
    simp [releaseResult, hpc, howner] at hrc
  · refine ⟨fun h => absurd h hpc, fun rc hrc => ?_⟩
    cases hcase : s.pc n with
    | critical => exact absurd hcase hpc
    | resetWaiting | forceWaiting => simpa [releaseResult, hcase, eq_comm] using hrc
    | _ => simp [releaseResult, hcase] at hrc

/-- Node 0 takes the fast path and releases completely, and then node 1 enters. -/
theorem qspin_releaseOwned_run : ∃ s : State, ReleaseOwned 0 s 1 ∧ s.pc 1 = .critical := by
  obtain ⟨s, hs, hp⟩ := LabelledSystem.exists_of_exec (KeepsOwner (.of 2 1) 0)
    (turns 0 9 ++ turns 0 10 ++ turns 1 9)
    (fun s => s.pc 1 == .critical && s.mgr == .loadWord)
    (zeroedStart_init (.of 2 1) (l := 0) (by decide)) (by decide +kernel)
  rw [Bool.and_eq_true, beq_iff_eq, beq_iff_eq] at hp
  refine ⟨s, qspin_releaseOwned_of_keepsOwner (.of 2 1) 0 s hs 1 ⟨?_, ?_⟩, hp.1⟩
  · simp [hp.2]
  · simp [hp.1]

/-- Node 0 has given the lock word back and not yet cleared the owner when node 1 takes the
fast path and enters; then node 0 clears the owner, and node 1 is refused. -/
theorem late_clear_erases_owner : ¬ ∀ (size : SystemSize) (l : LockId) (s : State) (n : NodeId),
    (machine size l).system.Reachable s → ReleaseOwned l s n := by
  intro h
  obtain ⟨s, hs, hp⟩ := LabelledSystem.exists_of_exec (fun _ _ => True)
    (turns 0 9 ++ turns 0 5 ++ turns 1 9 ++ turns 0 1)
    (fun s => s.pc 1 == .critical && (s.mem.entry 0).ownerNode == invalidNodeId)
    (zeroedStart_init (.of 2 1) (l := 0) (by decide)) (by decide +kernel)
  rw [Bool.and_eq_true, beq_iff_eq, beq_iff_eq] at hp
  have howner := (h (.of 2 1) 0 s 1 hs).1 hp.1
  exact absurd (hp.2.symm.trans howner) (by decide)

end CxlLock.Qspinlock
