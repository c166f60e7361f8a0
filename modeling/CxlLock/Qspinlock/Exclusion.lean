import CxlLock.Qspinlock.Interleaving

/-!
# Mutual exclusion of the interleaved qspinlock

As for MCS, `HasLock` is the token that the fast path, the manager and a releasing
predecessor hand out.  Its guard is the lock word: `owner_node` and `pending_tail` are
written late by half-finished calls and say nothing reliable.

* The fast path takes the token only from a word that is 0, and no token is out then.
* The manager hands it out only after reading a word without the locked bit; from that read
  on nobody has it, and the word stays non-zero without that bit (`deciding`).
* Whoever has the token keeps the locked bit set, except while the manager is between its
  store of `locked` and its store of the word (`locked`), and keeps the word non-zero.
-/

namespace CxlLock.Qspinlock

open Transition

/-- The lock has been handed to the node and the node has not handed it on. -/
def HasLock (s : State) (n : NodeId) : Prop :=
  (s.pc n).holding = true ∨ (s.pc n).requesting = true ∧ (s.mem.node n).locked = 2

structure Inv (l : LockId) (s : State) : Prop where
  unique : ∀ n m, HasLock s n → HasLock s m → n = m
  nonzero : ∀ n, HasLock s n → (s.mem.entry l).lockWord ≠ 0
  locked : ∀ n, HasLock s n →
    qspinLocked (s.mem.entry l).lockWord = 1 ∨ s.mgr.committing = true
  deciding : s.mgr.deciding = true → (∀ n, ¬ HasLock s n) ∧
    (s.mem.entry l).lockWord ≠ 0 ∧ qspinLocked (s.mem.entry l).lockWord = 0
  polled : ∀ n, s.pc n = .pollWaiting 2 → (s.mem.node n).locked = 2

/-! ## One access of a node -/

section NodeSteps

variable {size : SystemSize} {l : LockId} {s : State} {n : NodeId}

/-- An access of `n` that changes at most the tail in the lock word, leaves the marks of all
other nodes alone and does not give `n` the lock. -/
structure Quiet (l : LockId) (s s' : State) (n : NodeId) : Prop where
  word : (s'.mem.entry l).lockWord = (s.mem.entry l).lockWord ∨
    (s'.mem.entry l).lockWord ≠ 0 ∧
      qspinLocked (s'.mem.entry l).lockWord = qspinLocked (s.mem.entry l).lockWord
  marks : ∀ k, k ≠ n → (s'.mem.node k).locked = (s.mem.node k).locked
  token : HasLock s' n → HasLock s n
  polled : s'.pc n = .pollWaiting 2 → (s'.mem.node n).locked = 2

attribute [local simp] nodeStep in
/-- Only waking the successor touches the mark of another node. -/
lemma nodeStep_locked {shm : QspinShm} {pc : NodePc} (hwake : ∀ succId, pc ≠ .wake succId)
    {k : NodeId} (hk : k ≠ n) :
    ((nodeStep l n shm pc).1.node k).locked = (shm.node k).locked := by
  cases pc with
  | wake succId => exact absurd rfl (hwake succId)
  | casFast | casWord | pollWaiting | critical | loadNext | casRelease | spinNext | recheckNext =>
      simp only [nodeStep]
      split_ifs <;> simp
  | _ => simp [nodeStep, hk]

/-- Only four accesses change more of the lock word than the tail. -/
lemma nodeStep_word {shm : QspinShm} {pc : NodePc} (hn : n < size.nodeCount)
    (hfast : pc = .casFast → (shm.entry l).lockWord ≠ 0)
    (hempty : pc = .casRelease (shm.entry l).lockWord →
      qspinTailIdx (shm.entry l).lockWord ≠ qspinNodeToTail n)
    (hpass : ∀ succId, pc ≠ .passWord succId) :
    ((nodeStep l n shm pc).1.entry l).lockWord = (shm.entry l).lockWord ∨
      ((nodeStep l n shm pc).1.entry l).lockWord ≠ 0 ∧
        qspinLocked ((nodeStep l n shm pc).1.entry l).lockWord =
          qspinLocked (shm.entry l).lockWord := by
  cases pc with
  | casFast =>
      left
      simp [nodeStep, hfast rfl]
  | casWord oldWord =>
      by_cases hword : (shm.entry l).lockWord = oldWord
      · right
        have hlt := qspinNodeToTail_lt size.nodeCount_le hn
        have hne := qspinNodeToTail_ne_zero size.nodeCount_le hn
        simp only [nodeStep, hword, QspinShm.storeWord_lockWord, if_true]
        exact ⟨qspinSetTail_ne_zero oldWord hlt hne, qspinLocked_setTail oldWord _⟩
      · left
        simp [nodeStep, hword]
  | casRelease oldWord =>
      left
      by_cases hword : (shm.entry l).lockWord = oldWord
      · subst hword
        simp [nodeStep, hempty rfl]
      · simp [nodeStep, hword]
  | passWord succId => exact absurd rfl (hpass succId)
  | pollWaiting | critical | loadNext | spinNext | recheckNext =>
      left
      simp only [nodeStep]
      split_ifs <;> rfl
  | _ =>
      left
      simp [nodeStep]

/-- Apart from the fast path no access of a node gives it the lock: its poll succeeds only with
a mark that says that it has been handed the lock before. -/
lemma nodeStep_token (h : Inv l s) (hfast : s.pc n = .casFast → (s.mem.entry l).lockWord ≠ 0)
    (hn : HasLock (s.move n (nodeStep l n s.mem (s.pc n))) n) : HasLock s n := by
  simp only [HasLock, Config.move_pc, Config.move_mem, if_true] at hn ⊢
  cases hpc : s.pc n with
  | casFast => simpa [nodeStep, hpc, hfast hpc] using hn
  | pollWaiting v =>
      refine .inr ⟨rfl, ?_⟩
      simp only [nodeStep, hpc] at hn
      split_ifs at hn with hgranted
      · obtain ⟨rfl, -⟩ := hgranted
        exact h.polled n hpc
      · simpa using hn
  | casWord | critical | loadNext | casRelease | spinNext | recheckNext =>
      simp only [nodeStep, hpc] at hn
      split_ifs at hn <;> simp_all
  | _ => simp_all [nodeStep]

/-- What a poll has read is what the record says. -/
lemma nodeStep_polled {v : UInt32} (hn : (nodeStep l n s.mem (s.pc n)).2 = .pollWaiting v) :
    ((nodeStep l n s.mem (s.pc n)).1.node n).locked = v := by
  cases hpc : s.pc n with
  | pollLocked => simpa [nodeStep, hpc] using hn
  | casFast | casWord | pollWaiting | critical | loadNext | casRelease | spinNext | recheckNext =>
      simp only [nodeStep, hpc] at hn
      split_ifs at hn
  | _ => simp [nodeStep, hpc] at hn

/-- Only four accesses of a node are not quiet: taking the lock on the fast path, emptying
the queue, storing the word for the successor, and waking it. -/
lemma nodeStep_effect (h : Inv l s) (hn : n < size.nodeCount) :
    Quiet l s (s.move n (nodeStep l n s.mem (s.pc n))) n ∨
      (s.pc n = .casFast ∧ (s.mem.entry l).lockWord = 0) ∨
      (s.pc n = .casRelease (s.mem.entry l).lockWord ∧
        qspinTailIdx (s.mem.entry l).lockWord = qspinNodeToTail n) ∨
      ∃ succId, s.pc n = .passWord succId ∨ s.pc n = .wake succId := by
  by_cases hfast : s.pc n = .casFast ∧ (s.mem.entry l).lockWord = 0
  · exact .inr (.inl hfast)
  by_cases hempty : s.pc n = .casRelease (s.mem.entry l).lockWord ∧
      qspinTailIdx (s.mem.entry l).lockWord = qspinNodeToTail n
  · exact .inr (.inr (.inl hempty))
  by_cases hpass : ∃ succId, s.pc n = .passWord succId
  · obtain ⟨succId, hpc⟩ := hpass
    exact .inr (.inr (.inr ⟨succId, .inl hpc⟩))
  by_cases hwake : ∃ succId, s.pc n = .wake succId
  · obtain ⟨succId, hpc⟩ := hwake
    exact .inr (.inr (.inr ⟨succId, .inr hpc⟩))
  rw [not_exists] at hpass hwake
  have hfast' : s.pc n = .casFast → (s.mem.entry l).lockWord ≠ 0 := fun hpc hword =>
    hfast ⟨hpc, hword⟩
  refine .inl ⟨nodeStep_word hn hfast' (fun hpc hlast => hempty ⟨hpc, hlast⟩) hpass,
    fun k hk => nodeStep_locked hwake hk, nodeStep_token h hfast', fun hpc => ?_⟩
  rw [Config.move_pc, if_pos rfl] at hpc
  exact nodeStep_polled hpc

lemma hasLock_move_of_ne {r : QspinShm × NodePc} {k : NodeId} (hk : k ≠ n)
    (hlocked : (r.1.node k).locked = (s.mem.node k).locked) :
    HasLock (s.move n r) k ↔ HasLock s k := by
  simp [HasLock, hk, hlocked]

/-- An access of `n`, from what it does to the lock word and to who has the lock. -/
lemma Inv.move (h : Inv l s) {r : QspinShm × NodePc}
    (hpolled : r.2 = .pollWaiting 2 → (r.1.node n).locked = 2)
    (hlocked : ∀ k, k ≠ n → (s.mem.node k).locked = 2 → (r.1.node k).locked = 2)
    (hunique : ∀ k m, HasLock (s.move n r) k → HasLock (s.move n r) m → k = m)
    (hnonzero : ∀ k, HasLock (s.move n r) k → (r.1.entry l).lockWord ≠ 0)
    (hbit : ∀ k, HasLock (s.move n r) k →
      qspinLocked (r.1.entry l).lockWord = 1 ∨ s.mgr.committing = true)
    (hdeciding : s.mgr.deciding = true → (∀ k, ¬ HasLock (s.move n r) k) ∧
      (r.1.entry l).lockWord ≠ 0 ∧ qspinLocked (r.1.entry l).lockWord = 0) :
    Inv l (s.move n r) := by
  refine ⟨hunique, hnonzero, hbit, hdeciding, fun k hk => ?_⟩
  rw [Config.move_pc] at hk
  split_ifs at hk with hkn
  · exact hkn ▸ hpolled hk
  · exact hlocked k hkn (h.polled k hk)

/-- Tokens only disappear. -/
lemma Quiet.hasLock {r : QspinShm × NodePc} (hq : Quiet l s (s.move n r) n) {k : NodeId}
    (hk : HasLock (s.move n r) k) : HasLock s k := by
  by_cases hkn : k = n
  · exact hkn ▸ hq.token (hkn ▸ hk)
  · exact (hasLock_move_of_ne hkn (hq.marks k hkn)).1 hk

lemma Inv.quiet (h : Inv l s) {r : QspinShm × NodePc} (hq : Quiet l s (s.move n r) n) :
    Inv l (s.move n r) := by
  have htoken : ∀ k, HasLock (s.move n r) k → HasLock s k := fun k => hq.hasLock
  refine h.move (fun hpc => hq.polled (by rwa [Config.move_pc, if_pos rfl]))
    (fun k hk hlocked => (hq.marks k hk).trans hlocked)
    (fun k m hk hm => h.unique k m (htoken k hk) (htoken m hm)) (fun k hk => ?_)
    (fun k hk => ?_) fun hdec => ?_
  · rcases hq.word with hword | ⟨hword, -⟩
    · exact hword ▸ h.nonzero k (htoken k hk)
    · exact hword
  · rcases hq.word with hword | ⟨-, hbit⟩
    · exact hword ▸ h.locked k (htoken k hk)
    · exact hbit ▸ h.locked k (htoken k hk)
  · obtain ⟨hfree, hne, hfreeBit⟩ := h.deciding hdec
    refine ⟨fun k hk => hfree k (htoken k hk), ?_⟩
    rcases hq.word with hword | ⟨hword, hbit⟩
    · exact hword ▸ ⟨hne, hfreeBit⟩
    · exact ⟨hword, hbit.trans hfreeBit⟩

/-- The fast path: a word that is 0 means that the token is free. -/
lemma Inv.casFast (h : Inv l s) (hpc : s.pc n = .casFast)
    (hword : (s.mem.entry l).lockWord = 0) :
    Inv l (s.move n (nodeStep l n s.mem (s.pc n))) := by
  have hfree : ∀ k, ¬ HasLock s k := fun k hk => h.nonzero k hk hword
  rw [hpc]
  have hheld : ((nodeStep l n s.mem .casFast).1.entry l).lockWord =
      qspinHeldWord (qspinNodeToTail n) := by simp [nodeStep, hword]
  have htoken : ∀ k, HasLock (s.move n (nodeStep l n s.mem .casFast)) k → k = n := by
    intro k hk
    by_contra hkn
    exact hfree k ((hasLock_move_of_ne hkn (by simp [nodeStep, hword])).1 hk)
  refine h.move (by simp [nodeStep, hword]) (by simp [nodeStep, hword])
    (fun k m hk hm => (htoken k hk).trans (htoken m hm).symm) (fun k _ => ?_)
    (fun k _ => .inl ?_) fun hdec => absurd hword (h.deciding hdec).2.1
  · rw [hheld]
    exact qspinHeldWord_ne_zero _
  · rw [hheld]
    exact qspinLocked_heldWord _

/-- Emptying the queue drops the token before the word becomes 0. -/
lemma Inv.casRelease (h : Inv l s) (hpc : s.pc n = .casRelease (s.mem.entry l).lockWord)
    (hlast : qspinTailIdx (s.mem.entry l).lockWord = qspinNodeToTail n) :
    Inv l (s.move n (nodeStep l n s.mem (s.pc n))) := by
  have hn : HasLock s n := .inl (by simp [hpc])
  have htoken : ∀ k, ¬ HasLock (s.move n (nodeStep l n s.mem (s.pc n))) k := by
    intro k hk
    by_cases hkn : k = n
    · subst hkn
      simp [HasLock, nodeStep, hpc, hlast] at hk
    · refine hkn (h.unique k n ((hasLock_move_of_ne hkn ?_).1 hk) hn)
      simp [nodeStep, hpc, hlast]
  exact h.move (by simp [nodeStep, hpc, hlast]) (by simp [nodeStep, hpc, hlast])
    (fun k _ hk => absurd hk (htoken k)) (fun k hk => absurd hk (htoken k))
    (fun k hk => absurd hk (htoken k)) fun hdec => absurd hn ((h.deciding hdec).1 n)

lemma Inv.passWord (h : Inv l s) {succId : NodeId} (hpc : s.pc n = .passWord succId) :
    Inv l (s.move n (nodeStep l n s.mem (s.pc n))) := by
  have hn : HasLock s n := .inl (by simp [hpc])
  rw [hpc]
  have hheld : ((nodeStep l n s.mem (.passWord succId)).1.entry l).lockWord =
      qspinHeldWord (qspinNodeToTail succId) := by simp [nodeStep]
  have htoken : ∀ k, HasLock (s.move n (nodeStep l n s.mem (.passWord succId))) k →
      HasLock s k := by
    intro k hk
    by_cases hkn : k = n
    · exact hkn ▸ hn
    · exact (hasLock_move_of_ne hkn (by simp [nodeStep])).1 hk
  refine h.move (by simp [nodeStep]) (by simp [nodeStep])
    (fun k m hk hm => h.unique k m (htoken k hk) (htoken m hm)) (fun k _ => ?_)
    (fun k _ => .inl ?_) fun hdec => absurd hn ((h.deciding hdec).1 n)
  · rw [hheld]
    exact qspinHeldWord_ne_zero _
  · rw [hheld]
    exact qspinLocked_heldWord _

/-- The token moves from `n` to its successor, if that has a request. -/
lemma Inv.wake (h : Inv l s) {succId : NodeId} (hpc : s.pc n = .wake succId) :
    Inv l (s.move n (nodeStep l n s.mem (s.pc n))) := by
  have hn : HasLock s n := .inl (by simp [hpc])
  rw [hpc]
  have hword : ((nodeStep l n s.mem (.wake succId)).1.entry l).lockWord =
      (s.mem.entry l).lockWord := by simp [nodeStep]
  have htoken : ∀ k, HasLock (s.move n (nodeStep l n s.mem (.wake succId))) k → k = succId := by
    intro k hk
    by_contra hks
    by_cases hkn : k = n
    · simp [HasLock, nodeStep, hkn] at hk
    · exact hkn (h.unique k n ((hasLock_move_of_ne hkn (by simp [nodeStep, hks])).1 hk) hn)
  refine h.move (by simp [nodeStep]) (fun k _ hk => ?_)
    (fun k m hk hm => (htoken k hk).trans (htoken m hm).symm)
    (fun _ _ => hword ▸ h.nonzero n hn) (fun _ _ => hword ▸ h.locked n hn)
    fun hdec => absurd hn ((h.deciding hdec).1 n)
  by_cases hks : k = succId
  · simp [nodeStep, hks]
  · simpa [nodeStep, hks] using hk

lemma Inv.node (h : Inv l s) (hn : n < size.nodeCount) :
    Inv l (s.move n (nodeStep l n s.mem (s.pc n))) := by
  rcases nodeStep_effect h hn with hquiet | ⟨hpc, hword⟩ | ⟨hpc, hlast⟩ | ⟨succId, hpc | hpc⟩
  · exact h.quiet hquiet
  · exact h.casFast hpc hword
  · exact h.casRelease hpc hlast
  · exact h.passWord hpc
  · exact h.wake hpc

end NodeSteps

/-! ## One access of the manager, and runs -/

section Runs

variable {size : SystemSize} {l : LockId} {s : State}

/-- Only the store of `locked` in `grant_lock` touches the record of a node. -/
lemma managerStep_node (size : SystemSize) (l : LockId) {pc : ManagerPc} (shm : QspinShm)
    (hpc : ∀ h, pc ≠ .grantLocked h) :
    (managerStep size.nodeCount l shm pc).1.node = shm.node := by
  cases pc <;> simp only [managerStep] <;> (try split_ifs) <;> simp_all

/-- Only `grant_lock` stores the word, after its store of the owner. -/
lemma managerStep_word (size : SystemSize) (l : LockId) {pc : ManagerPc} (shm : QspinShm)
    (hpc : ∀ h, pc ≠ .grantWord h) :
    ((managerStep size.nodeCount l shm pc).1.entry l).lockWord = (shm.entry l).lockWord ∧
      (pc.committing = true → (managerStep size.nodeCount l shm pc).2.committing = true) := by
  cases pc with
  | grantWord h => exact absurd rfl (hpc h)
  | loadWord | loadGip | loadPending | loadWaiting =>
      simp only [managerStep]
      split_ifs <;> simp
  | _ => simp [managerStep]

/-- The manager decides to grant only after it has read a queue without a holder. -/
lemma managerStep_deciding (size : SystemSize) (l : LockId) {pc : ManagerPc} (shm : QspinShm)
    (h : (managerStep size.nodeCount l shm pc).2.deciding = true) :
    pc.deciding = true ∨ pc = .loadWord ∧ qspinLocked (shm.entry l).lockWord = 0 ∧
      qspinTailIdx (shm.entry l).lockWord ≠ 0 := by
  cases pc with
  | loadWord =>
      simp only [managerStep] at h
      split_ifs at h with hword
      · exact absurd h (by simp)
      · exact .inr ⟨rfl, by simpa using hword⟩
  | loadGip | loadPending | loadLocked | loadWaiting | storeGip | grantLocked => exact .inl rfl
  | grantOwner | grantWord | loadNext | storePending | clearGip =>
      exact absurd h (by simp [managerStep])

lemma Inv.grantLocked (h : Inv l s) {nodeId : NodeId} (hmgr : s.mgr = .grantLocked nodeId) :
    Inv l (s.manage (managerStep size.nodeCount l s.mem s.mgr)) := by
  obtain ⟨hfree, hne, hbit⟩ := h.deciding (by simp [hmgr])
  rw [hmgr]
  -- the only token is the one given to the head of the queue
  have htoken : ∀ k, HasLock (s.manage (managerStep size.nodeCount l s.mem
      (.grantLocked nodeId))) k → k = nodeId := by
    intro k hk
    by_contra hkn
    refine hfree k ?_
    simpa [HasLock, managerStep, hkn] using hk
  refine ⟨fun n m hn hm => (htoken n hn).trans (htoken m hm).symm, fun _ _ => hne,
    fun _ _ => .inr rfl, by simp [managerStep], fun k hk => ?_⟩
  by_cases hkn : k = nodeId
  · simp [managerStep, hkn]
  · simpa [managerStep, hkn] using h.polled k hk

/-- The word is stored for the node that has just been granted the lock. -/
lemma Inv.grantWord (h : Inv l s) {nodeId : NodeId} (hmgr : s.mgr = .grantWord nodeId) :
    Inv l (s.manage (managerStep size.nodeCount l s.mem s.mgr)) := by
  rw [hmgr]
  have hheld : ((managerStep size.nodeCount l s.mem (.grantWord nodeId)).1.entry l).lockWord =
      qspinHeldWord (qspinNodeToTail nodeId) := by simp [managerStep]
  refine ⟨h.unique, fun k _ => ?_, fun k _ => .inl ?_, by simp [managerStep], h.polled⟩
  · rw [Config.manage_mem, hheld]
    exact qspinHeldWord_ne_zero _
  · rw [Config.manage_mem, hheld]
    exact qspinLocked_heldWord _

lemma Inv.manager (h : Inv l s) :
    Inv l (s.manage (managerStep size.nodeCount l s.mem s.mgr)) := by
  by_cases hgrant : ∃ nodeId, s.mgr = .grantLocked nodeId
  · obtain ⟨nodeId, hmgr⟩ := hgrant
    exact h.grantLocked hmgr
  by_cases hstore : ∃ nodeId, s.mgr = .grantWord nodeId
  · obtain ⟨nodeId, hmgr⟩ := hstore
    exact h.grantWord hmgr
  have hnode := managerStep_node size l s.mem (not_exists.1 hgrant)
  obtain ⟨hword, hcommitting⟩ := managerStep_word size l s.mem (not_exists.1 hstore)
  have htoken : ∀ k, HasLock (s.manage (managerStep size.nodeCount l s.mem s.mgr)) k ↔
      HasLock s k := fun k => by
    simp [HasLock, hnode]
  refine ⟨fun n m hn hm => h.unique n m ((htoken n).1 hn) ((htoken m).1 hm), fun k hk => ?_,
    fun k hk => ?_, fun hdec => ?_, by simpa [hnode] using h.polled⟩ <;>
    rw [Config.manage_mem, hword]
  · exact h.nonzero k ((htoken k).1 hk)
  · exact (h.locked k ((htoken k).1 hk)).imp_right hcommitting
  · simp only [htoken]
    rcases managerStep_deciding size l s.mem hdec with hbefore | ⟨hmgr, hbit, htail⟩
    · exact h.deciding hbefore
    · -- the word says that nobody has the lock
      refine ⟨fun k hk => ?_, fun hzero => htail (by simp [hzero, qspinTailIdx]), hbit⟩
      rcases h.locked k hk with hlocked | hcommits
      · exact absurd (hbit.symm.trans hlocked) (by decide)
      · simp [hmgr] at hcommits

lemma Inv.init (h : (machine size l).system.init s) : Inv l s := by
  obtain ⟨-, hpc, hmgr⟩ := h
  replace hpc : ∀ n, s.pc n = .idle := hpc
  replace hmgr : s.mgr = .loadWord := hmgr
  constructor <;> simp [HasLock, hpc, hmgr]

/-- The invariant holds in every reachable state. -/
lemma inv_of_reachable (hs : (machine size l).system.Reachable s) : Inv l s := by
  refine (machine_neverBlocks size l).invariant (fun _ => Inv.init) (fun s n c h _ hn => ?_)
    (fun s h _ => ?_) hs
  · exact h.node hn
  · exact h.manager

end Runs

/-! ## Exclusion -/

/-- **Mutual exclusion of the qspinlock, access by access.** -/
theorem qspin_exclusive (size : SystemSize) (l : LockId) (s : State)
    (hs : (machine size l).system.Reachable s) : Exclusive s := fun n m hn hm =>
  (inv_of_reachable hs).unique n m (.inl (by simp [hn])) (.inl (by simp [hm]))

/-- Node 0 takes the fast path; node 1 queues behind it, is handed the lock and enters. -/
theorem qspin_exclusive_run : ∃ s : State, Exclusive s ∧ s.pc 1 = .critical := by
  obtain ⟨s, hs, hp⟩ := LabelledSystem.exists_of_exec (fun _ _ => True)
    (turns 0 9 ++ turns 1 7 ++ managerTurns 1 ++ turns 0 10 ++ turns 1 2)
    (fun s => s.pc 1 == .critical) (zeroedStart_init (.of 2 1) (l := 0) (by decide))
    (by decide +kernel)
  exact ⟨s, qspin_exclusive (.of 2 1) 0 s hs, beq_iff_eq.1 hp⟩

end CxlLock.Qspinlock
