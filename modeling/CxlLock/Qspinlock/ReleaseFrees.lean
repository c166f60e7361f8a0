import CxlLock.Qspinlock.ReleaseOwner

/-!
# Does a successful release of the qspinlock free or pass the lock?

A release that returns `SUCCESS` should either have set the lock word to 0 with its exchange,
or have stored the word, the owner and the mark of one successor that waits for the lock.  What
a call has done is not in the state it returns in, so the accesses of each node's latest
release are recorded beside the state (`loggedSystem`).

There are two ways in which a release does neither:

* the forced exit: the successor has not linked itself when the bounded wait runs out, and the
  call clears the owner and leaves the word as it is: `forced_release_sticks`.
* a stale link: the lock manager has granted the lock to a node out of its place in the queue,
  and the node that links to it hands it the lock once more.

`QueueInOrder` excludes the two, and then `qspin_release_frees` says that every release frees or
passes.  The invariant behind it, `Ordered`, is that a link out of a node of the queue always
leads to a node that polls and has not been granted the lock, and that no two of them lead to
the same node.
-/

namespace CxlLock.Qspinlock

open Transition

namespace NodePc

/-- The node has emptied its link for a request and is not done with its turn as the holder. -/
@[simp] def live : NodePc → Bool
  | .idle | .clearPending | .clearOwner | .forceOwner | .forceLocked | .forceWaiting | .resetNext
  | .resetLocked | .resetWaiting => false
  | .storeLocked | .storeWaiting | .casFast | .fastLocked | .fastOwner | .fastPending
  | .loadWord | .casWord _ | .storePending | .linkPred _ | .pollLocked | .pollWaiting _
  | .critical | .loadNext | .releaseLoad | .casRelease _ | .spinNext _ | .recheckNext
  | .loadSucc | .passPending _ | .passOwner _ | .passWord _ | .wake _ => true

/-- The node has marked its record as waiting and has not entered yet; unlike `requesting` this
includes the stores of the fast path. -/
@[simp] def asking : NodePc → Bool
  | .storeWaiting | .casFast | .fastLocked | .fastOwner | .fastPending | .loadWord | .casWord _
  | .storePending | .linkPred _ | .pollLocked | .pollWaiting _ => true
  | .idle | .storeLocked | .critical | .loadNext | .releaseLoad | .casRelease _ | .clearPending
  | .clearOwner | .spinNext _ | .recheckNext | .forceOwner | .forceLocked | .forceWaiting
  | .loadSucc | .passPending _ | .passOwner _ | .passWord _ | .wake _ | .resetNext
  | .resetLocked | .resetWaiting => false

/-- The node is in `poll_for_grant`. -/
@[simp] def polling : NodePc → Bool
  | .pollLocked | .pollWaiting _ => true
  | _ => false

/-- The node has joined the queue, behind its predecessor if it has one. -/
@[simp] def joined : NodePc → Bool
  | .storePending | .pollLocked | .pollWaiting _ => true
  | _ => false

/-- The node takes the forced exit of `release_lock`. -/
@[simp] def forcing : NodePc → Bool
  | .forceOwner | .forceLocked | .forceWaiting => true
  | _ => false

/-- The node is in `release_lock`, behind the check of the owner. -/
@[simp] def releasing : NodePc → Bool
  | .loadNext | .releaseLoad | .casRelease _ | .clearPending | .clearOwner | .spinNext _
  | .recheckNext | .forceOwner | .forceLocked | .forceWaiting | .loadSucc | .passPending _
  | .passOwner _ | .passWord _ | .wake _ | .resetNext | .resetLocked | .resetWaiting => true
  | .idle | .storeLocked | .storeWaiting | .casFast | .fastLocked | .fastOwner | .fastPending
  | .loadWord | .casWord _ | .storePending | .linkPred _ | .pollLocked | .pollWaiting _
  | .critical => false

/-- The successor that the node is handing the lock to. -/
@[simp] def passesTo : NodePc → Option NodeId
  | .passPending succId | .passOwner succId | .passWord succId | .wake succId => some succId
  | _ => none

end NodePc

/-! ## What a release has done -/

/-- One access, as the states before and after it. -/
abbrev Access := State × State

/-- One more access of a node; the first one of `release_lock` begins a new record. -/
def logAccess (pc : NodePc) (a : Access) (log : List Access) : List Access :=
  if pc = .critical then [a] else log ++ [a]

/-- Record the access of a node; those of the lock manager belong to no call of a node. -/
def recordAccess (s : State) (e : Turn NodeId Unit) (s' : State)
    (log : NodeId → List Access) : NodeId → List Access :=
  match e with
  | .party n _ => Function.update log n (logAccess (s.pc n) (s, s') (log n))
  | .manager => log

/-- The interleaved qspinlock with the accesses of each node since its latest `release_lock`
began. -/
def loggedSystem (size : SystemSize) (l : LockId) :
    LabelledSystem (State × (NodeId → List Access)) (Turn NodeId Unit) :=
  (machine size l).system.withHistory (fun _ => []) recordAccess

/-- The lock is marked as held and no node has it. -/
def Stuck (l : LockId) (s : State) : Prop :=
  qspinLocked (s.mem.entry l).lockWord = 1 ∧ ∀ k, ¬ HasLock s k

/-- Node `k` polls for the lock and its record says that it waits for it. -/
def WaitsFor (l : LockId) (s : State) (k : NodeId) : Prop :=
  (s.pc k).polling = true ∧ (s.mem.node k).locked = 1 ∧ (s.mem.node k).waitingLock = l

/-- One of the accesses is an exchange of `release_lock` that has set the lock word to 0. -/
def FreedBy (l : LockId) (n : NodeId) (log : List Access) : Prop :=
  ∃ a ∈ log, a.1.pc n = .casRelease (a.1.mem.entry l).lockWord ∧
    (a.1.mem.entry l).lockWord ≠ 0 ∧ (a.2.mem.entry l).lockWord = 0

/-- The accesses have handed the lock to `k`, which was waiting for it. -/
structure PassedBy (l : LockId) (n k : NodeId) (log : List Access) : Prop where
  owner : ∃ a ∈ log, a.1.pc n = .passOwner k ∧ (a.2.mem.entry l).ownerNode = k
  word : ∃ a ∈ log, a.1.pc n = .passWord k ∧ qspinLocked (a.2.mem.entry l).lockWord = 1
  woken : ∃ a ∈ log, a.1.pc n = .wake k ∧ WaitsFor l a.1 k ∧ (a.2.mem.node k).locked = 2

/-- The accesses of `n` have freed the lock or passed it to one waiting node, and none of those
it made while it had the lock has left it held by nobody. -/
structure FreesOrPasses (l : LockId) (n : NodeId) (log : List Access) : Prop where
  done : FreedBy l n log ∨ ∃ k, PassedBy l n k log
  unstuck : ∀ a ∈ log, HasLock a.1 n → ¬ Stuck l a.2

/-! ## The condition -/

/-- Node `m` is in the queue, or about to join it, and links to node `k`. -/
def LinksTo (s : State) (m k : NodeId) : Prop :=
  (s.pc m).live = true ∧ (s.mem.node m).nextNode = k ∧ k ≠ invalidNodeId

/-- `grant_lock` begins for a node that has joined the queue and that nobody in it links to. -/
def GrantsFront (size : SystemSize) (s : State) : ManagerPc → Prop
  | .grantLocked head => (s.pc head).joined = true ∧
      ∀ m, m < size.nodeCount → ¬ LinksTo s m head
  | _ => True

/-- The condition on an access: a release that looks at its link for the last time finds a
successor, and the lock manager grants in the order of the queue. -/
def QueueInOrder (size : SystemSize) (s : State) : Turn NodeId Unit → Prop
  | .party n _ => s.pc n = .recheckNext → (s.mem.node n).nextNode ≠ invalidNodeId
  | .manager => GrantsFront size s s.mgr

instance (s : State) (m k : NodeId) : Decidable (LinksTo s m k) :=
  inferInstanceAs (Decidable (_ ∧ _))

instance (size : SystemSize) (s : State) : ∀ pc, Decidable (GrantsFront size s pc)
  | .grantLocked _ => inferInstanceAs (Decidable (_ ∧ _))
  | .loadWord | .loadGip | .loadPending | .loadLocked _ | .loadWaiting _ _ | .storeGip _
  | .grantOwner _ | .grantWord _ | .loadNext _ | .storePending _ | .clearGip => .isTrue trivial

instance (size : SystemSize) (s : State) : ∀ e, Decidable (QueueInOrder size s e)
  | .party _ _ => inferInstanceAs (Decidable (_ → _))
  | .manager => inferInstanceAs (Decidable (GrantsFront size s s.mgr))

/-! ## The order of the queue -/

/-- Node `k` polls and has not been granted the lock. -/
def Ungranted (s : State) (k : NodeId) : Prop :=
  (s.pc k).polling = true ∧ (s.mem.node k).locked ≠ 2

/-- What the program counter of a node says about its own record. -/
structure Records (size : SystemSize) (l : LockId) (s : State) : Prop where
  participates : ∀ n, s.pc n ≠ .idle → n < size.nodeCount
  found : ∀ n, s.pc n = .loadSucc → (s.mem.node n).nextNode ≠ invalidNodeId
  marked : ∀ n, (s.pc n).asking = true →
    (s.mem.node n).locked = 1 ∨ (s.mem.node n).locked = 2
  granted : ∀ n, (s.pc n).requesting = true → (s.mem.node n).locked = 2 →
    (s.pc n).joined = true
  waiting : ∀ n, (s.pc n).asking = true → s.pc n ≠ .storeWaiting →
    (s.mem.node n).waitingLock = l
  unforced : ∀ n, (s.pc n).forcing = false

/-- What the links between the records say. -/
structure Ordered (size : SystemSize) (l : LockId) (s : State) : Prop
    extends Records size l s where
  linked : ∀ m k, LinksTo s m k → Ungranted s k
  once : ∀ m m' k, LinksTo s m k → LinksTo s m' k → m = m'
  passing : ∀ m k, (s.pc m).passesTo = some k →
    Ungranted s k ∧ ∀ m', LinksTo s m' k → m' = m

section Steps

variable {size : SystemSize} {l : LockId} {s : State} {n : NodeId}

/-- A node that is being handed the lock, or linked to, waits for it. -/
lemma Records.waitsFor (h : Records size l s) {k : NodeId} (hk : Ungranted s k) :
    WaitsFor l s k := by
  obtain ⟨hpoll, hlocked⟩ := hk
  have hasking : (s.pc k).asking = true ∧ s.pc k ≠ .storeWaiting := by
    cases hpc : s.pc k <;> simp_all
  refine ⟨hpoll, ?_, h.waiting k hasking.1 hasking.2⟩
  rcases h.marked k hasking.1 with hone | htwo
  · exact hone
  · exact absurd htwo hlocked

/-- Who stores to a `next_node`: a node to its own, at the start of a request and in the reset,
and a node that joins to that of its predecessor. -/
lemma nodeStep_nextNode (pc : NodePc) (shm : QspinShm) (k : NodeId) :
    ((nodeStep l n shm pc).1.node k).nextNode = (shm.node k).nextNode ∨
      (k = n ∧ (pc = .idle ∨ pc = .resetNext) ∧
        ((nodeStep l n shm pc).1.node k).nextNode = invalidNodeId) ∨
      (pc = .linkPred k ∧ ((nodeStep l n shm pc).1.node k).nextNode = n) := by
  cases pc with
  | idle | resetNext =>
      by_cases hk : k = n
      · exact .inr (.inl ⟨hk, by simp, by simp [nodeStep, hk]⟩)
      · exact .inl (by simp [nodeStep, hk])
  | linkPred predId =>
      by_cases hk : k = predId
      · exact .inr (.inr ⟨by simp [hk], by simp [nodeStep, hk]⟩)
      · exact .inl (by simp [nodeStep, hk])
  | casFast | casWord | pollWaiting | critical | loadNext | casRelease | spinNext | recheckNext =>
      left
      simp only [nodeStep]
      split_ifs <;> simp
  | _ =>
      left
      simp [nodeStep]

/-- A node enters the queue only by the first access of a request. -/
lemma nodeStep_live {pc : NodePc} (shm : QspinShm) (h : (nodeStep l n shm pc).2.live = true) :
    pc.live = true ∨ pc = .idle := by
  cases pc <;> simp_all [nodeStep]

/-- A link is made by the node that it leads to. -/
lemma linksTo_of_move {m k : NodeId}
    (h : LinksTo (s.move n (nodeStep l n s.mem (s.pc n))) m k) :
    LinksTo s m k ∨ s.pc n = .linkPred m ∧ k = n := by
  obtain ⟨hlive, hnext, hk⟩ := h
  simp only [Config.move_pc, Config.move_mem] at hlive hnext
  rcases nodeStep_nextNode (l := l) (n := n) (s.pc n) s.mem m with
    hsame | ⟨-, -, hinv⟩ | ⟨hpc, hnew⟩
  · refine .inl ⟨?_, hsame ▸ hnext, hk⟩
    split_ifs at hlive with hmn
    · subst hmn
      rcases nodeStep_live s.mem hlive with hbefore | hidle
      · exact hbefore
      · -- a request begins by emptying the link
        simp only [hidle, nodeStep, QspinShm.storeNext_nextNode, if_true] at hnext
        exact absurd hnext.symm hk
    · exact hlive
  · exact absurd (hinv ▸ hnext).symm hk
  · exact .inr ⟨hpc, hnew ▸ hnext.symm⟩

/-- Only waking a successor grants the lock to a node that polls, and only a node that has been
granted the lock leaves its poll. -/
lemma Ungranted.move (hinv : Inv l s) {k : NodeId} (h : Ungranted s k)
    (hwake : ∀ succ, s.pc n ≠ .wake succ) :
    Ungranted (s.move n (nodeStep l n s.mem (s.pc n))) k := by
  obtain ⟨hpoll, hlocked⟩ := h
  simp only [Ungranted, Config.move_pc, Config.move_mem]
  by_cases hkn : k = n
  · subst hkn
    simp only [if_true]
    cases hpc : s.pc k with
    | pollLocked => exact ⟨by simp [nodeStep], by simpa [nodeStep] using hlocked⟩
    | pollWaiting nodeLocked =>
        have hread : nodeLocked ≠ 2 := fun htwo => hlocked (hinv.polled k (htwo ▸ hpc))
        simp only [nodeStep, hread, false_and, if_false]
        exact ⟨rfl, hlocked⟩
    | _ => simp [hpc] at hpoll
  · rw [if_neg hkn, nodeStep_locked hwake hkn]
    exact ⟨hpoll, hlocked⟩

/-- A hand-over begins with the successor that the link names. -/
lemma nodeStep_passesTo {pc : NodePc} {k : NodeId} (shm : QspinShm)
    (h : (nodeStep l n shm pc).2.passesTo = some k) :
    pc.passesTo = some k ∨ pc = .loadSucc ∧ (shm.node n).nextNode = k := by
  cases pc with
  | casFast | casWord | pollWaiting | critical | loadNext | casRelease | spinNext | recheckNext =>
      simp only [nodeStep] at h
      split_ifs at h <;> simp at h
  | _ => simp_all [nodeStep]

/-- A release goes on to its hand-over only after it has seen a link. -/
lemma nodeStep_loadSucc {pc : NodePc} (shm : QspinShm)
    (h : (nodeStep l n shm pc).2 = .loadSucc) :
    (shm.node n).nextNode ≠ invalidNodeId ∧ (nodeStep l n shm pc).1 = shm := by
  cases pc with
  | casFast | casWord | pollWaiting | critical | loadNext | casRelease | spinNext | recheckNext =>
      simp only [nodeStep] at h ⊢
      split_ifs at h ⊢ with h1 <;> simp_all
  | _ => simp [nodeStep] at h

/-- The mark of a node during its own request: it is 1, or the lock has been granted. -/
lemma nodeStep_marked {pc : NodePc} (shm : QspinShm)
    (hmarked : pc.asking = true → (shm.node n).locked = 1 ∨ (shm.node n).locked = 2)
    (h : (nodeStep l n shm pc).2.asking = true) :
    ((nodeStep l n shm pc).1.node n).locked = 1 ∨
      ((nodeStep l n shm pc).1.node n).locked = 2 := by
  cases pc with
  | casFast | casWord | pollWaiting | critical | loadNext | casRelease | spinNext | recheckNext =>
      simp only [nodeStep] at h ⊢
      split_ifs at h ⊢ <;> simp_all
  | _ => simp_all [nodeStep]

/-- A node that has not joined the queue does not mark itself as granted. -/
lemma nodeStep_granted {pc : NodePc} (shm : QspinShm)
    (hgranted : pc.requesting = true → (shm.node n).locked = 2 → pc.joined = true)
    (h : (nodeStep l n shm pc).2.requesting = true)
    (hlocked : ((nodeStep l n shm pc).1.node n).locked = 2) :
    (nodeStep l n shm pc).2.joined = true := by
  cases pc with
  | casFast | casWord | pollWaiting | critical | loadNext | casRelease | spinNext | recheckNext =>
      simp only [nodeStep] at h hlocked ⊢
      split_ifs at h hlocked ⊢ <;> simp_all
  | _ => simp_all [nodeStep]

lemma nodeStep_waitingLock_of_ne {pc : NodePc} (shm : QspinShm) {k : NodeId} (hk : k ≠ n) :
    ((nodeStep l n shm pc).1.node k).waitingLock = (shm.node k).waitingLock := by
  cases pc with
  | casFast | casWord | pollWaiting | critical | loadNext | casRelease | spinNext | recheckNext =>
      simp only [nodeStep]
      split_ifs <;> simp
  | _ => simp [nodeStep, hk]

/-- The lock that a node waits for, during its own request. -/
lemma nodeStep_waitingLock {pc : NodePc} (shm : QspinShm)
    (hwaiting : pc.asking = true → pc ≠ .storeWaiting → (shm.node n).waitingLock = l)
    (h : (nodeStep l n shm pc).2.asking = true)
    (hstore : (nodeStep l n shm pc).2 ≠ .storeWaiting) :
    ((nodeStep l n shm pc).1.node n).waitingLock = l := by
  cases pc with
  | casFast | casWord | pollWaiting | critical | loadNext | casRelease | spinNext | recheckNext =>
      simp only [nodeStep] at h ⊢
      split_ifs at h ⊢ <;> simp_all
  | _ => simp_all [nodeStep]

/-- With a successor in sight the forced exit is not taken. -/
lemma nodeStep_forcing {pc : NodePc} (shm : QspinShm) (hpc : pc.forcing = false)
    (hok : pc = .recheckNext → (shm.node n).nextNode ≠ invalidNodeId) :
    (nodeStep l n shm pc).2.forcing = false := by
  cases pc with
  | casFast | casWord | pollWaiting | critical | loadNext | casRelease | spinNext | recheckNext =>
      simp only [nodeStep]
      split_ifs <;> simp_all
  | _ => simp_all [nodeStep]

/-- The mark of another node is touched only to grant it the lock. -/
lemma nodeStep_locked_of_ne {k : NodeId} (hk : k ≠ n) :
    ((nodeStep l n s.mem (s.pc n)).1.node k).locked = (s.mem.node k).locked ∨
      s.pc n = .wake k ∧ ((nodeStep l n s.mem (s.pc n)).1.node k).locked = 2 := by
  by_cases hwake : ∃ succ, s.pc n = .wake succ
  · obtain ⟨succ, hpc⟩ := hwake
    by_cases hks : k = succ
    · exact .inr ⟨hks ▸ hpc, by simp [hpc, hks, nodeStep]⟩
    · exact .inl (by simp [hpc, hks, nodeStep])
  · exact .inl (nodeStep_locked (not_exists.1 hwake) hk)

lemma Records.node (h : Records size l s) (hn : n < size.nodeCount)
    (hok : s.pc n = .recheckNext → (s.mem.node n).nextNode ≠ invalidNodeId)
    (hwoken : ∀ succ, s.pc n = .wake succ → (s.pc succ).polling = true) :
    Records size l (s.move n (nodeStep l n s.mem (s.pc n))) := by
  refine ⟨fun k hk => ?_, fun k hk => ?_, fun k hk => ?_, fun k hk htwo => ?_,
    fun k hk hstore => ?_, fun k => ?_⟩
  · by_cases hkn : k = n
    · exact hkn ▸ hn
    · exact h.participates k (by simpa [hkn] using hk)
  · by_cases hkn : k = n
    · subst hkn
      simp only [Config.move_pc, if_true] at hk
      obtain ⟨hfound, hmem⟩ := nodeStep_loadSucc s.mem hk
      rw [Config.move_mem, hmem]
      exact hfound
    · simp only [Config.move_pc, hkn, if_false] at hk
      rw [Config.move_mem]
      rcases nodeStep_nextNode (l := l) (n := n) (s.pc n) s.mem k with hsame | ⟨hkn', -⟩ | ⟨-, hnew⟩
      · exact hsame ▸ h.found k hk
      · exact absurd hkn' hkn
      · rw [hnew]
        exact size.node_ne_invalid hn
  · by_cases hkn : k = n
    · subst hkn
      simp only [Config.move_pc, if_true] at hk
      exact nodeStep_marked s.mem (h.marked k) hk
    · simp only [Config.move_pc, hkn, if_false] at hk
      rw [Config.move_mem]
      rcases nodeStep_locked_of_ne hkn with hsame | ⟨-, htwo⟩
      · exact hsame ▸ h.marked k hk
      · exact .inr htwo
  · by_cases hkn : k = n
    · subst hkn
      simp only [Config.move_pc, Config.move_mem, if_true] at hk htwo ⊢
      exact nodeStep_granted s.mem (h.granted k) hk htwo
    · simp only [Config.move_pc, Config.move_mem, hkn, if_false] at hk htwo ⊢
      rcases nodeStep_locked_of_ne hkn with hsame | ⟨hpc, -⟩
      · exact h.granted k hk (hsame ▸ htwo)
      · have hpoll := hwoken k hpc
        cases hcase : s.pc k <;> simp [hcase] at hpoll ⊢
  · by_cases hkn : k = n
    · subst hkn
      simp only [Config.move_pc, if_true] at hk hstore
      exact nodeStep_waitingLock s.mem (h.waiting k) hk hstore
    · simp only [Config.move_pc, hkn, if_false] at hk hstore
      rw [Config.move_mem, nodeStep_waitingLock_of_ne s.mem hkn]
      exact h.waiting k hk hstore
  · by_cases hkn : k = n
    · subst hkn
      simpa using nodeStep_forcing s.mem (h.unforced k) hok
    · simpa [hkn] using h.unforced k

/-- No new link leads to a node that polls: a node links itself before it polls. -/
lemma Ungranted.linksTo_of_move {m k : NodeId} (hk : Ungranted s k)
    (h : LinksTo (s.move n (nodeStep l n s.mem (s.pc n))) m k) : LinksTo s m k := by
  rcases Qspinlock.linksTo_of_move h with hold | ⟨hpc, rfl⟩
  · exact hold
  · have hpoll := hk.1
    simp [hpc] at hpoll

/-- A node of the queue has not woken its successor yet. -/
lemma not_live_of_wake {k succ : NodeId} (hpc : s.pc n = .wake succ) :
    ¬ LinksTo (s.move n (nodeStep l n s.mem (s.pc n))) n k := by
  intro hlink
  have hlive := hlink.1
  simp [hpc, nodeStep] at hlive

/-- An access that does not wake a successor keeps the queue in order. -/
lemma Ordered.notWake (hinv : Inv l s) (h : Ordered size l s) (hn : n < size.nodeCount)
    (hok : s.pc n = .recheckNext → (s.mem.node n).nextNode ≠ invalidNodeId)
    (hwake : ∀ succ, s.pc n ≠ .wake succ) :
    Ordered size l (s.move n (nodeStep l n s.mem (s.pc n))) := by
  refine ⟨h.toRecords.node hn hok fun succ hpc => absurd hpc (hwake succ), fun m k hlink => ?_,
    fun m m' k hlink hlink' => ?_, fun m k hpass => ?_⟩
  · rcases linksTo_of_move hlink with hold | ⟨hpc, rfl⟩
    · exact (h.linked m k hold).move hinv hwake
    · -- the node that has just linked itself goes on to poll
      refine ⟨by simp [hpc, nodeStep], fun htwo => ?_⟩
      have hjoined := h.granted k (by simp [hpc]) (by simpa [hpc, nodeStep] using htwo)
      simp [hpc] at hjoined
  · rcases linksTo_of_move hlink with hold | ⟨hpc, rfl⟩
    · exact h.once m m' k hold ((h.linked m k hold).linksTo_of_move hlink')
    · rcases linksTo_of_move hlink' with hold' | ⟨hpc', -⟩
      · exact absurd (h.linked m' k hold').1 (by simp [hpc])
      · exact NodePc.linkPred.inj (hpc.symm.trans hpc')
  · have hbefore : Ungranted s k ∧ ∀ m', LinksTo s m' k → m' = m := by
      rw [Config.move_pc] at hpass
      split_ifs at hpass with hmn
      · rcases nodeStep_passesTo s.mem hpass with hold | ⟨hpc, hnext⟩
        · exact hmn ▸ h.passing n k hold
        · -- the hand-over begins along the link of the node
          have hlink : LinksTo s n k := ⟨by simp [hpc], hnext, hnext ▸ h.found n hpc⟩
          exact ⟨h.linked n k hlink, fun m' hm' => hmn ▸ h.once m' n k hm' hlink⟩
      · exact h.passing m k hpass
    obtain ⟨hk, honly⟩ := hbefore
    exact ⟨hk.move hinv hwake, fun m' hm' => honly m' (hk.linksTo_of_move hm')⟩

/-- Waking the successor ends the link to it. -/
lemma Ordered.wake (hinv : Inv l s) (h : Ordered size l s) (hn : n < size.nodeCount)
    {succ : NodeId} (hpc : s.pc n = .wake succ) :
    Ordered size l (s.move n (nodeStep l n s.mem (s.pc n))) := by
  obtain ⟨hsucc, honly⟩ := h.passing n succ (by simp [hpc])
  have hwoken : ∀ k, s.pc n = .wake k → (s.pc k).polling = true := fun k hk =>
    NodePc.wake.inj (hpc.symm.trans hk) ▸ hsucc.1
  have hlink : ∀ m k, LinksTo (s.move n (nodeStep l n s.mem (s.pc n))) m k → LinksTo s m k := by
    intro m k hm
    rcases linksTo_of_move hm with hold | ⟨hlinking, -⟩
    · exact hold
    · exact absurd (hpc.symm.trans hlinking) (by simp)
  refine ⟨h.toRecords.node hn (fun hre => absurd (hpc.symm.trans hre) (by simp)) hwoken,
    fun m k hm => ?_, fun m m' k hm hm' => h.once m m' k (hlink m k hm) (hlink m' k hm'),
    fun m k hpass => ?_⟩
  · obtain ⟨hpoll, hlocked⟩ := h.linked m k (hlink m k hm)
    have hks : k ≠ succ := by
      rintro rfl
      exact not_live_of_wake hpc (honly m (hlink m k hm) ▸ hm)
    have hkn : k ≠ n := by
      rintro rfl
      simp [hpc] at hpoll
    exact ⟨by simpa [hkn] using hpoll, by simpa [hpc, nodeStep, hks] using hlocked⟩
  · -- nobody else hands the lock over
    rw [Config.move_pc] at hpass
    split_ifs at hpass with hmn
    · simp [hpc, nodeStep] at hpass
    · have hm : HasLock s m := by
        left
        cases hcase : s.pc m <;> simp [hcase] at hpass ⊢
      exact absurd (hinv.unique m n hm (.inl (by simp [hpc]))) hmn

lemma Ordered.node (hinv : Inv l s) (h : Ordered size l s) (hn : n < size.nodeCount)
    (hok : s.pc n = .recheckNext → (s.mem.node n).nextNode ≠ invalidNodeId) :
    Ordered size l (s.move n (nodeStep l n s.mem (s.pc n))) := by
  by_cases hwake : ∃ succ, s.pc n = .wake succ
  · obtain ⟨succ, hpc⟩ := hwake
    exact h.wake hinv hn hpc
  · exact h.notWake hinv hn hok (not_exists.1 hwake)

/-- Only the program counters and records of the nodes matter. -/
lemma Ordered.of_nodes {s' : State} (h : Ordered size l s) (hpc : s'.pc = s.pc)
    (hnode : s'.mem.node = s.mem.node) : Ordered size l s' := by
  obtain ⟨⟨hpart, hfound, hmarked, hgranted, hwaiting, hunforced⟩, hlinked, honce, hpassing⟩ := h
  refine ⟨⟨?_, ?_, ?_, ?_, ?_, ?_⟩, ?_, ?_, ?_⟩ <;>
    simp only [LinksTo, Ungranted, hpc, hnode] at * <;> assumption

/-- The lock manager grants the lock to a node that nobody links to. -/
lemma Ordered.grantLocked (hinv : Inv l s) (h : Ordered size l s) {head : NodeId}
    (hmgr : s.mgr = .grantLocked head) (hjoined : (s.pc head).joined = true)
    (hunlinked : ∀ m, m < size.nodeCount → ¬ LinksTo s m head) :
    Ordered size l (s.manage (managerStep size.nodeCount l s.mem s.mgr)) := by
  obtain ⟨hfree, -⟩ := hinv.deciding (by simp [hmgr])
  have hlink : ∀ m k, LinksTo (s.manage (managerStep size.nodeCount l s.mem s.mgr)) m k ↔
      LinksTo s m k := fun m k => by simp [LinksTo, hmgr, managerStep]
  refine ⟨⟨h.participates, fun n hn => ?_, fun n hn => ?_, fun n hn htwo => ?_,
    fun n hn hstore => ?_, h.unforced⟩, fun m k hm => ?_, fun m m' k hm hm' => ?_,
    fun m k hpass => ?_⟩
  · simpa [hmgr, managerStep] using h.found n hn
  · by_cases hnh : n = head
    · exact .inr (by simp [hmgr, managerStep, hnh])
    · simpa [hmgr, managerStep, hnh] using h.marked n hn
  · by_cases hnh : n = head
    · exact hnh ▸ hjoined
    · exact h.granted n hn (by simpa [hmgr, managerStep, hnh] using htwo)
  · simpa [hmgr, managerStep] using h.waiting n hn hstore
  · rw [hlink] at hm
    have hm_lt : m < size.nodeCount := h.participates m fun hidle => by
      have hlive := hm.1
      simp [hidle] at hlive
    have hkh : k ≠ head := fun hkh => hunlinked m hm_lt (hkh ▸ hm)
    obtain ⟨hpoll, hlocked⟩ := h.linked m k hm
    exact ⟨hpoll, by simpa [hmgr, managerStep, hkh] using hlocked⟩
  · rw [hlink] at hm hm'
    exact h.once m m' k hm hm'
  · refine absurd ?_ (hfree m)
    rw [Config.manage_pc] at hpass
    left
    cases hcase : s.pc m <;> simp [hcase] at hpass ⊢

lemma Ordered.manager (hinv : Inv l s) (h : Ordered size l s) (hok : GrantsFront size s s.mgr) :
    Ordered size l (s.manage (managerStep size.nodeCount l s.mem s.mgr)) := by
  by_cases hgrant : ∃ head, s.mgr = .grantLocked head
  · obtain ⟨head, hmgr⟩ := hgrant
    rw [hmgr] at hok
    exact h.grantLocked hinv hmgr hok.1 hok.2
  · exact h.of_nodes rfl (managerStep_node size l s.mem (not_exists.1 hgrant))

lemma Ordered.init (h : (machine size l).system.init s) : Ordered size l s := by
  obtain ⟨-, hpc, -⟩ := h
  replace hpc : ∀ n, s.pc n = .idle := hpc
  constructor
  · constructor <;> simp [hpc]
  all_goals simp [LinksTo, hpc]

end Steps

/-! ## The record of a release -/

/-- What the accesses of a release have done so far, by where it is. -/
structure Logged (l : LockId) (n : NodeId) (pc : NodePc) (log : List Access) : Prop where
  freed : pc = .clearPending ∨ pc = .clearOwner → FreedBy l n log
  owner : ∀ k, pc = .passWord k ∨ pc = .wake k →
    ∃ a ∈ log, a.1.pc n = .passOwner k ∧ (a.2.mem.entry l).ownerNode = k
  word : ∀ k, pc = .wake k →
    ∃ a ∈ log, a.1.pc n = .passWord k ∧ qspinLocked (a.2.mem.entry l).lockWord = 1
  done : pc = .resetNext ∨ pc = .resetLocked ∨ pc = .resetWaiting →
    FreedBy l n log ∨ ∃ k, PassedBy l n k log
  unstuck : pc.releasing = true → ∀ a ∈ log, HasLock a.1 n → ¬ Stuck l a.2

section Record

variable {size : SystemSize} {l : LockId} {s : State} {n : NodeId}

lemma mem_logAccess {pc : NodePc} {a b : Access} {log : List Access} :
    b ∈ logAccess pc a log ↔ b = a ∨ pc ≠ .critical ∧ b ∈ log := by
  unfold logAccess
  split_ifs with hpc <;> simp [hpc, or_comm]

/-- What an earlier access of the call has done is still on record. -/
lemma exists_logAccess {p : Access → Prop} {pc : NodePc} {a : Access} {log : List Access}
    (h : ∃ b ∈ log, p b) (hpc : pc ≠ .critical) : ∃ b ∈ logAccess pc a log, p b := by
  obtain ⟨b, hb, hp⟩ := h
  exact ⟨b, mem_logAccess.2 (.inr ⟨hpc, hb⟩), hp⟩

/-- What the latest access has done is on record. -/
lemma exists_logAccess_self {p : Access → Prop} {pc : NodePc} {a : Access} {log : List Access}
    (h : p a) : ∃ b ∈ logAccess pc a log, p b :=
  ⟨a, mem_logAccess.2 (.inl rfl), h⟩

/-- An access of a release, made while the node has the lock, leaves the lock with the node, with
its successor or free. -/
lemma Ordered.not_stuck (h : Ordered size l s) (hlock : HasLock s n)
    (hrel : (nodeStep l n s.mem (s.pc n)).2.releasing = true)
    (hok : s.pc n = .recheckNext → (s.mem.node n).nextNode ≠ invalidNodeId) :
    ¬ Stuck l (s.move n (nodeStep l n s.mem (s.pc n))) := by
  rintro ⟨hbit, hnobody⟩
  have hhold : (nodeStep l n s.mem (s.pc n)).2.holding ≠ true := fun hhold =>
    hnobody n (.inl (by simpa using hhold))
  cases hpc : s.pc n with
  | casRelease oldWord =>
      by_cases hword : (s.mem.entry l).lockWord = oldWord ∧
          qspinTailIdx oldWord = qspinNodeToTail n
      · simp [hpc, nodeStep, hword, qspinLocked] at hbit
      · rw [not_and] at hword
        simp only [hpc, nodeStep] at hhold
        split_ifs at hhold with h1 h2
        · exact hword h1 h2
        · exact hhold rfl
        · exact hhold rfl
  | wake succ =>
      obtain ⟨⟨hpoll, -⟩, -⟩ := h.passing n succ (by simp [hpc])
      have hsn : succ ≠ n := by
        rintro rfl
        simp [hpc] at hpoll
      refine hnobody succ (.inr ⟨?_, by simp [hpc, nodeStep]⟩)
      rw [Config.move_pc, if_neg hsn]
      cases hcase : s.pc succ <;> simp [hcase] at hpoll ⊢
  | recheckNext => simp [hpc, nodeStep, hok hpc] at hhold
  | clearPending | clearOwner | forceOwner | forceLocked | forceWaiting | resetNext | resetLocked
  | resetWaiting => simp [HasLock, hpc] at hlock
  | casFast | casWord | pollWaiting | critical | loadNext | spinNext =>
      simp only [hpc, nodeStep] at hrel hhold
      split_ifs at hrel hhold <;> simp at hrel hhold
  | _ => simp [hpc, nodeStep] at hrel hhold

/-- Before its check of the owner, and after its return, a node is in no release. -/
lemma nodeStep_releasing {pc : NodePc} (shm : QspinShm)
    (h : (nodeStep l n shm pc).2.releasing = true) : pc ≠ .critical → pc.releasing = true := by
  cases pc with
  | casFast | casWord | pollWaiting | loadNext | casRelease | spinNext | recheckNext =>
      simp only [nodeStep] at h
      split_ifs at h <;> simp_all
  | _ => simp_all [nodeStep]

/-- Where a node comes from when access `pc` takes it to one of the stores behind the exchange of a
release. -/
structure Enters (l : LockId) (n : NodeId) (shm : QspinShm) (pc next : NodePc) : Prop where
  clearPending : next = .clearPending → pc = .casRelease (shm.entry l).lockWord ∧
    ((nodeStep l n shm pc).1.entry l).lockWord = 0
  clearOwner : next = .clearOwner → pc = .clearPending
  passWord : ∀ k, next = .passWord k → pc = .passOwner k
  wake : ∀ k, next = .wake k → pc = .passWord k
  resetNext : next = .resetNext → pc = .clearOwner ∨ ∃ k, pc = .wake k
  resetLocked : next = .resetLocked → pc = .resetNext
  resetWaiting : next = .resetWaiting → pc = .resetLocked

lemma nodeStep_enters (shm : QspinShm) (pc : NodePc) :
    Enters l n shm pc (nodeStep l n shm pc).2 := by
  cases pc with
  | casRelease oldWord =>
      by_cases hword : (shm.entry l).lockWord = oldWord
      · subst hword
        by_cases hlast : qspinTailIdx (shm.entry l).lockWord = qspinNodeToTail n <;>
          constructor <;> simp [nodeStep, hlast]
      · constructor <;> simp [nodeStep, hword]
  | casFast | casWord | pollWaiting | critical | loadNext | spinNext | recheckNext =>
      simp only [nodeStep]
      split_ifs <;> constructor <;> simp
  | _ => constructor <;> simp [nodeStep]

/-- A release that has freed the lock or passed it keeps that on record. -/
lemma done_logAccess {pc : NodePc} {a : Access} {log : List Access}
    (h : FreedBy l n log ∨ ∃ k, PassedBy l n k log) (hpc : pc ≠ .critical) :
    FreedBy l n (logAccess pc a log) ∨ ∃ k, PassedBy l n k (logAccess pc a log) := by
  rcases h with hfreed | ⟨k, hpassed⟩
  · exact .inl (exists_logAccess hfreed hpc)
  · exact .inr ⟨k, exists_logAccess hpassed.owner hpc, exists_logAccess hpassed.word hpc,
      exists_logAccess hpassed.woken hpc⟩

/-- One access of the node, with the record it makes. -/
lemma Logged.node (hinv : Inv l s) (hord : Ordered size l s)
    (hok : s.pc n = .recheckNext → (s.mem.node n).nextNode ≠ invalidNodeId)
    {log : List Access} (h : Logged l n (s.pc n) log) :
    Logged l n (nodeStep l n s.mem (s.pc n)).2
      (logAccess (s.pc n) (s, s.move n (nodeStep l n s.mem (s.pc n))) log) := by
  have henters := nodeStep_enters (l := l) (n := n) s.mem (s.pc n)
  refine ⟨fun hnext => ?_, fun k hnext => ?_, fun k hnext => ?_, fun hnext => ?_,
    fun hrel a ha hlock => ?_⟩
  · rcases hnext with hnext | hnext
    · obtain ⟨hpc, hzero⟩ := henters.clearPending hnext
      have hnonzero := hinv.nonzero n (.inl (by simp [hpc]))
      exact exists_logAccess_self ⟨hpc, hnonzero, hzero⟩
    · have hpc := henters.clearOwner hnext
      exact exists_logAccess (h.freed (.inl hpc)) (by simp [hpc])
  · rcases hnext with hnext | hnext
    · have hpc := henters.passWord k hnext
      exact exists_logAccess_self ⟨hpc, by simp [hpc, nodeStep]⟩
    · have hpc := henters.wake k hnext
      exact exists_logAccess (h.owner k (.inl hpc)) (by simp [hpc])
  · have hpc := henters.wake k hnext
    exact exists_logAccess_self ⟨hpc, by simp [hpc, nodeStep, qspinLocked_heldWord]⟩
  · rcases hnext with hnext | hnext | hnext
    · rcases henters.resetNext hnext with hpc | ⟨succ, hpc⟩
      · exact .inl (exists_logAccess (h.freed (.inr hpc)) (by simp [hpc]))
      · obtain ⟨hsucc, -⟩ := hord.passing n succ (by simp [hpc])
        exact .inr ⟨succ, exists_logAccess (h.owner succ (.inr hpc)) (by simp [hpc]),
          exists_logAccess (h.word succ hpc) (by simp [hpc]),
          exists_logAccess_self ⟨hpc, hord.waitsFor hsucc, by simp [hpc, nodeStep]⟩⟩
    · have hpc := henters.resetLocked hnext
      exact done_logAccess (h.done (by simp [hpc])) (by simp [hpc])
    · have hpc := henters.resetWaiting hnext
      exact done_logAccess (h.done (by simp [hpc])) (by simp [hpc])
  · rcases mem_logAccess.1 ha with rfl | ⟨hcrit, ha⟩
    · exact hord.not_stuck hlock hrel hok
    · exact h.unstuck (nodeStep_releasing s.mem hrel hcrit) a ha hlock

/-- In the runs that meet the condition the record of every node says what its release has done. -/
lemma logged_of_queueInOrder {log : NodeId → List Access}
    (hs : (loggedSystem size l).ReachableWhen (fun p => QueueInOrder size p.1) (s, log)) :
    Inv l s ∧ Ordered size l s ∧ ∀ n, Logged l n (s.pc n) (log n) := by
  refine LabelledSystem.ReachableWhen.invariant
    (I := fun p => Inv l p.1 ∧ Ordered size l p.1 ∧ ∀ n, Logged l n (p.1.pc n) (p.2 n))
    (fun p hi => ?_) (fun p e p' h hok hnext => ?_) hs
  · have hidle : ∀ n, p.1.pc n = .idle := hi.1.2.1
    refine ⟨Inv.init hi.1, Ordered.init hi.1, fun n => ?_⟩
    constructor <;> simp [hidle]
  · obtain ⟨hinv, hord, hlog⟩ := h
    obtain ⟨s', hs', rfl⟩ := Option.map_eq_some_iff.1 hnext
    cases e with
    | party n c =>
        obtain ⟨hn, rfl⟩ := (machine_neverBlocks size l).next_party hs'
        refine ⟨hinv.node hn, hord.node hinv hn hok, fun k => ?_⟩
        by_cases hkn : k = n
        · subst hkn
          simpa [recordAccess] using (hlog k).node hinv hord hok
        · simpa [recordAccess, hkn] using hlog k
    | manager =>
        obtain rfl := (machine_neverBlocks size l).next_manager hs'
        exact ⟨hinv.manager, hord.manager hinv hok, hlog⟩

end Record

/-- **A release frees or passes.**  In a run all of whose accesses meet `QueueInOrder`, every
`release_lock` that is about to return `SUCCESS` has set the lock word to 0 or handed the lock to
one node that was waiting for it, and has not left the lock held by nobody. -/
theorem qspin_release_frees (size : SystemSize) (l : LockId) (s : State)
    (log : NodeId → List Access)
    (hs : (loggedSystem size l).ReachableWhen (fun p => QueueInOrder size p.1) (s, log))
    (n : NodeId) (hreturn : releaseResult l n s.mem (s.pc n) = some .success) :
    FreesOrPasses l n (log n) := by
  obtain ⟨-, hord, hlog⟩ := logged_of_queueInOrder hs
  cases hpc : s.pc n with
  | resetWaiting =>
      exact ⟨(hlog n).done (by simp [hpc]), (hlog n).unstuck (by simp [hpc])⟩
  | forceWaiting =>
      have hunforced := hord.unforced n
      simp [hpc] at hunforced
  | critical =>
      simp only [hpc, releaseResult] at hreturn
      split_ifs at hreturn
      simp at hreturn
  | _ => simp [hpc, releaseResult] at hreturn

/-- Node 1 has queued up behind node 0, which hands it the lock. -/
theorem qspin_release_frees_run : ∃ (s : State) (log : NodeId → List Access),
    FreesOrPasses 0 0 (log 0) ∧ s.pc 0 = .resetWaiting ∧ (s.mem.node 1).locked = 2 := by
  obtain ⟨s, hs, hp⟩ := LabelledSystem.exists_of_exec (QueueInOrder (.of 2 1))
    (turns 0 9 ++ turns 1 7 ++ turns 0 9)
    (fun s => s.pc 0 == .resetWaiting && (s.mem.node 1).locked == 2)
    (zeroedStart_init (.of 2 1) (l := 0) (by decide)) (by decide +kernel)
  rw [Bool.and_eq_true, beq_iff_eq, beq_iff_eq] at hp
  obtain ⟨log, hlog⟩ := hs.exists_history (fun _ => []) recordAccess
  exact ⟨s, log, qspin_release_frees (.of 2 1) 0 s log hlog 0 (by simp [hp.1, releaseResult]),
    hp⟩

/-! ## The forced exit -/

section Forced

variable {size : SystemSize} {l : LockId} {s : State} {n : NodeId}

/-- While nobody links to it, a releasing node spins for as long as its bound allows. -/
lemma spin_run (hn : n < size.nodeCount) (k : Nat)
    (hs : (machine size l).system.Reachable s)
    (hnext : (s.mem.node n).nextNode = invalidNodeId) :
    ∀ spinCount, s.pc n = .spinNext spinCount → spinCount + k ≤ maxSpin →
      ∃ s', (machine size l).system.Reachable s' ∧ s'.mem = s.mem ∧ s'.mgr = s.mgr ∧
        s'.pc n = .spinNext (spinCount + k) := by
  induction k generalizing s with
  | zero => exact fun _ hpc _ => ⟨s, hs, rfl, rfl, hpc⟩
  | succ k ih =>
      intro spinCount hpc hbound
      have hstep : nodeStep l n s.mem (s.pc n) = (s.mem, .spinNext (spinCount + 1)) := by
        have hturn : ¬ maxSpin < spinCount + 1 := by omega
        simp [hpc, nodeStep, hnext, hturn]
      have hmove : (machine size l).system.Reachable
          (s.move n (s.mem, .spinNext (spinCount + 1))) := by
        apply hs.next (e := .party n ())
        simp [Machine.system, machine, hn, hstep]
      obtain ⟨s', hs', hmem, hmgr, hpc'⟩ := ih hmove hnext (spinCount + 1) (by simp) (by omega)
      refine ⟨s', hs', hmem, hmgr, ?_⟩
      rw [hpc']
      congr 1
      omega

/-- One more access of a node, recorded. -/
lemma loggedSystem_party {log : NodeId → List Access} (hn : n < size.nodeCount)
    (hs : (loggedSystem size l).Reachable (s, log)) :
    (loggedSystem size l).Reachable (s.move n (nodeStep l n s.mem (s.pc n)),
      recordAccess s (.party n ()) (s.move n (nodeStep l n s.mem (s.pc n))) log) := by
  apply hs.next (e := .party n ())
  simp [loggedSystem, LabelledSystem.withHistory, Machine.system, machine, hn]

/-- A release that looks at its link for the last time and finds no successor goes on to return
`SUCCESS` with the lock held by nobody, unless the lock manager is about to store the word. -/
lemma forced_exit {log : NodeId → List Access} (hn : n < size.nodeCount)
    (hs : (loggedSystem size l).Reachable (s, log)) (hpc : s.pc n = .recheckNext)
    (hnext : (s.mem.node n).nextNode = invalidNodeId) (hmgr : s.mgr.committing = false) :
    ∃ s' log', (loggedSystem size l).Reachable (s', log') ∧ s'.pc n = .forceWaiting ∧
      ¬ FreesOrPasses l n (log' n) := by
  have hinv : Inv l s := inv_of_reachable (LabelledSystem.Reachable.forget hs)
  have hlock : HasLock s n := .inl (by simp [hpc])
  have hstep : nodeStep l n s.mem (s.pc n) = (s.mem, .forceOwner) := by
    simp [hpc, nodeStep, hnext]
  have hstuck : Stuck l (s.move n (s.mem, .forceOwner)) := by
    constructor
    · rcases hinv.locked n hlock with hbit | hcommitting
      · exact hbit
      · rw [hmgr] at hcommitting
        cases hcommitting
    · intro k hk
      by_cases hkn : k = n
      · simp [HasLock, hkn] at hk
      · exact hkn (hinv.unique k n ((hasLock_move_of_ne hkn rfl).1 hk) hlock)
  have hfirst := loggedSystem_party hn hs
  rw [hstep] at hfirst
  -- the two stores that follow change nothing about what is on record
  refine ⟨_, _, loggedSystem_party hn (loggedSystem_party hn hfirst), ?_, fun hfrees => ?_⟩
  · simp [nodeStep]
  · refine hfrees.unstuck (s, s.move n (s.mem, .forceOwner)) ?_ hlock hstuck
    simp [recordAccess, mem_logAccess, nodeStep, hpc]

end Forced

/-- Node 1 has exchanged the tail and is slow to link itself behind node 0.  The release of
node 0 spins until its bound is reached and forces its way out: the lock word still says that
the lock is held, and nobody has it. -/
theorem forced_release_sticks : ¬ ∀ (size : SystemSize) (l : LockId) (s : State)
    (log : NodeId → List Access) (n : NodeId), (loggedSystem size l).Reachable (s, log) →
      releaseResult l n s.mem (s.pc n) = some .success → FreesOrPasses l n (log n) := by
  intro h
  obtain ⟨s, hs, hp⟩ := LabelledSystem.exists_of_exec (fun _ _ => True)
    (turns 0 9 ++ turns 1 6 ++ turns 0 4)
    (fun s => s.pc 0 == .spinNext 0 && (s.mem.node 0).nextNode == invalidNodeId &&
      s.mgr == .loadWord)
    (zeroedStart_init (.of 2 1) (l := 0) (by decide)) (by decide +kernel)
  simp only [Bool.and_eq_true, beq_iff_eq] at hp
  obtain ⟨⟨hpc, hnext⟩, hmgr⟩ := hp
  obtain ⟨t, ht, hmem, htmgr, htpc⟩ := spin_run (n := 0) (by decide) maxSpin hs hnext 0 hpc
    (by omega)
  rw [Nat.zero_add] at htpc
  have htnext : (t.mem.node 0).nextNode = invalidNodeId := hmem ▸ hnext
  have hturn : nodeStep 0 0 t.mem (t.pc 0) = (t.mem, .recheckNext) := by
    simp [htpc, nodeStep, htnext]
  have hlast : (machine (.of 2 1) 0).system.Reachable (t.move 0 (t.mem, .recheckNext)) := by
    apply ht.next (e := .party 0 ())
    simp [Machine.system, machine, hturn]
    decide
  obtain ⟨log, hlog⟩ := hlast.exists_history (fun _ => []) recordAccess
  obtain ⟨s', log', hs', hpc', hnot⟩ := forced_exit (n := 0) (by decide) hlog (by simp)
    (by simpa using htnext) (by simp [htmgr, hmgr])
  exact hnot (h (.of 2 1) 0 s' log' 0 hs' (by simp [hpc', releaseResult]))

end CxlLock.Qspinlock
