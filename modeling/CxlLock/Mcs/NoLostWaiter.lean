import CxlLock.Lib.LinkedQueue
import CxlLock.Mcs.ReleaseOwner

/-!
# Does the interleaved MCS lock lose a waiter?

When the last node leaves the queue, `release_lock` first takes itself out of the tail and
later stores an invalid head.  In between, the next node can join: it finds an invalid tail
and stores itself as head, and the late store then erases it.  From there on no
`check_grant` finds the waiter: `late_clear_loses_waiter`.

`ClearsOwnHead` says that this does not happen: when `release_lock` stores the invalid head,
the head is still the releasing node.  Runs that meet it never lose a waiter.  The proof
follows the queue as a list `q`:

* the tail is the last entry and the links lead from entry to entry, except that an entry
  which has swapped itself into the tail may still have its store to the predecessor's link
  ahead of it (`Linked`);
* the head is the first entry, except while the first entry has its store to the head still
  ahead of it, or passes the lock on and has moved the head already;
* only the first entry can have been handed the lock.

One exit of `release_lock` leaves this picture: a node that was granted the lock may enter and
release it before the manager has stored the owner.  The call returns `ERROR_NOT_OWNER`, and
then the lock has an owner for ever (`Abandoned`).
-/

namespace CxlLock.Mcs

open Transition LinkedQueue

namespace NodePc

/-- In `acquire_lock`, before the node has swapped itself into the tail. -/
@[simp] def preparing : NodePc → Bool
  | .storeLocked | .storeWaiting | .casTail _ | .loadTail => true
  | .idle | .storeHead | .linkPred _ | .pollLocked | .pollWaiting _ | .critical | .loadNext
  | .casTailEmpty | .clearHead | .clearOwner | .spinNext | .passHead _ | .passOwner _
  | .wake _ | .resetNext | .resetLocked | .resetWaiting => false

/-- The node has swapped itself into the tail and not left the queue. -/
@[simp] def queued : NodePc → Bool
  | .storeHead | .linkPred _ | .pollLocked | .pollWaiting _ | .critical | .loadNext
  | .casTailEmpty | .spinNext | .passHead _ | .passOwner _ | .wake _ => true
  | .idle | .storeLocked | .storeWaiting | .casTail _ | .loadTail | .clearHead | .clearOwner
  | .resetNext | .resetLocked | .resetWaiting => false

/-- The record of the node says that it waits for the lock. -/
@[simp] def marked : NodePc → Bool
  | .casTail _ | .loadTail | .storeHead | .linkPred _ | .pollLocked | .pollWaiting _
  | .critical | .loadNext | .casTailEmpty | .spinNext | .passHead _ | .passOwner _
  | .wake _ => true
  | .idle | .storeLocked | .storeWaiting | .clearHead | .clearOwner | .resetNext
  | .resetLocked | .resetWaiting => false

/-- The node waits and cannot have been found by anybody yet. -/
@[simp] def arriving : NodePc → Bool
  | .storeWaiting | .casTail _ | .loadTail | .storeHead | .linkPred _ => true
  | .idle | .storeLocked | .pollLocked | .pollWaiting _ | .critical | .loadNext
  | .casTailEmpty | .clearHead | .clearOwner | .spinNext | .passHead _ | .passOwner _
  | .wake _ | .resetNext | .resetLocked | .resetWaiting => false

/-- The successor the node is handing the lock to. -/
@[simp] def successor : NodePc → Option NodeId
  | .passHead succ | .passOwner succ | .wake succ => some succ
  | .idle | .storeLocked | .storeWaiting | .casTail _ | .loadTail | .storeHead | .linkPred _
  | .pollLocked | .pollWaiting _ | .critical | .loadNext | .casTailEmpty | .clearHead
  | .clearOwner | .spinNext | .resetNext | .resetLocked | .resetWaiting => none

/-- No access to the head, to another node's record or to the owner is next. -/
@[simp] def plain : NodePc → Bool
  | .storeHead | .linkPred _ | .clearHead | .passOwner _ | .wake _ => false
  | .idle | .storeLocked | .storeWaiting | .casTail _ | .loadTail | .pollLocked
  | .pollWaiting _ | .critical | .loadNext | .casTailEmpty | .clearOwner | .spinNext
  | .passHead _ | .resetNext | .resetLocked | .resetWaiting => true

/-- What `head_node` is when the first node of the queue is `n`. -/
@[simp] def headOf (n : NodeId) : NodePc → NodeId
  | .passOwner succ | .wake succ => succ
  | _ => n

/-- A node that does not have the lock is its own head. -/
lemma headOf_of_not_holding {pc : NodePc} (h : pc.holding = false) (n : NodeId) :
    pc.headOf n = n := by
  cases pc with
  | passOwner succ | wake succ => simp at h
  | _ => rfl

/-- A queued node with all its stores made has arrived. -/
lemma arriving_of_queued {pc : NodePc} (hqueued : pc.queued = true) (hhead : pc ≠ .storeHead)
    (hlink : ∀ a, pc ≠ .linkPred a) : pc.arriving = false := by
  cases pc with
  | storeHead => exact absurd rfl hhead
  | linkPred a => exact absurd rfl (hlink a)
  | storeWaiting | casTail | loadTail => simp at hqueued
  | _ => rfl

/-- A node that prepares to join is not queued. -/
lemma queued_of_preparing {pc : NodePc} (h : pc.preparing = true) : pc.queued = false := by
  cases pc with
  | storeLocked | storeWaiting | casTail | loadTail => rfl
  | _ => simp at h

end NodePc

/-- No call is in progress. -/
def Quiescent (s : State) : Prop :=
  (∀ n, s.pc n = .idle ∨ s.pc n = .pollLocked ∨ (∃ v, s.pc n = .pollWaiting v) ∨
    s.pc n = .critical) ∧ s.mgr = .loadOwner

/-- The record of the node says that it waits for `l`. -/
def Waiting (l : LockId) (s : State) (n : NodeId) : Prop :=
  (s.mem.shm.node n).locked = 1 ∧ (s.mem.shm.node n).waitingLock = l

/-- If the lock is free and some node waits for it, then the head is the waiting node that
joined first, and `check_grant` returns it. -/
def WaiterFound (size : SystemSize) (l : LockId) (s : State) : Prop :=
  (s.mem.shm.entry l).ownerNode = invalidNodeId → (∃ n, n < size.nodeCount ∧ Waiting l s n) →
    Waiting l s (s.mem.shm.entry l).headNode ∧
      (∀ m, m < size.nodeCount → Waiting l s m → m ≠ (s.mem.shm.entry l).headNode →
        s.mem.joinedAt (s.mem.shm.entry l).headNode < s.mem.joinedAt m) ∧
      checkGrant size.nodeCount l s.mem.shm = (s.mem.shm.entry l).headNode

/-- The condition on a step: a store of the invalid head by `release_lock` erases no head but
the releasing node itself. -/
def ClearsOwnHead (l : LockId) (s : State) : Turn NodeId Unit → Prop
  | .party n _ => s.pc n = .clearHead → (s.mem.shm.entry l).headNode = n
  | .manager => True

instance (l : LockId) (s : State) (n : NodeId) : Decidable (Waiting l s n) :=
  inferInstanceAs (Decidable (_ ∧ _))

instance (l : LockId) (s : State) : ∀ e, Decidable (ClearsOwnHead l s e)
  | .party n _ =>
      inferInstanceAs (Decidable (s.pc n = .clearHead → (s.mem.shm.entry l).headNode = n))
  | .manager => .isTrue trivial

/-! ## The invariant -/

/-- `b` is linked behind `a`, or is about to store that link. -/
def Linked (s : State) (a b : NodeId) : Prop :=
  (s.mem.shm.node a).nextNode = b ∧ (∀ c, s.pc b ≠ .linkPred c) ∨
    (s.mem.shm.node a).nextNode = invalidNodeId ∧ s.pc b = .linkPred a

/-- Members, tail and links of the queue. -/
structure Links (l : LockId) (s : State) (V : View NodeId) : Prop where
  mem_iff : ∀ n, V.mem n ↔ (s.pc n).queued = true
  tail : (s.mem.shm.entry l).tailNode = V.back.getD invalidNodeId
  linked : ∀ a b, V.follows a b → Linked s a b
  last : ∀ z, V.back = some z → (s.mem.shm.node z).nextNode = invalidNodeId
  prepared : ∀ n, (s.pc n).preparing = true → (s.mem.shm.node n).nextNode = invalidNodeId
  successor : ∀ n succ, (s.pc n).successor = some succ →
    (s.mem.shm.node n).nextNode = succ ∧ succ ≠ invalidNodeId
  front : ∀ f, V.front = some f → ∀ a, s.pc f ≠ .linkPred a
  first : ∀ n, s.pc n = .storeHead → V.front = some n

/-- The head of the queue. -/
structure Head (l : LockId) (s : State) (V : View NodeId) : Prop where
  head : ∀ f, V.front = some f → s.pc f ≠ .storeHead →
    (s.mem.shm.entry l).headNode = (s.pc f).headOf f
  noHead : (∀ f, V.front = some f → s.pc f = .storeHead) →
    (s.mem.shm.entry l).headNode = invalidNodeId ∨ ∃ n, s.pc n = .clearHead

/-- What the record of a node says about it. -/
structure Marks (size : SystemSize) (l : LockId) (s : State) : Prop where
  marked : ∀ n, (s.pc n).marked = true → (s.mem.shm.node n).waitingLock = l
  arriving : ∀ n, (s.pc n).arriving = true → (s.mem.shm.node n).locked = 1
  outside : ∀ n, n < size.nodeCount → s.pc n = .idle ∨ s.pc n = .resetWaiting →
    (s.mem.shm.node n).locked ≠ 1

/-- Who can have the lock, and who is going to get it from the manager. -/
structure Grants (l : LockId) (s : State) (V : View NodeId) : Prop where
  token : ∀ n, HasLock s n → V.front = some n
  owner : ∀ n, HasLock s n → (∀ succ, s.pc n ≠ .wake succ) →
    (s.mem.shm.entry l).ownerNode = n ∨ s.mgr = .grantOwner n
  waking : ∀ n succ, s.pc n = .wake succ → (s.mem.shm.entry l).ownerNode = succ
  candidate : s.mgr.deciding = true → ∀ h, s.mgr.candidate = some h →
    V.front = some h ∧ s.pc h ≠ .storeHead

/-- The records represent a queue with the given view. -/
structure Represents (size : SystemSize) (l : LockId) (s : State) (V : View NodeId) : Prop where
  links : Links l s V
  head : Head l s V
  marks : Marks size l s
  grants : Grants l s V

/-- The lock was released before the manager had stored its owner: nobody has it, and it has
an owner for ever. -/
structure Abandoned (l : LockId) (s : State) : Prop where
  free : ∀ n, ¬ HasLock s n
  noEmptying : ∀ n, (s.pc n).emptying = false
  stuck : (∃ m, s.mgr = .grantOwner m) ∨
    s.mgr = .loadOwner ∧ (s.mem.shm.entry l).ownerNode ≠ invalidNodeId

/-! ## Accesses that keep the queue -/

section Keep

variable {size : SystemSize} {l : LockId} {s : State} {n : NodeId} {V : View NodeId}
  {r : Memory × NodePc}

/-- An access of `n` that stores to no link of a queued node. -/
structure KeepsLinks (l : LockId) (s : State) (n : NodeId) (r : Memory × NodePc) : Prop where
  tail : (r.1.shm.entry l).tailNode = (s.mem.shm.entry l).tailNode
  others : ∀ k, k ≠ n → (r.1.shm.node k).nextNode = (s.mem.shm.node k).nextNode
  queued : r.2.queued = (s.pc n).queued
  next : (s.pc n).queued = true → (r.1.shm.node n).nextNode = (s.mem.shm.node n).nextNode
  prepared : r.2.preparing = true → (r.1.shm.node n).nextNode = invalidNodeId
  successor : ∀ succ, r.2.successor = some succ →
    (r.1.shm.node n).nextNode = succ ∧ succ ≠ invalidNodeId
  before : ∀ a, s.pc n ≠ .linkPred a
  after : r.2 ≠ .storeHead ∧ ∀ a, r.2 ≠ .linkPred a

/-- An access of `n` that does not store to the head. -/
structure KeepsHead (l : LockId) (s : State) (n : NodeId) (r : Memory × NodePc) : Prop where
  head : (r.1.shm.entry l).headNode = (s.mem.shm.entry l).headNode
  headOf : r.2.headOf n = (s.pc n).headOf n
  before : s.pc n ≠ .storeHead ∧ s.pc n ≠ .clearHead
  after : r.2 ≠ .storeHead

/-- An access of `n` that keeps the marks of all other nodes. -/
structure KeepsMarks (l : LockId) (s : State) (n : NodeId) (r : Memory × NodePc) : Prop where
  others : ∀ k, k ≠ n → (r.1.shm.node k).locked = (s.mem.shm.node k).locked ∧
    (r.1.shm.node k).waitingLock = (s.mem.shm.node k).waitingLock
  marked : r.2.marked = true → (r.1.shm.node n).waitingLock = l
  arriving : r.2.arriving = true → (r.1.shm.node n).locked = 1
  outside : r.2 = .idle ∨ r.2 = .resetWaiting → (r.1.shm.node n).locked ≠ 1

/-- An access of `n` that gives the lock to nobody. -/
structure KeepsGrants (l : LockId) (s : State) (n : NodeId) (r : Memory × NodePc) : Prop where
  owner : (r.1.shm.entry l).ownerNode = (s.mem.shm.entry l).ownerNode
  token : ∀ k, HasLock (s.move n r) k → HasLock s k
  before : ∀ succ, s.pc n ≠ .wake succ
  after : r.2 ≠ .storeHead ∧ ∀ succ, r.2 ≠ .wake succ

lemma Links.keep (h : Links l s V) (hV : V.Wf) (hr : KeepsLinks l s n r) :
    Links l (s.move n r) V := by
  -- the links of queued nodes, and who is about to store one, are as before
  have hnext : ∀ k, V.mem k → (r.1.shm.node k).nextNode = (s.mem.shm.node k).nextNode := by
    intro k hk
    by_cases hkn : k = n
    · subst hkn
      exact hr.next ((h.mem_iff k).1 hk)
    · exact hr.others k hkn
  have hlink : ∀ k a, (s.move n r).pc k = .linkPred a ↔ s.pc k = .linkPred a := by
    intro k a
    rw [Config.move_pc]
    split_ifs with hkn
    · exact iff_of_false (hr.after.2 a) (hkn ▸ hr.before a)
    · rfl
  constructor
  · intro k
    rw [h.mem_iff, Config.move_pc]
    split_ifs with hkn
    · rw [hr.queued, hkn]
    · rfl
  · exact hr.tail.trans h.tail
  · intro a b hab
    simp only [Linked, Config.move_mem, hnext a (hV.follows_mem a b hab).1, ne_eq, hlink]
    exact h.linked a b hab
  · intro z hz
    exact (hnext z (hV.back_mem z hz)).trans (h.last z hz)
  · intro k hk
    by_cases hkn : k = n
    · subst hkn
      exact hr.prepared (by rwa [Config.move_pc, if_pos rfl] at hk)
    · rw [Config.move_pc, if_neg hkn] at hk
      exact (hr.others k hkn).trans (h.prepared k hk)
  · intro k succ hk
    by_cases hkn : k = n
    · subst hkn
      exact hr.successor succ (by rwa [Config.move_pc, if_pos rfl] at hk)
    · rw [Config.move_pc, if_neg hkn] at hk
      rw [Config.move_mem, hr.others k hkn]
      exact h.successor k succ hk
  · intro f hf a
    rw [ne_eq, hlink]
    exact h.front f hf a
  · intro k hk
    exact h.first k (Config.of_move_pc (fun pc : NodePc => pc = .storeHead) hr.after.1 hk).2

lemma Head.keep (h : Head l s V) (hr : KeepsHead l s n r) : Head l (s.move n r) V := by
  have hstore : ∀ k, (s.move n r).pc k = .storeHead ↔ s.pc k = .storeHead := by
    intro k
    rw [Config.move_pc]
    split_ifs with hkn
    · exact iff_of_false hr.after (hkn ▸ hr.before.1)
    · rfl
  constructor
  · intro f hf hpc
    rw [Config.move_mem, hr.head, h.head f hf (fun hpc' => hpc ((hstore f).2 hpc')),
      Config.move_pc]
    split_ifs with hfn
    · rw [hfn, hr.headOf]
    · rfl
  · intro hall
    rcases h.noHead (fun f hf => (hstore f).1 (hall f hf)) with hnone | ⟨k, hk⟩
    · exact .inl (hr.head.trans hnone)
    · refine .inr ⟨k, ?_⟩
      rw [Config.move_pc, if_neg, hk]
      rintro rfl
      exact hr.before.2 hk

lemma Marks.keep (h : Marks size l s) (hr : KeepsMarks l s n r) :
    Marks size l (s.move n r) := by
  constructor
  · intro k hk
    by_cases hkn : k = n
    · subst hkn
      exact hr.marked (by rwa [Config.move_pc, if_pos rfl] at hk)
    · rw [Config.move_pc, if_neg hkn] at hk
      exact (hr.others k hkn).2.trans (h.marked k hk)
  · intro k hk
    by_cases hkn : k = n
    · subst hkn
      exact hr.arriving (by rwa [Config.move_pc, if_pos rfl] at hk)
    · rw [Config.move_pc, if_neg hkn] at hk
      exact (hr.others k hkn).1.trans (h.arriving k hk)
  · intro k hk hpc
    by_cases hkn : k = n
    · subst hkn
      exact hr.outside (by rwa [Config.move_pc, if_pos rfl] at hpc)
    · rw [Config.move_pc, if_neg hkn] at hpc
      rw [Config.move_mem, (hr.others k hkn).1]
      exact h.outside k hk hpc

lemma Grants.granted (h : Grants l s V) : Granted l s := ⟨h.owner, h.waking⟩

lemma Grants.keep (h : Grants l s V) (hr : KeepsGrants l s n r) : Grants l (s.move n r) V := by
  have hgranted := h.granted.keep hr.owner hr.token hr.before hr.after.2
  refine ⟨fun k hk => h.token k (hr.token k hk), hgranted.owner, hgranted.waking,
    fun hdec f hf => ?_⟩
  obtain ⟨hfront, hpc⟩ := h.candidate hdec f hf
  refine ⟨hfront, fun hstore => hpc ?_⟩
  exact (Config.of_move_pc (fun pc : NodePc => pc = .storeHead) hr.after.1 hstore).2

/-- Who the owner is after an access does not depend on the queue. -/
lemma Grants.node (hI : Inv size l s) (h : Grants l s V) {V' : View NodeId}
    (htoken : ∀ k, HasLock (s.move n (nodeStep l n s.mem (s.pc n))) k → V'.front = some k)
    (hcandidate : s.mgr.deciding = true → ∀ g, s.mgr.candidate = some g →
      V'.front = some g ∧ (s.move n (nodeStep l n s.mem (s.pc n))).pc g ≠ .storeHead) :
    Grants l (s.move n (nodeStep l n s.mem (s.pc n))) V' := by
  have hgranted := h.granted.node (n := n) hI
  exact ⟨htoken, hgranted.owner, hgranted.waking, hcandidate⟩

/-- A node outside the queue is not its tail. -/
lemma Links.tail_ne (hV : V.Wf) (h : Links l s V) (hn : n < size.nodeCount)
    (hout : (s.pc n).queued = false) : (s.mem.shm.entry l).tailNode ≠ n := by
  have hni := size.node_ne_invalid hn
  rw [h.tail]
  cases hback : V.back with
  | none => exact fun h => hni h.symm
  | some z =>
      rintro rfl
      have := (h.mem_iff z).1 (hV.back_mem z hback)
      simp_all

/-- A node stores the lock id only to its own record. -/
lemma nodeStep_waitingLock {m : Memory} {pc : NodePc} {k : NodeId} (hk : k ≠ n) :
    ((nodeStep l n m pc).1.shm.node k).waitingLock = (m.shm.node k).waitingLock := by
  cases pc with
  | casTail | loadTail | pollWaiting | critical | loadNext | casTailEmpty | spinNext =>
      simp only [nodeStep]
      split_ifs <;> simp
  | _ => simp [nodeStep, hk]

/-- The record of a marked node says that it waits for the lock. -/
lemma nodeStep_marked (h : Marks size l s)
    (hn : (nodeStep l n s.mem (s.pc n)).2.marked = true) :
    ((nodeStep l n s.mem (s.pc n)).1.shm.node n).waitingLock = l := by
  have hmarked := h.marked n
  cases hpc : s.pc n with
  | casTail | loadTail | pollWaiting | critical | loadNext | casTailEmpty | spinNext =>
      simp only [nodeStep, hpc] at hn hmarked ⊢
      split_ifs at hn ⊢ <;> simp_all
  | _ => simp_all [nodeStep]

/-- An arriving node has stored that it waits. -/
lemma nodeStep_arriving (h : Marks size l s)
    (hn : (nodeStep l n s.mem (s.pc n)).2.arriving = true) :
    ((nodeStep l n s.mem (s.pc n)).1.shm.node n).locked = 1 := by
  have harriving := h.arriving n
  cases hpc : s.pc n with
  | casTail | loadTail | pollWaiting | critical | loadNext | casTailEmpty | spinNext =>
      simp only [nodeStep, hpc] at hn harriving ⊢
      split_ifs at hn ⊢ <;> simp_all
  | _ => simp_all [nodeStep]

/-- A node that leaves has reset its mark. -/
lemma nodeStep_outside (h : Marks size l s) (hlt : n < size.nodeCount)
    (howner : s.pc n = .critical → (s.mem.shm.entry l).ownerNode = n)
    (hn : (nodeStep l n s.mem (s.pc n)).2 = .idle ∨
      (nodeStep l n s.mem (s.pc n)).2 = .resetWaiting) :
    ((nodeStep l n s.mem (s.pc n)).1.shm.node n).locked ≠ 1 := by
  have houtside := h.outside n hlt
  cases hpc : s.pc n with
  | critical => simp [nodeStep, hpc, howner hpc] at hn
  | casTail | loadTail | pollWaiting | loadNext | casTailEmpty | spinNext =>
      simp only [nodeStep, hpc] at hn
      split_ifs at hn <;> simp at hn
  | _ => simp_all [nodeStep]

/-- What a node does to its own record says the right thing about it. -/
lemma nodeStep_marks (h : Marks size l s) (hn : n < size.nodeCount)
    (hpc : ∀ succ, s.pc n ≠ .wake succ)
    (howner : s.pc n = .critical → (s.mem.shm.entry l).ownerNode = n) :
    KeepsMarks l s n (nodeStep l n s.mem (s.pc n)) where
  others _ hk := ⟨nodeStep_locked hpc hk, nodeStep_waitingLock hk⟩
  marked := nodeStep_marked h
  arriving := nodeStep_arriving h
  outside := nodeStep_outside h hn howner

/-- The accesses that change which nodes are queued: the exchange of the tail, the return of
`ERROR_NOT_OWNER`, and leaving the queue on either exit. -/
def Reshapes (l : LockId) (s : State) (n : NodeId) : Prop :=
  match s.pc n with
  | .casTail oldTail => (s.mem.shm.entry l).tailNode = oldTail
  | .critical => (s.mem.shm.entry l).ownerNode ≠ n
  | .casTailEmpty => (s.mem.shm.entry l).tailNode = n
  | .wake _ => True
  | _ => False

/-- Only joining and leaving store the tail. -/
lemma nodeStep_tailNode (hshape : ¬ Reshapes l s n) :
    ((nodeStep l n s.mem (s.pc n)).1.shm.entry l).tailNode = (s.mem.shm.entry l).tailNode := by
  cases hpc : s.pc n with
  | casTail oldTail =>
      have hne : (s.mem.shm.entry l).tailNode ≠ oldTail := by simpa [Reshapes, hpc] using hshape
      simp [nodeStep, hne]
  | casTailEmpty =>
      have hne : (s.mem.shm.entry l).tailNode ≠ n := by simpa [Reshapes, hpc] using hshape
      simp [nodeStep, hne]
  | loadTail | pollWaiting | critical | loadNext | spinNext =>
      simp only [nodeStep]
      split_ifs <;> rfl
  | _ => simp [nodeStep]

/-- Only linking itself behind its predecessor is a store of a node to the link of another. -/
lemma nodeStep_nextNode {m : Memory} {pc : NodePc} (hlink : ∀ a, pc ≠ .linkPred a) {k : NodeId}
    (hk : k ≠ n) :
    ((nodeStep l n m pc).1.shm.node k).nextNode = (m.shm.node k).nextNode := by
  cases pc with
  | linkPred a => exact absurd rfl (hlink a)
  | casTail | loadTail | pollWaiting | critical | loadNext | casTailEmpty | spinNext =>
      simp only [nodeStep]
      split_ifs <;> simp
  | _ => simp [nodeStep, hk]

/-- Without a change of shape a node is in the queue afterwards as before, and if it is, its
own link stays as it is. -/
lemma nodeStep_queued (hshape : ¬ Reshapes l s n)
    (htail : (s.pc n).queued = false → (s.mem.shm.entry l).tailNode ≠ n)
    (hlink : ∀ a, s.pc n ≠ .linkPred a) :
    (nodeStep l n s.mem (s.pc n)).2.queued = (s.pc n).queued ∧
      ((s.pc n).queued = true →
        ((nodeStep l n s.mem (s.pc n)).1.shm.node n).nextNode = (s.mem.shm.node n).nextNode) := by
  cases hpc : s.pc n with
  | linkPred a => exact absurd hpc (hlink a)
  | wake succ => exact absurd (by simp [Reshapes, hpc]) hshape
  | loadTail => simp [nodeStep, htail (by simp [hpc])]
  | casTail | pollWaiting | critical | loadNext | casTailEmpty | spinNext =>
      simp only [nodeStep]
      split_ifs <;> simp_all [Reshapes]
  | _ => simp [nodeStep]

/-- Before it joins, a node has reset its link. -/
lemma nodeStep_preparing (h : Links l s V)
    (hn : (nodeStep l n s.mem (s.pc n)).2.preparing = true) :
    ((nodeStep l n s.mem (s.pc n)).1.shm.node n).nextNode = invalidNodeId := by
  have hprep := h.prepared n
  cases hpc : s.pc n with
  | casTail | loadTail | pollWaiting | critical | loadNext | casTailEmpty | spinNext =>
      simp only [nodeStep, hpc] at hn hprep ⊢
      split_ifs at hn ⊢ <;> simp_all
  | _ => simp_all [nodeStep]

/-- The successor of a node that hands over is the one it is linked to. -/
lemma nodeStep_handsOver (h : Links l s V) {succ : NodeId}
    (hn : (nodeStep l n s.mem (s.pc n)).2.successor = some succ) :
    ((nodeStep l n s.mem (s.pc n)).1.shm.node n).nextNode = succ ∧ succ ≠ invalidNodeId := by
  cases hpc : s.pc n with
  | passHead next | passOwner next =>
      obtain rfl : next = succ := by simpa [nodeStep, hpc] using hn
      simpa [nodeStep] using h.successor n next (by simp [hpc])
  | loadNext | spinNext =>
      simp only [nodeStep, hpc] at hn ⊢
      split_ifs at hn ⊢ with hnext
      · simp at hn
      · obtain rfl : (s.mem.shm.node n).nextNode = succ := by simpa using hn
        exact ⟨rfl, hnext⟩
  | casTail | loadTail | pollWaiting | critical | casTailEmpty =>
      simp only [nodeStep, hpc] at hn
      split_ifs at hn <;> simp at hn
  | _ => simp [nodeStep, hpc] at hn

/-- Only joining is followed by a store to the head or to the predecessor's link. -/
lemma nodeStep_joined (hshape : ¬ Reshapes l s n)
    (htail : (s.pc n).queued = false → (s.mem.shm.entry l).tailNode ≠ n) :
    (nodeStep l n s.mem (s.pc n)).2 ≠ .storeHead ∧
      ∀ a, (nodeStep l n s.mem (s.pc n)).2 ≠ .linkPred a := by
  cases hpc : s.pc n with
  | casTail oldTail =>
      have hne : (s.mem.shm.entry l).tailNode ≠ oldTail := by simpa [Reshapes, hpc] using hshape
      simp [nodeStep, hne]
  | loadTail => simp [nodeStep, htail (by simp [hpc])]
  | pollWaiting | critical | loadNext | casTailEmpty | spinNext =>
      simp only [nodeStep]
      split_ifs <;> simp
  | _ => simp [nodeStep]

lemma nodeStep_links (h : Links l s V) (hV : V.Wf) (hn : n < size.nodeCount)
    (hshape : ¬ Reshapes l s n) (hlink : ∀ a, s.pc n ≠ .linkPred a) :
    KeepsLinks l s n (nodeStep l n s.mem (s.pc n)) := by
  have htail := h.tail_ne hV hn
  obtain ⟨hqueued, hnext⟩ := nodeStep_queued hshape htail hlink
  exact ⟨nodeStep_tailNode hshape, fun k hk => nodeStep_nextNode hlink hk, hqueued, hnext,
    nodeStep_preparing h, fun succ => nodeStep_handsOver h, hlink, nodeStep_joined hshape htail⟩

lemma nodeStep_head (hshape : ¬ Reshapes l s n)
    (hhead : s.pc n ≠ .storeHead ∧ s.pc n ≠ .clearHead ∧ ∀ succ, s.pc n ≠ .passHead succ) :
    KeepsHead l s n (nodeStep l n s.mem (s.pc n)) := by
  obtain ⟨hstore, hclear, hpass⟩ := hhead
  cases hpc : s.pc n with
  | storeHead => exact absurd hpc hstore
  | clearHead => exact absurd hpc hclear
  | passHead succ => exact absurd hpc (hpass succ)
  | wake succ => exact absurd (by simp [Reshapes, hpc]) hshape
  | casTail oldTail =>
      have hne : (s.mem.shm.entry l).tailNode ≠ oldTail := by simpa [Reshapes, hpc] using hshape
      constructor <;> simp [nodeStep, hpc, hne]
  | loadTail | pollWaiting | critical | loadNext | casTailEmpty | spinNext =>
      simp only [nodeStep]
      split_ifs <;> constructor <;> simp [hpc]
  | _ => constructor <;> simp [nodeStep, hpc]

lemma nodeStep_grants (h : Inv size l s) (hshape : ¬ Reshapes l s n)
    (howner : s.pc n ≠ .clearOwner ∧ ∀ succ, s.pc n ≠ .passOwner succ) :
    KeepsGrants l s n (nodeStep l n s.mem (s.pc n)) := by
  have hawake : ∀ succ, s.pc n ≠ .wake succ := fun succ hpc => hshape (by simp [Reshapes, hpc])
  have hq := nodeStep_quiet h howner.1 howner.2 hawake
  refine ⟨hq.owner, fun k hk => hq.hasLock hk, hawake, ?_, by simpa using hq.waking⟩
  cases hpc : s.pc n with
  | casTail oldTail =>
      have hne : (s.mem.shm.entry l).tailNode ≠ oldTail := by simpa [Reshapes, hpc] using hshape
      simp [nodeStep, hne]
  | loadTail | pollWaiting | critical | loadNext | casTailEmpty | spinNext =>
      simp only [nodeStep]
      split_ifs <;> simp
  | _ => simp [nodeStep]

/-- The store of the link behind the predecessor. -/
lemma Links.linkPred (h : Links l s V) (hV : V.Wf) {a : NodeId} (hpc : s.pc n = .linkPred a) :
    Links l (s.move n (nodeStep l n s.mem (s.pc n))) V := by
  -- the predecessor is right before `n`, and its link is still open
  obtain ⟨han, hopen⟩ : V.follows a n ∧ (s.mem.shm.node a).nextNode = invalidNodeId := by
    rcases hV.exists_left n ((h.mem_iff n).2 (by simp [hpc])) with hfront | ⟨b, hb⟩
    · exact absurd hpc (h.front n hfront a)
    · rcases h.linked b n hb with ⟨-, hno⟩ | ⟨hnone, hb'⟩
      · exact absurd hpc (hno a)
      · obtain rfl : b = a := by simpa [hpc] using hb'.symm
        exact ⟨hb, hnone⟩
  have hqueued := (h.mem_iff a).1 (hV.follows_mem a n han).1
  rw [hpc]
  have hnext : ∀ k, k ≠ a → ((nodeStep l n s.mem (.linkPred a)).1.shm.node k).nextNode =
      (s.mem.shm.node k).nextNode := fun k hk => by simp [nodeStep, hk]
  constructor
  · intro k
    rw [h.mem_iff, Config.move_pc]
    split_ifs with hkn
    · simp [nodeStep, hkn, hpc]
    · rfl
  · simpa [nodeStep] using h.tail
  · intro x y hxy
    by_cases hxa : x = a
    · -- the link that is stored now
      subst hxa
      obtain rfl : n = y := hV.right_unique x n y han hxy
      exact .inl (by simp [nodeStep])
    · have hyn : y ≠ n := by
        rintro rfl
        exact hxa (hV.left_unique a y x han hxy).symm
      rw [Linked, Config.move_mem, hnext x hxa, Config.move_pc, if_neg hyn]
      exact h.linked x y hxy
  · intro z hz
    have hza : z ≠ a := by
      rintro rfl
      exact hV.ne_back z n han hz
    exact (hnext z hza).trans (h.last z hz)
  · intro k hk
    obtain ⟨-, hprep⟩ := Config.of_move_pc (fun pc : NodePc => pc.preparing = true)
      (by simp [nodeStep]) hk
    have hka : k ≠ a := by
      rintro rfl
      rw [NodePc.queued_of_preparing hprep] at hqueued
      cases hqueued
    exact (hnext k hka).trans (h.prepared k hprep)
  · intro k succ hk
    obtain ⟨-, hk⟩ := Config.of_move_pc (fun pc : NodePc => pc.successor = some succ)
      (by simp [nodeStep]) hk
    obtain ⟨hsucc, hvalid⟩ := h.successor k succ hk
    have hka : k ≠ a := by
      rintro rfl
      exact hvalid (hsucc.symm.trans hopen)
    exact ⟨(hnext k hka).trans hsucc, hvalid⟩
  · intro f hf b
    rw [Config.move_pc]
    split_ifs with hfn
    · simp [nodeStep]
    · exact h.front f hf b
  · intro k hk
    exact h.first k (Config.of_move_pc (fun pc : NodePc => pc = .storeHead)
      (by simp [nodeStep]) hk).2

/-- The first node of the queue stores the head. -/
lemma Head.of_front (hfront : V.front = some n)
    (hhead : (r.1.shm.entry l).headNode = r.2.headOf n) (hpc : r.2 ≠ .storeHead) :
    Head l (s.move n r) V := by
  constructor
  · intro f hf _
    obtain rfl : n = f := Option.some.inj (hfront.symm.trans hf)
    rw [Config.move_mem, Config.move_pc, if_pos rfl, hhead]
  · intro hall
    have hn := hall n hfront
    rw [Config.move_pc, if_pos rfl] at hn
    exact absurd hn hpc

lemma holding_eq_false {k : NodeId} (hk : ¬ HasLock s k) : (s.pc k).holding = false :=
  Bool.eq_false_iff.2 fun hholding => hk (.inl hholding)

/-- When a node that has left the queue still finds itself in the head, no later node has stored
the head yet. -/
lemma Represents.storeHead_of_clearHead (h : Inv size l s) (hV : V.Wf)
    (hR : Represents size l s V) (hpc : s.pc n = .clearHead)
    (hok : (s.mem.shm.entry l).headNode = n) (f : NodeId) (hf : V.front = some f) :
    s.pc f = .storeHead := by
  have hfree := h.emptying n (by simp [hpc])
  have hqueued := (hR.links.mem_iff f).1 (hV.front_mem f hf)
  by_contra hpc'
  have hhead := hR.head.head f hf hpc'
  rw [NodePc.headOf_of_not_holding (holding_eq_false (hfree f))] at hhead
  obtain rfl : f = n := hhead.symm.trans hok
  simp [hpc] at hqueued

/-- A node that has left the queue erases the head while nobody has stored another. -/
lemma Head.clear (hpc : s.pc n = .clearHead)
    (hok : ∀ f, V.front = some f → s.pc f = .storeHead) :
    Head l (s.move n (nodeStep l n s.mem .clearHead)) V := by
  constructor
  · intro f hf hpc'
    have hfn : f ≠ n := by
      rintro rfl
      simpa [hpc] using hok f hf
    rw [Config.move_pc, if_neg hfn] at hpc'
    exact absurd (hok f hf) hpc'
  · exact fun _ => .inl (by simp [nodeStep])

/-- The stores to the head. -/
lemma Head.store (hR : Represents size l s V)
    (hpc : s.pc n = .storeHead ∨ s.pc n = .clearHead ∨ ∃ succ, s.pc n = .passHead succ)
    (hok : s.pc n = .clearHead → ∀ f, V.front = some f → s.pc f = .storeHead) :
    Head l (s.move n (nodeStep l n s.mem (s.pc n))) V := by
  rcases hpc with hpc | hpc | ⟨succ, hpc⟩
  · have hfront := hR.links.first n hpc
    rw [hpc]
    exact .of_front hfront (by simp [nodeStep]) (by simp [nodeStep])
  · rw [hpc]
    exact Head.clear hpc (hok hpc)
  · have hfront := hR.grants.token n (.inl (by simp [hpc]))
    rw [hpc]
    exact .of_front hfront (by simp [nodeStep]) (by simp [nodeStep])

/-- The stores to the owner by a node. -/
lemma Grants.store (hI : Inv size l s) (h : Grants l s V)
    (hpc : s.pc n = .clearOwner ∨ ∃ succ, s.pc n = .passOwner succ) :
    Grants l (s.move n (nodeStep l n s.mem (s.pc n))) V := by
  have howning : (s.pc n).owning = true := by
    rcases hpc with hpc | ⟨succ, hpc⟩ <;> simp [hpc]
  refine h.node hI (fun k hk => ?_) fun hdec =>
    absurd (hI.deciding hdec).1 (hI.owner_ne_invalid howning)
  rcases hpc with hpc | ⟨succ, hpc⟩ <;> rw [hpc] at hk
  · exact absurd hk (hI.not_hasLock_clearOwner hpc k)
  · exact h.token k (Inv.hasLock_passOwner hpc hk)

/-- An access that does not reshape the queue keeps its representation. -/
lemma Represents.keep (h : Inv size l s) (hV : V.Wf) (hR : Represents size l s V)
    (hn : n < size.nodeCount) (hshape : ¬ Reshapes l s n)
    (hok : s.pc n = .clearHead → ∀ f, V.front = some f → s.pc f = .storeHead) :
    Represents size l (s.move n (nodeStep l n s.mem (s.pc n))) V where
  links := by
    by_cases hpc : ∃ a, s.pc n = .linkPred a
    · obtain ⟨a, hpc⟩ := hpc
      exact hR.links.linkPred hV hpc
    · exact hR.links.keep hV (nodeStep_links hR.links hV hn hshape (not_exists.1 hpc))
  head := by
    by_cases hpc : s.pc n = .storeHead ∨ s.pc n = .clearHead ∨ ∃ succ, s.pc n = .passHead succ
    · exact Head.store hR hpc hok
    · simp only [not_or, not_exists] at hpc
      exact hR.head.keep (nodeStep_head hshape hpc)
  marks := hR.marks.keep (nodeStep_marks hR.marks hn
    (fun succ hpc => hshape (by simp [Reshapes, hpc]))
    fun hpc => by simpa [Reshapes, hpc] using hshape)
  grants := by
    by_cases hpc : s.pc n = .clearOwner ∨ ∃ succ, s.pc n = .passOwner succ
    · exact hR.grants.store h hpc
    · simp only [not_or, not_exists] at hpc
      exact hR.grants.keep (nodeStep_grants h hshape hpc)

end Keep

/-! ## Accesses that change the queue -/

/-- The entries of `q` are different and in the order in which they joined. -/
structure Ordered (m : Memory) (q : List NodeId) : Prop where
  nodup : q.Nodup
  order : q.Pairwise fun a b => m.joinedAt a < m.joinedAt b
  joined : ∀ n ∈ q, m.joinedAt n < m.joins

section Reshape

variable {size : SystemSize} {l : LockId} {s : State} {n : NodeId} {q : List NodeId}

/-- Only joining the queue changes the record of the joins. -/
lemma nodeStep_joins (hpc : s.pc n ≠ .casTail (s.mem.shm.entry l).tailNode) :
    (nodeStep l n s.mem (s.pc n)).1.joins = s.mem.joins ∧
      (nodeStep l n s.mem (s.pc n)).1.joinedAt = s.mem.joinedAt := by
  cases hpc' : s.pc n <;> simp only [nodeStep] <;> (try split_ifs) <;> simp_all

lemma Ordered.keep (h : Ordered s.mem q)
    (hpc : s.pc n ≠ .casTail (s.mem.shm.entry l).tailNode) :
    Ordered (nodeStep l n s.mem (s.pc n)).1 q := by
  obtain ⟨hjoins, hjoinedAt⟩ := nodeStep_joins hpc
  refine ⟨h.nodup, ?_, ?_⟩
  · simpa [hjoinedAt] using h.order
  · simpa [hjoins, hjoinedAt] using h.joined

lemma Ordered.concat (h : Ordered s.mem q) (hn : n ∉ q) (shm : McsShm) :
    Ordered ⟨shm, s.mem.joins + 1, Function.update s.mem.joinedAt n s.mem.joins⟩
      (q ++ [n]) := by
  have hold : ∀ k ∈ q, Function.update s.mem.joinedAt n s.mem.joins k = s.mem.joinedAt k :=
    fun k hk => Function.update_of_ne (by rintro rfl; exact hn hk) _ _
  have hdisjoint : ∀ a ∈ q, ∀ b ∈ [n], a ≠ b := by
    rintro a ha b hb rfl
    exact hn (List.mem_singleton.1 hb ▸ ha)
  refine ⟨List.nodup_append.2 ⟨h.nodup, List.nodup_singleton n, hdisjoint⟩,
    List.pairwise_append.2 ⟨h.order.imp_of_mem fun {a b} ha hb hab => ?_, by simp,
      fun a ha b hb => ?_⟩, fun k hk => ?_⟩
  · simpa [hold a ha, hold b hb] using hab
  · obtain rfl := List.mem_singleton.1 hb
    simpa [hold a ha] using h.joined a ha
  · rcases List.mem_append.1 hk with hk | hk
    · have := h.joined k hk
      simp only [hold k hk]
      omega
    · obtain rfl := List.mem_singleton.1 hk
      simp

lemma Links.mem_queue (h : Links l s (view q)) : n ∈ q ↔ (s.pc n).queued = true := h.mem_iff n

/-- A queued node is one of the participants. -/
lemma Links.ne_invalid (hI : Inv size l s) (h : Links l s (view q)) (hn : n ∈ q) :
    n ≠ invalidNodeId := by
  have hqueued := h.mem_queue.1 hn
  refine size.node_ne_invalid (hI.participates n ?_)
  rintro hpc
  simp [hpc] at hqueued

section SameLinks

variable {V : View NodeId} {r : Memory × NodePc}
  (hnext : ∀ k, (r.1.shm.node k).nextNode = (s.mem.shm.node k).nextNode)
include hnext

/-- While no link is stored, the nodes that prepare to join keep theirs. -/
lemma Links.prepared_of_next (h : Links l s V) (hr : r.2.preparing = false) (k : NodeId)
    (hk : ((s.move n r).pc k).preparing = true) :
    ((s.move n r).mem.shm.node k).nextNode = invalidNodeId := by
  obtain ⟨-, hk⟩ := Config.of_move_pc (fun pc : NodePc => pc.preparing = true)
    (Bool.eq_false_iff.1 hr) hk
  exact (hnext k).trans (h.prepared k hk)

/-- While no link is stored, the nodes that hand over keep theirs. -/
lemma Links.successor_of_next (h : Links l s V) (hr : r.2.successor = none) (k succ : NodeId)
    (hk : ((s.move n r).pc k).successor = some succ) :
    ((s.move n r).mem.shm.node k).nextNode = succ ∧ succ ≠ invalidNodeId := by
  obtain ⟨-, hk⟩ := Config.of_move_pc (fun pc : NodePc => pc.successor = some succ)
    (fun hsucc => Option.some_ne_none succ (hsucc.symm.trans hr)) hk
  rw [Config.move_mem, hnext]
  exact h.successor k succ hk

end SameLinks

/-- A node that clears the head goes on doing so while another one moves. -/
lemma exists_clearHead_move {r : Memory × NodePc} (hn : s.pc n ≠ .clearHead)
    (h : ∃ k, s.pc k = .clearHead) : ∃ k, (s.move n r).pc k = .clearHead := by
  obtain ⟨k, hk⟩ := h
  refine ⟨k, ?_⟩
  rw [Config.move_pc, if_neg, hk]
  rintro rfl
  exact hn hk

lemma Links.joinEmpty (h : Links l s (view [])) (hpc : s.pc n = .casTail invalidNodeId) :
    Links l (s.move n (nodeStep l n s.mem (.casTail invalidNodeId))) (view [n]) := by
  have htail : (s.mem.shm.entry l).tailNode = invalidNodeId := h.tail
  have hout : ∀ k, (s.pc k).queued = false := fun k => by simpa using h.mem_queue (n := k)
  have hafter : (nodeStep l n s.mem (.casTail invalidNodeId)).2 = .storeHead := by
    simp [nodeStep, htail]
  have hnext : ∀ k, ((nodeStep l n s.mem (.casTail invalidNodeId)).1.shm.node k).nextNode =
      (s.mem.shm.node k).nextNode := by simp [nodeStep, htail]
  constructor
  · intro k
    rw [Config.move_pc]
    split_ifs with hkn
    · simp [view, hkn, hafter]
    · exact iff_of_false (by simpa [view] using hkn) (Bool.eq_false_iff.1 (hout k))
  · simp [view, nodeStep, htail]
  · simp [view, Consecutive.cons_iff]
  · intro z hz
    obtain rfl : n = z := by simpa [view] using hz
    exact (hnext n).trans (h.prepared n (by simp [hpc]))
  · exact h.prepared_of_next hnext (by rw [hafter]; rfl)
  · exact h.successor_of_next hnext (by rw [hafter]; rfl)
  · intro f hf a
    obtain rfl : n = f := by simpa [view] using hf
    simp [hafter]
  · intro k hk
    by_cases hkn : k = n
    · simp [view, hkn]
    · rw [Config.move_pc, if_neg hkn] at hk
      have hk' := hout k
      simp [hk] at hk'

lemma Head.joinEmpty (h : Head l s (view [])) (hpc : s.pc n = .casTail invalidNodeId)
    (htail : (s.mem.shm.entry l).tailNode = invalidNodeId) :
    Head l (s.move n (nodeStep l n s.mem (.casTail invalidNodeId))) (view [n]) := by
  constructor
  · intro f hf hpc'
    obtain rfl : n = f := by simpa [view] using hf
    exact absurd (by simp [nodeStep, htail]) hpc'
  · intro _
    rcases h.noHead (by simp [view]) with hnone | hclear
    · exact .inl (by simpa [nodeStep, htail] using hnone)
    · exact .inr (exists_clearHead_move (by simp [hpc]) hclear)

/-- Joining an empty queue: the node will store the head. -/
lemma Represents.joinEmpty (hI : Inv size l s) (hR : Represents size l s (view []))
    (hn : n < size.nodeCount) (hpc : s.pc n = .casTail invalidNodeId) :
    Represents size l (s.move n (nodeStep l n s.mem (s.pc n))) (view [n]) := by
  have hfree : ∀ k, ¬ HasLock s k := fun k hk => by simpa [view] using hR.grants.token k hk
  have hq := nodeStep_quiet hI (n := n) (by simp [hpc]) (by simp [hpc]) (by simp [hpc])
  refine ⟨?_, ?_, ?_, ?_⟩
  · rw [hpc]
    exact hR.links.joinEmpty hpc
  · rw [hpc]
    exact hR.head.joinEmpty hpc hR.links.tail
  · exact hR.marks.keep (nodeStep_marks hR.marks hn (by simp [hpc]) (by simp [hpc]))
  · refine hR.grants.node hI (fun k hk => absurd (hq.hasLock hk) (hfree k)) fun hdec g hg => ?_
    exact absurd (hR.grants.candidate hdec g hg).1 (by simp [view])

/-- The queue has the same first entry after a node has joined it. -/
lemma head?_append_singleton {z : NodeId} (hz : z ∈ q) : (q ++ [n]).head? = q.head? :=
  List.head?_append_of_ne_nil q (List.ne_nil_of_mem hz)

lemma Links.joinBehind (hI : Inv size l s) (h : Links l s (view q)) {z : NodeId}
    (hz : q.getLast? = some z) (hpc : s.pc n = .casTail z) :
    Links l (s.move n (nodeStep l n s.mem (.casTail z))) (view (q ++ [n])) := by
  have hzq := List.mem_of_getLast? hz
  have htail : (s.mem.shm.entry l).tailNode = z := by simpa [view, hz] using h.tail
  have hmem : ∀ {k}, k ∈ q → k ≠ n := by
    rintro k hk rfl
    simpa [hpc] using h.mem_queue.1 hk
  have hafter : (nodeStep l n s.mem (.casTail z)).2 = .linkPred z := by
    simp [nodeStep, htail, h.ne_invalid hI hzq]
  have hnext : ∀ k, ((nodeStep l n s.mem (.casTail z)).1.shm.node k).nextNode =
      (s.mem.shm.node k).nextNode := by simp [nodeStep, htail]
  constructor
  · intro k
    rw [Config.move_pc]
    split_ifs with hkn
    · simp [view, hkn, hafter]
    · simpa [view, hkn] using h.mem_queue (n := k)
  · simp [view, nodeStep, htail]
  · intro x y hxy
    rcases Consecutive.concat_iff.1 hxy with hxy | ⟨hx, rfl⟩
    · rw [Linked, Config.move_mem, hnext, Config.move_pc, if_neg (hmem hxy.mem_right)]
      exact h.linked x y hxy
    · -- the link to the new entry is still open
      obtain rfl : z = x := Option.some.inj (hz.symm.trans hx)
      exact .inr ⟨(hnext z).trans (h.last z hz), by rw [Config.move_pc, if_pos rfl, hafter]⟩
  · intro k hk
    obtain rfl : n = k := by simpa [view] using hk
    exact (hnext n).trans (h.prepared n (by simp [hpc]))
  · exact h.prepared_of_next hnext (by rw [hafter]; rfl)
  · exact h.successor_of_next hnext (by rw [hafter]; rfl)
  · intro f hf a
    replace hf : q.head? = some f := head?_append_singleton hzq ▸ hf
    rw [Config.move_pc, if_neg (hmem (List.mem_of_mem_head? hf))]
    exact h.front f hf a
  · intro k hk
    obtain ⟨-, hk⟩ := Config.of_move_pc (fun pc : NodePc => pc = .storeHead) (by simp [hafter]) hk
    exact (head?_append_singleton hzq).trans (h.first k hk)

lemma Head.joinBehind (h : Head l s (view q)) {z : NodeId} (hzq : z ∈ q) (hnq : n ∉ q)
    (hpc : s.pc n = .casTail z) (htail : (s.mem.shm.entry l).tailNode = z) :
    Head l (s.move n (nodeStep l n s.mem (.casTail z))) (view (q ++ [n])) := by
  have hmem : ∀ {k}, q.head? = some k → k ≠ n := by
    rintro k hk rfl
    exact hnq (List.mem_of_mem_head? hk)
  constructor
  · intro f hf hpc'
    replace hf : q.head? = some f := head?_append_singleton hzq ▸ hf
    rw [Config.move_pc, if_neg (hmem hf)] at hpc' ⊢
    simpa [nodeStep, htail] using h.head f hf hpc'
  · intro hall
    have hall' : ∀ f, q.head? = some f → s.pc f = .storeHead := fun f hf => by
      have hstore := hall f ((head?_append_singleton hzq).trans hf)
      rwa [Config.move_pc, if_neg (hmem hf)] at hstore
    rcases h.noHead hall' with hnone | hclear
    · exact .inl (by simpa [nodeStep, htail] using hnone)
    · exact .inr (exists_clearHead_move (by simp [hpc]) hclear)

/-- Joining a queue behind its last entry: the node will link itself there. -/
lemma Represents.joinBehind (hI : Inv size l s) (hR : Represents size l s (view q))
    (hn : n < size.nodeCount) {z : NodeId} (hz : q.getLast? = some z)
    (hpc : s.pc n = .casTail z) :
    Represents size l (s.move n (nodeStep l n s.mem (s.pc n))) (view (q ++ [n])) := by
  have hzq := List.mem_of_getLast? hz
  have hnq : n ∉ q := fun hn => by simpa [hpc] using hR.links.mem_queue.1 hn
  have htail : (s.mem.shm.entry l).tailNode = z := by simpa [view, hz] using hR.links.tail
  have hq := nodeStep_quiet hI (n := n) (by simp [hpc]) (by simp [hpc]) (by simp [hpc])
  refine ⟨?_, ?_, ?_, ?_⟩
  · rw [hpc]
    exact hR.links.joinBehind hI hz hpc
  · rw [hpc]
    exact hR.head.joinBehind hzq hnq hpc htail
  · exact hR.marks.keep (nodeStep_marks hR.marks hn (by simp [hpc]) (by simp [hpc]))
  · refine hR.grants.node hI (fun k hk => ?_) fun hdec g hg => ?_
    · exact (head?_append_singleton hzq).trans (hR.grants.token k (hq.hasLock hk))
    · obtain ⟨hfront, hstore⟩ := hR.grants.candidate hdec g hg
      refine ⟨(head?_append_singleton hzq).trans hfront, ?_⟩
      rwa [Config.move_pc, if_neg]
      rintro rfl
      exact hnq (List.mem_of_mem_head? hfront)

/-- Joining the queue. -/
lemma Represents.join (hI : Inv size l s) (hR : Represents size l s (view q))
    (hn : n < size.nodeCount)
    (hpc : s.pc n = .casTail (s.mem.shm.entry l).tailNode) :
    Represents size l (s.move n (nodeStep l n s.mem (s.pc n))) (view (q ++ [n])) := by
  cases hlast : q.getLast? with
  | none =>
      obtain rfl := List.getLast?_eq_none_iff.1 hlast
      exact hR.joinEmpty hI hn (by simpa [hR.links.tail, view] using hpc)
  | some z => exact hR.joinBehind hI hn hlast (by simpa [hR.links.tail, view, hlast] using hpc)

/-- A node that has the lock and is the last entry of the queue is the only one. -/
lemma Represents.eq_singleton (hR : Represents size l s (view q)) (hq : q.Nodup)
    (hlock : HasLock s n) (htail : (s.mem.shm.entry l).tailNode = n) : q = [n] := by
  have hfront : q.head? = some n := hR.grants.token n hlock
  have hback : q.getLast?.getD invalidNodeId = n := hR.links.tail.symm.trans htail
  cases q with
  | nil => simp at hfront
  | cons m rest =>
      obtain rfl : m = n := by simpa using hfront
      cases hlast : rest.getLast? with
      | none => rw [List.getLast?_eq_none_iff.1 hlast]
      | some z =>
          obtain rfl : z = m := by simpa [List.getLast?_cons, hlast] using hback
          exact absurd (List.mem_of_getLast? hlast) (List.nodup_cons.1 hq).1

lemma Links.leave (h : Links l s (view [n])) (htail : (s.mem.shm.entry l).tailNode = n) :
    Links l (s.move n (nodeStep l n s.mem .casTailEmpty)) (view []) := by
  have hafter : (nodeStep l n s.mem .casTailEmpty).2 = .clearHead := by simp [nodeStep, htail]
  have hnext : ∀ k, ((nodeStep l n s.mem .casTailEmpty).1.shm.node k).nextNode =
      (s.mem.shm.node k).nextNode := by simp [nodeStep, htail]
  constructor
  · intro k
    rw [Config.move_pc]
    split_ifs with hkn
    · simp [view, hafter]
    · simpa [view, hkn] using h.mem_queue (n := k)
  · simp [view, nodeStep, htail]
  · simp [view]
  · simp [view]
  · exact h.prepared_of_next hnext (by rw [hafter]; rfl)
  · exact h.successor_of_next hnext (by rw [hafter]; rfl)
  · simp [view]
  · intro k hk
    obtain ⟨hkn, hk⟩ := Config.of_move_pc (fun pc : NodePc => pc = .storeHead)
      (by simp [hafter]) hk
    obtain rfl : n = k := by simpa [view] using h.first k hk
    exact absurd rfl hkn

/-- The last node of the queue leaves it empty. -/
lemma Represents.leave (hI : Inv size l s) (hR : Represents size l s (view q)) (hq : q.Nodup)
    (hn : n < size.nodeCount) (hpc : s.pc n = .casTailEmpty)
    (htail : (s.mem.shm.entry l).tailNode = n) :
    Represents size l (s.move n (nodeStep l n s.mem (s.pc n))) (view []) := by
  have hlock : HasLock s n := .inl (by simp [hpc])
  obtain rfl := hR.eq_singleton hq hlock htail
  have hquiet := nodeStep_quiet hI (n := n) (by simp [hpc]) (by simp [hpc]) (by simp [hpc])
  have hemptying : ((s.move n (nodeStep l n s.mem (s.pc n))).pc n).emptying = true := by
    simp [nodeStep, hpc, htail]
  -- the node gives up the lock, and nobody else has it
  have hfree : ∀ k, ¬ HasLock (s.move n (nodeStep l n s.mem (s.pc n))) k := fun k hk => by
    obtain rfl := hI.unique k n (hquiet.hasLock hk) hlock
    rcases hquiet.emptying hemptying with hk' | ⟨-, hdrop⟩
    · simp [hpc] at hk'
    · exact hdrop hk
  refine ⟨?_, ⟨by simp [view], fun _ => .inr ⟨n, by simp [nodeStep, hpc, htail]⟩⟩, ?_, ?_⟩
  · rw [hpc]
    exact hR.links.leave htail
  · exact hR.marks.keep (nodeStep_marks hR.marks hn (by simp [hpc]) (by simp [hpc]))
  · exact hR.grants.node hI (fun k hk => absurd hk (hfree k))
      fun hdec => absurd hlock ((hI.deciding hdec).2 n)

/-- The successor of a node that hands over is the next entry, and its link is in place. -/
lemma Represents.eq_cons_cons (hR : Represents size l s (view q)) {succ : NodeId}
    (hpc : s.pc n = .wake succ) :
    ∃ rest, q = n :: succ :: rest ∧ ∀ c, s.pc succ ≠ .linkPred c := by
  obtain ⟨hnext, hsucc⟩ := hR.links.successor n succ (by simp [hpc])
  have hfront : q.head? = some n := hR.grants.token n (.inl (by simp [hpc]))
  cases q with
  | nil => simp at hfront
  | cons m tail =>
      obtain rfl : m = n := by simpa using hfront
      cases tail with
      | nil => exact absurd (hnext.symm.trans (hR.links.last m rfl)) hsucc
      | cons b rest =>
          rcases hR.links.linked m b (Consecutive.cons_iff.2 (.inl ⟨rfl, rfl⟩)) with
            ⟨hb, hlinked⟩ | ⟨hb, -⟩
          · obtain rfl : succ = b := hnext.symm.trans hb
            exact ⟨rest, rfl, hlinked⟩
          · exact absurd (hnext.symm.trans hb) hsucc

section Wake

variable {succ : NodeId} {rest : List NodeId}

lemma Links.wake (h : Links l s (view (n :: succ :: rest))) (hq : (n :: succ :: rest).Nodup)
    (hlinked : ∀ c, s.pc succ ≠ .linkPred c) :
    Links l (s.move n (nodeStep l n s.mem (.wake succ))) (view (succ :: rest)) := by
  have hn := (List.nodup_cons.1 hq).1
  have hmem : ∀ {k}, k ∈ succ :: rest → k ≠ n := by
    rintro k hk rfl
    exact hn hk
  have hnext : ∀ k, ((nodeStep l n s.mem (.wake succ)).1.shm.node k).nextNode =
      (s.mem.shm.node k).nextNode := by simp [nodeStep]
  constructor
  · intro k
    rw [Config.move_pc]
    split_ifs with hkn
    · rw [hkn]
      exact iff_of_false hn (by simp [nodeStep])
    · rw [← h.mem_queue, List.mem_cons, or_iff_right hkn]
      rfl
  · simpa [view, nodeStep, List.getLast?_cons] using h.tail
  · intro x y hxy
    rw [Linked, Config.move_mem, hnext, Config.move_pc, if_neg (hmem hxy.mem_right)]
    exact h.linked x y (Consecutive.cons_iff.2 (.inr hxy))
  · intro z hz
    exact (hnext z).trans (h.last z (by simpa [view, List.getLast?_cons] using hz))
  · exact h.prepared_of_next hnext rfl
  · exact h.successor_of_next hnext rfl
  · intro f hf a
    obtain rfl : succ = f := by simpa [view] using hf
    rw [Config.move_pc, if_neg (hmem (by simp))]
    exact hlinked a
  · intro k hk
    obtain ⟨hkn, hk⟩ := Config.of_move_pc (fun pc : NodePc => pc = .storeHead)
      (by simp [nodeStep]) hk
    obtain rfl : n = k := by simpa [view] using h.first k hk
    exact absurd rfl hkn

/-- The head is the successor already. -/
lemma Head.wake (h : Head l s (view (n :: succ :: rest))) (hpc : s.pc n = .wake succ)
    (hne : succ ≠ n) (hsucc : ¬ HasLock s succ) (hstore : s.pc succ ≠ .storeHead) :
    Head l (s.move n (nodeStep l n s.mem (.wake succ))) (view (succ :: rest)) := by
  constructor
  · intro f hf _
    obtain rfl : succ = f := by simpa [view] using hf
    rw [Config.move_pc, if_neg hne, NodePc.headOf_of_not_holding (holding_eq_false hsucc)]
    simpa [nodeStep, hpc] using h.head n rfl (by simp [hpc])
  · intro hall
    have hsucc' := hall succ rfl
    rw [Config.move_pc, if_neg hne] at hsucc'
    exact absurd hsucc' hstore

/-- The successor has arrived, and its mark says from now on that it has been woken. -/
lemma Marks.wake (h : Marks size l s) (hsucc : (s.pc succ).arriving = false) :
    Marks size l (s.move n (nodeStep l n s.mem (.wake succ))) := by
  have hlocked : ∀ k, k ≠ succ → ((nodeStep l n s.mem (.wake succ)).1.shm.node k).locked =
      (s.mem.shm.node k).locked := fun k hk => by simp [nodeStep, hk]
  constructor
  · intro k hk
    obtain ⟨-, hk⟩ := Config.of_move_pc (fun pc : NodePc => pc.marked = true)
      (by simp [nodeStep]) hk
    simpa [nodeStep] using h.marked k hk
  · intro k hk
    obtain ⟨-, hpc⟩ := Config.of_move_pc (fun pc : NodePc => pc.arriving = true)
      (by simp [nodeStep]) hk
    have hks : k ≠ succ := by
      rintro rfl
      exact absurd (hsucc.symm.trans hpc) (by decide)
    exact (hlocked k hks).trans (h.arriving k hpc)
  · intro k hk hpc
    obtain ⟨-, hpc⟩ := Config.of_move_pc (fun pc : NodePc => pc = .idle ∨ pc = .resetWaiting)
      (by simp [nodeStep]) hpc
    by_cases hks : k = succ
    · simp [nodeStep, hks]
    · rw [Config.move_mem, hlocked k hks]
      exact h.outside k hk hpc

end Wake

/-- The node that hands over leaves the queue to its successor. -/
lemma Represents.wake (hI : Inv size l s) (hR : Represents size l s (view q)) (hq : q.Nodup)
    {succ : NodeId} (hpc : s.pc n = .wake succ) :
    ∃ rest, q = n :: succ :: rest ∧
      Represents size l (s.move n (nodeStep l n s.mem (s.pc n))) (view (succ :: rest)) := by
  have hlock : HasLock s n := .inl (by simp [hpc])
  obtain ⟨rest, rfl, hlinked⟩ := hR.eq_cons_cons hpc
  have hne : succ ≠ n := by
    rintro rfl
    simp at hq
  have hsucc : ¬ HasLock s succ := fun hk => hne (hI.unique succ n hk hlock)
  have hstore : s.pc succ ≠ .storeHead := fun hk => by
    have hfront : n = succ := by simpa [view] using hR.links.first succ hk
    exact hne hfront.symm
  have hqueued := hR.links.mem_queue.1 (show succ ∈ n :: succ :: rest by simp)
  refine ⟨rest, rfl, ?_, ?_, ?_, ?_⟩
  · rw [hpc]
    exact hR.links.wake hq hlinked
  · rw [hpc]
    exact hR.head.wake hpc hne hsucc hstore
  · rw [hpc]
    exact hR.marks.wake (NodePc.arriving_of_queued hqueued hstore hlinked)
  · refine hR.grants.node hI (fun k hk => ?_) fun hdec => absurd hlock ((hI.deciding hdec).2 n)
    rw [hpc] at hk
    rw [hI.hasLock_wake hpc hk]
    rfl

/-- A node that finds another owner was granted the lock just now, and the manager is about
to make it the owner. -/
lemma Represents.notOwner (hI : Inv size l s) (hR : Represents size l s (view q))
    (hpc : s.pc n = .critical) (howner : (s.mem.shm.entry l).ownerNode ≠ n) :
    Abandoned l (s.move n (nodeStep l n s.mem (s.pc n))) := by
  have htoken : HasLock s n := .inl (by simp [hpc])
  have hmgr : s.mgr = .grantOwner n := by
    rcases hR.grants.owner n htoken (by simp [hpc]) with h | h
    · exact absurd h howner
    · exact h
  have hinvalid := hI.committing n hmgr
  refine ⟨fun k hk => ?_, fun k => Bool.eq_false_iff.2 fun hk => ?_, .inl ⟨n, hmgr⟩⟩
  · by_cases hkn : k = n
    · subst hkn
      simp [HasLock, nodeStep, hpc, howner] at hk
    · refine hkn (hI.unique k n ((hasLock_move_of_ne hkn ?_).1 hk) htoken)
      rw [hpc]
      exact nodeStep_locked (by simp) hkn
  · have hkn : k ≠ n := by
      rintro rfl
      simp [nodeStep, hpc, howner] at hk
    exact hI.owner_ne_invalid (Inv.owning_of_emptying (by simpa [hkn] using hk)) hinvalid

end Reshape

/-! ## Runs -/

section Runs

variable {size : SystemSize} {l : LockId} {s : State} {n : NodeId} {V : View NodeId}

/-- Once the lock is abandoned it stays so. -/
lemma Abandoned.node (hI : Inv size l s) (h : Abandoned l s) :
    Abandoned l (s.move n (nodeStep l n s.mem (s.pc n))) := by
  rcases nodeStep_effect hI with hq | hpc | ⟨succ, hpc | hpc⟩
  · refine ⟨fun k hk => h.free k (hq.hasLock hk), fun k => Bool.eq_false_iff.2 fun hk => ?_, ?_⟩
    · by_cases hkn : k = n
      · subst hkn
        rcases hq.emptying hk with hk | ⟨hk, -⟩
        · exact absurd hk (by rw [h.noEmptying k]; exact Bool.false_ne_true)
        · exact h.free k hk
      · rw [Config.move_pc, if_neg hkn, h.noEmptying k] at hk
        cases hk
    · simpa [hq.owner, -Config.move_mem] using h.stuck
  · simpa [hpc] using h.noEmptying n
  · exact absurd (.inl (by simp [hpc])) (h.free n)
  · exact absurd (.inl (by simp [hpc])) (h.free n)

lemma Abandoned.manager (hI : Inv size l s) (h : Abandoned l s) :
    Abandoned l (s.manage (managerStep size.nodeCount l s.mem s.mgr)) := by
  rcases h.stuck with ⟨m, hmgr⟩ | ⟨hmgr, howner⟩
  · have hm := size.node_ne_invalid (hI.candidate m (by simp [hmgr]))
    exact ⟨by simpa [hmgr, managerStep, HasLock] using h.free, h.noEmptying,
      .inr (by simp [hmgr, managerStep, hm])⟩
  · exact ⟨by simpa [hmgr, managerStep, howner, HasLock] using h.free, h.noEmptying,
      .inr (by simp [hmgr, managerStep, howner])⟩

/-- The manager stores to no link, no tail and no head, and stores no lock id. -/
lemma managerStep_queue (size : SystemSize) (l : LockId) (m : Memory) (pc : ManagerPc) :
    ((managerStep size.nodeCount l m pc).1.shm.entry l).tailNode = (m.shm.entry l).tailNode ∧
      ((managerStep size.nodeCount l m pc).1.shm.entry l).headNode =
        (m.shm.entry l).headNode ∧
      (∀ k, ((managerStep size.nodeCount l m pc).1.shm.node k).nextNode =
        (m.shm.node k).nextNode) ∧
      (∀ k, ((managerStep size.nodeCount l m pc).1.shm.node k).waitingLock =
        (m.shm.node k).waitingLock) ∧
      ((managerStep size.nodeCount l m pc).1.joins = m.joins ∧
        (managerStep size.nodeCount l m pc).1.joinedAt = m.joinedAt) := by
  cases pc <;> simp only [managerStep] <;> (try split_ifs) <;> simp

lemma Links.manager (h : Links l s V) :
    Links l (s.manage (managerStep size.nodeCount l s.mem s.mgr)) V := by
  obtain ⟨htail, -, hnext, -⟩ := managerStep_queue size l s.mem s.mgr
  refine ⟨h.mem_iff, htail.trans h.tail, ?_, ?_, ?_, ?_, h.front, h.first⟩
  · simpa [Linked, hnext] using h.linked
  · simpa [hnext] using h.last
  · simpa [hnext] using h.prepared
  · simpa [hnext] using h.successor

lemma Head.manager (h : Head l s V) :
    Head l (s.manage (managerStep size.nodeCount l s.mem s.mgr)) V := by
  obtain ⟨-, hhead, -⟩ := managerStep_queue size l s.mem s.mgr
  exact ⟨by simpa [hhead] using h.head, by simpa [hhead] using h.noHead⟩

/-- The head that the manager reads from a free lock is the first entry of the queue. -/
lemma Represents.front_of_head (hI : Inv size l s) (hR : Represents size l s V)
    (hdec : s.mgr.deciding = true)
    (hhead : (s.mem.shm.entry l).headNode ≠ invalidNodeId) :
    V.front = some (s.mem.shm.entry l).headNode ∧
      s.pc (s.mem.shm.entry l).headNode ≠ .storeHead := by
  obtain ⟨howner, hfree⟩ := hI.deciding hdec
  have hclear : ∀ k, s.pc k ≠ .clearHead := fun k hk =>
    hI.owner_ne_invalid (n := k) (by simp [hk]) howner
  have hall : ¬ ∀ f, V.front = some f → s.pc f = .storeHead := fun hall => by
    rcases hR.head.noHead hall with hnone | ⟨k, hk⟩
    · exact hhead hnone
    · exact hclear k hk
  simp only [not_forall] at hall
  obtain ⟨f, hf, hpc⟩ := hall
  rw [hR.head.head f hf hpc, NodePc.headOf_of_not_holding (holding_eq_false (hfree f))]
  exact ⟨hf, hpc⟩

/-- A node that the manager is going to grant the lock to has been read from the head. -/
lemma managerStep_candidate {nodeCount : UInt32} {m : Memory} {pc : ManagerPc} {g : NodeId}
    (hdec : (managerStep nodeCount l m pc).2.deciding = true)
    (hg : (managerStep nodeCount l m pc).2.candidate = some g) : pc.deciding = true ∧
      (pc.candidate = some g ∨
        (m.shm.entry l).headNode = g ∧ (m.shm.entry l).headNode ≠ invalidNodeId) := by
  cases pc with
  | loadOwner =>
      simp only [managerStep] at hg
      split_ifs at hg <;> simp at hg
  | loadHead =>
      simp only [managerStep] at hg
      split_ifs at hg with hhead
      · simp at hg
      · exact ⟨rfl, .inr ⟨by simpa using hg, (not_or.1 hhead).1⟩⟩
  | loadWaiting head locked =>
      simp only [managerStep] at hg
      split_ifs at hg
      · exact ⟨rfl, .inl hg⟩
      · simp at hg
  | loadLocked head => exact ⟨rfl, .inl hg⟩
  | grantLocked head | grantOwner head => simp [managerStep] at hdec

lemma Represents.grants_manager (hI : Inv size l s) (hR : Represents size l s V) :
    Grants l (s.manage (managerStep size.nodeCount l s.mem s.mgr)) V := by
  have hgranted := hR.grants.granted.manager hI
  refine ⟨fun k hk => ?_, hgranted.owner, hgranted.waking, fun hdec g hg => ?_⟩
  · rcases hasLock_manage hk with hk | hmgr
    · exact hR.grants.token k hk
    · exact (hR.grants.candidate (by simp [hmgr]) k (by simp [hmgr])).1
  · obtain ⟨hdec, hg | ⟨rfl, hhead⟩⟩ := managerStep_candidate hdec hg
    · exact hR.grants.candidate hdec g hg
    · exact hR.front_of_head hI hdec hhead

/-- The node that is granted the lock has arrived. -/
lemma Represents.arrived (hV : V.Wf) (hR : Represents size l s V) {g : NodeId}
    (hmgr : s.mgr = .grantLocked g) : (s.pc g).arriving = false := by
  obtain ⟨hfront, hpc⟩ := hR.grants.candidate (by simp [hmgr]) g (by simp [hmgr])
  exact NodePc.arriving_of_queued ((hR.links.mem_iff g).1 (hV.front_mem g hfront)) hpc
    (hR.links.front g hfront)

lemma Marks.manager (h : Marks size l s)
    (hgrant : ∀ g, s.mgr = .grantLocked g → (s.pc g).arriving = false) :
    Marks size l (s.manage (managerStep size.nodeCount l s.mem s.mgr)) := by
  obtain ⟨-, -, -, hwaiting, -⟩ := managerStep_queue size l s.mem s.mgr
  constructor
  · intro k hk
    exact (hwaiting k).trans (h.marked k hk)
  · intro k hk
    have hk' : (s.pc k).arriving = true := hk
    have hmgr : s.mgr ≠ .grantLocked k := fun hmgr => by
      rw [hgrant k hmgr] at hk'
      cases hk'
    exact (managerStep_locked hmgr).trans (h.arriving k hk')
  · intro k hk hpc
    by_cases hmgr : s.mgr = .grantLocked k
    · simp [hmgr, managerStep]
    · rw [Config.manage_mem, managerStep_locked hmgr]
      exact h.outside k hk hpc

/-- The manager gives the lock to the first entry of the queue. -/
lemma Represents.manager (hI : Inv size l s) (hV : V.Wf) (hR : Represents size l s V) :
    Represents size l (s.manage (managerStep size.nodeCount l s.mem s.mgr)) V :=
  ⟨hR.links.manager, hR.head.manager, hR.marks.manager fun _ => hR.arrived hV,
    hR.grants_manager hI⟩

/-- The lock is abandoned, or its records represent a queue of nodes in the order of their
joins. -/
def QueueInv (size : SystemSize) (l : LockId) (s : State) : Prop :=
  Abandoned l s ∨ ∃ q, Ordered s.mem q ∧ Represents size l s (view q)

/-- An access of a node that erases no stored head. -/
lemma Represents.node {q : List NodeId} (hI : Inv size l s) (hord : Ordered s.mem q)
    (hR : Represents size l s (view q)) (hn : n < size.nodeCount)
    (hok : s.pc n = .clearHead → ∀ f, q.head? = some f → s.pc f = .storeHead) :
    QueueInv size l (s.move n (nodeStep l n s.mem (s.pc n))) := by
  by_cases hjoin : s.pc n = .casTail (s.mem.shm.entry l).tailNode
  · have hnq : n ∉ q := fun h => by
      have := hR.links.mem_queue.1 h
      simp [hjoin] at this
    refine .inr ⟨q ++ [n], ?_, hR.join hI hn hjoin⟩
    simpa [nodeStep, hjoin] using hord.concat hnq (s.mem.shm.storeTail l n)
  have hkeep : ∀ {q}, Ordered s.mem q → Ordered (nodeStep l n s.mem (s.pc n)).1 q :=
    fun h => h.keep hjoin
  by_cases hshape : Reshapes l s n
  · cases hpc : s.pc n with
    | casTail oldTail =>
        simp only [Reshapes, hpc] at hshape
        exact absurd (hshape ▸ hpc) hjoin
    | critical =>
        exact .inl (hpc ▸ hR.notOwner hI hpc (by simpa [Reshapes, hpc] using hshape))
    | casTailEmpty =>
        refine .inr ⟨[], ⟨by simp, by simp, by simp⟩, hpc ▸ hR.leave hI hord.nodup hn hpc ?_⟩
        simpa [Reshapes, hpc] using hshape
    | wake succ =>
        obtain ⟨rest, rfl, hR'⟩ := hR.wake hI hord.nodup hpc
        obtain ⟨hnodup, horder, hjoined⟩ := hord
        exact .inr ⟨succ :: rest, hpc ▸ hkeep ⟨(List.nodup_cons.1 hnodup).2,
          (List.pairwise_cons.1 horder).2, fun k hk => hjoined k (by simp [hk])⟩, hpc ▸ hR'⟩
    | _ => simp [Reshapes, hpc] at hshape
  · exact .inr ⟨q, hkeep hord, hR.keep hI (view_wf hord.nodup) hn hshape hok⟩

lemma QueueInv.node (hI : Inv size l s) (h : QueueInv size l s) (hn : n < size.nodeCount)
    (hok : s.pc n = .clearHead → (s.mem.shm.entry l).headNode = n) :
    QueueInv size l (s.move n (nodeStep l n s.mem (s.pc n))) := by
  rcases h with h | ⟨q, hord, hR⟩
  · exact .inl (h.node hI)
  · exact hR.node hI hord hn fun hpc =>
      hR.storeHead_of_clearHead hI (view_wf hord.nodup) hpc (hok hpc)

lemma QueueInv.manager (hI : Inv size l s) (h : QueueInv size l s) :
    QueueInv size l (s.manage (managerStep size.nodeCount l s.mem s.mgr)) := by
  rcases h with h | ⟨q, hord, hR⟩
  · exact .inl (h.manager hI)
  · obtain ⟨-, -, -, -, hjoins, hjoinedAt⟩ := managerStep_queue size l s.mem s.mgr
    refine .inr ⟨q, ⟨hord.nodup, ?_, ?_⟩, hR.manager hI (view_wf hord.nodup)⟩
    · simpa [hjoinedAt] using hord.order
    · simpa [hjoins, hjoinedAt] using hord.joined

lemma QueueInv.init (h : (machine size l).system.init s) : QueueInv size l s := by
  obtain ⟨⟨hl, shm, hshm⟩, hpc, hmgr⟩ := h
  replace hpc : ∀ n, s.pc n = .idle := hpc
  replace hmgr : s.mgr = .loadOwner := hmgr
  simp only [initializeShm, size.nodeCount_valid, if_false] at hshm
  refine .inr ⟨[], ⟨by simp, by simp, by simp⟩, ⟨⟨by simp [view, hpc], ?_, by simp [view],
    by simp [view], by simp [hpc], by simp [hpc], by simp [view], by simp [hpc]⟩,
    ⟨by simp [view], fun _ => .inl ?_⟩, ⟨by simp [hpc], by simp [hpc], fun n hn _ => ?_⟩,
    ⟨by simp [HasLock, hpc], by simp [HasLock, hpc], by simp [hpc], by simp [hmgr]⟩⟩⟩
  · simp [hshm, size.lock_lt hl, view]
  · simp [hshm, size.lock_lt hl]
  · simp [hshm, hn]

lemma queueInv_of_reachable
    (hs : (machine size l).system.ReachableWhen (ClearsOwnHead l) s) :
    Inv size l s ∧ QueueInv size l s := by
  refine (machine_neverBlocks size l).invariant (I := fun s => Inv size l s ∧ QueueInv size l s)
    (fun _ h => ⟨Inv.init h, QueueInv.init h⟩) (fun s n c h hok hn => ?_) (fun s h _ => ?_) hs
  · exact ⟨h.1.node hn, h.2.node h.1 hn hok⟩
  · exact ⟨h.1.manager, h.2.manager h.1⟩

/-- Between calls, a free lock and its queue are as `check_grant` expects them. -/
lemma QueueInv.waiterFound (hI : Inv size l s) (h : QueueInv size l s) (hl : l < maxLockCount)
    (hquiet : Quiescent s) : WaiterFound size l s := by
  intro howner hwaiter
  obtain ⟨hpcs, hmgr⟩ := hquiet
  -- nobody has the lock, and the waiting nodes are exactly the queued ones
  have hfree : ∀ k, ¬ HasLock s k := fun k hk => by
    rcases hI.owned k hk with hne | ⟨g, hg⟩
    · exact hne howner
    · simp [hmgr] at hg
  rcases h with habandoned | ⟨q, hord, hR⟩
  · rcases habandoned.stuck with ⟨m, hm⟩ | ⟨-, hne⟩
    · simp [hmgr] at hm
    · exact absurd howner hne
  have hqueued : ∀ k, k < size.nodeCount → Waiting l s k → k ∈ q := fun k hk hw => by
    refine hR.links.mem_queue.2 ?_
    rcases hpcs k with hpc | hpc | ⟨v, hpc⟩ | hpc
    · exact absurd hw.1 (hR.marks.outside k hk (.inl hpc))
    · simp [hpc]
    · simp [hpc]
    · simp [hpc]
  have hwaiting : ∀ k ∈ q, Waiting l s k ∧ (s.pc k).headOf k = k ∧ s.pc k ≠ .storeHead ∧
      k < size.nodeCount := fun k hk => by
    have hpcq := hR.links.mem_queue.1 hk
    have hmark := hR.marks.marked k
    have hlocked := hfree k
    have hpart := hI.participates k
    rcases hpcs k with hpc | hpc | ⟨v, hpc⟩ | hpc <;> simp_all [Waiting, HasLock]
  obtain ⟨n, hn, hnw⟩ := hwaiter
  obtain ⟨f, rest, rfl⟩ := List.exists_cons_of_ne_nil (List.ne_nil_of_mem (hqueued n hn hnw))
  obtain ⟨hfw, hheadOf, hfpc, hf⟩ := hwaiting f (by simp)
  have hhead : (s.mem.shm.entry l).headNode = f := (hR.head.head f rfl hfpc).trans hheadOf
  rw [hhead]
  refine ⟨hfw, fun m hm hmw hmf => ?_, ?_⟩
  · refine (List.pairwise_cons.1 hord.order).1 m ?_
    simpa [hmf] using hqueued m hm hmw
  · simp [checkGrant, size.nodeCount_ne_zero, UInt32.not_le.2 hl, howner, hhead,
      size.node_ne_invalid hf, UInt32.not_le.2 hf, hfw.1, hfw.2]

end Runs

/-! ## No waiter is lost -/

/-- **No lost waiter.**  In every run in which no store of the invalid head erases another
node, between calls a free lock with a waiter has its earliest waiter as head, and
`check_grant` returns it. -/
theorem mcs_waiterFound_of_clearsOwnHead (size : SystemSize) (l : LockId)
    (hl : l < size.maxLocks) (s : State)
    (hs : (machine size l).system.ReachableWhen (ClearsOwnHead l) s) (hquiet : Quiescent s) :
    WaiterFound size l s :=
  have h := queueInv_of_reachable hs
  h.2.waiterFound h.1 (size.lock_lt hl) hquiet

/-- Between calls, as seen from the participating nodes. -/
lemma Inv.quiescent {size : SystemSize} {l : LockId} {s : State} (h : Inv size l s)
    (hpc : ∀ n, n < size.nodeCount → s.pc n = .idle ∨ s.pc n = .pollLocked)
    (hmgr : s.mgr = .loadOwner) : Quiescent s := by
  refine ⟨fun n => ?_, hmgr⟩
  by_cases hidle : s.pc n = .idle
  · exact .inl hidle
  · exact .inr (.inl ((hpc n (h.participates n hidle)).resolve_left hidle))

/-- Node 0 leaves the queue, then node 1 and again node 0 join it: node 1 is found. -/
theorem mcs_waiterFound_run : ∃ s : State, WaiterFound (.of 2 1) 0 s ∧ Quiescent s ∧
    (s.mem.shm.entry 0).ownerNode = invalidNodeId ∧ Waiting 0 s 0 ∧ Waiting 0 s 1 := by
  obtain ⟨s, hs, hp⟩ := LabelledSystem.exists_of_exec (ClearsOwnHead 0)
    (turns 0 5 ++ managerTurns 6 ++ turns 0 10 ++ turns 1 5 ++ turns 0 7)
    (fun s : State => decide (((∀ n, n < (2 : UInt32) →
        s.pc n = .idle ∨ s.pc n = .pollLocked) ∧ s.mgr = .loadOwner) ∧
      (s.mem.shm.entry 0).ownerNode = invalidNodeId ∧ Waiting 0 s 0 ∧ Waiting 0 s 1))
    (zeroedStart_init (.of 2 1) (l := 0) (by decide)) (by decide +kernel)
  obtain ⟨⟨hpc, hmgr⟩, hwaiting⟩ := of_decide_eq_true hp
  have hquiet := (inv_of_reachable hs.reachable).quiescent hpc hmgr
  exact ⟨s, mcs_waiterFound_of_clearsOwnHead (.of 2 1) 0 (by decide) s hs hquiet, hquiet, hwaiting⟩

/-- Node 0 takes itself out of the tail, node 1 joins the empty queue and stores itself as
head, and then node 0 stores the invalid head: the lock is free and `check_grant` returns
nobody, with node 1 waiting for it. -/
theorem late_clear_loses_waiter : ∃ s : State,
    (machine (.of 2 1) 0).system.Reachable s ∧ Quiescent s ∧ Waiting 0 s 1 ∧
      (s.mem.shm.entry 0).ownerNode = invalidNodeId ∧
      (s.mem.shm.entry 0).headNode = invalidNodeId ∧
      checkGrant 2 0 s.mem.shm = invalidNodeId ∧ ¬ WaiterFound (.of 2 1) 0 s := by
  obtain ⟨s, hs, hp⟩ := LabelledSystem.exists_of_exec (fun _ _ => True)
    (turns 0 5 ++ managerTurns 6 ++ turns 0 5 ++ turns 1 5 ++ turns 0 5)
    (fun s : State => decide (((∀ n, n < (2 : UInt32) →
        s.pc n = .idle ∨ s.pc n = .pollLocked) ∧ s.mgr = .loadOwner) ∧ Waiting 0 s 1 ∧
      (s.mem.shm.entry 0).ownerNode = invalidNodeId ∧
      (s.mem.shm.entry 0).headNode = invalidNodeId ∧
      checkGrant 2 0 s.mem.shm = invalidNodeId ∧ ¬ Waiting 0 s invalidNodeId))
    (zeroedStart_init (.of 2 1) (l := 0) (by decide)) (by decide +kernel)
  obtain ⟨⟨hpc, hmgr⟩, hwaiting, howner, hhead, hcheck, hnot⟩ := of_decide_eq_true hp
  have hquiet := (inv_of_reachable hs).quiescent hpc hmgr
  refine ⟨s, hs, hquiet, hwaiting, howner, hhead, hcheck, fun hfound => hnot ?_⟩
  exact hhead ▸ (hfound howner ⟨1, by decide, hwaiting⟩).1

end CxlLock.Mcs
