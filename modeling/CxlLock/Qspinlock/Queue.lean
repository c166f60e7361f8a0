import CxlLock.Lib.LinkedQueue
import CxlLock.Lib.Transition
import CxlLock.Qspinlock.GlobalLock

/-!
# The queue of the qspinlock

The queue of a lock is spread over its lock word (the tail), its owner (the front) and the
`next_node` links.  The runs here are runs of whole calls on one lock; the state also lists
the nodes that have requested the lock and not released it yet, in the order in which they
joined.

`release_lock` stores the successor's own tail index into the lock word.  Its comment says
that a successor that is not the tail keeps the queue's tail; the code does not distinguish
the two cases, so every node behind the successor drops out of the word:
`release_forgets_tail`.  `qspin_queue_iff` says that this is the only defect: runs in which
every release with a successor finds it to be the tail keep the whole queue, and any other
release breaks it at once.
-/

namespace CxlLock.Qspinlock

open Transition LinkedQueue

/-- The shared records, the node `check_grant` has returned and `grant_lock` has not been
called for yet, and the nodes with a request or hold in the order in which they joined. -/
structure QueueState where
  shm : QspinShm
  grantee : Option NodeId
  queue : List NodeId

/-- One whole call. -/
inductive QueueEvent
  | acquire (n : NodeId)
  | release (n : NodeId)
  | check
  | grant
  deriving DecidableEq

/-- The state after one whole call on lock `l`. -/
def queueNext (size : SystemSize) (l : LockId) (s : QueueState) :
    QueueEvent → Option QueueState
  | .acquire n =>
      if n < size.nodeCount ∧ n ∉ s.queue then
        some { s with
          shm := (acquireLock size.nodeCount n l s.shm).2
          queue := s.queue ++ [n] }
      else none
  | .release n =>
      if n ∈ s.queue ∧ (s.shm.entry l).ownerNode = n then
        some { s with
          shm := (releaseLock size.nodeCount n l s.shm).2
          queue := s.queue.erase n }
      else none
  | .check =>
      if s.grantee = none then
        let (grantee, shm) := checkGrant size.nodeCount l s.shm
        some { s with
          shm := shm
          grantee := if grantee = invalidNodeId then none else some grantee }
      else none
  | .grant =>
      s.grantee.map fun grantee =>
        { s with shm := (grantLock size.nodeCount grantee l s.shm).2, grantee := none }

/-- The system of whole calls on lock `l`, started right after `initialize`. -/
def queueSystem (size : SystemSize) (l : LockId) : LabelledSystem QueueState QueueEvent where
  init s := l < size.maxLocks ∧ (∃ shm, s.shm = (initializeShm size.nodeCount shm).2) ∧
    s.grantee = none ∧ s.queue = []
  next := queueNext size l

/-- The nodes whose request is not served yet, in the order in which they joined. -/
def unserved (s : QueueState) : List NodeId :=
  s.queue.filter fun n => (s.shm.node n).locked != 2

/-- The `next_node` links. -/
def nextOf (shm : QspinShm) (n : NodeId) : NodeId := (shm.node n).nextNode

/-- The tail index of a queue with this last node. -/
def tailIdxOf (last : Option NodeId) : UInt32 := last.elim 0 qspinNodeToTail

/-- **No waiter is lost.**  The links lead from the owner, or from `pending_tail` if the lock
is free, through all unserved requests, each once and in the order of joining; the lock word
names the last of them. -/
structure QueueKept (l : LockId) (s : QueueState) : Prop where
  once : (unserved s).Nodup
  fromOwner : (s.shm.entry l).ownerNode ≠ invalidNodeId →
    Path (nextOf s.shm) (nextOf s.shm (s.shm.entry l).ownerNode) (unserved s) invalidNodeId
  fromPending : (s.shm.entry l).ownerNode = invalidNodeId → unserved s ≠ [] →
    Path (nextOf s.shm) (s.shm.entry l).pendingTail (unserved s) invalidNodeId
  tail : qspinTailIdx (s.shm.entry l).lockWord = tailIdxOf
    ((unserved s).getLast?.or
      (if (s.shm.entry l).ownerNode = invalidNodeId then none
        else some (s.shm.entry l).ownerNode))

/-- A `release_lock` of `n` that hands the lock over finds its successor to be the tail. -/
def SuccessorIsTail (l : LockId) (shm : QspinShm) (n : NodeId) : Prop :=
  (shm.node n).nextNode ≠ invalidNodeId →
    qspinTailIdx (shm.entry l).lockWord = qspinNodeToTail (shm.node n).nextNode

/-- The condition on a step. -/
def ReleasesToTail (l : LockId) (s : QueueState) : QueueEvent → Prop
  | .release n => SuccessorIsTail l s.shm n
  | _ => True

instance (l : LockId) (shm : QspinShm) (n : NodeId) : Decidable (SuccessorIsTail l shm n) :=
  inferInstanceAs (Decidable (_ → _))

instance (l : LockId) (s : QueueState) : ∀ e, Decidable (ReleasesToTail l s e)
  | .release n => inferInstanceAs (Decidable (SuccessorIsTail l s.shm n))
  | .acquire _ | .check | .grant => .isTrue trivial

/-! ## The invariant -/

/-- The records represent the queue `a :: rest` with owner `a`. -/
structure Represents (l : LockId) (shm : QspinShm) (a : NodeId) (rest : List NodeId) :
    Prop where
  owner : (shm.entry l).ownerNode = a
  served : (shm.node a).locked = 2
  waiting : ∀ m ∈ rest, (shm.node m).locked ≠ 2
  held : qspinLocked (shm.entry l).lockWord = 1
  tail : ∀ z ∈ (a :: rest).getLast?, qspinTailIdx (shm.entry l).lockWord = qspinNodeToTail z
  links : Path (nextOf shm) a (a :: rest) invalidNodeId

structure QueueInv (size : SystemSize) (l : LockId) (s : QueueState) : Prop where
  lock_lt : l < maxLockCount
  nodup : s.queue.Nodup
  lt : ∀ n ∈ s.queue, n < size.nodeCount
  grantee : s.grantee = none
  empty : s.queue = [] →
    (s.shm.entry l).lockWord = 0 ∧ (s.shm.entry l).ownerNode = invalidNodeId
  nonempty : ∀ a rest, s.queue = a :: rest → Represents l s.shm a rest

section Invariant

variable {size : SystemSize} {l : LockId} {s s' : QueueState}

/-- Behind a served owner all nodes of the queue are unserved. -/
lemma Represents.unserved {a : NodeId} {rest : List NodeId} (hq : s.queue = a :: rest)
    (h : Represents l s.shm a rest) : unserved s = rest := by
  rw [Qspinlock.unserved, hq, List.filter_cons_of_neg (by simp [h.served]), List.filter_eq_self]
  exact fun m hm => by simpa using h.waiting m hm

lemma QueueInv.queueKept (h : QueueInv size l s) : QueueKept l s := by
  cases hq : s.queue with
  | nil =>
      obtain ⟨hword, howner⟩ := h.empty hq
      have hnone : unserved s = [] := by simp [unserved, hq]
      exact ⟨by simp [hnone], fun h => absurd howner h, fun _ h => absurd hnone h,
        by simp [hnone, hword, howner, tailIdxOf]; decide⟩
  | cons a rest =>
      have hrep := h.nonempty a rest hq
      have hrest := hrep.unserved hq
      have ha : a ≠ invalidNodeId := size.node_ne_invalid (h.lt a (by simp [hq]))
      have hlast : (a :: rest).getLast? = rest.getLast?.or (some a) := by
        cases rest <;> simp [List.getLast?_cons]
      refine ⟨?_, fun _ => ?_, fun h => absurd (hrep.owner.symm.trans h) ha, ?_⟩
      · exact hrest ▸ (List.nodup_cons.1 (hq ▸ h.nodup)).2
      · rw [hrest, hrep.owner]
        exact (path_cons.1 hrep.links).2
      · rw [hrest, hrep.owner, if_neg ha, ← hlast]
        obtain ⟨z, hz⟩ := Option.ne_none_iff_exists'.1
          (List.getLast?_eq_none_iff.not.2 (List.cons_ne_nil a rest))
        rw [hrep.tail z hz, hz]
        rfl

/-! ## Requests -/

/-- The fast path makes the caller a queue of its own. -/
lemma represents_fast (shm : QspinShm) {n : NodeId} (hn : n < size.nodeCount) :
    Represents l (fastPath (prepareNode shm n l) n l) n [] := by
  have htail := qspinTailIdx_heldWord (qspinNodeToTail_lt size.nodeCount_le hn)
  exact ⟨by simp, by simp, by simp, by simp [qspinLocked_heldWord], by simp [htail],
    by simp [nextOf]⟩

/-- The slow path links the caller behind the tail. -/
lemma Represents.slow {a : NodeId} {rest : List NodeId} (h : Represents l s.shm a rest)
    (hnodup : (a :: rest).Nodup) (hlt : ∀ m ∈ a :: rest, m < size.nodeCount) {n : NodeId}
    (hn : n < size.nodeCount) (hnew : n ∉ a :: rest) :
    Represents l (slowPath (prepareNode s.shm n l) n l) a (rest ++ [n]) := by
  have hne : ∀ m ∈ a :: rest, m ≠ n := fun m hm hmn => hnew (hmn ▸ hm)
  obtain ⟨init, z, hsplit⟩ : ∃ init z, a :: rest = init ++ [z] :=
    ⟨_, _, (List.dropLast_append_getLast (List.cons_ne_nil a rest)).symm⟩
  have hzq : z ∈ a :: rest := by simp [hsplit]
  have hz := hlt z hzq
  have hzinit : z ∉ init := by
    rw [hsplit, ← List.concat_eq_append] at hnodup
    exact ((List.nodup_concat _ _).1 hnodup).1
  have htail := h.tail z (by simp [hsplit])
  have hold : qspinTailToNode (qspinTailIdx (s.shm.entry l).lockWord) = z := by
    rw [htail, qspinTailToNode_nodeToTail size.nodeCount_le hz]
  have hnonzero : qspinTailIdx (s.shm.entry l).lockWord ≠ 0 :=
    htail ▸ qspinNodeToTail_ne_zero size.nodeCount_le hz
  have hnext : ∀ k, nextOf (slowPath (prepareNode s.shm n l) n l) k =
      if k = z then n else if k = n then invalidNodeId else nextOf s.shm k := fun k => by
    rw [nextOf, slowPath_nextNode _ _ _ _ (by simpa using hnonzero), prepareNode_entry, hold,
      prepareNode_nextNode]
    rfl
  refine ⟨by simpa using h.owner, ?_, ?_, by simpa [qspinLocked_setTail] using h.held, ?_, ?_⟩
  · simpa [hne a (by simp)] using h.served
  · intro m hm
    rw [slowPath_locked, prepareNode_locked]
    rcases List.mem_append.1 hm with hm | hm
    · rw [if_neg (hne m (by simp [hm]))]
      exact h.waiting m hm
    · rw [if_pos (List.mem_singleton.1 hm)]
      decide
  · intro y hy
    rw [← List.cons_append, List.getLast?_concat] at hy
    obtain rfl := Option.some.inj hy
    simp [qspinTailIdx_setTail _ (qspinNodeToTail_lt size.nodeCount_le hn)]
  · have hlinks := h.links
    rw [hsplit] at hlinks hne
    have hkept : ∀ c ∈ init, nextOf (slowPath (prepareNode s.shm n l) n l) c =
        nextOf s.shm c := fun c hc => by
      have hcz : c ≠ z := fun hcz => hzinit (hcz ▸ hc)
      rw [hnext, if_neg hcz, if_neg (hne c (by simp [hc]))]
    have hpath := hlinks.link (nextOf (slowPath (prepareNode s.shm n l) n l)) (n := n) hkept
      (by simp [hnext])
    rw [← List.cons_append, hsplit]
    simpa [hnext, (hne z (by simp)).symm] using hpath

lemma QueueInv.acquire (h : QueueInv size l s) {n : NodeId} (hn : n < size.nodeCount)
    (hnew : n ∉ s.queue) :
    QueueInv size l { s with
      shm := (acquireLock size.nodeCount n l s.shm).2
      queue := s.queue ++ [n] } := by
  have hnodup : (s.queue ++ [n]).Nodup := by simpa using h.nodup.concat hnew
  have hlt : ∀ m ∈ s.queue ++ [n], m < size.nodeCount := fun m hm => by
    rcases List.mem_append.1 hm with hm | hm
    · exact h.lt m hm
    · exact List.mem_singleton.1 hm ▸ hn
  refine ⟨h.lock_lt, hnodup, hlt, h.grantee, fun h => by simp at h, fun a rest har => ?_⟩
  rcases acquireLock_cases s.shm size.nodeCount_le hn h.lock_lt with
    ⟨hword, heq⟩ | ⟨hword, heq⟩ <;> rw [heq]
  · -- a lock word of 0 means an empty queue
    have hq : s.queue = [] := by
      cases hq : s.queue with
      | nil => rfl
      | cons a rest =>
          have hheld := (h.nonempty a rest hq).held
          rw [hword] at hheld
          exact absurd hheld (by decide)
    obtain ⟨rfl, rfl⟩ : n = a ∧ [] = rest := by simpa [hq] using har
    exact represents_fast s.shm hn
  · cases hq : s.queue with
    | nil => exact absurd (h.empty hq).1 hword
    | cons b rest' =>
        obtain ⟨rfl, rfl⟩ : b = a ∧ rest' ++ [n] = rest := by simpa [hq] using har
        exact (h.nonempty b rest' hq).slow (hq ▸ h.nodup) (hq ▸ h.lt) hn (hq ▸ hnew)

/-! ## Releases -/

/-- The last node of the queue releases it empty. -/
lemma Represents.release_last {a : NodeId} (ha : a < size.nodeCount) (hl : l < maxLockCount)
    (h : Represents l s.shm a []) :
    releaseLock size.nodeCount a l s.shm = (.success, emptyQueue s.shm a l) := by
  have hnext : (s.shm.node a).nextNode = invalidNodeId := (path_cons.1 h.links).2
  have htail := h.tail a (by simp)
  have howner := h.owner
  rcases releaseLock_cases s.shm size.nodeCount_le ha hl with
    ⟨hne, -⟩ | ⟨-, -, -, heq⟩ | ⟨-, -, hne, -⟩ | ⟨-, hne, -⟩
  · exact absurd howner hne
  · exact heq
  · exact absurd htail hne
  · exact absurd hnext hne

/-- Any other owner hands the lock to the next node of the queue. -/
lemma Represents.release_pass {a b : NodeId} {rest : List NodeId} (ha : a < size.nodeCount)
    (hb : b < size.nodeCount) (hl : l < maxLockCount)
    (h : Represents l s.shm a (b :: rest)) :
    (s.shm.node a).nextNode = b ∧
      releaseLock size.nodeCount a l s.shm = (.success, passLock s.shm a l b) := by
  have hnext : (s.shm.node a).nextNode = b := (path_cons.1 (path_cons.1 h.links).2).1
  have hne : (s.shm.node a).nextNode ≠ invalidNodeId := hnext ▸ size.node_ne_invalid hb
  have howner := h.owner
  rcases releaseLock_cases s.shm size.nodeCount_le ha hl with
    ⟨hno, -⟩ | ⟨-, hno, -⟩ | ⟨-, hno, -⟩ | ⟨-, -, heq⟩
  · exact absurd howner hno
  · exact absurd hno hne
  · exact absurd hno hne
  · exact ⟨hnext, hnext ▸ heq⟩

/-- A release by the owner keeps the queue exactly when its successor, if any, is the tail. -/
lemma QueueInv.release (h : QueueInv size l s) {n : NodeId} (hn : n ∈ s.queue)
    (howner : (s.shm.entry l).ownerNode = n) :
    (SuccessorIsTail l s.shm n → QueueInv size l { s with
      shm := (releaseLock size.nodeCount n l s.shm).2
      queue := s.queue.erase n }) ∧
    (¬ SuccessorIsTail l s.shm n → ¬ QueueKept l { s with
      shm := (releaseLock size.nodeCount n l s.shm).2
      queue := s.queue.erase n }) := by
  obtain ⟨a, rest, hq⟩ := List.exists_cons_of_ne_nil (List.ne_nil_of_mem hn)
  have hrep := h.nonempty a rest hq
  obtain rfl : n = a := howner.symm.trans hrep.owner
  have hnlt := h.lt n hn
  have herase : s.queue.erase n = rest := by simp [hq]
  have hnodup := hq ▸ h.nodup
  have hlt : ∀ m ∈ rest, m < size.nodeCount := fun m hm => h.lt m (by simp [hq, hm])
  rw [herase]
  cases rest with
  | nil =>
      rw [hrep.release_last hnlt h.lock_lt]
      have hnone : (s.shm.node n).nextNode = invalidNodeId := (path_cons.1 hrep.links).2
      refine ⟨fun _ => ⟨h.lock_lt, by simp, by simp, h.grantee, fun _ => ⟨by simp, by simp⟩,
        fun _ _ h => by cases h⟩, fun hne => absurd (fun h => absurd hnone h) hne⟩
  | cons b rest =>
      have hb := hlt b (by simp)
      obtain ⟨hnext, hpass⟩ := hrep.release_pass hnlt hb h.lock_lt
      have hbn : b ≠ n := fun hbn => (List.nodup_cons.1 hnodup).1 (by simp [hbn])
      have hbrest : b ∉ rest := (List.nodup_cons.1 (List.nodup_cons.1 hnodup).2).1
      have hbne := size.node_ne_invalid hb
      have hheld := qspinTailIdx_heldWord (qspinNodeToTail_lt size.nodeCount_le hb)
      have hwaiting : ∀ m ∈ rest, ((passLock s.shm n l b).node m).locked ≠ 2 := fun m hm => by
        have hmn : m ≠ n := fun hmn => (List.nodup_cons.1 hnodup).1 (by simp [← hmn, hm])
        have hmb : m ≠ b := fun hmb => hbrest (hmb ▸ hm)
        simpa [hmn, hmb] using hrep.waiting m (by simp [hm])
      rw [hpass]
      simp only [SuccessorIsTail, hnext, ne_eq, hbne, not_false_eq_true, true_imp_iff]
      constructor
      · intro htail
        -- the successor is the tail, so there is nobody behind it
        obtain rfl : rest = [] := by
          cases hrest : rest.getLast? with
          | none => exact List.getLast?_eq_none_iff.1 hrest
          | some z =>
              have hz := hrep.tail z (by simp [List.getLast?_cons, hrest])
              have hzb : z = b := qspinNodeToTail_inj.1 (hz.symm.trans htail)
              exact absurd (List.mem_of_getLast? hrest) (hzb ▸ hbrest)
        have hlink : (s.shm.node b).nextNode = invalidNodeId :=
          (path_cons.1 (path_cons.1 hrep.links).2).2
        refine ⟨h.lock_lt, by simp, hlt, h.grantee, fun h => by simp at h, ?_⟩
        rintro c more hc
        obtain ⟨rfl, rfl⟩ : b = c ∧ [] = more := by simpa using hc
        exact ⟨by simp, by simp [hbn], by simp, by simp [qspinLocked_heldWord],
          by simp [hheld], by simp [nextOf, hbn, hlink]⟩
      · intro hother hkept
        -- the word names the successor, but the queue goes on behind it
        obtain ⟨z, hz⟩ : ∃ z, rest.getLast? = some z := by
          refine Option.ne_none_iff_exists'.1 fun hnil => hother ?_
          rw [List.getLast?_eq_none_iff.1 hnil] at hrep
          exact hrep.tail b (by simp)
        have hunserved : unserved { s with shm := (passLock s.shm n l b), queue := b :: rest } =
            rest := by
          rw [unserved, List.filter_cons_of_neg (by simp [hbn]), List.filter_eq_self]
          exact fun m hm => by simpa using hwaiting m hm
        have htail := hkept.tail
        simp only [hunserved, hz, passLock_lockWord, if_true, hheld, Option.some_or,
          tailIdxOf, Option.elim_some, qspinNodeToTail_inj] at htail
        exact hbrest (htail ▸ List.mem_of_getLast? hz)

/-! ## Grants -/

/-- The lock word of a queue is either 0 or marked as locked, so `check_grant` never finds
anything to do. -/
lemma QueueInv.check (h : QueueInv size l s) :
    checkGrant size.nodeCount l s.shm = (invalidNodeId, s.shm) := by
  have hnone : (checkGrant size.nodeCount l s.shm).1 = invalidNodeId := by
    by_contra hne
    obtain ⟨hbit, htail, -⟩ := checkGrant_spec hne
    cases hq : s.queue with
    | nil =>
        rw [(h.empty hq).1] at htail
        exact absurd (by decide) htail
    | cons a rest =>
        rw [(h.nonempty a rest hq).held] at hbit
        exact absurd hbit (by decide)
  exact Prod.ext hnone (checkGrant_none hnone)

/-! ## Runs -/

lemma QueueInv.init (h : (queueSystem size l).init s) : QueueInv size l s := by
  obtain ⟨hl, ⟨shm, hshm⟩, hgrantee, hq⟩ := h
  refine ⟨size.lock_lt hl, by simp [hq], by simp [hq], hgrantee, fun _ => ?_, by simp [hq]⟩
  rw [hshm]
  simp [initializeShm, size.lock_lt hl, size.nodeCount_ne_zero,
    UInt32.not_lt.2 size.nodeCount_le]

lemma QueueInv.step (h : QueueInv size l s) {e : QueueEvent} (hok : ReleasesToTail l s e)
    (hs : queueNext size l s e = some s') : QueueInv size l s' := by
  cases e with
  | acquire n =>
      simp only [queueNext, Option.ite_none_right_eq_some, Option.some.injEq] at hs
      obtain ⟨⟨hn, hnew⟩, rfl⟩ := hs
      exact h.acquire hn hnew
  | release n =>
      simp only [queueNext, Option.ite_none_right_eq_some, Option.some.injEq] at hs
      obtain ⟨⟨hn, howner⟩, rfl⟩ := hs
      exact (h.release hn howner).1 hok
  | check =>
      simp only [queueNext, h.grantee, h.check, if_true, Option.some.injEq] at hs
      subst hs
      exact ⟨h.lock_lt, h.nodup, h.lt, rfl, h.empty, h.nonempty⟩
  | grant => simp [queueNext, h.grantee] at hs

/-- **The queue is kept as long as releases hand over to the tail, and no longer.**  In every
run whose releases meet `ReleasesToTail` no waiter is lost; and a release at the end of such a
run keeps the queue exactly when it meets the condition too. -/
theorem qspin_queue_iff (size : SystemSize) (l : LockId) (s : QueueState)
    (hs : (queueSystem size l).ReachableWhen (ReleasesToTail l) s) :
    QueueKept l s ∧ ∀ n s', queueNext size l s (.release n) = some s' →
      (QueueKept l s' ↔ SuccessorIsTail l s.shm n) := by
  have h : QueueInv size l s := hs.invariant (fun _ => QueueInv.init) fun _ _ _ h => h.step
  refine ⟨h.queueKept, fun n s' hnext => ?_⟩
  simp only [queueNext, Option.ite_none_right_eq_some, Option.some.injEq] at hnext
  obtain ⟨⟨hn, howner⟩, rfl⟩ := hnext
  obtain ⟨hkeeps, hbreaks⟩ := h.release hn howner
  exact ⟨fun hkept => by_contra fun hok => hbreaks hok hkept, fun hok => (hkeeps hok).queueKept⟩

end Invariant

/-- The state of `size` right after `initialize` of a zeroed region. -/
def queueStart (size : SystemSize) : QueueState where
  shm := (initializeShm size.nodeCount ⟨fun _ => ⟨0, 0, 0, 0⟩, fun _ => ⟨0, 0, 0, 0⟩⟩).2
  grantee := none
  queue := []

lemma queueStart_init (size : SystemSize) {l : LockId} (hl : l < size.maxLocks) :
    (queueSystem size l).init (queueStart size) :=
  ⟨hl, ⟨_, rfl⟩, rfl, rfl⟩

/-- Node 0 releases to node 1, the tail; then node 2 joins behind node 1. -/
theorem qspin_queue_run : ∃ s : QueueState, QueueKept 0 s ∧ s.queue = [1, 2] ∧
    ∀ n s', queueNext (.of 3 1) 0 s (.release n) = some s' →
      (QueueKept 0 s' ↔ SuccessorIsTail 0 s.shm n) := by
  obtain ⟨s, hs, hp⟩ := LabelledSystem.exists_of_exec (ReleasesToTail 0)
    ([.acquire 0, .acquire 1, .check, .release 0, .acquire 2])
    (fun s => s.queue == [1, 2]) (queueStart_init (.of 3 1) (l := 0) (by decide))
    (by decide +kernel)
  obtain ⟨hkept, hiff⟩ := qspin_queue_iff (.of 3 1) 0 s hs
  exact ⟨s, hkept, beq_iff_eq.1 hp, hiff⟩

/-- Nodes 0, 1 and 2 queue up and node 0 releases: the lock word then names node 1 as the
tail, and node 2 is lost. -/
theorem release_forgets_tail : ¬ ∀ (size : SystemSize) (l : LockId) (s : QueueState),
    (queueSystem size l).Reachable s → QueueKept l s := by
  intro h
  obtain ⟨s, hs, hp⟩ := LabelledSystem.exists_of_exec (fun _ _ => True)
    ([.acquire 0, .acquire 1, .acquire 2, .release 0])
    (fun s => unserved s == [2] && qspinTailIdx (s.shm.entry 0).lockWord == 2)
    (queueStart_init (.of 3 1) (l := 0) (by decide)) (by decide +kernel)
  simp only [Bool.and_eq_true, beq_iff_eq] at hp
  have htail := (h (.of 3 1) 0 s hs).tail
  simp only [hp.1, hp.2, List.getLast?_singleton, Option.some_or] at htail
  exact absurd htail (by decide)

end CxlLock.Qspinlock
