import CxlLock.CallRuns
import CxlLock.Qspinlock.GlobalLock

/-!
# A qspinlock waiter that nobody finds

A node that waits is found in two ways: a `release_lock` follows the `next_node` link of the
caller, and `check_grant` looks at `pending_tail`.  Both only ever name nodes that have been found
before or that call `acquire_lock` themselves.  A waiter that no record names stays unfound, so it
waits for ever, unless it gives up (`Stranded.step`).

`qspin_strands_waiter`: three nodes get there.  Two wait behind a holder; the release forgets that
the second is the tail, and the old holder, back with a new request, overwrites the link to it.
-/

namespace CxlLock.Qspinlock

open Transition

/-- The node is not granted, and no link and no `pending_tail` names it. -/
structure Unfound (size : SystemSize) (shm : QspinShm) (k : NodeId) : Prop where
  locked : (shm.node k).locked ≠ 2
  next : ∀ m < size.nodeCount, (shm.node m).nextNode ≠ k
  pending : ∀ j < maxLockCount, (shm.entry j).pendingTail ≠ k

namespace Unfound

variable {size : SystemSize} {shm : QspinShm} {k n v : NodeId} {l : LockId} {w : UInt32}

section Stores

variable (h : Unfound size shm k)
include h

lemma storeWord : Unfound size (shm.storeWord l w) k := ⟨h.locked, h.next, by simpa using h.pending⟩

lemma storeOwner : Unfound size (shm.storeOwner l v) k :=
  ⟨h.locked, h.next, by simpa using h.pending⟩

lemma storeGip : Unfound size (shm.storeGip l w) k := ⟨h.locked, h.next, by simpa using h.pending⟩

lemma storeWaiting : Unfound size (shm.storeWaiting n l) k :=
  ⟨by simpa using h.locked, by simpa using h.next, h.pending⟩

lemma storeLocked (hw : n = k → w ≠ 2) : Unfound size (shm.storeLocked n w) k := by
  refine ⟨?_, by simpa using h.next, h.pending⟩
  rw [QspinShm.storeLocked_locked]
  split_ifs with hkn
  · exact hw hkn.symm
  · exact h.locked

lemma storePending (hv : v ≠ k) : Unfound size (shm.storePending l v) k := by
  refine ⟨h.locked, h.next, fun j hj => ?_⟩
  rw [QspinShm.storePending_pendingTail]
  split_ifs
  · exact hv
  · exact h.pending j hj

lemma storeNext (hv : v ≠ k) : Unfound size (shm.storeNext n v) k := by
  refine ⟨by simpa using h.locked, fun m hm => ?_, h.pending⟩
  rw [QspinShm.storeNext_nextNode]
  split_ifs
  · exact hv
  · exact h.next m hm

end Stores

section Operations

variable (h : Unfound size shm k) (hk : k < size.nodeCount)
include h hk

lemma resetNode : Unfound size (resetNode shm n) k := by
  have hreset := h.storeNext (n := n) (size.node_ne_invalid hk).symm
  exact (hreset.storeLocked fun _ => by decide).storeWaiting

lemma acquireLock (hn : n ≠ k) : Unfound size (acquireLock size.nodeCount n l shm).2 k := by
  have hcleared := h.storeNext (n := n) (size.node_ne_invalid hk).symm
  have hprepared : Unfound size (prepareNode shm n l) k :=
    (hcleared.storeLocked fun _ => by decide).storeWaiting
  unfold Qspinlock.acquireLock
  dsimp only
  split_ifs
  · exact h
  · exact ((hprepared.storeWord.storeLocked fun hnk => absurd hnk hn).storeOwner).storePending hn
  · unfold slowPath
    dsimp only
    split_ifs
    · exact hprepared.storeWord.storePending hn
    · exact hprepared.storeWord.storeNext hn

lemma releaseLock (hn : n < size.nodeCount) :
    Unfound size (releaseLock size.nodeCount n l shm).2 k := by
  unfold Qspinlock.releaseLock
  dsimp only
  split_ifs
  · exact h
  · exact h
  · exact ((h.storeWord.storePending (size.node_ne_invalid hk).symm).storeOwner).resetNode hk
  · exact (h.storeOwner.storeLocked fun _ => by decide).storeWaiting
  · refine (storeLocked ?_ fun hsucc => absurd hsucc (h.next n hn)).resetNode hk
    exact ((h.storePending (h.next n hn)).storeOwner).storeWord

omit hk in
lemma scanLock (hl : l < maxLockCount) :
    Unfound size (algorithm.scanLock size.nodeCount l shm).2 k := by
  rcases scanLock_cases shm size.nodeCount_le hl with hsame | ⟨m, rfl, hm, -, -, -, hgrant⟩
  · rwa [hsame]
  · have hgranted := (h.storeGip (l := l) (w := 1)).storeLocked (w := 2)
      fun hmk => absurd hmk (h.pending l hl)
    have hnext := hgranted.next _ hm
    rw [hgrant]
    exact ((hgranted.storeOwner.storeWord).storePending hnext).storeGip

end Operations

end Unfound

/-- The node waits for a lock, and nobody will ever find it. -/
structure Stranded (size : SystemSize) (k : NodeId) (l : LockId) (s : CallState QspinShm) :
    Prop where
  waits : s.waitingFor k = some l
  outside : ∀ j, s.holds k j = false
  unfound : Unfound size s.shm k

section Steps

variable {size : SystemSize} {s s' : CallState QspinShm} {k : NodeId} {l : LockId}

/-- **Nothing helps a stranded waiter.** -/
lemma Stranded.step (h : Stranded size k l s) (hvalid : s.Valid size) {e : CallEvent}
    (he : e ≠ .cancel k) (hs : CallStep algorithm size s e s') : Stranded size k l s' := by
  have hk := (hvalid.waiting_lt k l h.waits).1
  cases hs with
  | @acquire n j shm hn hj hw hh hr =>
      have hne : n ≠ k := by
        rintro rfl
        simp [h.waits] at hw
      have hunfound := h.unfound.acquireLock (l := j) hk hne
      rw [show acquireLock size.nodeCount n j s.shm = _ from hr] at hunfound
      refine ⟨?_, h.outside, hunfound⟩
      rw [CallState.await_waitingFor, if_neg hne.symm]
      exact h.waits
  | @refused n j rc shm hn hj hr hrc =>
      rcases acquireLock_cases s.shm size.nodeCount_le hn (size.lock_lt hj) with
        ⟨-, heq⟩ | ⟨-, heq⟩
      · exact absurd (congrArg Prod.fst (hr.symm.trans heq)) hrc
      · exact absurd (congrArg Prod.fst (hr.symm.trans heq)) hrc
  | @granted n j hw hgrant =>
      have hne : n ≠ k := by
        rintro rfl
        simp only [algorithm, pollGranted, Bool.and_eq_true, beq_iff_eq] at hgrant
        exact h.unfound.locked hgrant.1
      refine ⟨?_, fun j' => ?_, h.unfound⟩
      · rw [CallState.enter_waitingFor, if_neg hne.symm]
        exact h.waits
      · rw [← Bool.not_eq_true, CallState.enter_holds]
        simp [hne.symm, h.outside j']
  | notGranted hw hgrant => exact h
  | @cancel n j rc shm hw hr =>
      have hne : n ≠ k := fun hnk => he (congrArg _ hnk)
      have hunfound := h.unfound.releaseLock (l := j) hk (hvalid.waiting_lt n j hw).1
      rw [show releaseLock size.nodeCount n j s.shm = _ from Option.some.inj hr] at hunfound
      refine ⟨?_, h.outside, hunfound⟩
      rw [CallState.await_waitingFor, if_neg hne.symm]
      exact h.waits
  | @release n j rc shm hh hr =>
      have hunfound := h.unfound.releaseLock (l := j) hk (hvalid.holds_lt n j hh).1
      rw [show releaseLock size.nodeCount n j s.shm = _ from Option.some.inj hr] at hunfound
      refine ⟨h.waits, fun j' => ?_, hunfound⟩
      rw [← Bool.not_eq_true, CallState.leave_holds]
      simp [h.outside j']
  | scan hj => exact ⟨h.waits, h.outside, h.unfound.scanLock (size.lock_lt hj)⟩

/-- A stranded waiter waits for ever, whatever the others do. -/
lemma Stranded.forever (h : Stranded size k l s) (hvalid : s.Valid size)
    (hs : ((callSystem algorithm size).startingAt s).ReachableWhen (fun _ e => e ≠ .cancel k) s') :
    Stranded size k l s' := by
  refine (LabelledSystem.ReachableWhen.invariant (I := fun s => s.Valid size ∧ Stranded size k l s)
    ?_ (fun s e s' hI he hnext => ?_) hs).2
  · rintro _ rfl
    exact ⟨hvalid, h⟩
  · have hstep := CallStep.of_next hnext
    exact ⟨hI.1.step hstep, hI.2.step hI.1 he hstep⟩

end Steps

/-! ## Three nodes -/

/-- The records while lock `l` is in use and `k` is not the head of a queue: the owner, the tail
that the lock word names, the links, and the states of the queue nodes. -/
structure Line (k : NodeId) (l : LockId) (owner tail : NodeId) (links : NodeId → NodeId)
    (states : NodeId → UInt32) (shm : QspinShm) : Prop where
  owner : (shm.entry l).ownerNode = owner
  word : (shm.entry l).lockWord ≠ 0
  tail : qspinTailIdx (shm.entry l).lockWord = qspinNodeToTail tail
  next : ∀ m, (shm.node m).nextNode = links m
  locked : ∀ m, (shm.node m).locked = states m
  waits : ∀ m, states m ≠ 0 → (shm.node m).waitingLock = l
  pending : ∀ j < maxLockCount, (shm.entry j).pendingTail ≠ k

namespace Line

variable {size : SystemSize} {k n tail owner : NodeId} {l : LockId} {links : NodeId → NodeId}
  {states : NodeId → UInt32} {shm : QspinShm}

/-- The next node joins behind the tail. -/
lemma join (h : Line k l owner tail links states shm) (ht : tail < size.nodeCount)
    (hn : n < size.nodeCount) (hl : l < maxLockCount) :
    ∃ shm', acquireLock size.nodeCount n l shm = (.success, shm') ∧
      Line k l owner n (Function.update (Function.update links n invalidNodeId) tail n)
        (Function.update states n 1) shm' := by
  have hnonzero : qspinTailIdx (shm.entry l).lockWord ≠ 0 :=
    h.tail ▸ qspinNodeToTail_ne_zero size.nodeCount_le ht
  have hold : qspinTailToNode (qspinTailIdx (shm.entry l).lockWord) = tail := by
    rw [h.tail, qspinTailToNode_nodeToTail size.nodeCount_le ht]
  have hfit := qspinNodeToTail_lt size.nodeCount_le hn
  rcases acquireLock_cases shm size.nodeCount_le hn hl with ⟨hword, -⟩ | ⟨-, heq⟩
  · exact absurd hword h.word
  refine ⟨_, heq, ?_, ?_, ?_, fun m => ?_, fun m => ?_, fun m hm => ?_, fun j hj => ?_⟩
  · simpa using h.owner
  · rw [slowPath_lockWord, if_pos rfl]
    exact qspinSetTail_ne_zero _ hfit (qspinNodeToTail_ne_zero size.nodeCount_le hn)
  · rw [slowPath_lockWord, if_pos rfl, qspinTailIdx_setTail _ hfit]
  · rw [slowPath_nextNode _ _ _ _ (by simpa using hnonzero), prepareNode_entry, hold,
      prepareNode_nextNode, Function.update_apply, Function.update_apply, h.next]
  · rw [slowPath_locked, prepareNode_locked, Function.update_apply, h.locked]
  · rw [slowPath_waitingLock, prepareNode_waitingLock]
    split_ifs with hmn
    · rfl
    · exact h.waits m (by rwa [Function.update_of_ne hmn] at hm)
  · simpa [slowPath, hnonzero] using h.pending j hj

/-- The owner hands the lock to the node it links to. -/
lemma pass (h : Line k l owner tail links states shm) (hn : owner < size.nodeCount)
    (hl : l < maxLockCount) {succ : NodeId} (hlink : links owner = succ)
    (hsucc : succ < size.nodeCount) (hk : succ ≠ k) (hwaits : states succ ≠ 0) :
    ∃ shm', releaseLock size.nodeCount owner l shm = (.success, shm') ∧
      Line k l succ succ (Function.update links owner invalidNodeId)
        (Function.update (Function.update states succ 2) owner 0) shm' := by
  have hnext : (shm.node owner).nextNode = succ := (h.next owner).trans hlink
  have hne : (shm.node owner).nextNode ≠ invalidNodeId := hnext ▸ size.node_ne_invalid hsucc
  rcases releaseLock_cases shm size.nodeCount_le hn hl with
    ⟨hno, -⟩ | ⟨-, hno, -⟩ | ⟨-, hno, -⟩ | ⟨-, -, heq⟩
  · exact absurd h.owner hno
  · exact absurd hno hne
  · exact absurd hno hne
  rw [hnext] at heq
  refine ⟨_, heq, ?_, ?_, ?_, fun m => ?_, fun m => ?_, fun m hm => ?_, fun j hj => ?_⟩
  · simp
  · rw [passLock_lockWord, if_pos rfl]
    exact qspinHeldWord_ne_zero _
  · rw [passLock_lockWord, if_pos rfl,
      qspinTailIdx_heldWord (qspinNodeToTail_lt size.nodeCount_le hsucc)]
  · rw [passLock_nextNode, Function.update_apply, h.next]
  · rw [passLock_locked, Function.update_apply, Function.update_apply, h.locked]
  · rw [Function.update_apply] at hm
    rw [passLock_waitingLock]
    split_ifs with hmo
    · simp [hmo] at hm
    · rw [if_neg hmo, Function.update_apply] at hm
      apply h.waits
      split_ifs at hm with hms
      · exact hms ▸ hwaits
      · exact hm
  · have hpending := h.pending j hj
    by_cases hjl : j = l
    · simpa [passLock, Qspinlock.resetNode, hjl] using hk
    · simpa [passLock, Qspinlock.resetNode, hjl] using hpending

/-- The owner leaves nobody behind that it knows of. -/
lemma leave (h : Line k l owner owner links states shm) (hn : owner < size.nodeCount)
    (hl : l < maxLockCount) (hnone : links owner = invalidNodeId) (hk : k < size.nodeCount) :
    ∃ shm', releaseLock size.nodeCount owner l shm = (.success, shm') ∧
      (shm'.entry l).lockWord = 0 ∧ (∀ m, (shm'.node m).nextNode = links m) ∧
      (∀ m, (shm'.node m).locked = Function.update states owner 0 m) ∧
      ∀ j < maxLockCount, (shm'.entry j).pendingTail ≠ k := by
  have hnext : (shm.node owner).nextNode = invalidNodeId := (h.next owner).trans hnone
  rcases releaseLock_cases shm size.nodeCount_le hn hl with
    ⟨hno, -⟩ | ⟨-, -, -, heq⟩ | ⟨-, -, hno, -⟩ | ⟨-, hno, -⟩
  · exact absurd h.owner hno
  · refine ⟨_, heq, by simp, fun m => ?_, fun m => ?_, fun j hj => ?_⟩
    · rw [emptyQueue_nextNode, h.next]
      split_ifs with hmo
      · rw [hmo, hnone]
      · rfl
    · rw [emptyQueue_locked, Function.update_apply, h.locked]
    · have hpending := h.pending j hj
      by_cases hjl : j = l
      · simpa [emptyQueue, Qspinlock.resetNode, hjl] using (size.node_ne_invalid hk).symm
      · simpa [emptyQueue, Qspinlock.resetNode, hjl] using hpending
  · exact absurd h.tail hno
  · exact absurd hnext hno

variable (shm) in
/-- The first request takes the fast path. -/
lemma first (hn : n < size.nodeCount) (hl : l < maxLockCount) (hk : n ≠ k)
    (hword : (shm.entry l).lockWord = 0) (hnext : ∀ m, (shm.node m).nextNode = invalidNodeId)
    (hlocked : ∀ m, (shm.node m).locked = 0)
    (hpending : ∀ j < maxLockCount, (shm.entry j).pendingTail ≠ k) :
    ∃ shm', acquireLock size.nodeCount n l shm = (.success, shm') ∧
      Line k l n n (fun _ => invalidNodeId) (Function.update (fun _ => 0) n 2) shm' := by
  have hfit := qspinNodeToTail_lt size.nodeCount_le hn
  rcases acquireLock_cases shm size.nodeCount_le hn hl with ⟨-, heq⟩ | ⟨hheld, -⟩
  · refine ⟨_, heq, by simp, ?_, ?_, fun m => ?_, fun m => ?_, fun m hm => ?_, fun j hj => ?_⟩
    · rw [fastPath_lockWord, if_pos rfl]
      exact qspinHeldWord_ne_zero _
    · rw [fastPath_lockWord, if_pos rfl, qspinTailIdx_heldWord hfit]
    · rw [fastPath_nextNode, prepareNode_nextNode, hnext, ite_self]
    · rw [fastPath_locked, prepareNode_locked, hlocked, Function.update_apply]
      split_ifs <;> rfl
    · have hmn : m = n := by
        by_contra hmn
        exact hm (Function.update_of_ne hmn ..)
      simp [hmn]
    · have hold := hpending j hj
      by_cases hjl : j = l
      · simpa [fastPath, hjl] using hk
      · simpa [fastPath, hjl] using hold
  · exact absurd hword hheld

end Line

section Run

variable {size : SystemSize} {s : CallState QspinShm} {n : NodeId} {l : LockId} {shm : QspinShm}
  {rc : LockResult}

/-- The runs in which nobody gives up. -/
abbrev Reach (size : SystemSize) : CallState QspinShm → Prop :=
  (callSystem algorithm size).ReachableWhen NoTimeout

lemma Reach.acquire (hs : Reach size s) (hn : n < size.nodeCount) (hl : l < size.maxLocks)
    (hw : s.waitingFor n = none) (hh : s.holds n l = false)
    (hr : acquireLock size.nodeCount n l s.shm = (.success, shm)) :
    Reach size (s.await shm n (some l)) := by
  refine hs.step (e := .acquire n l) trivial ?_
  have hr' : algorithm.acquireLock size.nodeCount n l s.shm = (.success, shm) := hr
  simp [callSystem, callNext, hn, hl, hw, hh, hr']

lemma Reach.poll (hs : Reach size s) (hw : s.waitingFor n = some l)
    (hlocked : (s.shm.node n).locked = 2) (hwaits : (s.shm.node n).waitingLock = l) :
    Reach size (s.enter n l) := by
  refine hs.step (e := .poll n) trivial ?_
  simp [callSystem, callNext, hw, algorithm, pollGranted, hlocked, hwaits]

lemma Reach.release (hs : Reach size s) (hh : s.holds n l = true)
    (hr : releaseLock size.nodeCount n l s.shm = (rc, shm)) :
    Reach size (s.leave shm n l) := by
  refine hs.step (e := .release n l) trivial ?_
  simp [callSystem, callNext, hh, algorithm, hr]

/-- Records that were never used. -/
def unusedShm : QspinShm where
  entry _ := ⟨0, invalidNodeId, invalidNodeId, 0⟩
  node _ := ⟨invalidNodeId, 0, invalidLockId, 0⟩

def unusedStart : CallState QspinShm where
  shm := unusedShm
  waitingFor _ := none
  holds _ _ := false

lemma reach_unusedStart (size : SystemSize) : Reach size unusedStart := by
  refine .start ⟨⟨unusedShm, ?_⟩, fun _ => rfl, fun _ _ => rfl⟩
  show unusedShm = (initializeShm size.nodeCount unusedShm).2
  simp only [initializeShm, size.nodeCount_ne_zero, UInt32.not_lt.2 size.nodeCount_le, or_self,
    if_false, unusedShm, ite_self]

/-- **Three nodes strand a waiter.** -/
lemma reach_stranded {size : SystemSize} {i j k : NodeId} {l : LockId} (hij : i ≠ j)
    (hik : i ≠ k) (hjk : j ≠ k) (hi : i < size.nodeCount) (hj : j < size.nodeCount)
    (hk : k < size.nodeCount) (hl : l < size.maxLocks) :
    ∃ s, Reach size s ∧ Stranded size k l s ∧ (s.shm.entry l).lockWord = 0 ∧
      (∀ m ≠ k, s.waitingFor m = none) ∧ ∀ m j, s.holds m j = false := by
  have hl' := size.lock_lt hl
  -- `i` takes the lock
  obtain ⟨shm₁, hr₁, h₁⟩ := Line.first unusedShm hi hl' hik rfl (fun _ => rfl)
    (fun _ => rfl) fun _ _ => (size.node_ne_invalid hk).symm
  have hs₁ := ((reach_unusedStart size).acquire hi hl rfl rfl hr₁).poll (n := i) (l := l)
    (by simp) (by simp [h₁.locked]) (by simpa using h₁.waits i (by simp))
  -- `j` and `k` queue up
  obtain ⟨shm₂, hr₂, h₂⟩ := h₁.join hi hj hl'
  have hs₂ := hs₁.acquire hj hl (by simp [hij.symm, unusedStart])
    (by rw [← Bool.not_eq_true]; simp [hij.symm, unusedStart]) hr₂
  obtain ⟨shm₃, hr₃, h₃⟩ := h₂.join hj hk hl'
  have hs₃ := hs₂.acquire hk hl (by simp [hik.symm, hjk.symm, unusedStart])
    (by rw [← Bool.not_eq_true]; simp [hik.symm, unusedStart]) hr₃
  -- `i` hands over to `j`, and joins again where `k` had joined
  obtain ⟨shm₄, hr₄, h₄⟩ := h₃.pass hi hl' (by simp [hij, hik]) hj hjk (by simp [hjk])
  have hs₄ := hs₃.release (n := i) (l := l) (by simp) hr₄
  obtain ⟨shm₅, hr₅, h₅⟩ := h₄.join hj hi hl'
  have hs₅ := hs₄.acquire hi hl (by simp [hij, hik])
    (by rw [← Bool.not_eq_true]; simp) hr₅
  -- `j` and then `i` have their turns; nobody is left that knows of `k`
  have hs₆ := hs₅.poll (n := j) (l := l) (by simp [hij.symm, hjk])
    (by simp [h₅.locked, hij.symm]) (by simpa using h₅.waits j (by simp [hij.symm]))
  obtain ⟨shm₆, hr₆, h₆⟩ := h₅.pass hj hl' (by simp) hi hik (by simp)
  have hs₇ := (hs₆.release (n := j) (l := l) (by simp) hr₆).poll (n := i) (l := l)
    (by simp [hij]) (by simp [h₆.locked, hij]) (by simpa using h₆.waits i (by simp [hij]))
  obtain ⟨shm₇, hr₇, hword, hnext, hlocked, hpending⟩ := h₆.leave hi hl' (by simp [hij]) hk
  have hs₈ := hs₇.release (n := i) (l := l) (by simp) hr₇
  have hclear : ∀ v : NodeId, v = invalidNodeId ∨ v = i ∨ v = j → v ≠ k := by
    rintro v (rfl | rfl | rfl)
    · exact (size.node_ne_invalid hk).symm
    · exact hik
    · exact hjk
  refine ⟨_, hs₈, ⟨?_, fun j' => ?_, ?_, fun m _ => ?_, hpending⟩, hword, fun m hm => ?_,
    fun m j' => ?_⟩
  · simp [hik.symm, hjk.symm]
  · rw [← Bool.not_eq_true]
    simp [hik.symm, hjk.symm, unusedStart]
  · show (shm₇.node k).locked ≠ 2
    rw [hlocked]
    simp [hik.symm, hjk.symm]
  · show (shm₇.node m).nextNode ≠ k
    rw [hnext]
    apply hclear
    simp only [Function.update_apply]
    split_ifs <;> simp
  · simp only [CallState.leave_waitingFor, CallState.enter_waitingFor,
      CallState.await_waitingFor, hm, if_false]
    split_ifs <;> rfl
  · rw [← Bool.not_eq_true]
    simp only [CallState.leave_holds, CallState.enter_holds, CallState.await_holds, unusedStart]
    rintro ⟨hmi, (hmi' | ⟨hmj, (hmj' | ⟨-, h⟩)⟩)⟩
    · exact hmi hmi'
    · exact hmj hmj'
    · simp only [Bool.false_eq_true, or_false] at h
      exact hmi h

/-- **A waiter nobody finds.**  With three nodes there is a run of whole calls, nobody gives up in
it, after which the lock is free and the other two are done, while the third waits for the lock;
and whatever requests, releases, polls and scans follow on any locks, it never gets in, unless it
gives up. -/
theorem qspin_strands_waiter {size : SystemSize} {i j k : NodeId} {l : LockId} (hij : i ≠ j)
    (hik : i ≠ k) (hjk : j ≠ k) (hi : i < size.nodeCount) (hj : j < size.nodeCount)
    (hk : k < size.nodeCount) (hl : l < size.maxLocks) :
    ∃ s, (callSystem algorithm size).ReachableWhen NoTimeout s ∧ s.waitingFor k = some l ∧
      (s.shm.entry l).lockWord = 0 ∧ (∀ m ≠ k, s.waitingFor m = none) ∧
      (∀ m j, s.holds m j = false) ∧
      ∀ s', ((callSystem algorithm size).startingAt s).ReachableWhen (fun _ e => e ≠ .cancel k) s' →
        s'.waitingFor k = some l ∧ ∀ j, s'.holds k j = false := by
  obtain ⟨s, hs, hstranded, hword, hothers, hholds⟩ := reach_stranded hij hik hjk hi hj hk hl
  have hvalid : s.Valid size := hs.invariant (fun _ hinit => .of_idle hinit.2.1 hinit.2.2)
    fun _ _ _ hvalid _ hnext => hvalid.step (.of_next hnext)
  refine ⟨s, hs, hstranded.waits, hword, hothers, hholds, fun s' hs' => ?_⟩
  have hforever := hstranded.forever hvalid hs'
  exact ⟨hforever.waits, hforever.outside⟩

theorem qspin_strands_waiter_three :
    ∃ s, (callSystem algorithm (.of 3 1)).ReachableWhen NoTimeout s ∧
      s.waitingFor 2 = some 0 ∧ (s.shm.entry 0).lockWord = 0 ∧
      (∀ m ≠ 2, s.waitingFor m = none) ∧ (∀ m j, s.holds m j = false) ∧
      ∀ s', ((callSystem algorithm (.of 3 1)).startingAt s).ReachableWhen
          (fun _ e => e ≠ .cancel 2) s' →
        s'.waitingFor 2 = some 0 ∧ ∀ j, s'.holds 2 j = false := by
  apply qspin_strands_waiter (i := 0) (j := 1) <;> decide

end Run

end CxlLock.Qspinlock
