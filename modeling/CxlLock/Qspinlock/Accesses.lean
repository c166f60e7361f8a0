import CxlLock.Qspinlock.GlobalLock
import CxlLock.SoftwareConsistency

/-!
# The qspinlock by its accesses (`qspinlock_global_lock.cpp`)

The operations with every access to shared memory and every flush, in the order of the source.
The loop of the slow path has no bound there and is stuck here when its `fuel` is used up; an
`acquire_lock` that nobody interferes with needs one turn.  The wait of `release_lock` for its
successor is bounded in the source, and invalidates the line of the node's own record in every
turn; `invalidate_cache` is a flush.

As in the MCS lock, an `acquire_lock` that has linked itself behind another node has flushed the
record of that node and not the entry (`acquireLock_writtenBack_iff`).  The other operations
write back all they store.
-/

namespace CxlLock.Qspinlock

open AccessProgram

/-- The 32-bit words of the records. -/
inductive Word
  | lockWord (l : LockId)
  | ownerNode (l : LockId)
  | pendingTail (l : LockId)
  | grantInProgress (l : LockId)
  | nextNode (n : NodeId)
  | locked (n : NodeId)
  | waitingLock (n : NodeId)
  | mcsTail (n : NodeId)
  deriving DecidableEq

/-- The offset of a word in the region. -/
def Word.offset (off : ShmOffset) : Word → ShmOffset
  | .lockWord l => getEntryOffset l off + 0
  | .ownerNode l => getEntryOffset l off + 4
  | .pendingTail l => getEntryOffset l off + 8
  | .grantInProgress l => getEntryOffset l off + 12
  | .nextNode n => getNodeOffset n off + 0
  | .locked n => getNodeOffset n off + 4
  | .waitingLock n => getNodeOffset n off + 8
  | .mcsTail n => getNodeOffset n off + 12

/-- The lines of the words. -/
def lines (off : ShmOffset) : Lines Word Nat := linesOf (Word.offset off)

/-- A program over the words. -/
abbrev Accesses (α : Type) := Prog Word UInt32 α

namespace Accesses

/-- The stores of `initialize` to one entry. -/
def initializeEntry (lid : LockId) (k : Accesses LockResult) : Accesses LockResult :=
  .store (.lockWord lid) 0 <|
  .store (.ownerNode lid) invalidNodeId <|
  .store (.pendingTail lid) invalidNodeId <|
  .store (.grantInProgress lid) 0 <|
  .flush ⟨.lockWord lid, 64⟩ k

/-- The stores of `initialize` to one queue node. -/
def initializeNode (nid : NodeId) (k : Accesses LockResult) : Accesses LockResult :=
  .store (.nextNode nid) invalidNodeId <|
  .store (.locked nid) 0 <|
  .store (.waitingLock nid) invalidLockId <|
  .store (.mcsTail nid) 0 <|
  .flush ⟨.nextNode nid, 64⟩ k

/-- The words of the locks and nodes that the state region holds. -/
def inState (nodeCount : UInt32) : Word → Bool
  | .lockWord l | .ownerNode l | .pendingTail l | .grantInProgress l => l < maxLockCount
  | .nextNode n | .locked n | .waitingLock n | .mcsTail n => n < nodeCount

/-- `QspinlockGlobalLockAlgorithm::initialize`. -/
def initializeShm (nodeCount : UInt32) : Accesses LockResult :=
  if nodeCount = 0 ∨ maxNodeCount < nodeCount then .ret .errorInvalidParam
  else
    .fill ⟨.lockWord 0, (getStateSize nodeCount).toNat⟩ (inState nodeCount) 0 <|
    Prog.forEach (idsBelow maxLockCount) initializeEntry <|
    Prog.forEach (idsBelow nodeCount) initializeNode <|
    .ret .success

/-- The slow path of `acquire_lock` up to the exchange of the tail; returns `old_word`. -/
def swapTail (nodeId : NodeId) (lockId : LockId) : Nat → Accesses UInt32
  | 0 => .stuck
  | fuel + 1 =>
      .load (.lockWord lockId) fun oldWord =>
      .compareExchange (.lockWord lockId) oldWord
        (qspinSetTail oldWord (qspinNodeToTail nodeId)) fun ok =>
      if ok then .ret oldWord else swapTail nodeId lockId fuel

/-- The slow path of `acquire_lock` behind the exchange. -/
def linkTail (nodeId : NodeId) (lockId : LockId) (oldWord : UInt32) : Accesses LockResult :=
  if qspinTailIdx oldWord = 0 then
    .store (.pendingTail lockId) nodeId <|
    .flush ⟨.pendingTail lockId, 4⟩ <|
    .ret .success
  else
    .store (.nextNode (qspinTailToNode (qspinTailIdx oldWord))) nodeId <|
    .flush ⟨.nextNode (qspinTailToNode (qspinTailIdx oldWord)), 4⟩ <|
    .ret .success

/-- `QspinlockGlobalLockAlgorithm::acquire_lock`. -/
def acquireLock (nodeCount : UInt32) (fuel : Nat) (nodeId : NodeId) (lockId : LockId) :
    Accesses LockResult :=
  if paramError nodeCount nodeId lockId then .ret .errorInvalidParam
  else
    .store (.nextNode nodeId) invalidNodeId <|
    .store (.locked nodeId) 1 <|
    .store (.waitingLock nodeId) lockId <|
    .flush ⟨.nextNode nodeId, 64⟩ <|
    .compareExchange (.lockWord lockId) 0 (qspinHeldWord (qspinNodeToTail nodeId)) fun ok =>
    if ok then
      .store (.locked nodeId) 2 <|
      .store (.ownerNode lockId) nodeId <|
      .store (.pendingTail lockId) nodeId <|
      .flush ⟨.ownerNode lockId, 4⟩ <|
      .flush ⟨.pendingTail lockId, 4⟩ <|
      .flush ⟨.nextNode nodeId, 64⟩ <|
      .ret .success
    else (swapTail nodeId lockId fuel).bind (linkTail nodeId lockId)

/-- The reset of the caller's own record at the end of `release_lock`. -/
def resetNode (nodeId : NodeId) : Accesses LockResult :=
  .store (.nextNode nodeId) invalidNodeId <|
  .store (.locked nodeId) 0 <|
  .store (.waitingLock nodeId) invalidLockId <|
  .flush ⟨.nextNode nodeId, 64⟩ <|
  .ret .success

/-- The wait of `release_lock` for the successor, with the number of turns that are left. -/
def waitForLink (nodeId : NodeId) : Nat → Accesses Unit
  | 0 => .ret ()
  | left + 1 =>
      .load (.nextNode nodeId) fun next =>
      if next = invalidNodeId then
        .flush ⟨.nextNode nodeId, 4⟩ <| waitForLink nodeId left
      else .ret ()

/-- The turns that `release_lock` waits: the turn in which `spin_count` passes 1000000 is the
last. -/
def waitTurns : Nat := 1000001

/-- The forced exit of `release_lock`. -/
def forceRelease (nodeId : NodeId) (lockId : LockId) : Accesses LockResult :=
  .store (.ownerNode lockId) invalidNodeId <|
  .flush ⟨.ownerNode lockId, 4⟩ <|
  .store (.locked nodeId) 0 <|
  .store (.waitingLock nodeId) invalidLockId <|
  .flush ⟨.nextNode nodeId, 64⟩ <|
  .ret .success

/-- The hand-over to the successor in `release_lock`. -/
def passLock (nodeId : NodeId) (lockId : LockId) : Accesses LockResult :=
  .load (.nextNode nodeId) fun succId =>
  .store (.pendingTail lockId) succId <|
  .store (.ownerNode lockId) succId <|
  .store (.lockWord lockId) (qspinHeldWord (qspinNodeToTail succId)) <|
  .flush ⟨.lockWord lockId, 4⟩ <|
  .flush ⟨.pendingTail lockId, 4⟩ <|
  .flush ⟨.ownerNode lockId, 4⟩ <|
  .store (.locked succId) 2 <|
  .flush ⟨.locked succId, 4⟩ <|
  resetNode nodeId

/-- `release_lock` behind its wait. -/
def afterWait (nodeId : NodeId) (lockId : LockId) : Accesses LockResult :=
  .load (.nextNode nodeId) fun next =>
  if next = invalidNodeId then forceRelease nodeId lockId else passLock nodeId lockId

/-- `QspinlockGlobalLockAlgorithm::release_lock`. -/
def releaseLock (nodeCount : UInt32) (nodeId : NodeId) (lockId : LockId) :
    Accesses LockResult :=
  if paramError nodeCount nodeId lockId then .ret .errorInvalidParam
  else
    .load (.ownerNode lockId) fun owner =>
    if owner ≠ nodeId then .ret .errorNotOwner
    else
      .load (.nextNode nodeId) fun next =>
      if next = invalidNodeId then
        .load (.lockWord lockId) fun oldWord =>
        .compareExchange (.lockWord lockId) oldWord
          (if qspinTailIdx oldWord = qspinNodeToTail nodeId then 0 else oldWord) fun ok =>
        if ok ∧ qspinTailIdx oldWord = qspinNodeToTail nodeId then
          .store (.pendingTail lockId) invalidNodeId <|
          .store (.ownerNode lockId) invalidNodeId <|
          .flush ⟨.lockWord lockId, 64⟩ <|
          resetNode nodeId
        else (waitForLink nodeId waitTurns).bind fun _ => afterWait nodeId lockId
      else passLock nodeId lockId

/-- `QspinlockGlobalLockAlgorithm::check_grant`. -/
def checkGrant (nodeCount : UInt32) (lockId : LockId) : Accesses NodeId :=
  if nodeCount = 0 then .ret invalidNodeId
  else if lockId ≥ maxLockCount then .ret invalidNodeId
  else
    .load (.lockWord lockId) fun lockWord =>
    if qspinLocked lockWord ≠ 0 then .ret invalidNodeId
    else if qspinTailIdx lockWord = 0 then .ret invalidNodeId
    else
      .load (.grantInProgress lockId) fun gip =>
      if gip ≠ 0 then .ret invalidNodeId
      else
        .load (.pendingTail lockId) fun head =>
        if head = invalidNodeId ∨ head ≥ nodeCount then .ret invalidNodeId
        else
          .load (.locked head) fun headLocked =>
          .load (.waitingLock head) fun headWaitLock =>
          if headLocked ≠ 1 ∨ headWaitLock ≠ lockId then .ret invalidNodeId
          else
            .store (.grantInProgress lockId) 1 <|
            .flush ⟨.grantInProgress lockId, 4⟩ <|
            .ret head

/-- `QspinlockGlobalLockAlgorithm::grant_lock`. -/
def grantLock (nodeCount : UInt32) (nodeId : NodeId) (lockId : LockId) : Accesses LockResult :=
  if paramError nodeCount nodeId lockId then .ret .errorInvalidParam
  else
    .store (.locked nodeId) 2 <|
    .flush ⟨.locked nodeId, 4⟩ <|
    .store (.ownerNode lockId) nodeId <|
    .store (.lockWord lockId) (qspinHeldWord (qspinNodeToTail nodeId)) <|
    .flush ⟨.lockWord lockId, 4⟩ <|
    .flush ⟨.ownerNode lockId, 4⟩ <|
    .load (.nextNode nodeId) fun nextHead =>
    .store (.pendingTail lockId) nextHead <|
    .flush ⟨.pendingTail lockId, 4⟩ <|
    .store (.grantInProgress lockId) 0 <|
    .flush ⟨.grantInProgress lockId, 4⟩ <|
    .ret .success

/-- The accesses of a call. -/
def program (nodeCount : UInt32) (fuel : Nat) : Operation → Accesses Answer
  | .initializeShm count => (initializeShm count).bind fun rc => .ret (.inl rc)
  | .acquireLock nodeId lockId =>
      (acquireLock nodeCount fuel nodeId lockId).bind fun rc => .ret (.inl rc)
  | .releaseLock nodeId lockId =>
      (releaseLock nodeCount nodeId lockId).bind fun rc => .ret (.inl rc)
  | .checkGrant count lockId => (checkGrant count lockId).bind fun n => .ret (.inr n)
  | .grantLock nodeId lockId =>
      (grantLock nodeCount nodeId lockId).bind fun rc => .ret (.inl rc)

/-- One iteration of `TwoTierLock::poll_for_grant`, the qspinlock path. -/
def pollForGrant (nodeId : NodeId) (lockId : LockId) : Accesses Bool :=
  .load (.locked nodeId) fun nodeLocked =>
  .load (.waitingLock nodeId) fun waitingLock =>
  .ret (nodeLocked == 2 && waitingLock == lockId)

/-- The words that the iteration reads. -/
def pollReads (nodeId : NodeId) : List Word := [.locked nodeId, .waitingLock nodeId]

/-- The test of the iteration. -/
def granted (nodeId : NodeId) (lockId : LockId) (m : Word → UInt32) : Bool :=
  m (.locked nodeId) == 2 && m (.waitingLock nodeId) == lockId

lemma pollForGrant_loads (n : NodeId) (l : LockId) :
    (pollForGrant n l).Every fun t _ => ∀ e ∈ t, ∃ x ∈ pollReads n, ∃ v, e = .load x v := by
  simp [pollForGrant, pollReads, Prog.Every]

lemma pollForGrant_outcome (n : NodeId) (l : LockId) (m : Word → UInt32) :
    (pollForGrant n l).outcome m = some (granted n l m, m) := by
  simp [pollForGrant, granted]

/-! ## Write-back -/

section WriteBack

variable {off : ShmOffset}

/-- The line of a word. -/
def lineOf (off : ShmOffset) : Word → Nat
  | .lockWord l | .ownerNode l | .pendingTail l | .grantInProgress l => entryLine off l
  | .nextNode n | .locked n | .waitingLock n | .mcsTail n => recordLine off n

lemma lines_line (hoff : off.toNat % 64 = 0) (x : Word) : (lines off).line x = lineOf off x := by
  cases x with
  | lockWord l => exact lineAt_entry hoff l (by decide : (0 : UInt64).toNat < 64)
  | ownerNode l => exact lineAt_entry hoff l (by decide : (4 : UInt64).toNat < 64)
  | pendingTail l => exact lineAt_entry hoff l (by decide : (8 : UInt64).toNat < 64)
  | grantInProgress l => exact lineAt_entry hoff l (by decide : (12 : UInt64).toNat < 64)
  | nextNode n => exact lineAt_record hoff n (by decide : (0 : UInt64).toNat < 64)
  | locked n => exact lineAt_record hoff n (by decide : (4 : UInt64).toNat < 64)
  | waitingLock n => exact lineAt_record hoff n (by decide : (8 : UInt64).toNat < 64)
  | mcsTail n => exact lineAt_record hoff n (by decide : (12 : UInt64).toNat < 64)

lemma lines_flushed (hoff : off.toNat % 64 = 0) {x : Word} {bytes ln : Nat} (hpos : 0 < bytes)
    (hle : bytes ≤ 64) : (lines off).flushed ⟨x, bytes⟩ ln = true ↔ ln = lineOf off x := by
  rw [← lines_line hoff]
  exact flushed_of_le hpos hle

/-- The accesses of `initializeEntry`. -/
def entryTurn (lid : LockId) : List (Event Word UInt32) :=
  [.store (.lockWord lid) 0, .store (.ownerNode lid) invalidNodeId,
    .store (.pendingTail lid) invalidNodeId, .store (.grantInProgress lid) 0,
    .flush ⟨.lockWord lid, 64⟩]

/-- The accesses of `initializeNode`. -/
def nodeTurn (nid : NodeId) : List (Event Word UInt32) :=
  [.store (.nextNode nid) invalidNodeId, .store (.locked nid) 0,
    .store (.waitingLock nid) invalidLockId, .store (.mcsTail nid) 0, .flush ⟨.nextNode nid, 64⟩]

lemma every_initializeEntry (lid : LockId) (k : Accesses LockResult)
    (Q : List (Event Word UInt32) → LockResult → Prop) :
    (initializeEntry lid k).Every Q ↔ k.Every fun t => Q (entryTurn lid ++ t) := Iff.rfl

lemma every_initializeNode (nid : NodeId) (k : Accesses LockResult)
    (Q : List (Event Word UInt32) → LockResult → Prop) :
    (initializeNode nid k).Every Q ↔ k.Every fun t => Q (nodeTurn nid ++ t) := Iff.rfl

lemma initializeShm_writtenBack (hoff : off.toNat % 64 = 0) (nodeCount : UInt32) :
    (initializeShm nodeCount).Every fun t _ => WrittenBack (lines off) t := by
  unfold initializeShm
  split_ifs with hcount
  · exact writtenBack_nil
  · rw [Prog.Every, Prog.every_forEach every_initializeEntry,
      Prog.every_forEach every_initializeNode, Prog.Every]
    refine writtenBack_initialize (g := lines off) rfl hoff ?_ (fun lid => ?_) fun nid => ?_
    · show getEntryOffset 0 off + 0 = off
      simp [getEntryOffset, entryOffset]
    · simp [entryTurn, lines_line hoff, lines_flushed hoff, lineOf]
    · simp [nodeTurn, lines_line hoff, lines_flushed hoff, lineOf]

/-- The slow path writes nothing before it exchanges the tail. -/
lemma swapTail_every (off : ShmOffset) (n : NodeId) (l : LockId) (fuel : Nat) :
    (swapTail n l fuel).Every fun t old => ∃ t', ReadOnly (lines off) t' ∧
      t = t' ++ [.exchange (.lockWord l) old (qspinSetTail old (qspinNodeToTail n))] := by
  induction fuel with
  | zero => trivial
  | succ fuel ih =>
      simp only [swapTail, Prog.Every, if_true, Bool.false_eq_true, if_false]
      intro word
      constructor
      · exact ⟨[.load _ _], by simp [readOnly_cons, Event.Touches], rfl⟩
      · refine ih.mono fun t old h => ?_
        obtain ⟨t', hread, rfl⟩ := h
        refine ⟨.load _ _ :: .exchangeFailed _ _ :: t', ?_, rfl⟩
        simpa [readOnly_cons, Event.Touches] using hread

/-- The exchange of the lock word has found another node as the tail. -/
def JoinsQueue (lockId : LockId) (t : List (Event Word UInt32)) : Prop :=
  ∃ oldWord newWord, qspinTailIdx oldWord ≠ 0 ∧ .exchange (.lockWord lockId) oldWord newWord ∈ t

/-- The new tail is not written back when the queue was not empty. -/
lemma acquireLock_writtenBack_iff (hoff : off.toNat % 64 = 0) (nodeCount : UInt32) (fuel : Nat)
    (n : NodeId) (l : LockId) :
    (acquireLock nodeCount fuel n l).Every fun t _ =>
      WrittenBack (lines off) t ↔ ¬ JoinsQueue l t := by
  unfold acquireLock
  split_ifs with hparam
  · simp [Prog.Every, JoinsQueue]
  · obtain ⟨hn, -, hl⟩ : n ≠ invalidNodeId ∧ n < nodeCount ∧ l < maxLockCount := by
      simpa [paramError, and_assoc] using hparam
    have hline := entryLine_ne_recordLine hoff hl
    have hzero : qspinTailIdx 0 = 0 := by decide
    simp only [Prog.Every, Prog.every_bind, if_true, Bool.false_eq_true, if_false]
    constructor
    · simp [JoinsQueue, lines_line hoff, lines_flushed hoff, lineOf, hzero]
    · refine (swapTail_every off n l fuel).mono fun t old hswap => ?_
      obtain ⟨t', hread, rfl⟩ := hswap
      unfold linkTail
      by_cases hempty : qspinTailIdx old = 0
      · have hother : ∀ word, qspinTailIdx word ≠ 0 → word ≠ old := by
          rintro word hword rfl
          exact hword hempty
        simpa [hempty, Prog.Every, JoinsQueue, lines_line hoff, lines_flushed hoff, lineOf,
          hread.writtenBack_append, hread.exchange_notMem] using hother
      · simp [hempty, Prog.Every, JoinsQueue, lines_line hoff, lines_flushed hoff, lineOf,
          hread.writtenBack_append, hread.exchange_notMem, hline]

/-- Without interference the exchange finds another node exactly when the lock word has one. -/
lemma joinsQueue_of_exec {nodeCount : UInt32} {fuel : Nat} {n : NodeId} {l : LockId}
    {m m' : Word → UInt32} {t : List (Event Word UInt32)} {rc : LockResult}
    (h : (acquireLock nodeCount fuel n l).exec m = some (t, rc, m')) :
    JoinsQueue l t ↔ paramError nodeCount n l = false ∧ qspinTailIdx (m (.lockWord l)) ≠ 0 := by
  have hzero : qspinTailIdx 0 = 0 := by decide
  unfold acquireLock at h
  by_cases hparam : paramError nodeCount n l
  · simp only [hparam, if_true, Prog.exec, Option.some.injEq, Prod.mk.injEq] at h
    simp [← h.1, JoinsQueue, hparam]
  by_cases hfree : m (.lockWord l) = 0
  · simp [hparam, Prog.exec, hfree] at h
    simp [← h.1, JoinsQueue, hfree, hzero]
  cases fuel with
  | zero => simp [hparam, swapTail, Prog.bind, Prog.exec, hfree] at h
  | succ fuel =>
      by_cases hempty : qspinTailIdx (m (.lockWord l)) = 0
      · simp [hparam, swapTail, Prog.bind, Prog.exec, hfree, linkTail, hempty] at h
        simp [← h.1, JoinsQueue, hempty]
      · simp [hparam, swapTail, Prog.bind, Prog.exec, hfree, linkTail, hempty] at h
        simp [← h.1, JoinsQueue, hempty, hparam]

/-- The wait for the successor writes nothing. -/
lemma waitForLink_silent (n : NodeId) (left : Nat) :
    (waitForLink n left).Every fun t _ => ∀ e ∈ t, e.Silent := by
  induction left with
  | zero => simp [waitForLink, Prog.Every]
  | succ left ih =>
      simp only [waitForLink, Prog.Every]
      intro next
      by_cases hnext : next = invalidNodeId
      · rw [if_pos hnext]
        refine ih.mono fun t _ hsilent => ?_
        simpa [Event.Silent] using hsilent
      · simp [hnext, Prog.Every, Event.Silent]

lemma passLock_writtenBack (hoff : off.toNat % 64 = 0) (n : NodeId) (l : LockId) :
    (passLock n l).Every fun t _ => WrittenBack (lines off) t := by
  simp [passLock, resetNode, Prog.Every, lines_line hoff, lines_flushed hoff, lineOf]

/-- The rest of a release that has waited; it flushes the entry on both exits. -/
lemma afterWait_writtenBack (hoff : off.toNat % 64 = 0) (n : NodeId) (l : LockId) :
    (afterWait n l).Every fun t _ =>
      FlushedIn (lines off) (entryLine off l) t ∧ WrittenBack (lines off) t := by
  simp only [afterWait, Prog.Every]
  intro next
  by_cases hnext : next = invalidNodeId
  · simp [hnext, forceRelease, Prog.Every, lines_line hoff, lines_flushed hoff, lineOf]
  · simp [hnext, passLock, resetNode, Prog.Every, lines_line hoff, lines_flushed hoff, lineOf]

lemma releaseLock_writtenBack (hoff : off.toNat % 64 = 0) (nodeCount : UInt32) (n : NodeId)
    (l : LockId) : (releaseLock nodeCount n l).Every fun t _ => WrittenBack (lines off) t := by
  unfold releaseLock
  split_ifs with hparam
  · exact writtenBack_nil
  · simp only [Prog.Every, writtenBack_load]
    intro owner
    by_cases howner : owner = n
    · simp only [howner, ne_eq, not_true_eq_false, if_false, Prog.Every, writtenBack_load]
      intro next
      by_cases hnext : next = invalidNodeId
      · simp only [hnext, if_true, Prog.Every, Bool.false_eq_true, false_and, true_and, if_false,
          Prog.every_bind, writtenBack_load, writtenBack_exchangeFailed, writtenBack_exchange]
        intro oldWord
        have hwait : (waitForLink n waitTurns).Every fun t _ => (afterWait n l).Every fun t' _ =>
            FlushedIn (lines off) (entryLine off l) (t ++ t') ∧
              WrittenBack (lines off) (t ++ t') := by
          refine (waitForLink_silent n waitTurns).mono fun t _ hsilent => ?_
          refine (afterWait_writtenBack hoff n l).mono fun t' _ h => ?_
          exact ⟨flushedIn_append.2 (.inr h.1),
            (readOnly_of_silent hsilent).writtenBack_append.2 h.2⟩
        constructor
        · split_ifs with htail
          · simp [resetNode, Prog.Every, lines_line hoff, lines_flushed hoff, lineOf]
          · rw [Prog.every_bind, lines_line hoff]
            exact hwait
        · exact hwait.mono fun t _ h => h.mono fun t' _ h' => h'.2
      · rw [if_neg hnext]
        exact passLock_writtenBack hoff n l
    · simp [howner, Prog.Every]

lemma checkGrant_writtenBack (hoff : off.toNat % 64 = 0) (nodeCount : UInt32) (l : LockId) :
    (checkGrant nodeCount l).Every fun t _ => WrittenBack (lines off) t := by
  unfold checkGrant
  split_ifs with hcount hl
  · exact writtenBack_nil
  · exact writtenBack_nil
  · simp only [Prog.Every, writtenBack_load]
    intro word
    split_ifs with hlocked htail
    · exact writtenBack_nil
    · exact writtenBack_nil
    · simp only [Prog.Every, writtenBack_load]
      intro gip
      by_cases hgip : gip = 0
      · simp only [hgip, ne_eq, not_true_eq_false, if_false, Prog.Every, writtenBack_load]
        intro head
        split_ifs with hhead
        · exact writtenBack_nil
        · simp only [Prog.Every, writtenBack_load]
          intro headLocked headWaitLock
          split_ifs with hwait
          · exact writtenBack_nil
          · simp [Prog.Every, lines_line hoff, lines_flushed hoff, lineOf]
      · simp [hgip, Prog.Every]

lemma grantLock_writtenBack (hoff : off.toNat % 64 = 0) (nodeCount : UInt32) (n : NodeId)
    (l : LockId) : (grantLock nodeCount n l).Every fun t _ => WrittenBack (lines off) t := by
  unfold grantLock
  split_ifs with hparam
  · exact writtenBack_nil
  · simp [Prog.Every, lines_line hoff, lines_flushed hoff, lineOf]

/-- The accesses of a call that leave a line in the private copy. -/
def Unflushed : Operation → List (Event Word UInt32) → Prop
  | .acquireLock _ l, t => JoinsQueue l t
  | _, _ => False

/-- The memory in which a call that nobody interferes with leaves a line in the private copy. -/
def UnflushedFrom (nodeCount : UInt32) : Operation → (Word → UInt32) → Prop
  | .acquireLock n l, m =>
      paramError nodeCount n l = false ∧ qspinTailIdx (m (.lockWord l)) ≠ 0
  | _, _ => False

lemma program_writtenBack_iff (hoff : off.toNat % 64 = 0) (nodeCount : UInt32) (fuel : Nat)
    (op : Operation) :
    (program nodeCount fuel op).Every fun t _ =>
      WrittenBack (lines off) t ↔ ¬ Unflushed op t := by
  cases op with
  | initializeShm count =>
      simpa [program, Prog.every_bind, Prog.Every, Unflushed] using
        initializeShm_writtenBack hoff count
  | acquireLock n l =>
      simpa [program, Prog.every_bind, Prog.Every, Unflushed] using
        acquireLock_writtenBack_iff hoff nodeCount fuel n l
  | releaseLock n l =>
      simpa [program, Prog.every_bind, Prog.Every, Unflushed] using
        releaseLock_writtenBack hoff nodeCount n l
  | checkGrant count l =>
      simpa [program, Prog.every_bind, Prog.Every, Unflushed] using
        checkGrant_writtenBack hoff count l
  | grantLock n l =>
      simpa [program, Prog.every_bind, Prog.Every, Unflushed] using
        grantLock_writtenBack hoff nodeCount n l

lemma unflushed_of_exec {nodeCount : UInt32} {fuel : Nat} {op : Operation}
    {m m' : Word → UInt32} {t : List (Event Word UInt32)} {r : Answer}
    (h : (program nodeCount fuel op).exec m = some (t, r, m')) :
    Unflushed op t ↔ UnflushedFrom nodeCount op m := by
  cases op with
  | acquireLock n l =>
      rw [program, Prog.exec_bind] at h
      obtain ⟨⟨t', rc, m''⟩, hexec, heq⟩ := Option.bind_eq_some_iff.1 h
      obtain ⟨rfl, -⟩ : t' = t ∧ _ := by simpa [Prog.exec] using heq
      exact joinsQueue_of_exec hexec
  | initializeShm count => rfl
  | releaseLock n l => rfl
  | checkGrant count l => rfl
  | grantLock n l => rfl

end WriteBack

end Accesses

/-! ## The whole calls -/

/-- The value of a word. -/
def wordOf (shm : QspinShm) : Word → UInt32
  | .lockWord l => (shm.entry l).lockWord
  | .ownerNode l => (shm.entry l).ownerNode
  | .pendingTail l => (shm.entry l).pendingTail
  | .grantInProgress l => (shm.entry l).grantInProgress
  | .nextNode n => (shm.node n).nextNode
  | .locked n => (shm.node n).locked
  | .waitingLock n => (shm.node n).waitingLock
  | .mcsTail n => (shm.node n).mcsTail

section Words

variable (shm : QspinShm) (l : LockId) (n : NodeId) (v : UInt32)

lemma wordOf_storeWord :
    wordOf (shm.storeWord l v) = Function.update (wordOf shm) (.lockWord l) v := by
  funext x
  cases x <;> simp [wordOf, Function.update_apply]

lemma wordOf_storeOwner :
    wordOf (shm.storeOwner l v) = Function.update (wordOf shm) (.ownerNode l) v := by
  funext x
  cases x <;> simp [wordOf, Function.update_apply]

lemma wordOf_storePending :
    wordOf (shm.storePending l v) = Function.update (wordOf shm) (.pendingTail l) v := by
  funext x
  cases x <;> simp [wordOf, Function.update_apply]

lemma wordOf_storeGip :
    wordOf (shm.storeGip l v) = Function.update (wordOf shm) (.grantInProgress l) v := by
  funext x
  cases x <;> simp [wordOf, Function.update_apply]

lemma wordOf_storeNext :
    wordOf (shm.storeNext n v) = Function.update (wordOf shm) (.nextNode n) v := by
  funext x
  cases x with
  | mcsTail k => by_cases h : k = n <;> simp [wordOf, QspinShm.storeNext, h]
  | _ => simp [wordOf, Function.update_apply]

lemma wordOf_storeLocked :
    wordOf (shm.storeLocked n v) = Function.update (wordOf shm) (.locked n) v := by
  funext x
  cases x with
  | mcsTail k => by_cases h : k = n <;> simp [wordOf, QspinShm.storeLocked, h]
  | _ => simp [wordOf, Function.update_apply]

lemma wordOf_storeWaiting :
    wordOf (shm.storeWaiting n v) = Function.update (wordOf shm) (.waitingLock n) v := by
  funext x
  cases x with
  | mcsTail k => by_cases h : k = n <;> simp [wordOf, QspinShm.storeWaiting, h]
  | _ => simp [wordOf, Function.update_apply]

end Words

namespace Accesses

/-- The words that a turn of the loop over the locks sets. -/
def ofEntry (lid : LockId) : Word → Bool
  | .lockWord l | .ownerNode l | .pendingTail l | .grantInProgress l => l == lid
  | .nextNode _ | .locked _ | .waitingLock _ | .mcsTail _ => false

/-- The words that a turn of the loop over the nodes sets. -/
def ofNode (nid : NodeId) : Word → Bool
  | .lockWord _ | .ownerNode _ | .pendingTail _ | .grantInProgress _ => false
  | .nextNode n | .locked n | .waitingLock n | .mcsTail n => n == nid

/-- What the loops of `initialize` set a word to. -/
def initialValue : Word → UInt32
  | .lockWord _ | .grantInProgress _ | .locked _ | .mcsTail _ => 0
  | .ownerNode _ | .pendingTail _ | .nextNode _ => invalidNodeId
  | .waitingLock _ => invalidLockId

lemma initializeEntry_outcome (lid : LockId) (k : Accesses LockResult) (m : Word → UInt32) :
    (initializeEntry lid k).outcome m =
      k.outcome fun x => if ofEntry lid x then initialValue x else m x := by
  simp only [initializeEntry, Prog.outcome_store, Prog.outcome_flush]
  congr 1
  funext x
  cases x <;> simp [Function.update_apply, ofEntry, initialValue]

lemma initializeNode_outcome (nid : NodeId) (k : Accesses LockResult) (m : Word → UInt32) :
    (initializeNode nid k).outcome m =
      k.outcome fun x => if ofNode nid x then initialValue x else m x := by
  simp only [initializeNode, Prog.outcome_store, Prog.outcome_flush]
  congr 1
  funext x
  cases x <;> simp [Function.update_apply, ofNode, initialValue]

variable (shm : QspinShm)

theorem initializeShm_outcome (nodeCount : UInt32) :
    (initializeShm nodeCount).outcome (wordOf shm) =
      some ((Qspinlock.initializeShm nodeCount shm).1,
        wordOf (Qspinlock.initializeShm nodeCount shm).2) := by
  unfold initializeShm Qspinlock.initializeShm
  split_ifs with hcount
  · simp
  · rw [Prog.outcome_fill, Prog.outcome_forEach initializeEntry_outcome,
      Prog.outcome_forEach initializeNode_outcome, Prog.outcome_ret]
    congr 2
    funext x
    cases x <;> simp [ofEntry, ofNode, initialValue, inState, mem_idsBelow, wordOf]
    all_goals split_ifs <;> rfl

/-- Without interference the first turn of the loop succeeds. -/
lemma swapTail_outcome (n : NodeId) (l : LockId) (fuel : Nat) :
    (swapTail n l (fuel + 1)).outcome (wordOf shm) =
      some ((shm.entry l).lockWord, wordOf (shm.storeWord l
        (qspinSetTail (shm.entry l).lockWord (qspinNodeToTail n)))) := by
  simp [swapTail, wordOf, wordOf_storeWord]

theorem acquireLock_outcome (nodeCount : UInt32) (fuel : Nat) (n : NodeId) (l : LockId) :
    (acquireLock nodeCount (fuel + 1) n l).outcome (wordOf shm) =
      some ((Qspinlock.acquireLock nodeCount n l shm).1,
        wordOf (Qspinlock.acquireLock nodeCount n l shm).2) := by
  unfold acquireLock Qspinlock.acquireLock
  by_cases hparam : paramError nodeCount n l
  · simp [hparam]
  · simp only [hparam, Bool.false_eq_true, if_false, Prog.outcome_store, Prog.outcome_flush,
      ← wordOf_storeNext, ← wordOf_storeLocked, ← wordOf_storeWaiting,
      Prog.outcome_compareExchange, if_true, Prog.outcome_bind]
    have hword : wordOf (((shm.storeNext n invalidNodeId).storeLocked n 1).storeWaiting n l)
        (.lockWord l) = ((prepareNode shm n l).entry l).lockWord := rfl
    rw [hword]
    split_ifs with hfree
    · simp [fastPath, prepareNode, wordOf_storeWord, wordOf_storeLocked, wordOf_storeOwner,
        wordOf_storePending, wordOf_storeNext, wordOf_storeWaiting]
    · rw [swapTail_outcome]
      by_cases hempty : qspinTailIdx (shm.entry l).lockWord = 0
      · simp [linkTail, slowPath, prepareNode, hempty, wordOf_storePending]
      · simp [linkTail, slowPath, prepareNode, hempty, wordOf_storeNext]

lemma waitForLink_outcome {n : NodeId} (left : Nat) :
    (waitForLink n left).outcome (wordOf shm) = some ((), wordOf shm) := by
  induction left with
  | zero => rfl
  | succ left ih =>
      simp only [waitForLink, Prog.outcome_load]
      split_ifs with hnext
      · rw [Prog.outcome_flush, ih]
      · rfl

lemma passLock_outcome (n : NodeId) (l : LockId) :
    (passLock n l).outcome (wordOf shm) =
      some (.success, wordOf (Qspinlock.passLock shm n l (shm.node n).nextNode)) := by
  simp [passLock, resetNode, Qspinlock.passLock, Qspinlock.resetNode, wordOf_storeWord,
    wordOf_storePending, wordOf_storeOwner, wordOf_storeLocked, wordOf_storeNext,
    wordOf_storeWaiting, wordOf]

theorem releaseLock_outcome (nodeCount : UInt32) (n : NodeId) (l : LockId) :
    (releaseLock nodeCount n l).outcome (wordOf shm) =
      some ((Qspinlock.releaseLock nodeCount n l shm).1,
        wordOf (Qspinlock.releaseLock nodeCount n l shm).2) := by
  unfold releaseLock Qspinlock.releaseLock
  by_cases hparam : paramError nodeCount n l
  · simp [hparam]
  by_cases howner : (shm.entry l).ownerNode = n
  · have howner' : wordOf shm (.ownerNode l) = n := howner
    have hsucc : wordOf shm (.nextNode n) = (shm.node n).nextNode := rfl
    have hword : wordOf shm (.lockWord l) = (shm.entry l).lockWord := rfl
    simp only [hparam, Prog.outcome_load, howner', howner, ne_eq, not_true_eq_false, if_false,
      Bool.false_eq_true, hsucc]
    by_cases hnext : (shm.node n).nextNode = invalidNodeId
    · by_cases hlast : qspinTailIdx (shm.entry l).lockWord = qspinNodeToTail n
      · simp [hnext, hword, hlast, resetNode, Qspinlock.emptyQueue, Qspinlock.resetNode,
          wordOf_storeWord, wordOf_storePending, wordOf_storeOwner, wordOf_storeLocked,
          wordOf_storeNext, wordOf_storeWaiting]
      · have hsame : Function.update (wordOf shm) (.lockWord l) (shm.entry l).lockWord =
            wordOf shm := Function.update_eq_self _ _
        simp [hnext, hword, hlast, waitForLink_outcome, hsame, afterWait, forceRelease, hsucc,
          Qspinlock.forceRelease, wordOf_storeOwner, wordOf_storeLocked, wordOf_storeWaiting]
    · simp [hnext, passLock_outcome]
  · simp [hparam, wordOf, howner]

theorem checkGrant_outcome (nodeCount : UInt32) (l : LockId) :
    (checkGrant nodeCount l).outcome (wordOf shm) =
      some ((Qspinlock.checkGrant nodeCount l shm).1,
        wordOf (Qspinlock.checkGrant nodeCount l shm).2) := by
  unfold checkGrant Qspinlock.checkGrant
  by_cases hcount : nodeCount = 0
  · simp [hcount]
  by_cases hl : l ≥ maxLockCount
  · simp [hcount, hl]
  have hword : wordOf shm (.lockWord l) = (shm.entry l).lockWord := rfl
  have hgip : wordOf shm (.grantInProgress l) = (shm.entry l).grantInProgress := rfl
  have hpending : wordOf shm (.pendingTail l) = (shm.entry l).pendingTail := rfl
  have hlocked : ∀ k, wordOf shm (.locked k) = (shm.node k).locked := fun _ => rfl
  have hwaiting : ∀ k, wordOf shm (.waitingLock k) = (shm.node k).waitingLock := fun _ => rfl
  simp only [hcount, hl, if_false, Prog.outcome_load, hword]
  by_cases hheld : qspinLocked (shm.entry l).lockWord = 0
  · by_cases htail : qspinTailIdx (shm.entry l).lockWord = 0
    · simp [hheld, htail]
    by_cases hfree : (shm.entry l).grantInProgress = 0
    · by_cases hhead : (shm.entry l).pendingTail = invalidNodeId ∨
          (shm.entry l).pendingTail ≥ nodeCount
      · simp [hheld, htail, hgip, hfree, hpending, hhead]
      · simp only [hheld, htail, hgip, hfree, hpending, hhead, hlocked, hwaiting, ne_eq,
          not_true_eq_false, if_false, Prog.outcome_load]
        split_ifs with hwait
        · simp
        · simp [wordOf_storeGip]
    · simp [hheld, htail, hgip, hfree]
  · simp [hheld]

theorem grantLock_outcome (nodeCount : UInt32) (n : NodeId) (l : LockId) :
    (grantLock nodeCount n l).outcome (wordOf shm) =
      some ((Qspinlock.grantLock nodeCount n l shm).1,
        wordOf (Qspinlock.grantLock nodeCount n l shm).2) := by
  unfold grantLock Qspinlock.grantLock
  split_ifs with hparam
  · simp
  · simp [grantStores, wordOf_storeLocked, wordOf_storeOwner, wordOf_storeWord,
      wordOf_storePending, wordOf_storeGip, wordOf]

/-- The test is that of the whole call. -/
lemma granted_wordOf (n : NodeId) (l : LockId) :
    granted n l (wordOf shm) = Qspinlock.pollGranted n l shm := rfl

end Accesses

end CxlLock.Qspinlock
