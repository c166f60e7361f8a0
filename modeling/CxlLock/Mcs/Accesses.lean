import CxlLock.Mcs.GlobalLock
import CxlLock.SoftwareConsistency

/-!
# The MCS lock by its accesses (`mcs_global_lock.cpp`)

The operations with every access to shared memory and every flush, in the order of the source.
The two loops that have no bound there are stuck here when their `fuel` is used up; an
`acquire_lock` that nobody interferes with needs two turns, and does what the whole call of
`Mcs.GlobalLock` does (`acquireLock_outcome`).

`acquire_lock` flushes the entry when it has found the queue empty.  Behind another node it
flushes the record of that node only, and the new tail stays in the private copy of the entry
(`acquireLock_writtenBack_iff`).  The other operations write back all they store.
-/

namespace CxlLock.Mcs

open AccessProgram

/-- The 32-bit words of the records. -/
inductive Word
  | tailNode (l : LockId)
  | headNode (l : LockId)
  | ownerNode (l : LockId)
  | nextNode (n : NodeId)
  | locked (n : NodeId)
  | waitingLock (n : NodeId)
  deriving DecidableEq

/-- The offset of a word in the region. -/
def Word.offset (off : ShmOffset) : Word → ShmOffset
  | .tailNode l => getEntryOffset l off + 0
  | .headNode l => getEntryOffset l off + 4
  | .ownerNode l => getEntryOffset l off + 8
  | .nextNode n => getNodeOffset n off + 0
  | .locked n => getNodeOffset n off + 4
  | .waitingLock n => getNodeOffset n off + 8

/-- The lines of the words. -/
def lines (off : ShmOffset) : Lines Word Nat := linesOf (Word.offset off)

/-- A program over the words. -/
abbrev Accesses (α : Type) := Prog Word UInt32 α

namespace Accesses

/-- The stores of `initialize` to one entry. -/
def initializeEntry (lid : LockId) (k : Accesses LockResult) : Accesses LockResult :=
  .store (.tailNode lid) invalidNodeId <|
  .store (.headNode lid) invalidNodeId <|
  .store (.ownerNode lid) invalidNodeId <|
  .flush ⟨.tailNode lid, 64⟩ k

/-- The store of `initialize` to one queue node. -/
def initializeNode (nid : NodeId) (k : Accesses LockResult) : Accesses LockResult :=
  .store (.waitingLock nid) invalidLockId <|
  .flush ⟨.nextNode nid, 64⟩ k

/-- The words of the locks and nodes that the state region holds. -/
def inState (nodeCount : UInt32) : Word → Bool
  | .tailNode l | .headNode l | .ownerNode l => l < maxLockCount
  | .nextNode n | .locked n | .waitingLock n => n < nodeCount

/-- `McsGlobalLockAlgorithm::initialize`. -/
def initializeShm (nodeCount : UInt32) : Accesses LockResult :=
  if nodeCount = 0 ∨ maxNodeCount < nodeCount then .ret .errorInvalidParam
  else
    .fill ⟨.tailNode 0, (getStateSize nodeCount).toNat⟩ (inState nodeCount) 0 <|
    Prog.forEach (idsBelow maxLockCount) initializeEntry <|
    Prog.forEach (idsBelow nodeCount) initializeNode <|
    .ret .success

/-- The loop of `acquire_lock` on the tail; returns `old_tail`. -/
def swapTail (nodeId : NodeId) (lockId : LockId) : Nat → NodeId → Accesses NodeId
  | 0, _ => .stuck
  | fuel + 1, oldTail =>
      .compareExchange (.tailNode lockId) oldTail nodeId fun ok =>
      if ok then .ret oldTail
      else
        .load (.tailNode lockId) fun oldTail =>
        if oldTail = nodeId then .ret oldTail else swapTail nodeId lockId fuel oldTail

/-- `acquire_lock` behind its loop. -/
def linkTail (nodeId : NodeId) (lockId : LockId) (oldTail : NodeId) : Accesses LockResult :=
  if oldTail = invalidNodeId then
    .store (.headNode lockId) nodeId <|
    .flush ⟨.tailNode lockId, 64⟩ <|
    .ret .success
  else
    .store (.nextNode oldTail) nodeId <|
    .flush ⟨.nextNode oldTail, 64⟩ <|
    .ret .success

/-- `McsGlobalLockAlgorithm::acquire_lock`. -/
def acquireLock (nodeCount : UInt32) (fuel : Nat) (nodeId : NodeId) (lockId : LockId) :
    Accesses LockResult :=
  if paramError nodeCount nodeId lockId then .ret .errorInvalidParam
  else
    .store (.nextNode nodeId) invalidNodeId <|
    .store (.locked nodeId) 1 <|
    .store (.waitingLock nodeId) lockId <|
    .flush ⟨.nextNode nodeId, 64⟩ <|
    (swapTail nodeId lockId fuel invalidNodeId).bind (linkTail nodeId lockId)

/-- The reset of the caller's own record at the end of `release_lock`. -/
def resetNode (nodeId : NodeId) : Accesses LockResult :=
  .store (.nextNode nodeId) invalidNodeId <|
  .store (.locked nodeId) 0 <|
  .store (.waitingLock nodeId) invalidLockId <|
  .flush ⟨.nextNode nodeId, 64⟩ <|
  .ret .success

/-- The loop of `release_lock` that waits for the successor. -/
def waitForLink (nodeId : NodeId) : Nat → Accesses NodeId
  | 0 => .stuck
  | fuel + 1 =>
      .load (.nextNode nodeId) fun succ =>
      if succ = invalidNodeId then waitForLink nodeId fuel else .ret succ

/-- The hand-over to the successor in `release_lock`. -/
def passLock (nodeId : NodeId) (lockId : LockId) (succ : NodeId) : Accesses LockResult :=
  .store (.headNode lockId) succ <|
  .store (.ownerNode lockId) succ <|
  .store (.locked succ) 0 <|
  .flush ⟨.nextNode succ, 64⟩ <|
  .flush ⟨.tailNode lockId, 64⟩ <|
  resetNode nodeId

/-- `McsGlobalLockAlgorithm::release_lock`. -/
def releaseLock (nodeCount : UInt32) (fuel : Nat) (nodeId : NodeId) (lockId : LockId) :
    Accesses LockResult :=
  if paramError nodeCount nodeId lockId then .ret .errorInvalidParam
  else
    .load (.ownerNode lockId) fun owner =>
    if owner ≠ nodeId then .ret .errorNotOwner
    else
      .load (.nextNode nodeId) fun succ =>
      if succ = invalidNodeId then
        .compareExchange (.tailNode lockId) nodeId invalidNodeId fun isLast =>
        if isLast then
          .store (.headNode lockId) invalidNodeId <|
          .store (.ownerNode lockId) invalidNodeId <|
          .flush ⟨.tailNode lockId, 64⟩ <|
          resetNode nodeId
        else (waitForLink nodeId fuel).bind (passLock nodeId lockId)
      else passLock nodeId lockId succ

/-- `McsGlobalLockAlgorithm::check_grant`. -/
def checkGrant (nodeCount : UInt32) (lockId : LockId) : Accesses NodeId :=
  if nodeCount = 0 then .ret invalidNodeId
  else if lockId ≥ maxLockCount then .ret invalidNodeId
  else
    .load (.ownerNode lockId) fun owner =>
    if owner ≠ invalidNodeId then .ret invalidNodeId
    else
      .load (.headNode lockId) fun head =>
      if head = invalidNodeId then .ret invalidNodeId
      else if head ≥ nodeCount then .ret invalidNodeId
      else
        .load (.locked head) fun locked =>
        .load (.waitingLock head) fun waiting =>
        if locked = 1 ∧ waiting = lockId then .ret head else .ret invalidNodeId

/-- `McsGlobalLockAlgorithm::grant_lock`. -/
def grantLock (nodeCount : UInt32) (nodeId : NodeId) (lockId : LockId) : Accesses LockResult :=
  if paramError nodeCount nodeId lockId then .ret .errorInvalidParam
  else
    .store (.locked nodeId) 2 <|
    .store (.ownerNode lockId) nodeId <|
    .flush ⟨.nextNode nodeId, 64⟩ <|
    .flush ⟨.tailNode lockId, 64⟩ <|
    .ret .success

/-- The accesses of a call. -/
def program (nodeCount : UInt32) (fuel : Nat) : Operation → Accesses Answer
  | .initializeShm count => (initializeShm count).bind fun rc => .ret (.inl rc)
  | .acquireLock nodeId lockId =>
      (acquireLock nodeCount fuel nodeId lockId).bind fun rc => .ret (.inl rc)
  | .releaseLock nodeId lockId =>
      (releaseLock nodeCount fuel nodeId lockId).bind fun rc => .ret (.inl rc)
  | .checkGrant count lockId => (checkGrant count lockId).bind fun n => .ret (.inr n)
  | .grantLock nodeId lockId =>
      (grantLock nodeCount nodeId lockId).bind fun rc => .ret (.inl rc)

/-- One iteration of `TwoTierLock::poll_for_grant`, the MCS path. -/
def pollForGrant (nodeId : NodeId) (lockId : LockId) : Accesses Bool :=
  .load (.locked nodeId) fun nodeLocked =>
  .load (.waitingLock nodeId) fun waitingLock =>
  .ret ((nodeLocked == 2 || nodeLocked == 0) && waitingLock == lockId)

/-- The words that the iteration reads. -/
def pollReads (nodeId : NodeId) : List Word := [.locked nodeId, .waitingLock nodeId]

/-- The test of the iteration. -/
def granted (nodeId : NodeId) (lockId : LockId) (m : Word → UInt32) : Bool :=
  (m (.locked nodeId) == 2 || m (.locked nodeId) == 0) && m (.waitingLock nodeId) == lockId

lemma pollForGrant_loads (n : NodeId) (l : LockId) :
    (pollForGrant n l).Every fun t _ => ∀ e ∈ t, ∃ x ∈ pollReads n, ∃ v, e = .load x v := by
  simp [pollForGrant, pollReads, Prog.Every]

lemma pollForGrant_outcome (n : NodeId) (l : LockId) (m : Word → UInt32) :
    (pollForGrant n l).outcome m = some (granted n l m, m) := by
  simp [pollForGrant, granted]

/-! ## Write-back -/

section WriteBack

variable {off : ShmOffset}

/-- The line of a word. -/
def lineOf (off : ShmOffset) : Word → Nat
  | .tailNode l | .headNode l | .ownerNode l => entryLine off l
  | .nextNode n | .locked n | .waitingLock n => recordLine off n

lemma lines_line (hoff : off.toNat % 64 = 0) (x : Word) : (lines off).line x = lineOf off x := by
  cases x with
  | tailNode l => exact lineAt_entry hoff l (by decide : (0 : UInt64).toNat < 64)
  | headNode l => exact lineAt_entry hoff l (by decide : (4 : UInt64).toNat < 64)
  | ownerNode l => exact lineAt_entry hoff l (by decide : (8 : UInt64).toNat < 64)
  | nextNode n => exact lineAt_record hoff n (by decide : (0 : UInt64).toNat < 64)
  | locked n => exact lineAt_record hoff n (by decide : (4 : UInt64).toNat < 64)
  | waitingLock n => exact lineAt_record hoff n (by decide : (8 : UInt64).toNat < 64)

lemma lines_flushed (hoff : off.toNat % 64 = 0) {x : Word} {bytes ln : Nat} (hpos : 0 < bytes)
    (hle : bytes ≤ 64) : (lines off).flushed ⟨x, bytes⟩ ln = true ↔ ln = lineOf off x := by
  rw [← lines_line hoff]
  exact flushed_of_le hpos hle

/-- The accesses of `initializeEntry`. -/
def entryTurn (lid : LockId) : List (Event Word UInt32) :=
  [.store (.tailNode lid) invalidNodeId, .store (.headNode lid) invalidNodeId,
    .store (.ownerNode lid) invalidNodeId, .flush ⟨.tailNode lid, 64⟩]

/-- The accesses of `initializeNode`. -/
def nodeTurn (nid : NodeId) : List (Event Word UInt32) :=
  [.store (.waitingLock nid) invalidLockId, .flush ⟨.nextNode nid, 64⟩]

lemma every_initializeEntry (lid : LockId) (k : Accesses LockResult)
    (Q : List (Event Word UInt32) → LockResult → Prop) :
    (initializeEntry lid k).Every Q ↔ k.Every fun t => Q (entryTurn lid ++ t) := Iff.rfl

lemma every_initializeNode (nid : NodeId) (k : Accesses LockResult)
    (Q : List (Event Word UInt32) → LockResult → Prop) :
    (initializeNode nid k).Every Q ↔ k.Every fun t => Q (nodeTurn nid ++ t) := Iff.rfl

lemma initializeShm_writtenBack (hoff : off.toNat % 64 = 0) (nodeCount : UInt32) :
    (initializeShm nodeCount).Every fun t _ => WrittenBack (lines off) t := by
  unfold initializeShm
  split_ifs with hcount
  · exact writtenBack_nil
  · rw [Prog.Every, Prog.every_forEach every_initializeEntry,
      Prog.every_forEach every_initializeNode, Prog.Every]
    refine writtenBack_initialize (g := lines off) rfl hoff ?_ (fun lid => ?_) fun nid => ?_
    · show getEntryOffset 0 off + 0 = off
      simp [getEntryOffset, entryOffset]
    · simp [entryTurn, lines_line hoff, lines_flushed hoff, lineOf]
    · simp [nodeTurn, lines_line hoff, lines_flushed hoff, lineOf]

/-- The loop of `acquire_lock` writes nothing before it exchanges the tail or finds its own id
there. -/
lemma swapTail_every (off : ShmOffset) {n : NodeId} (l : LockId) (fuel : Nat) {oldTail : NodeId}
    (hne : oldTail ≠ n) :
    (swapTail n l fuel oldTail).Every fun t old =>
      (∃ t', ReadOnly (lines off) t' ∧ t = t' ++ [.exchange (.tailNode l) old n]) ∨
        ReadOnly (lines off) t ∧ old = n := by
  induction fuel generalizing oldTail with
  | zero => trivial
  | succ fuel ih =>
      simp only [swapTail, Prog.Every, if_true, Bool.false_eq_true, if_false]
      refine ⟨.inl ⟨[], readOnly_nil, rfl⟩, fun tail => ?_⟩
      by_cases htail : tail = n
      · simp [htail, Prog.Every, readOnly_cons, Event.Touches]
      · rw [if_neg htail]
        refine (ih htail).mono fun t old h => ?_
        rcases h with ⟨t', hread, rfl⟩ | ⟨hread, rfl⟩
        · refine .inl ⟨.exchangeFailed _ _ :: .load _ _ :: t', ?_, rfl⟩
          simpa [readOnly_cons, Event.Touches] using hread
        · exact .inr ⟨by simpa [readOnly_cons, Event.Touches] using hread, rfl⟩

/-- The exchange of the tail has found another node there. -/
def JoinsQueue (nodeId : NodeId) (lockId : LockId) (t : List (Event Word UInt32)) : Prop :=
  ∃ oldTail, oldTail ≠ invalidNodeId ∧ .exchange (.tailNode lockId) oldTail nodeId ∈ t

/-- The new tail is not written back when the queue was not empty. -/
lemma acquireLock_writtenBack_iff (hoff : off.toNat % 64 = 0) (nodeCount : UInt32) (fuel : Nat)
    (n : NodeId) (l : LockId) :
    (acquireLock nodeCount fuel n l).Every fun t _ =>
      WrittenBack (lines off) t ↔ ¬ JoinsQueue n l t := by
  unfold acquireLock
  split_ifs with hparam
  · simp [Prog.Every, JoinsQueue]
  · obtain ⟨hn, hl, -⟩ : n ≠ invalidNodeId ∧ l < maxLockCount ∧ n < nodeCount := by
      simpa [paramError, and_assoc] using hparam
    have hline := entryLine_ne_recordLine hoff hl
    simp only [Prog.Every, Prog.every_bind]
    refine (swapTail_every off l fuel hn.symm).mono fun t old hswap => ?_
    unfold linkTail
    rcases hswap with ⟨t', hread, rfl⟩ | ⟨hread, rfl⟩
    · by_cases hempty : old = invalidNodeId
      · simp [hempty, Prog.Every, JoinsQueue, lines_line hoff, lines_flushed hoff, lineOf,
          hread.writtenBack_append, hread.exchange_notMem]
      · simp [hempty, Prog.Every, JoinsQueue, lines_line hoff, lines_flushed hoff, lineOf,
          hread.writtenBack_append, hread.exchange_notMem, hline]
    · simp [hn, Prog.Every, JoinsQueue, lines_line hoff, lines_flushed hoff, lineOf,
        hread.writtenBack_append, hread.exchange_notMem]

/-- Without interference the exchange finds another node exactly when the tail is one. -/
lemma joinsQueue_of_exec {nodeCount : UInt32} {fuel : Nat} {n : NodeId} {l : LockId}
    {m m' : Word → UInt32} {t : List (Event Word UInt32)} {rc : LockResult}
    (h : (acquireLock nodeCount fuel n l).exec m = some (t, rc, m')) :
    JoinsQueue n l t ↔ paramError nodeCount n l = false ∧ m (.tailNode l) ≠ invalidNodeId ∧
      m (.tailNode l) ≠ n := by
  unfold acquireLock at h
  by_cases hparam : paramError nodeCount n l
  · simp only [hparam, if_true, Prog.exec, Option.some.injEq, Prod.mk.injEq] at h
    simp [← h.1, JoinsQueue, hparam]
  have hn : n ≠ invalidNodeId := by
    simp only [paramError, Bool.or_eq_true, beq_iff_eq, not_or] at hparam
    exact hparam.1.1
  cases fuel with
  | zero => simp [hparam, swapTail, Prog.bind, Prog.exec] at h
  | succ fuel =>
      by_cases hempty : m (.tailNode l) = invalidNodeId
      · simp [hparam, swapTail, Prog.bind, Prog.exec, linkTail, hempty] at h
        simp [← h.1, JoinsQueue, hempty]
      by_cases hown : m (.tailNode l) = n
      · simp [hparam, swapTail, Prog.bind, Prog.exec, linkTail, hown, hn] at h
        simp [← h.1, JoinsQueue, hown]
      -- the first exchange expects an empty queue and fails, the second one succeeds
      cases fuel with
      | zero => simp [hparam, swapTail, Prog.bind, Prog.exec, hempty, hown] at h
      | succ fuel =>
          simp [hparam, swapTail, Prog.bind, Prog.exec, linkTail, hempty, hown] at h
          simp [← h.1, JoinsQueue, hempty, hown, hparam]

/-- The wait for the successor writes nothing. -/
lemma waitForLink_silent (n : NodeId) (fuel : Nat) :
    (waitForLink n fuel).Every fun t _ => ∀ e ∈ t, e.Silent := by
  induction fuel with
  | zero => trivial
  | succ fuel ih =>
      simp only [waitForLink, Prog.Every]
      intro succ
      by_cases hsucc : succ = invalidNodeId
      · rw [if_pos hsucc]
        refine ih.mono fun t _ hsilent => ?_
        simpa [Event.Silent] using hsilent
      · simp [hsucc, Prog.Every, Event.Silent]

lemma passLock_writtenBack (hoff : off.toNat % 64 = 0) (n : NodeId) (l : LockId)
    (succ : NodeId) : (passLock n l succ).Every fun t _ => WrittenBack (lines off) t := by
  simp [passLock, resetNode, Prog.Every, lines_line hoff, lines_flushed hoff, lineOf]

lemma releaseLock_writtenBack (hoff : off.toNat % 64 = 0) (nodeCount : UInt32) (fuel : Nat)
    (n : NodeId) (l : LockId) :
    (releaseLock nodeCount fuel n l).Every fun t _ => WrittenBack (lines off) t := by
  unfold releaseLock
  split_ifs with hparam
  · exact writtenBack_nil
  · simp only [Prog.Every, writtenBack_load]
    intro owner
    by_cases howner : owner = n
    · simp only [howner, ne_eq, not_true_eq_false, if_false, Prog.Every, writtenBack_load]
      intro succ
      by_cases hsucc : succ = invalidNodeId
      · simp only [hsucc, if_true, Prog.Every, Bool.false_eq_true, if_false,
          Prog.every_bind, writtenBack_exchangeFailed]
        constructor
        · simp [resetNode, Prog.Every, lines_line hoff, lines_flushed hoff, lineOf]
        · refine (waitForLink_silent n fuel).mono fun t succ hsilent => ?_
          refine (passLock_writtenBack hoff n l succ).mono fun t' _ h => ?_
          exact (readOnly_of_silent hsilent).writtenBack_append.2 h
      · rw [if_neg hsucc]
        exact passLock_writtenBack hoff n l succ
    · simp [howner, Prog.Every]

lemma checkGrant_writtenBack (nodeCount : UInt32) (l : LockId) :
    (checkGrant nodeCount l).Every fun t _ => WrittenBack (lines off) t := by
  unfold checkGrant
  split_ifs with hcount hl
  · exact writtenBack_nil
  · exact writtenBack_nil
  · simp only [Prog.Every, writtenBack_load]
    intro owner
    by_cases howner : owner = invalidNodeId
    · simp only [howner, ne_eq, not_true_eq_false, if_false, Prog.Every, writtenBack_load]
      intro head
      split_ifs with hhead hbound
      · exact writtenBack_nil
      · exact writtenBack_nil
      · simp only [Prog.Every, writtenBack_load]
        intro locked waiting
        split_ifs <;> exact writtenBack_nil
    · simp [howner, Prog.Every]

lemma grantLock_writtenBack (hoff : off.toNat % 64 = 0) (nodeCount : UInt32) (n : NodeId)
    (l : LockId) : (grantLock nodeCount n l).Every fun t _ => WrittenBack (lines off) t := by
  unfold grantLock
  split_ifs with hparam
  · exact writtenBack_nil
  · simp [Prog.Every, lines_line hoff, lines_flushed hoff, lineOf]

/-- The accesses of a call that leave a line in the private copy. -/
def Unflushed : Operation → List (Event Word UInt32) → Prop
  | .acquireLock n l, t => JoinsQueue n l t
  | _, _ => False

/-- The memory in which a call that nobody interferes with leaves a line in the private copy. -/
def UnflushedFrom (nodeCount : UInt32) : Operation → (Word → UInt32) → Prop
  | .acquireLock n l, m => paramError nodeCount n l = false ∧
      m (.tailNode l) ≠ invalidNodeId ∧ m (.tailNode l) ≠ n
  | _, _ => False

lemma program_writtenBack_iff (hoff : off.toNat % 64 = 0) (nodeCount : UInt32) (fuel : Nat)
    (op : Operation) :
    (program nodeCount fuel op).Every fun t _ =>
      WrittenBack (lines off) t ↔ ¬ Unflushed op t := by
  cases op with
  | initializeShm count =>
      simpa [program, Prog.every_bind, Prog.Every, Unflushed] using
        initializeShm_writtenBack hoff count
  | acquireLock n l =>
      simpa [program, Prog.every_bind, Prog.Every, Unflushed] using
        acquireLock_writtenBack_iff hoff nodeCount fuel n l
  | releaseLock n l =>
      simpa [program, Prog.every_bind, Prog.Every, Unflushed] using
        releaseLock_writtenBack hoff nodeCount fuel n l
  | checkGrant count l =>
      simpa [program, Prog.every_bind, Prog.Every, Unflushed] using
        checkGrant_writtenBack count l
  | grantLock n l =>
      simpa [program, Prog.every_bind, Prog.Every, Unflushed] using
        grantLock_writtenBack hoff nodeCount n l

lemma unflushed_of_exec {nodeCount : UInt32} {fuel : Nat} {op : Operation}
    {m m' : Word → UInt32} {t : List (Event Word UInt32)} {r : Answer}
    (h : (program nodeCount fuel op).exec m = some (t, r, m')) :
    Unflushed op t ↔ UnflushedFrom nodeCount op m := by
  cases op with
  | acquireLock n l =>
      rw [program, Prog.exec_bind] at h
      obtain ⟨⟨t', rc, m''⟩, hexec, heq⟩ := Option.bind_eq_some_iff.1 h
      obtain ⟨rfl, -⟩ : t' = t ∧ _ := by simpa [Prog.exec] using heq
      exact joinsQueue_of_exec hexec
  | initializeShm count => rfl
  | releaseLock n l => rfl
  | checkGrant count l => rfl
  | grantLock n l => rfl

end WriteBack

end Accesses

/-! ## The whole calls -/

/-- The value of a word. -/
def wordOf (shm : McsShm) : Word → UInt32
  | .tailNode l => (shm.entry l).tailNode
  | .headNode l => (shm.entry l).headNode
  | .ownerNode l => (shm.entry l).ownerNode
  | .nextNode n => (shm.node n).nextNode
  | .locked n => (shm.node n).locked
  | .waitingLock n => (shm.node n).waitingLock

section Words

variable (shm : McsShm) (l : LockId) (n : NodeId) (v : UInt32)

lemma wordOf_storeTail :
    wordOf (shm.storeTail l v) = Function.update (wordOf shm) (.tailNode l) v := by
  funext x
  cases x <;> simp [wordOf, Function.update_apply]

lemma wordOf_storeHead :
    wordOf (shm.storeHead l v) = Function.update (wordOf shm) (.headNode l) v := by
  funext x
  cases x <;> simp [wordOf, Function.update_apply]

lemma wordOf_storeOwner :
    wordOf (shm.storeOwner l v) = Function.update (wordOf shm) (.ownerNode l) v := by
  funext x
  cases x <;> simp [wordOf, Function.update_apply]

lemma wordOf_storeNext :
    wordOf (shm.storeNext n v) = Function.update (wordOf shm) (.nextNode n) v := by
  funext x
  cases x <;> simp [wordOf, Function.update_apply]

lemma wordOf_storeLocked :
    wordOf (shm.storeLocked n v) = Function.update (wordOf shm) (.locked n) v := by
  funext x
  cases x <;> simp [wordOf, Function.update_apply]

lemma wordOf_storeWaiting :
    wordOf (shm.storeWaiting n v) = Function.update (wordOf shm) (.waitingLock n) v := by
  funext x
  cases x <;> simp [wordOf, Function.update_apply]

end Words

namespace Accesses

/-- The words that a turn of the loop over the locks sets. -/
def ofEntry (lid : LockId) : Word → Bool
  | .tailNode l | .headNode l | .ownerNode l => l == lid
  | .nextNode _ | .locked _ | .waitingLock _ => false

/-- The words that a turn of the loop over the nodes sets. -/
def ofNode (nid : NodeId) : Word → Bool
  | .waitingLock n => n == nid
  | .tailNode _ | .headNode _ | .ownerNode _ | .nextNode _ | .locked _ => false

lemma initializeEntry_outcome (lid : LockId) (k : Accesses LockResult) (m : Word → UInt32) :
    (initializeEntry lid k).outcome m =
      k.outcome fun x => if ofEntry lid x then invalidNodeId else m x := by
  simp only [initializeEntry, Prog.outcome_store, Prog.outcome_flush]
  congr 1
  funext x
  cases x <;> simp [Function.update_apply, ofEntry]

lemma initializeNode_outcome (nid : NodeId) (k : Accesses LockResult) (m : Word → UInt32) :
    (initializeNode nid k).outcome m =
      k.outcome fun x => if ofNode nid x then invalidLockId else m x := by
  simp only [initializeNode, Prog.outcome_store, Prog.outcome_flush]
  congr 1
  funext x
  cases x <;> simp [Function.update_apply, ofNode]

variable (shm : McsShm)

theorem initializeShm_outcome (nodeCount : UInt32) :
    (initializeShm nodeCount).outcome (wordOf shm) =
      some ((Mcs.initializeShm nodeCount shm).1, wordOf (Mcs.initializeShm nodeCount shm).2) := by
  unfold initializeShm Mcs.initializeShm
  split_ifs with hcount
  · simp
  · rw [Prog.outcome_fill, Prog.outcome_forEach initializeEntry_outcome,
      Prog.outcome_forEach initializeNode_outcome, Prog.outcome_ret]
    congr 2
    funext x
    cases x <;> simp [ofEntry, ofNode, inState, mem_idsBelow, wordOf]
    all_goals split_ifs <;> rfl

/-- Without interference the second turn of the loop succeeds at the latest. -/
lemma swapTail_outcome {n : NodeId} (l : LockId) (fuel : Nat) (hn : n ≠ invalidNodeId) :
    (swapTail n l (fuel + 2) invalidNodeId).outcome (wordOf shm) =
      some ((shm.entry l).tailNode,
        wordOf (if (shm.entry l).tailNode = n then shm else shm.storeTail l n)) := by
  by_cases hempty : (shm.entry l).tailNode = invalidNodeId
  · simp [swapTail, wordOf, hempty, hn.symm, wordOf_storeTail]
  · by_cases hown : (shm.entry l).tailNode = n
    · simp [swapTail, wordOf, hn, hown]
    · simp [swapTail, wordOf, hempty, hown, wordOf_storeTail]

theorem acquireLock_outcome (nodeCount : UInt32) (fuel : Nat) (n : NodeId) (l : LockId) :
    (acquireLock nodeCount (fuel + 2) n l).outcome (wordOf shm) =
      some ((Mcs.acquireLock nodeCount n l shm).1,
        wordOf (Mcs.acquireLock nodeCount n l shm).2) := by
  unfold acquireLock Mcs.acquireLock
  split_ifs with hparam
  · simp
  · have hn : n ≠ invalidNodeId := by
      simp only [paramError, Bool.or_eq_true, beq_iff_eq, not_or] at hparam
      exact hparam.1.1
    simp only [Prog.outcome_store, Prog.outcome_flush, ← wordOf_storeNext,
      ← wordOf_storeLocked, ← wordOf_storeWaiting, Prog.outcome_bind,
      swapTail_outcome _ l fuel hn, Option.bind_some, linkTail]
    split_ifs <;> simp [wordOf_storeHead, wordOf_storeNext]

lemma waitForLink_outcome {n : NodeId} (fuel : Nat)
    (hnext : (shm.node n).nextNode = invalidNodeId) :
    (waitForLink n fuel).outcome (wordOf shm) = none := by
  induction fuel with
  | zero => rfl
  | succ fuel ih => simpa [waitForLink, wordOf, hnext] using ih

lemma passLock_outcome (n : NodeId) (l : LockId) (succ : NodeId) :
    (passLock n l succ).outcome (wordOf shm) =
      some (.success, wordOf (Mcs.passLock shm n l succ)) := by
  simp [passLock, resetNode, Mcs.passLock, Mcs.resetNode, wordOf_storeHead, wordOf_storeOwner,
    wordOf_storeLocked, wordOf_storeNext, wordOf_storeWaiting]

theorem releaseLock_outcome (nodeCount : UInt32) (fuel : Nat) (n : NodeId) (l : LockId) :
    (releaseLock nodeCount fuel n l).outcome (wordOf shm) =
      (Mcs.releaseLock nodeCount n l shm).map fun r => (r.1, wordOf r.2) := by
  unfold releaseLock Mcs.releaseLock
  by_cases hparam : paramError nodeCount n l
  · simp [hparam]
  by_cases howner : (shm.entry l).ownerNode = n
  · have howner' : wordOf shm (.ownerNode l) = n := howner
    have hsucc : wordOf shm (.nextNode n) = (shm.node n).nextNode := rfl
    have htail : wordOf shm (.tailNode l) = (shm.entry l).tailNode := rfl
    simp only [hparam, Prog.outcome_load, howner', howner, ne_eq, not_true_eq_false, if_false,
      Bool.false_eq_true, hsucc]
    by_cases hnext : (shm.node n).nextNode = invalidNodeId
    · by_cases hlast : (shm.entry l).tailNode = n
      · simp [hnext, htail, hlast, resetNode, Mcs.emptyQueue, Mcs.resetNode, wordOf_storeTail,
          wordOf_storeHead, wordOf_storeOwner, wordOf_storeLocked, wordOf_storeNext,
          wordOf_storeWaiting]
      · simp [hnext, htail, hlast, waitForLink_outcome shm fuel hnext]
    · simp [hnext, passLock_outcome]
  · simp [hparam, wordOf, howner]

theorem checkGrant_outcome (nodeCount : UInt32) (l : LockId) :
    (checkGrant nodeCount l).outcome (wordOf shm) =
      some (Mcs.checkGrant nodeCount l shm, wordOf shm) := by
  unfold checkGrant Mcs.checkGrant
  by_cases hcount : nodeCount = 0
  · simp [hcount]
  by_cases hl : l ≥ maxLockCount
  · simp [hcount, hl]
  by_cases howner : (shm.entry l).ownerNode = invalidNodeId
  · by_cases hhead : (shm.entry l).headNode = invalidNodeId
    · simp [hcount, hl, wordOf, howner, hhead]
    · by_cases hbound : (shm.entry l).headNode ≥ nodeCount
      · simp [hcount, hl, wordOf, howner, hhead, hbound]
      · simp only [hcount, hl, hhead, hbound, if_false, Prog.outcome_load, wordOf, howner,
          ne_eq, not_true_eq_false]
        split_ifs with hwait
        · simp [hwait]
        · simp [hwait]
  · simp [hcount, hl, wordOf, howner]

theorem grantLock_outcome (nodeCount : UInt32) (n : NodeId) (l : LockId) :
    (grantLock nodeCount n l).outcome (wordOf shm) =
      some ((Mcs.grantLock nodeCount n l shm).1, wordOf (Mcs.grantLock nodeCount n l shm).2) := by
  unfold grantLock Mcs.grantLock
  split_ifs with hparam
  · simp
  · simp [wordOf_storeLocked, wordOf_storeOwner]

/-- The test is that of the whole call. -/
lemma granted_wordOf (n : NodeId) (l : LockId) :
    granted n l (wordOf shm) = Mcs.pollGranted n l shm := rfl

end Accesses

end CxlLock.Mcs
