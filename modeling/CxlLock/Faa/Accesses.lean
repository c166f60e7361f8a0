import CxlLock.Faa.GlobalLock
import CxlLock.SoftwareConsistency

/-!
# The ticket lock by its accesses (`faa_global_lock.cpp`)

The operations with every access to shared memory and every flush, in the order of the source;
`memory_fence` writes nothing back and is left out.  Without interference they do what the
whole calls of `Faa.GlobalLock` do (`acquireLock_outcome` and the others).

`acquire_lock` flushes the ticket record of the node and not the entry, whose `next_ticket` it
has incremented (`acquireLock_writtenBack_iff`).  The other operations write back all they
store.
-/

namespace CxlLock.Faa

open AccessProgram

/-- The 32-bit words of the records. -/
inductive Word
  | nextTicket (l : LockId)
  | nowServing (l : LockId)
  | ownerNode (l : LockId)
  | padding (l : LockId)
  | ticket (n : NodeId)
  | active (n : NodeId)
  deriving DecidableEq

/-- The offset of a word in the region. -/
def Word.offset (off : ShmOffset) : Word → ShmOffset
  | .nextTicket l => getEntryOffset l off + 0
  | .nowServing l => getEntryOffset l off + 4
  | .ownerNode l => getEntryOffset l off + 8
  | .padding l => getEntryOffset l off + 12
  | .ticket n => getTicketOffset n off + 0
  | .active n => getTicketOffset n off + 4

/-- The lines of the words. -/
def lines (off : ShmOffset) : Lines Word Nat := linesOf (Word.offset off)

/-- A program over the words. -/
abbrev Accesses (α : Type) := Prog Word UInt32 α

namespace Accesses

/-- The stores of `initialize` to one entry. -/
def initializeEntry (lid : LockId) (k : Accesses LockResult) : Accesses LockResult :=
  .store (.nextTicket lid) 0 <|
  .store (.nowServing lid) 0 <|
  .store (.ownerNode lid) invalidNodeId <|
  .store (.padding lid) 0 <|
  .flush ⟨.nextTicket lid, 64⟩ k

/-- The stores of `initialize` to one ticket record. -/
def initializeTicket (nid : NodeId) (k : Accesses LockResult) : Accesses LockResult :=
  .store (.ticket nid) 0 <|
  .store (.active nid) 0 <|
  .flush ⟨.ticket nid, 64⟩ k

/-- The words of the locks and nodes that the state region holds. -/
def inState (nodeCount : UInt32) : Word → Bool
  | .nextTicket l | .nowServing l | .ownerNode l | .padding l => l < maxLockCount
  | .ticket n | .active n => n < nodeCount

/-- `FaaGlobalLockAlgorithm::initialize`. -/
def initializeShm (nodeCount : UInt32) : Accesses LockResult :=
  if nodeCount = 0 ∨ maxNodeCount < nodeCount then .ret .errorInvalidParam
  else
    .fill ⟨.nextTicket 0, (getStateSize nodeCount).toNat⟩ (inState nodeCount) 0 <|
    Prog.forEach (idsBelow maxLockCount) initializeEntry <|
    Prog.forEach (idsBelow nodeCount) initializeTicket <|
    .ret .success

/-- `FaaGlobalLockAlgorithm::acquire_lock`. -/
def acquireLock (nodeId : NodeId) (lockId : LockId) : Accesses LockResult :=
  if nodeId = invalidNodeId then .ret .errorInvalidParam
  else
    .fetchAdd (.nextTicket lockId) 1 fun myTicket =>
    .store (.ticket nodeId) myTicket <|
    .store (.active nodeId) 1 <|
    .flush ⟨.ticket nodeId, 64⟩ <|
    .ret .success

/-- `FaaGlobalLockAlgorithm::release_lock`. -/
def releaseLock (nodeId : NodeId) (lockId : LockId) : Accesses LockResult :=
  if nodeId = invalidNodeId then .ret .errorInvalidParam
  else
    .store (.ticket nodeId) 0 <|
    .store (.active nodeId) 0 <|
    .flush ⟨.ticket nodeId, 64⟩ <|
    .store (.ownerNode lockId) invalidNodeId <|
    .flush ⟨.ownerNode lockId, 4⟩ <|
    .ret .success

/-- The loop of `check_grant` on `min_ticket` and `min_node`. -/
def findMinTicket : List NodeId → UInt32 → NodeId → Accesses NodeId
  | [], _, minNode => .ret minNode
  | nid :: nids, minTicket, minNode =>
      .load (.active nid) fun active =>
      if active ≠ 0 then
        .load (.ticket nid) fun t =>
        if t < minTicket then findMinTicket nids t nid
        else findMinTicket nids minTicket minNode
      else findMinTicket nids minTicket minNode

/-- `FaaGlobalLockAlgorithm::check_grant`. -/
def checkGrant (nodeCount : UInt32) (lockId : LockId) : Accesses NodeId :=
  if nodeCount = 0 then .ret invalidNodeId
  else
    .load (.ownerNode lockId) fun owner =>
    if owner ≠ invalidNodeId then .ret invalidNodeId
    else findMinTicket (idsBelow nodeCount) maxTicket invalidNodeId

/-- `FaaGlobalLockAlgorithm::grant_lock`. -/
def grantLock (nodeId : NodeId) (lockId : LockId) : Accesses LockResult :=
  if nodeId = invalidNodeId then .ret .errorInvalidParam
  else
    .load (.ticket nodeId) fun grantTicket =>
    .store (.ownerNode lockId) nodeId <|
    .store (.nowServing lockId) grantTicket <|
    .flush ⟨.nextTicket lockId, 64⟩ <|
    .flush ⟨.ticket nodeId, 64⟩ <|
    .ret .success

/-- The accesses of a call. -/
def program : Operation → Accesses Answer
  | .initializeShm nodeCount => (initializeShm nodeCount).bind fun rc => .ret (.inl rc)
  | .acquireLock nodeId lockId => (acquireLock nodeId lockId).bind fun rc => .ret (.inl rc)
  | .releaseLock nodeId lockId => (releaseLock nodeId lockId).bind fun rc => .ret (.inl rc)
  | .checkGrant nodeCount lockId => (checkGrant nodeCount lockId).bind fun n => .ret (.inr n)
  | .grantLock nodeId lockId => (grantLock nodeId lockId).bind fun rc => .ret (.inl rc)

/-- One iteration of `TwoTierLock::poll_for_grant`, the ticket path. -/
def pollForGrant (nodeId : NodeId) (lockId : LockId) : Accesses Bool :=
  .load (.nowServing lockId) fun nowServing =>
  .load (.ticket nodeId) fun myTicket =>
  .load (.active nodeId) fun active =>
  .ret (decide (myTicket ≤ nowServing) && active != 0)

/-- The words that the iteration reads. -/
def pollReads (nodeId : NodeId) (lockId : LockId) : List Word :=
  [.nowServing lockId, .ticket nodeId, .active nodeId]

/-- The test of the iteration. -/
def granted (nodeId : NodeId) (lockId : LockId) (m : Word → UInt32) : Bool :=
  decide (m (.ticket nodeId) ≤ m (.nowServing lockId)) && m (.active nodeId) != 0

lemma pollForGrant_loads (n : NodeId) (l : LockId) :
    (pollForGrant n l).Every fun t _ => ∀ e ∈ t, ∃ x ∈ pollReads n l, ∃ v, e = .load x v := by
  simp [pollForGrant, pollReads, Prog.Every]

lemma pollForGrant_outcome (n : NodeId) (l : LockId) (m : Word → UInt32) :
    (pollForGrant n l).outcome m = some (granted n l m, m) := by
  simp [pollForGrant, granted]

/-! ## Write-back -/

section WriteBack

variable {off : ShmOffset}

/-- The line of a word. -/
def lineOf (off : ShmOffset) : Word → Nat
  | .nextTicket l | .nowServing l | .ownerNode l | .padding l => entryLine off l
  | .ticket n | .active n => recordLine off n

lemma lines_line (hoff : off.toNat % 64 = 0) (x : Word) : (lines off).line x = lineOf off x := by
  cases x with
  | nextTicket l => exact lineAt_entry hoff l (by decide : (0 : UInt64).toNat < 64)
  | nowServing l => exact lineAt_entry hoff l (by decide : (4 : UInt64).toNat < 64)
  | ownerNode l => exact lineAt_entry hoff l (by decide : (8 : UInt64).toNat < 64)
  | padding l => exact lineAt_entry hoff l (by decide : (12 : UInt64).toNat < 64)
  | ticket n => exact lineAt_record hoff n (by decide : (0 : UInt64).toNat < 64)
  | active n => exact lineAt_record hoff n (by decide : (4 : UInt64).toNat < 64)

lemma lines_flushed (hoff : off.toNat % 64 = 0) {x : Word} {bytes ln : Nat} (hpos : 0 < bytes)
    (hle : bytes ≤ 64) : (lines off).flushed ⟨x, bytes⟩ ln = true ↔ ln = lineOf off x := by
  rw [← lines_line hoff]
  exact flushed_of_le hpos hle

/-- The accesses of `initializeEntry`. -/
def entryTurn (lid : LockId) : List (Event Word UInt32) :=
  [.store (.nextTicket lid) 0, .store (.nowServing lid) 0, .store (.ownerNode lid) invalidNodeId,
    .store (.padding lid) 0, .flush ⟨.nextTicket lid, 64⟩]

/-- The accesses of `initializeTicket`. -/
def ticketTurn (nid : NodeId) : List (Event Word UInt32) :=
  [.store (.ticket nid) 0, .store (.active nid) 0, .flush ⟨.ticket nid, 64⟩]

lemma every_initializeEntry (lid : LockId) (k : Accesses LockResult)
    (Q : List (Event Word UInt32) → LockResult → Prop) :
    (initializeEntry lid k).Every Q ↔ k.Every fun t => Q (entryTurn lid ++ t) := Iff.rfl

lemma every_initializeTicket (nid : NodeId) (k : Accesses LockResult)
    (Q : List (Event Word UInt32) → LockResult → Prop) :
    (initializeTicket nid k).Every Q ↔ k.Every fun t => Q (ticketTurn nid ++ t) := Iff.rfl

lemma initializeShm_writtenBack (hoff : off.toNat % 64 = 0) (nodeCount : UInt32) :
    (initializeShm nodeCount).Every fun t _ => WrittenBack (lines off) t := by
  unfold initializeShm
  split_ifs with hcount
  · exact writtenBack_nil
  · rw [Prog.Every, Prog.every_forEach every_initializeEntry,
      Prog.every_forEach every_initializeTicket, Prog.Every]
    refine writtenBack_initialize (g := lines off) rfl hoff ?_ (fun lid => ?_) fun nid => ?_
    · show getEntryOffset 0 off + 0 = off
      simp [getEntryOffset, entryOffset]
    · simp [entryTurn, lines_line hoff, lines_flushed hoff, lineOf]
    · simp [ticketTurn, lines_line hoff, lines_flushed hoff, lineOf]

/-- `next_ticket` is not written back, unless the entry is in the line of the node's record. -/
lemma acquireLock_writtenBack_iff (hoff : off.toNat % 64 = 0) (n : NodeId) (l : LockId) :
    (acquireLock n l).Every fun t _ => WrittenBack (lines off) t ↔
      ¬ (n ≠ invalidNodeId ∧ entryLine off l ≠ recordLine off n) := by
  unfold acquireLock
  split_ifs with hn
  · simp [Prog.Every, hn]
  · simp [Prog.Every, hn, lines_line hoff, lines_flushed hoff, lineOf]

lemma releaseLock_writtenBack (hoff : off.toNat % 64 = 0) (n : NodeId) (l : LockId) :
    (releaseLock n l).Every fun t _ => WrittenBack (lines off) t := by
  unfold releaseLock
  split_ifs with hn
  · simp [Prog.Every]
  · simp [Prog.Every, lines_line hoff, lines_flushed hoff, lineOf]

lemma findMinTicket_writtenBack (nids : List NodeId) (minTicket : UInt32) (minNode : NodeId) :
    (findMinTicket nids minTicket minNode).Every fun t _ => WrittenBack (lines off) t := by
  induction nids generalizing minTicket minNode with
  | nil => exact writtenBack_nil
  | cons nid nids ih =>
      simp only [findMinTicket, Prog.Every, writtenBack_load]
      intro active
      by_cases hactive : active = 0
      · simpa [hactive] using ih minTicket minNode
      · simp only [ne_eq, hactive, not_false_eq_true, if_true, Prog.Every, writtenBack_load]
        intro t
        by_cases hlt : t < minTicket
        · simpa [hlt] using ih t nid
        · simpa [hlt] using ih minTicket minNode

lemma checkGrant_writtenBack (nodeCount : UInt32) (l : LockId) :
    (checkGrant nodeCount l).Every fun t _ => WrittenBack (lines off) t := by
  unfold checkGrant
  split_ifs with hcount
  · exact writtenBack_nil
  · simp only [Prog.Every, writtenBack_load]
    intro owner
    split_ifs with howner
    · exact writtenBack_nil
    · exact findMinTicket_writtenBack (idsBelow nodeCount) maxTicket invalidNodeId

lemma grantLock_writtenBack (hoff : off.toNat % 64 = 0) (n : NodeId) (l : LockId) :
    (grantLock n l).Every fun t _ => WrittenBack (lines off) t := by
  unfold grantLock
  split_ifs with hn
  · simp [Prog.Every]
  · simp [Prog.Every, lines_line hoff, lines_flushed hoff, lineOf]

/-- The calls that leave a line in the private copy. -/
def Unflushed (off : ShmOffset) : Operation → Prop
  | .acquireLock n l => n ≠ invalidNodeId ∧ entryLine off l ≠ recordLine off n
  | _ => False

/-- For a lock of the table these are all requests that pass the parameter check. -/
lemma unflushed_acquireLock (hoff : off.toNat % 64 = 0) (n : NodeId) {l : LockId}
    (hl : l < maxLockCount) : Unflushed off (.acquireLock n l) ↔ n ≠ invalidNodeId := by
  simp [Unflushed, entryLine_ne_recordLine hoff hl n]

lemma program_writtenBack_iff (hoff : off.toNat % 64 = 0) (op : Operation) :
    (program op).Every fun t _ => WrittenBack (lines off) t ↔ ¬ Unflushed off op := by
  cases op with
  | initializeShm count =>
      simpa [program, Prog.every_bind, Prog.Every, Unflushed] using
        initializeShm_writtenBack hoff count
  | acquireLock n l =>
      simpa [program, Prog.every_bind, Prog.Every, Unflushed] using
        acquireLock_writtenBack_iff hoff n l
  | releaseLock n l =>
      simpa [program, Prog.every_bind, Prog.Every, Unflushed] using
        releaseLock_writtenBack hoff n l
  | checkGrant count l =>
      simpa [program, Prog.every_bind, Prog.Every, Unflushed] using
        checkGrant_writtenBack count l
  | grantLock n l =>
      simpa [program, Prog.every_bind, Prog.Every, Unflushed] using
        grantLock_writtenBack hoff n l

end WriteBack

end Accesses

/-! ## The whole calls -/

/-- The value of a word; the padding is zero and nobody reads it. -/
def wordOf (shm : FaaShm) : Word → UInt32
  | .nextTicket l => (shm.entry l).nextTicket
  | .nowServing l => (shm.entry l).nowServing
  | .ownerNode l => (shm.entry l).ownerNode
  | .padding _ => 0
  | .ticket n => (shm.ticket n).ticket
  | .active n => (shm.ticket n).active

section Words

variable (shm : FaaShm) (l : LockId) (n : NodeId) (v : UInt32)

lemma wordOf_storeNextTicket :
    wordOf (shm.storeNextTicket l v) = Function.update (wordOf shm) (.nextTicket l) v := by
  funext x
  cases x <;> simp [wordOf, Function.update_apply]

lemma wordOf_storeServing :
    wordOf (shm.storeServing l v) = Function.update (wordOf shm) (.nowServing l) v := by
  funext x
  cases x <;> simp [wordOf, Function.update_apply]

lemma wordOf_storeOwner :
    wordOf (shm.storeOwner l v) = Function.update (wordOf shm) (.ownerNode l) v := by
  funext x
  cases x <;> simp [wordOf, Function.update_apply]

lemma wordOf_storeTicket :
    wordOf (shm.storeTicket n v) = Function.update (wordOf shm) (.ticket n) v := by
  funext x
  cases x <;> simp [wordOf, Function.update_apply]

lemma wordOf_storeActive :
    wordOf (shm.storeActive n v) = Function.update (wordOf shm) (.active n) v := by
  funext x
  cases x <;> simp [wordOf, Function.update_apply]

end Words

namespace Accesses

variable (shm : FaaShm)

/-- The words that a turn of the loop over the locks sets. -/
def ofEntry (lid : LockId) : Word → Bool
  | .nextTicket l | .nowServing l | .ownerNode l | .padding l => l == lid
  | .ticket _ | .active _ => false

/-- The words that a turn of the loop over the nodes sets. -/
def ofTicket (nid : NodeId) : Word → Bool
  | .nextTicket _ | .nowServing _ | .ownerNode _ | .padding _ => false
  | .ticket n | .active n => n == nid

/-- What the loops of `initialize` set a word to. -/
def initialValue : Word → UInt32
  | .ownerNode _ => invalidNodeId
  | _ => 0

lemma initializeEntry_outcome (lid : LockId) (k : Accesses LockResult) (m : Word → UInt32) :
    (initializeEntry lid k).outcome m =
      k.outcome fun x => if ofEntry lid x then initialValue x else m x := by
  simp only [initializeEntry, Prog.outcome_store, Prog.outcome_flush]
  congr 1
  funext x
  cases x <;> simp [Function.update_apply, ofEntry, initialValue]

lemma initializeTicket_outcome (nid : NodeId) (k : Accesses LockResult) (m : Word → UInt32) :
    (initializeTicket nid k).outcome m =
      k.outcome fun x => if ofTicket nid x then initialValue x else m x := by
  simp only [initializeTicket, Prog.outcome_store, Prog.outcome_flush]
  congr 1
  funext x
  cases x <;> simp [Function.update_apply, ofTicket, initialValue]

theorem initializeShm_outcome (nodeCount : UInt32) :
    (initializeShm nodeCount).outcome (wordOf shm) =
      some ((Faa.initializeShm nodeCount shm).1, wordOf (Faa.initializeShm nodeCount shm).2) := by
  unfold initializeShm Faa.initializeShm
  split_ifs with hcount
  · simp
  · rw [Prog.outcome_fill, Prog.outcome_forEach initializeEntry_outcome,
      Prog.outcome_forEach initializeTicket_outcome, Prog.outcome_ret]
    congr 2
    funext x
    cases x <;> simp [ofEntry, ofTicket, initialValue, inState, mem_idsBelow, wordOf]
    all_goals split_ifs <;> rfl

theorem acquireLock_outcome (n : NodeId) (l : LockId) :
    (acquireLock n l).outcome (wordOf shm) =
      some ((Faa.acquireLock n l shm).1, wordOf (Faa.acquireLock n l shm).2) := by
  unfold acquireLock Faa.acquireLock
  split_ifs with hn
  · simp
  · simp [wordOf_storeNextTicket, wordOf_storeTicket, wordOf_storeActive, wordOf]

theorem releaseLock_outcome (n : NodeId) (l : LockId) :
    (releaseLock n l).outcome (wordOf shm) =
      some ((Faa.releaseLock n l shm).1, wordOf (Faa.releaseLock n l shm).2) := by
  unfold releaseLock Faa.releaseLock
  split_ifs with hn
  · simp
  · simp [wordOf_storeOwner, wordOf_storeTicket, wordOf_storeActive]

lemma findMinTicket_outcome (nids : List NodeId) (acc : UInt32 × NodeId) :
    (findMinTicket nids acc.1 acc.2).outcome (wordOf shm) =
      some ((nids.foldl (minTicketStep shm) acc).2, wordOf shm) := by
  induction nids generalizing acc with
  | nil => rfl
  | cons nid nids ih =>
      rw [List.foldl_cons, ← ih, findMinTicket, minTicketStep, Prog.outcome_load]
      by_cases hactive : (shm.ticket nid).active = 0
      · simp [wordOf, hactive]
      · by_cases hlt : (shm.ticket nid).ticket < acc.1
        · simp [wordOf, hactive, hlt]
        · simp [wordOf, hactive, hlt]

theorem checkGrant_outcome (nodeCount : UInt32) (l : LockId) :
    (checkGrant nodeCount l).outcome (wordOf shm) =
      some (Faa.checkGrant nodeCount l shm, wordOf shm) := by
  unfold checkGrant Faa.checkGrant
  split_ifs with hcount howner
  · simp
  · simp [wordOf, howner]
  · have hfree : (shm.entry l).ownerNode = invalidNodeId := not_not.1 howner
    simpa [wordOf, hfree] using
      findMinTicket_outcome shm (idsBelow nodeCount) (maxTicket, invalidNodeId)

theorem grantLock_outcome (n : NodeId) (l : LockId) :
    (grantLock n l).outcome (wordOf shm) =
      some ((Faa.grantLock n l shm).1, wordOf (Faa.grantLock n l shm).2) := by
  unfold grantLock Faa.grantLock
  split_ifs with hn
  · simp
  · simp [wordOf_storeOwner, wordOf_storeServing, wordOf]

/-- The test is that of the whole call. -/
lemma granted_wordOf (n : NodeId) (l : LockId) :
    granted n l (wordOf shm) = Faa.pollGranted n l shm := rfl

end Accesses

end CxlLock.Faa
