import CxlLock.AccessModel
import CxlLock.Lib.ByteMemory

/-!
# The addresses of `TwoTierLock::poll_for_grant` (`two_tier_lock.cpp`)

The loop that waits for a grant does not ask the algorithm where its records lie; it finds out
which algorithm it is and computes the offsets itself.  The four paths repeat the arithmetic of
`get_slot_offset`, `get_entry_offset`, `get_ticket_offset` and `get_node_offset`, and with them
that of `get_state_size`, which says how much memory `initialize` clears.

`poll_reads_what_grant_writes`: the copies agree.  The loop reads the word that a grant and a
hand-over write, nothing else than the records of the lock and of the nodes is written, and
different records have no byte in common and lie in the cleared range.
-/

namespace CxlLock

open AccessProgram ByteMemory

namespace TwoTierLock

section Poll

variable (stateOffset : ShmOffset) (nodeCount : UInt32) (lockId : LockId) (nodeId : NodeId)

/-- `slot_offset`. -/
def pollSlotOffset : ShmOffset :=
  stateOffset + lockId.toUInt64 * nodeCount.toUInt64 * 4 + nodeId.toUInt64 * 4

/-- `entry_offset` of the ticket path. -/
def pollEntryOffset : ShmOffset := stateOffset + lockId.toUInt64 * 64

/-- The offset of a record behind a table of `MAX_LOCK_COUNT` entries of the given size. -/
def pollRecordOffset (entrySize recordSize : UInt64) : ShmOffset :=
  let start := stateOffset + maxLockCount.toUInt64 * entrySize
  start + nodeId.toUInt64 * recordSize

/-- `ticket_offset`. -/
def pollTicketOffset : ShmOffset := pollRecordOffset stateOffset nodeId 64 64

/-- `node_offset` of the MCS path. -/
def pollMcsNodeOffset : ShmOffset := pollRecordOffset stateOffset nodeId 64 64

/-- `node_offset` of the qspinlock path. -/
def pollQspinNodeOffset : ShmOffset := pollRecordOffset stateOffset nodeId 64 64

/-- The records that one iteration loads from, and the fields it loads by their offsets within
the record. -/
def pollFields : LockAlgorithm → List (ShmOffset × List UInt64)
  | .cas => [(pollSlotOffset stateOffset nodeCount lockId nodeId, [0])]
  | .faa =>
      [(pollEntryOffset stateOffset lockId, [4]), (pollTicketOffset stateOffset nodeId, [0, 4])]
  | .mcs => [(pollMcsNodeOffset stateOffset nodeId, [4, 8])]
  | .qspinlock => [(pollQspinNodeOffset stateOffset nodeId, [4, 8])]

/-- The offsets of the words that one iteration loads. -/
def pollOffsets (k : LockAlgorithm) : List ShmOffset :=
  (pollFields stateOffset nodeCount lockId nodeId k).flatMap fun r => r.2.map (r.1 + ·)

end Poll

end TwoTierLock

/-! ## The records -/

/-- The records of each algorithm in the state region. -/
inductive StateRecord : LockAlgorithm → Type
  | slot (lockId : LockId) (nodeId : NodeId) : StateRecord .cas
  | faaGlobalLockEntry (lockId : LockId) : StateRecord .faa
  | faaNodeTicket (nodeId : NodeId) : StateRecord .faa
  | mcsLockEntry (lockId : LockId) : StateRecord .mcs
  | mcsNode (nodeId : NodeId) : StateRecord .mcs
  | qspinlockEntry (lockId : LockId) : StateRecord .qspinlock
  | qspinNode (nodeId : NodeId) : StateRecord .qspinlock

/-- `sizeof` of the records of an algorithm. -/
def LockAlgorithm.recordBytes : LockAlgorithm → Nat
  | .cas => 4
  | .faa | .mcs | .qspinlock => 64

namespace StateRecord

variable {k : LockAlgorithm}

/-- The record is one of a lock and a node of the system. -/
def InTable (nodeCount : UInt32) : StateRecord k → Prop
  | .slot l n => l < maxLockCount ∧ n < nodeCount
  | .faaGlobalLockEntry l | .mcsLockEntry l | .qspinlockEntry l => l < maxLockCount
  | .faaNodeTicket n | .mcsNode n | .qspinNode n => n < nodeCount

/-- The offset of the record, as the class of the algorithm computes it. -/
def offset (stateOffset : ShmOffset) (nodeCount : UInt32) : StateRecord k → ShmOffset
  | .slot l n => Cas.getSlotOffset l n nodeCount stateOffset
  | .faaGlobalLockEntry l => Faa.getEntryOffset l stateOffset
  | .faaNodeTicket n => Faa.getTicketOffset n stateOffset
  | .mcsLockEntry l => Mcs.getEntryOffset l stateOffset
  | .mcsNode n => Mcs.getNodeOffset n stateOffset
  | .qspinlockEntry l => Qspinlock.getEntryOffset l stateOffset
  | .qspinNode n => Qspinlock.getNodeOffset n stateOffset

/-- The bytes of the record. -/
def extent (stateOffset : ShmOffset) (nodeCount : UInt32) (r : StateRecord k) : Extent :=
  ⟨(r.offset stateOffset nodeCount).toNat, k.recordBytes⟩

end StateRecord

namespace LockAlgorithm

/-- The records that the calls for a lock and a node work on. -/
def recordsOf (lockId : LockId) (nodeId : NodeId) : (k : LockAlgorithm) → List (StateRecord k)
  | .cas => [.slot lockId nodeId]
  | .faa => [.faaGlobalLockEntry lockId, .faaNodeTicket nodeId]
  | .mcs => [.mcsLockEntry lockId, .mcsNode nodeId]
  | .qspinlock => [.qspinlockEntry lockId, .qspinNode nodeId]

/-- The records that `poll_for_grant` looks at. -/
def polledRecords (lockId : LockId) (nodeId : NodeId) :
    (k : LockAlgorithm) → List (StateRecord k)
  | .cas => [.slot lockId nodeId]
  | .faa => [.faaGlobalLockEntry lockId, .faaNodeTicket nodeId]
  | .mcs => [.mcsNode nodeId]
  | .qspinlock => [.qspinNode nodeId]

/-- The offset of a word. -/
def wordOffset (stateOffset : ShmOffset) : (k : LockAlgorithm) → k.accesses.Word → ShmOffset
  | .cas => id
  | .faa => Faa.Word.offset stateOffset
  | .mcs => Mcs.Word.offset stateOffset
  | .qspinlock => Qspinlock.Word.offset stateOffset

/-- The word whose value tells a polling node that it has been given the lock. -/
def grantFlag (stateOffset : ShmOffset) (nodeCount : UInt32) (lockId : LockId)
    (nodeId : NodeId) : (k : LockAlgorithm) → k.accesses.Word
  | .cas => Cas.getSlotOffset lockId nodeId nodeCount stateOffset
  | .faa => Faa.Word.nowServing lockId
  | .mcs => Mcs.Word.locked nodeId
  | .qspinlock => Qspinlock.Word.locked nodeId

/-- The word with the owner of a lock; the slot table has none. -/
def ownerWord (lockId : LockId) : (k : LockAlgorithm) → Option k.accesses.Word
  | .cas => none
  | .faa => some (Faa.Word.ownerNode lockId)
  | .mcs => some (Mcs.Word.ownerNode lockId)
  | .qspinlock => some (Qspinlock.Word.ownerNode lockId)

end LockAlgorithm

section HandOver

variable {W : Type}

/-- The accesses store the node to the word with the owner. -/
def MakesOwner (owner : Option W) (n : NodeId) (t : List (Event W UInt32)) : Prop :=
  ∃ x ∈ owner, .store x n ∈ t

/-- Accesses that make another node the owner tell it so, and write nothing else than words in
`own`. -/
structure HandOver (owner : Option W) (flag : NodeId → W) (own : W → Prop)
    (t : List (Event W UInt32)) : Prop where
  told : ∀ n, n ≠ invalidNodeId → MakesOwner owner n t → ∃ e ∈ t, e.Writes (flag n)
  only : WritesOnly (fun x => own x ∨ ∃ n, MakesOwner owner n t ∧ x = flag n) t

/-- The accesses begin with setting a number of bytes to zero. -/
def ClearsFirst (start : W) (bytes : Nat) (t : List (Event W UInt32)) : Prop :=
  ∃ inside rest, t = .fill ⟨start, bytes⟩ inside 0 :: rest

end HandOver

section Statement

variable (k : LockAlgorithm) (off : ShmOffset) (nodeCount : UInt32) (l : LockId)

/-- The word lies in a record that the calls for the lock and the node work on. -/
def InRecords (n : NodeId) (x : k.accesses.Word) : Prop :=
  ∃ r ∈ k.recordsOf l n,
    Extent.Within ⟨(k.wordOffset off x).toNat, 4⟩ (r.extent off nodeCount)

/-- What `poll_for_grant` of a node looks at is what a grant and a hand-over write for it. -/
structure PollMatchesGrant (n : NodeId) : Prop where
  /-- The records are found where the class of the algorithm has them. -/
  records : (TwoTierLock.pollFields off nodeCount l n k).map Prod.fst =
    (k.polledRecords l n).map (StateRecord.offset off nodeCount)
  words : TwoTierLock.pollOffsets off nodeCount l n k =
    (k.accesses.pollReads off nodeCount n l).map (k.wordOffset off)
  flag : k.wordOffset off (k.grantFlag off nodeCount l n) ∈
    TwoTierLock.pollOffsets off nodeCount l n k
  grant : ∀ fuel, (k.accesses.program off nodeCount fuel (.grantLock n l)).Every fun t rc =>
    (rc = .inl .success → ∃ e ∈ t, e.Writes (k.grantFlag off nodeCount l n)) ∧
      WritesOnly (InRecords k off nodeCount l n) t
  release : ∀ fuel m, m < nodeCount →
    (k.accesses.program off nodeCount fuel (.releaseLock m l)).Every fun t _ =>
      HandOver (k.ownerWord l) (k.grantFlag off nodeCount l) (InRecords k off nodeCount l m) t

/-- Different records have no byte in common, and `initialize` clears them all. -/
structure RecordsApart : Prop where
  disjoint : ∀ r r' : StateRecord k, r.InTable nodeCount → r'.InTable nodeCount → r ≠ r' →
    (r.extent off nodeCount).Disjoint (r'.extent off nodeCount)
  within : ∀ r : StateRecord k, r.InTable nodeCount →
    (r.extent off nodeCount).Within ⟨off.toNat, (k.getStateSize nodeCount).toNat⟩
  cleared : ∀ fuel, (k.accesses.program off nodeCount fuel (.initializeShm nodeCount)).Every
    fun t _ => ∃ start, k.wordOffset off start = off ∧
      ClearsFirst start (k.getStateSize nodeCount).toNat t

end Statement

/-! ## The table -/

namespace StateRecord

/-- The number of the record in the table. -/
def index {k : LockAlgorithm} (nodeCount : UInt32) : StateRecord k → Nat
  | .slot l n => l.toNat * nodeCount.toNat + n.toNat
  | .faaGlobalLockEntry l | .mcsLockEntry l | .qspinlockEntry l => l.toNat
  | .faaNodeTicket n | .mcsNode n | .qspinNode n => 1024 + n.toNat

/-- The number of records in the table. -/
def count (k : LockAlgorithm) (nodeCount : UInt32) : Nat :=
  match k with
  | .cas => 1024 * nodeCount.toNat
  | .faa | .mcs | .qspinlock => 1024 + nodeCount.toNat

variable {k : LockAlgorithm} {off : ShmOffset} {nodeCount : UInt32} {r r' : StateRecord k}

lemma stateSize_eq (k : LockAlgorithm) (nodeCount : UInt32) :
    (k.getStateSize nodeCount).toNat = count k nodeCount * k.recordBytes := by
  rw [k.toNat_getStateSize]
  cases k <;> simp only [LockAlgorithm.stateSize, count, LockAlgorithm.recordBytes] <;> omega

lemma index_lt (hr : r.InTable nodeCount) : r.index nodeCount < count k nodeCount := by
  cases r with
  | slot l n =>
      obtain ⟨hl, hn⟩ := hr
      have hl' : l.toNat + 1 ≤ 1024 := UInt32.lt_iff_toNat_lt.1 hl
      have hn' : n.toNat < nodeCount.toNat := UInt32.lt_iff_toNat_lt.1 hn
      have hrow := Nat.mul_le_mul_right nodeCount.toNat hl'
      rw [Nat.succ_mul] at hrow
      simp only [index, count]
      omega
  | faaGlobalLockEntry l | mcsLockEntry l | qspinlockEntry l =>
      have hl' : l.toNat < 1024 := UInt32.lt_iff_toNat_lt.1 hr
      exact Nat.lt_add_right nodeCount.toNat hl'
  | faaNodeTicket n | mcsNode n | qspinNode n =>
      exact Nat.add_lt_add_left (UInt32.lt_iff_toNat_lt.1 hr) 1024

lemma index_inj (hr : r.InTable nodeCount) (hr' : r'.InTable nodeCount)
    (h : r.index nodeCount = r'.index nodeCount) : r = r' := by
  have hentry {l : LockId} (hl : l < maxLockCount) : l.toNat < 1024 := UInt32.lt_iff_toNat_lt.1 hl
  cases r with
  | slot l n =>
      cases r' with
      | slot l' n' =>
          obtain ⟨hl, hn⟩ := Extent.row_cell_inj (UInt32.lt_iff_toNat_lt.1 hr.2)
            (UInt32.lt_iff_toNat_lt.1 hr'.2) h
          rw [UInt32.toNat_inj.1 hl, UInt32.toNat_inj.1 hn]
  | faaGlobalLockEntry l | mcsLockEntry l | qspinlockEntry l =>
      have hl := hentry hr
      cases r' <;> simp only [index] at h
      · rw [UInt32.toNat_inj.1 h]
      · omega
  | faaNodeTicket n | mcsNode n | qspinNode n =>
      cases r' <;> simp only [index] at h
      · have hl := hentry hr'
        omega
      · rw [UInt32.toNat_inj.1 (Nat.add_left_cancel h)]

variable (hcount : nodeCount ≤ maxNodeCount)
  (hfits : off.toNat + (k.getStateSize nodeCount).toNat ≤ 2 ^ 64)
include hcount hfits

/-- The 64-bit computation of an offset does not wrap around. -/
lemma toNat_offset (hr : r.InTable nodeCount) :
    (r.offset off nodeCount).toNat = off.toNat + r.index nodeCount * k.recordBytes := by
  have hlt := index_lt hr
  rw [stateSize_eq] at hfits
  cases r with
  | slot l n =>
      have hslot := Cas.toNat_slot hcount hr.1 hr.2
      simp only [index, count, LockAlgorithm.recordBytes] at hlt hfits ⊢
      rw [offset, Cas.getSlotOffset, UInt64.add_assoc, UInt64.toNat_add, hslot]
      omega
  | faaGlobalLockEntry l | mcsLockEntry l | qspinlockEntry l =>
      simp only [index, count, LockAlgorithm.recordBytes] at hlt hfits ⊢
      simp only [offset, Faa.getEntryOffset, Mcs.getEntryOffset, Qspinlock.getEntryOffset,
        entryOffset, UInt64.toNat_add, UInt64.toNat_mul, UInt32.toNat_toUInt64,
        UInt64.reduceToNat]
      omega
  | faaNodeTicket n | mcsNode n | qspinNode n =>
      simp only [index, count, LockAlgorithm.recordBytes] at hlt hfits ⊢
      simp only [offset, Faa.getTicketOffset, Mcs.getNodeOffset, Qspinlock.getNodeOffset,
        nodeRecordOffset, maxLockCount, UInt64.toNat_add, UInt64.toNat_mul,
        UInt32.toNat_toUInt64, UInt32.reduceToNat, UInt64.reduceToNat]
      omega

/-- The records are the cells of a table. -/
lemma extent_eq_cell (hr : r.InTable nodeCount) :
    r.extent off nodeCount = Extent.cell off.toNat k.recordBytes (r.index nodeCount) := by
  rw [extent, toNat_offset hcount hfits hr, Extent.cell]

lemma extent_disjoint (hr : r.InTable nodeCount) (hr' : r'.InTable nodeCount) (hne : r ≠ r') :
    (r.extent off nodeCount).Disjoint (r'.extent off nodeCount) := by
  rw [extent_eq_cell hcount hfits hr, extent_eq_cell hcount hfits hr']
  exact Extent.cell_disjoint fun h => hne (index_inj hr hr' h)

lemma extent_within (hr : r.InTable nodeCount) :
    (r.extent off nodeCount).Within ⟨off.toNat, (k.getStateSize nodeCount).toNat⟩ := by
  rw [extent_eq_cell hcount hfits hr, stateSize_eq]
  exact Extent.cell_within (index_lt hr)

/-- A word within a record of the table. -/
lemma field_within (hr : r.InTable nodeCount) {d : UInt64} (hd : d.toNat + 4 ≤ k.recordBytes) :
    Extent.Within ⟨(r.offset off nodeCount + d).toNat, 4⟩ (r.extent off nodeCount) := by
  obtain ⟨-, hend⟩ := extent_within hcount hfits hr
  simp only [extent] at hend
  simp only [Extent.Within, extent, UInt64.toNat_add]
  omega

end StateRecord

/-! ## What the calls write -/

section HandOver

variable {W : Type} {owner : Option W} {flag : NodeId → W} {own own' : W → Prop}
  {t t' : List (Event W UInt32)}

lemma HandOver.mono (h : HandOver owner flag own t) (himp : ∀ x, own x → own' x) :
    HandOver owner flag own' t :=
  ⟨h.told, fun e he x hx => (h.only e he x hx).imp_left (himp x)⟩

/-- Accesses that write only own words make nobody the owner but themselves. -/
lemma HandOver.of_only (howner : ∀ n, MakesOwner owner n t → n = invalidNodeId)
    (h : WritesOnly own t) : HandOver owner flag own t :=
  ⟨fun n hn hmakes => absurd (howner n hmakes) hn, fun e he x hx => .inl (h e he x hx)⟩

/-- Accesses before that make nobody the owner and write own words only. -/
lemma HandOver.own_append (h : HandOver owner flag own t') (ht : WritesOnly own t)
    (hnobody : ∀ n, ¬ MakesOwner owner n t) : HandOver owner flag own (t ++ t') := by
  have hmakes (n : NodeId) : MakesOwner owner n (t ++ t') ↔ MakesOwner owner n t' := by
    refine exists_congr fun x => and_congr_right fun hx => ?_
    rw [List.mem_append]
    exact or_iff_right fun hmem => hnobody n ⟨x, hx, hmem⟩
  constructor
  · intro n hn hmake
    obtain ⟨e, he, hx⟩ := h.told n hn ((hmakes n).1 hmake)
    exact ⟨e, List.mem_append_right t he, hx⟩
  · simp only [hmakes]
    intro e he x hx
    rcases List.mem_append.1 he with he | he
    · exact .inl (ht e he x hx)
    · exact h.only e he x hx

/-- Accesses before that write nothing. -/
lemma HandOver.silent_append (h : HandOver owner flag own t') (ht : ∀ e ∈ t, e.Silent) :
    HandOver owner flag own (t ++ t') := by
  refine h.own_append (fun e he x hx => absurd hx ((ht e he).not_writes x)) fun n hmakes => ?_
  obtain ⟨x, -, hmem⟩ := hmakes
  exact ht _ hmem

lemma HandOver.nil : HandOver owner flag own [] :=
  .of_only (fun n h => by simp [MakesOwner] at h) writesOnly_nil

end HandOver

namespace Cas.Accesses

variable {off : ShmOffset} {nodeCount : UInt32} {l : LockId} {n m : NodeId}

lemma grantLock_writes :
    (grantLock off nodeCount n l).Every fun t rc =>
      (rc = .success → ∃ e ∈ t, e.Writes (getSlotOffset l n nodeCount off)) ∧
        WritesOnly (· = getSlotOffset l n nodeCount off) t := by
  unfold grantLock
  split_ifs with hn
  · simp [Prog.Every]
  · simp [Prog.Every]

/-- A release of the slot table makes nobody the owner. -/
lemma releaseLock_handOver (flag : NodeId → ShmOffset) :
    (releaseLock off nodeCount m l).Every fun t _ =>
      HandOver none flag (· = getSlotOffset l m nodeCount off) t := by
  unfold releaseLock
  split_ifs with hm
  · exact .nil
  · exact .of_only (by simp [MakesOwner]) (by simp)

lemma initializeShm_clears (hvalid : ¬ (nodeCount = 0 ∨ maxNodeCount < nodeCount)) :
    (initializeShm off nodeCount).Every fun t _ =>
      ClearsFirst off (getStateSize nodeCount).toNat t := by
  rw [initializeShm, if_neg hvalid]
  exact Prog.Every.of_fill fun t _ => ⟨_, t, rfl⟩

end Cas.Accesses

namespace Faa

/-- The record that a word belongs to. -/
def Word.record : Word → StateRecord .faa
  | .nextTicket l | .nowServing l | .ownerNode l | .padding l => .faaGlobalLockEntry l
  | .ticket n | .active n => .faaNodeTicket n

namespace Accesses

variable {nodeCount : UInt32} {l : LockId} {n m : NodeId}

lemma grantLock_writes : (grantLock n l).Every fun t rc =>
    (rc = .success → ∃ e ∈ t, e.Writes (.nowServing l)) ∧
      WritesOnly (fun x => x.record ∈ LockAlgorithm.faa.recordsOf l n) t := by
  unfold grantLock
  split_ifs with hn
  · simp [Prog.Every]
  · simp [Prog.Every, Word.record, LockAlgorithm.recordsOf]

/-- A release of the ticket lock leaves the lock without an owner. -/
lemma releaseLock_handOver (flag : NodeId → Word) : (releaseLock m l).Every fun t _ =>
    HandOver (some (.ownerNode l)) flag
      (fun x => x.record ∈ LockAlgorithm.faa.recordsOf l m) t := by
  unfold releaseLock
  split_ifs with hm
  · exact .nil
  · exact .of_only (by simp [MakesOwner]) (by simp [Word.record, LockAlgorithm.recordsOf])

lemma initializeShm_clears (hvalid : ¬ (nodeCount = 0 ∨ maxNodeCount < nodeCount)) :
    (initializeShm nodeCount).Every fun t _ =>
      ClearsFirst (.nextTicket 0) (getStateSize nodeCount).toNat t := by
  rw [initializeShm, if_neg hvalid]
  generalize Prog.forEach _ _ _ = loops
  exact Prog.Every.of_fill fun t _ => ⟨_, t, rfl⟩

end Accesses

end Faa

namespace Mcs

/-- The record that a word belongs to. -/
def Word.record : Word → StateRecord .mcs
  | .tailNode l | .headNode l | .ownerNode l => .mcsLockEntry l
  | .nextNode n | .locked n | .waitingLock n => .mcsNode n

namespace Accesses

variable {nodeCount : UInt32} {l : LockId} {n m : NodeId}

lemma grantLock_writes : (grantLock nodeCount n l).Every fun t rc =>
    (rc = .success → ∃ e ∈ t, e.Writes (.locked n)) ∧
      WritesOnly (fun x => x.record ∈ LockAlgorithm.mcs.recordsOf l n) t := by
  unfold grantLock
  split_ifs with hparam
  · simp [Prog.Every]
  · simp [Prog.Every, Word.record, LockAlgorithm.recordsOf]

/-- The successor that is stored as the owner is woken. -/
lemma passLock_handOver (succ : NodeId) : (passLock m l succ).Every fun t _ =>
    HandOver (some (.ownerNode l)) .locked
      (fun x => x.record ∈ LockAlgorithm.mcs.recordsOf l m) t := by
  simp only [passLock, resetNode, Prog.Every]
  constructor
  · intro n hn hmakes
    obtain rfl : n = succ := by simpa [MakesOwner] using hmakes
    simp
  · simp [MakesOwner, Word.record, LockAlgorithm.recordsOf]

lemma releaseLock_handOver (fuel : Nat) : (releaseLock nodeCount fuel m l).Every fun t _ =>
    HandOver (some (.ownerNode l)) .locked
      (fun x => x.record ∈ LockAlgorithm.mcs.recordsOf l m) t := by
  unfold releaseLock
  split_ifs with hparam
  · exact .nil
  · simp only [Prog.Every]
    intro owner
    split_ifs with howner
    · exact HandOver.nil.silent_append (t := [_]) (by simp [Event.Silent])
    · simp only [Prog.Every]
      intro succ
      by_cases hsucc : succ = invalidNodeId
      · simp only [hsucc, if_true, Prog.Every, Bool.false_eq_true, if_false, Prog.every_bind]
        constructor
        · exact .of_only (by simp [MakesOwner])
            (by simp [Word.record, LockAlgorithm.recordsOf])
        · refine (waitForLink_silent m fuel).mono fun t succ ht => ?_
          refine (passLock_handOver succ).mono fun t' _ h => ?_
          exact h.silent_append (t := _ :: _ :: _ :: t) (by simpa [Event.Silent] using ht)
      · rw [if_neg hsucc]
        refine (passLock_handOver succ).mono fun t' _ h => ?_
        exact h.silent_append (t := [_, _]) (by simp [Event.Silent])

lemma initializeShm_clears (hvalid : ¬ (nodeCount = 0 ∨ maxNodeCount < nodeCount)) :
    (initializeShm nodeCount).Every fun t _ =>
      ClearsFirst (.tailNode 0) (getStateSize nodeCount).toNat t := by
  rw [initializeShm, if_neg hvalid]
  generalize Prog.forEach _ _ _ = loops
  exact Prog.Every.of_fill fun t _ => ⟨_, t, rfl⟩

end Accesses

end Mcs

namespace Qspinlock

/-- The record that a word belongs to. -/
def Word.record : Word → StateRecord .qspinlock
  | .lockWord l | .ownerNode l | .pendingTail l | .grantInProgress l => .qspinlockEntry l
  | .nextNode n | .locked n | .waitingLock n | .mcsTail n => .qspinNode n

namespace Accesses

variable {nodeCount : UInt32} {l : LockId} {n m : NodeId}

lemma grantLock_writes : (grantLock nodeCount n l).Every fun t rc =>
    (rc = .success → ∃ e ∈ t, e.Writes (.locked n)) ∧
      WritesOnly (fun x => x.record ∈ LockAlgorithm.qspinlock.recordsOf l n) t := by
  unfold grantLock
  split_ifs with hparam
  · simp [Prog.Every]
  · simp [Prog.Every, Word.record, LockAlgorithm.recordsOf]

/-- The successor that is stored as the owner is told so. -/
lemma passLock_handOver : (passLock m l).Every fun t _ =>
    HandOver (some (.ownerNode l)) .locked
      (fun x => x.record ∈ LockAlgorithm.qspinlock.recordsOf l m) t := by
  simp only [passLock, resetNode, Prog.Every]
  intro succId
  constructor
  · intro n hn hmakes
    obtain rfl : n = succId := by simpa [MakesOwner] using hmakes
    simp
  · simp [MakesOwner, Word.record, LockAlgorithm.recordsOf]

/-- Behind its wait a release hands the lock over, or leaves it without an owner. -/
lemma afterWait_handOver : (afterWait m l).Every fun t _ =>
    HandOver (some (.ownerNode l)) .locked
      (fun x => x.record ∈ LockAlgorithm.qspinlock.recordsOf l m) t := by
  simp only [afterWait, Prog.Every]
  intro next
  split_ifs with hnext
  · simp only [forceRelease, Prog.Every]
    exact .of_only (by simp [MakesOwner]) (by simp [Word.record, LockAlgorithm.recordsOf])
  · refine passLock_handOver.mono fun t _ h => ?_
    exact h.silent_append (t := [_]) (by simp [Event.Silent])

lemma releaseLock_handOver : (releaseLock nodeCount m l).Every fun t _ =>
    HandOver (some (.ownerNode l)) .locked
      (fun x => x.record ∈ LockAlgorithm.qspinlock.recordsOf l m) t := by
  unfold releaseLock
  split_ifs with hparam
  · exact .nil
  · simp only [Prog.Every]
    intro owner
    split_ifs with howner
    · exact HandOver.nil.silent_append (t := [_]) (by simp [Event.Silent])
    · simp only [Prog.Every]
      intro next
      by_cases hnext : next = invalidNodeId
      · simp only [hnext, if_true, Prog.Every, Bool.false_eq_true, false_and, true_and, if_false,
          Prog.every_bind]
        intro oldWord
        have hwait : (waitForLink m waitTurns).Every fun t _ => (afterWait m l).Every fun t' _ =>
            HandOver (some (.ownerNode l)) .locked
              (fun x => x.record ∈ LockAlgorithm.qspinlock.recordsOf l m) (t ++ t') := by
          refine (waitForLink_silent m waitTurns).mono fun t _ ht => ?_
          exact afterWait_handOver.mono fun t' _ h => h.silent_append ht
        constructor
        · split_ifs with htail
          · simp only [resetNode, Prog.Every]
            exact .of_only (by simp [MakesOwner]) (by simp [Word.record, LockAlgorithm.recordsOf])
          · rw [Prog.every_bind]
            refine hwait.mono fun t _ h => h.mono fun t' _ h' => ?_
            exact h'.own_append (t := [_, _, _, _])
              (by simp [Word.record, LockAlgorithm.recordsOf]) (by simp [MakesOwner])
        · refine hwait.mono fun t _ h => h.mono fun t' _ h' => ?_
          exact h'.silent_append (t := [_, _, _, _]) (by simp [Event.Silent])
      · rw [if_neg hnext]
        refine passLock_handOver.mono fun t' _ h => ?_
        exact h.silent_append (t := [_, _]) (by simp [Event.Silent])

lemma initializeShm_clears (hvalid : ¬ (nodeCount = 0 ∨ maxNodeCount < nodeCount)) :
    (initializeShm nodeCount).Every fun t _ =>
      ClearsFirst (.lockWord 0) (getStateSize nodeCount).toNat t := by
  rw [initializeShm, if_neg hvalid]
  generalize Prog.forEach _ _ _ = loops
  exact Prog.Every.of_fill fun t _ => ⟨_, t, rfl⟩

end Accesses

end Qspinlock

/-! ## Poll and grant -/

section Words

variable {k : LockAlgorithm} {off : ShmOffset} {nodeCount : UInt32} {l : LockId} {n : NodeId}

lemma every_answer {W : Type} {p : Prog W UInt32 LockResult}
    {Q : List (Event W UInt32) → Answer → Prop} :
    (p.bind fun rc => .ret (.inl rc)).Every Q ↔ p.Every fun t rc => Q t (.inl rc) := by
  simp only [Prog.every_bind, Prog.Every, List.append_nil]

/-- The records of a lock and a node of the system are in the table. -/
lemma inTable_of_mem (hl : l < maxLockCount) (hn : n < nodeCount) {r : StateRecord k}
    (hr : r ∈ k.recordsOf l n) : r.InTable nodeCount := by
  cases k with
  | cas =>
      obtain rfl := List.mem_singleton.1 hr
      exact ⟨hl, hn⟩
  | faa | mcs | qspinlock =>
      simp only [LockAlgorithm.recordsOf, List.mem_cons, List.not_mem_nil, or_false] at hr
      rcases hr with rfl | rfl
      · exact hl
      · exact hn

variable (hcount : nodeCount ≤ maxNodeCount)
  (hfits : off.toNat + (k.getStateSize nodeCount).toNat ≤ 2 ^ 64) (hl : l < maxLockCount)
  (hn : n < nodeCount)
include hcount hfits hl hn

/-- A word that is a field of a record of the lock or the node. -/
lemma inRecords_of_field {r : StateRecord k} (hr : r ∈ k.recordsOf l n) {x : k.accesses.Word}
    (hx : ∃ d : UInt64, d.toNat + 4 ≤ k.recordBytes ∧
      k.wordOffset off x = r.offset off nodeCount + d) : InRecords k off nodeCount l n x := by
  obtain ⟨d, hd, hx⟩ := hx
  refine ⟨r, hr, ?_⟩
  rw [hx]
  exact StateRecord.field_within hcount hfits (inTable_of_mem hl hn hr) hd

end Words

/-- The fields of a record lie within it. -/
lemma Faa.Word.exists_field (off : ShmOffset) (nodeCount : UInt32) (x : Faa.Word) :
    ∃ d : UInt64, d.toNat + 4 ≤ LockAlgorithm.faa.recordBytes ∧
      x.offset off = x.record.offset off nodeCount + d := by
  cases x <;> exact ⟨_, by decide, rfl⟩

lemma Mcs.Word.exists_field (off : ShmOffset) (nodeCount : UInt32) (x : Mcs.Word) :
    ∃ d : UInt64, d.toNat + 4 ≤ LockAlgorithm.mcs.recordBytes ∧
      x.offset off = x.record.offset off nodeCount + d := by
  cases x <;> exact ⟨_, by decide, rfl⟩

lemma Qspinlock.Word.exists_field (off : ShmOffset) (nodeCount : UInt32) (x : Qspinlock.Word) :
    ∃ d : UInt64, d.toNat + 4 ≤ LockAlgorithm.qspinlock.recordBytes ∧
      x.offset off = x.record.offset off nodeCount + d := by
  cases x <;> exact ⟨_, by decide, rfl⟩

section Algorithms

variable (k : LockAlgorithm) (off : ShmOffset) (nodeCount : UInt32) {l : LockId} {n : NodeId}
  (hcount : nodeCount ≤ maxNodeCount)
  (hfits : off.toNat + (k.getStateSize nodeCount).toNat ≤ 2 ^ 64) (hl : l < maxLockCount)
  (hn : n < nodeCount)

/-- The four paths of the loop compute the offsets of the algorithms. -/
lemma pollOffsets_eq (l : LockId) (n : NodeId) : TwoTierLock.pollOffsets off nodeCount l n k =
    (k.accesses.pollReads off nodeCount n l).map (k.wordOffset off) := by
  cases k with
  | cas =>
      show [TwoTierLock.pollSlotOffset off nodeCount l n + 0] = _
      rw [UInt64.add_zero]
      rfl
  | faa | mcs | qspinlock => rfl

/-- The word that tells a node of its grant is one of those it polls. -/
lemma grantFlag_mem (l : LockId) (n : NodeId) :
    k.grantFlag off nodeCount l n ∈ k.accesses.pollReads off nodeCount n l := by
  cases k <;> exact List.mem_cons_self

include hcount hl hn

/-- The slot is the record of the slot table. -/
lemma inRecords_slot {x : ShmOffset}
    (hfits : off.toNat + (LockAlgorithm.cas.getStateSize nodeCount).toNat ≤ 2 ^ 64)
    (hx : x = Cas.getSlotOffset l n nodeCount off) : InRecords .cas off nodeCount l n x :=
  inRecords_of_field hcount hfits hl hn List.mem_cons_self
    ⟨0, by decide, hx.trans (UInt64.add_zero _).symm⟩

include hfits

/-- A grant tells the node, and writes to the records of the lock and the node only. -/
lemma grant_writes (fuel : Nat) :
    (k.accesses.program off nodeCount fuel (.grantLock n l)).Every fun t rc =>
      (rc = .inl .success → ∃ e ∈ t, e.Writes (k.grantFlag off nodeCount l n)) ∧
        WritesOnly (InRecords k off nodeCount l n) t := by
  cases k with
  | cas =>
      refine every_answer.2 (Cas.Accesses.grantLock_writes.mono fun t rc h => ?_)
      exact ⟨fun hrc => h.1 (Sum.inl.inj hrc),
        h.2.mono fun x => inRecords_slot off nodeCount hcount hl hn hfits⟩
  | faa =>
      refine every_answer.2 (Faa.Accesses.grantLock_writes.mono fun t rc h => ?_)
      exact ⟨fun hrc => h.1 (Sum.inl.inj hrc), h.2.mono fun x hx =>
        inRecords_of_field hcount hfits hl hn hx (x.exists_field off nodeCount)⟩
  | mcs =>
      refine every_answer.2 (Mcs.Accesses.grantLock_writes.mono fun t rc h => ?_)
      exact ⟨fun hrc => h.1 (Sum.inl.inj hrc), h.2.mono fun x hx =>
        inRecords_of_field hcount hfits hl hn hx (x.exists_field off nodeCount)⟩
  | qspinlock =>
      refine every_answer.2 (Qspinlock.Accesses.grantLock_writes.mono fun t rc h => ?_)
      exact ⟨fun hrc => h.1 (Sum.inl.inj hrc), h.2.mono fun x hx =>
        inRecords_of_field hcount hfits hl hn hx (x.exists_field off nodeCount)⟩

/-- A release that hands the lock over tells the new owner, and writes else to the records of the
lock and of the releasing node only. -/
lemma release_handOver (fuel : Nat) :
    (k.accesses.program off nodeCount fuel (.releaseLock n l)).Every fun t _ =>
      HandOver (k.ownerWord l) (k.grantFlag off nodeCount l) (InRecords k off nodeCount l n) t := by
  cases k with
  | cas =>
      refine every_answer.2 ((Cas.Accesses.releaseLock_handOver
        fun n => LockAlgorithm.cas.grantFlag off nodeCount l n).mono fun t _ h => ?_)
      exact h.mono fun x => inRecords_slot off nodeCount hcount hl hn hfits
  | faa =>
      refine every_answer.2 ((Faa.Accesses.releaseLock_handOver
        fun n => LockAlgorithm.faa.grantFlag off nodeCount l n).mono fun t _ h => ?_)
      exact h.mono fun x hx =>
        inRecords_of_field hcount hfits hl hn hx (x.exists_field off nodeCount)
  | mcs =>
      refine every_answer.2 ((Mcs.Accesses.releaseLock_handOver fuel).mono fun t _ h => ?_)
      exact h.mono fun x hx =>
        inRecords_of_field hcount hfits hl hn hx (x.exists_field off nodeCount)
  | qspinlock =>
      refine every_answer.2 (Qspinlock.Accesses.releaseLock_handOver.mono fun t _ h => ?_)
      exact h.mono fun x hx =>
        inRecords_of_field hcount hfits hl hn hx (x.exists_field off nodeCount)

end Algorithms

/-- `initialize` of a valid number of nodes clears the table first. -/
lemma initialize_clears (k : LockAlgorithm) (off : ShmOffset) {nodeCount : UInt32}
    (hvalid : ¬ (nodeCount = 0 ∨ maxNodeCount < nodeCount)) (fuel : Nat) :
    (k.accesses.program off nodeCount fuel (.initializeShm nodeCount)).Every fun t _ =>
      ∃ start, k.wordOffset off start = off ∧
        ClearsFirst start (k.getStateSize nodeCount).toNat t := by
  have hentry : entryOffset 64 0 off + 0 = off := by simp [entryOffset]
  cases k with
  | cas =>
      refine every_answer.2 ((Cas.Accesses.initializeShm_clears hvalid).mono fun t _ h => ?_)
      exact ⟨off, rfl, h⟩
  | faa =>
      refine every_answer.2 ((Faa.Accesses.initializeShm_clears hvalid).mono fun t _ h => ?_)
      exact ⟨Faa.Word.nextTicket 0, hentry, h⟩
  | mcs =>
      refine every_answer.2 ((Mcs.Accesses.initializeShm_clears hvalid).mono fun t _ h => ?_)
      exact ⟨Mcs.Word.tailNode 0, hentry, h⟩
  | qspinlock =>
      refine every_answer.2 ((Qspinlock.Accesses.initializeShm_clears hvalid).mono fun t _ h => ?_)
      exact ⟨Qspinlock.Word.lockWord 0, hentry, h⟩

/-- **Poll and grant use the same memory.**  For each algorithm, up to 64 nodes and a state
region that does not wrap around, `poll_for_grant` of a node loads the word by which a grant and
a hand-over tell the node of the lock, the calls keep to the records of the lock and the nodes,
and these are disjoint and inside the range that `initialize` clears. -/
theorem poll_reads_what_grant_writes (k : LockAlgorithm) (off : ShmOffset) (nodeCount : UInt32)
    (hcount : nodeCount ≤ maxNodeCount)
    (hfits : off.toNat + (k.getStateSize nodeCount).toNat ≤ 2 ^ 64) (l : LockId)
    (hl : l < maxLockCount) (n : NodeId) (hn : n < nodeCount) :
    PollMatchesGrant k off nodeCount l n ∧ RecordsApart k off nodeCount := by
  have hwords := pollOffsets_eq k off nodeCount l n
  have hpos : nodeCount ≠ 0 := by
    rintro rfl
    exact UInt32.not_lt_zero hn
  have hvalid := not_or.2 ⟨hpos, UInt32.not_lt.2 hcount⟩
  refine ⟨⟨?_, hwords, ?_, ?_, ?_⟩, ?_, ?_, ?_⟩
  · cases k <;> rfl
  · rw [hwords]
    exact List.mem_map_of_mem (grantFlag_mem k off nodeCount l n)
  · exact grant_writes k off nodeCount hcount hfits hl hn
  · exact fun fuel m hm => release_handOver k off nodeCount hcount hfits hl hm fuel
  · exact fun r r' hr hr' => StateRecord.extent_disjoint hcount hfits hr hr'
  · exact fun r => StateRecord.extent_within hcount hfits
  · exact initialize_clears k off hvalid

/-- Lock 7 of a slot table for three nodes behind the first page. -/
theorem poll_reads_what_grant_writes_slot :
    PollMatchesGrant .cas 4096 3 7 2 ∧ RecordsApart .cas 4096 3 :=
  poll_reads_what_grant_writes .cas 4096 3 (by decide) (by decide) 7 (by decide) 2 (by decide)

end CxlLock
