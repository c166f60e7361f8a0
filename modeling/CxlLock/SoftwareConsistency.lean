import CxlLock.SharedMemory
import CxlLock.Lib.CacheLines

/-!
# Cache lines of the shared memory region (`cxl_memory_pool.h`, `shared_memory.cpp`)

In `SOFTWARE_CONSISTENCY` mode no hardware keeps the caches of the nodes coherent.
`flush_cache` and `invalidate_cache` are the same function there: `CLFLUSH` on one address of
every 64 bytes of the range, which writes the line back and drops it.  In
`HARDWARE_CONSISTENCY` mode both do nothing.

A line is 64 bytes.  Addresses are offsets into the region, which is mapped at the begin of a
page.  The records of the lock algorithms are `alignas(64)` with less than 64 bytes of data, so
that a record whose table begins at a multiple of 64 is one line (`lineAt_field`).
-/

namespace CxlLock

open AccessProgram

/-- The line of the byte `i` bytes behind an address. -/
def lineAt (addr : ShmOffset) (i : Nat) : Nat := (addr.toNat + i) % 2 ^ 64 / 64

/-- The lines of locations at the given addresses.  `flush_cache_region` flushes the lines of
the bytes `0`, `64`, `128` and so on of a range. -/
def linesOf {L : Type} (address : L → ShmOffset) : Lines L Nat where
  line x := lineAt (address x) 0
  filled r ln := (List.range r.bytes).any fun i => lineAt (address r.start) i == ln
  flushed r ln := (List.range ((r.bytes + 63) / 64)).any fun i =>
    lineAt (address r.start) (64 * i) == ln

section Lines

variable {L : Type} {address : L → ShmOffset}

/-- A flush of at most 64 bytes writes back the line in which it begins. -/
lemma flushed_of_le {x : L} {bytes : Nat} (hpos : 0 < bytes) (hle : bytes ≤ 64) {ln : Nat} :
    (linesOf address).flushed ⟨x, bytes⟩ ln = true ↔ ln = (linesOf address).line x := by
  have hone : (bytes + 63) / 64 = 1 := by omega
  simp only [linesOf, hone, List.range_one, List.any_cons, List.any_nil, Nat.mul_zero,
    Bool.or_false, beq_iff_eq]
  exact eq_comm

lemma filled_iff {r : Range L} {ln : Nat} : (linesOf address).filled r ln = true ↔
    ∃ i, i < r.bytes ∧ lineAt (address r.start) i = ln := by
  simp only [linesOf, List.any_eq_true, List.mem_range, beq_iff_eq]

/-- A flush writes back the line of every 64th byte. -/
lemma flushed_of_lt {r : Range L} {i : Nat} (hi : 64 * i < r.bytes) :
    (linesOf address).flushed r (lineAt (address r.start) (64 * i)) = true := by
  simp only [linesOf, List.any_eq_true, List.mem_range, beq_iff_eq]
  exact ⟨i, by omega, rfl⟩

/-- What lies in a record that begins at a multiple of 64 lies in its line. -/
lemma lineAt_field {base : ShmOffset} (hbase : base.toNat % 64 = 0) {d : UInt64}
    (hd : d.toNat < 64) : lineAt (base + d) 0 = base.toNat / 64 := by
  have := base.toNat_lt
  simp only [lineAt, UInt64.toNat_add]
  omega

/-- The byte `i` behind a multiple of 64 is in the line of the last multiple before it. -/
lemma lineAt_div {base : ShmOffset} (hbase : base.toNat % 64 = 0) (i : Nat) :
    lineAt base i = lineAt base (64 * (i / 64)) := by
  unfold lineAt
  omega

end Lines

/-! ## The calls -/

/-- A call of an operation of the algorithms, with its parameters. -/
inductive Operation
  | initializeShm (nodeCount : UInt32)
  | acquireLock (nodeId : NodeId) (lockId : LockId)
  | releaseLock (nodeId : NodeId) (lockId : LockId)
  | checkGrant (nodeCount : UInt32) (lockId : LockId)
  | grantLock (nodeId : NodeId) (lockId : LockId)
  deriving DecidableEq

/-- What a call returns: a result code, or the node that `check_grant` has found. -/
abbrev Answer := LockResult ⊕ NodeId

/-! ## The lines of the records -/

section Records

variable {off : ShmOffset}

/-- The line of the entry of a lock. -/
def entryLine (off : ShmOffset) (l : LockId) : Nat := (entryOffset 64 l off).toNat / 64

/-- The line of the record of a node. -/
def recordLine (off : ShmOffset) (n : NodeId) : Nat := (nodeRecordOffset 64 64 n off).toNat / 64

lemma entryOffset_aligned (hoff : off.toNat % 64 = 0) (l : LockId) :
    (entryOffset 64 l off).toNat % 64 = 0 := by
  simp only [entryOffset, UInt64.toNat_add, UInt64.toNat_mul, UInt32.toNat_toUInt64,
    UInt64.reduceToNat]
  omega

lemma nodeRecordOffset_aligned (hoff : off.toNat % 64 = 0) (n : NodeId) :
    (nodeRecordOffset 64 64 n off).toNat % 64 = 0 := by
  simp only [nodeRecordOffset, maxLockCount, UInt64.toNat_add, UInt64.toNat_mul,
    UInt32.toNat_toUInt64, UInt32.reduceToNat, UInt64.reduceToNat]
  omega

/-- The fields of an entry are in its line. -/
lemma lineAt_entry (hoff : off.toNat % 64 = 0) (l : LockId) {d : UInt64} (hd : d.toNat < 64) :
    lineAt (entryOffset 64 l off + d) 0 = entryLine off l :=
  lineAt_field (entryOffset_aligned hoff l) hd

/-- The fields of the record of a node are in its line. -/
lemma lineAt_record (hoff : off.toNat % 64 = 0) (n : NodeId) {d : UInt64} (hd : d.toNat < 64) :
    lineAt (nodeRecordOffset 64 64 n off + d) 0 = recordLine off n :=
  lineAt_field (nodeRecordOffset_aligned hoff n) hd

/-- The entry of a lock of the table and the record of a node are different lines. -/
lemma entryLine_ne_recordLine (hoff : off.toNat % 64 = 0) {l : LockId} (hl : l < maxLockCount)
    (n : NodeId) : entryLine off l ≠ recordLine off n := by
  have hl' : l.toNat < 1024 := UInt32.lt_iff_toNat_lt.1 hl
  have hn := n.toNat_lt
  have := off.toNat_lt
  simp only [entryLine, recordLine, entryOffset, nodeRecordOffset, maxLockCount,
    UInt64.toNat_add, UInt64.toNat_mul, UInt32.toNat_toUInt64, UInt32.reduceToNat,
    UInt64.reduceToNat]
  omega

/-- The lines that the `memset` of `initialize` writes to are those of the entries and of the
records of the nodes. -/
lemma line_of_recordsSize (hoff : off.toNat % 64 = 0) {count : UInt32} {i : Nat}
    (hi : i < (recordsSize 64 64 count).toNat) :
    (∃ l ∈ idsBelow maxLockCount, lineAt off i = entryLine off l) ∨
      ∃ n ∈ idsBelow count, lineAt off i = recordLine off n := by
  have hcount := count.toNat_lt
  have hsize : (recordsSize 64 64 count).toNat = 65536 + count.toNat * 64 := by
    simp only [recordsSize, maxLockCount, UInt64.toNat_add, UInt64.toNat_mul,
      UInt32.toNat_toUInt64, UInt32.reduceToNat, UInt64.reduceToNat]
    omega
  have hword : UInt32.size = 2 ^ 32 := rfl
  rw [hsize] at hi
  by_cases hentry : i / 64 < 1024
  · refine .inl ⟨UInt32.ofNat (i / 64), mem_idsBelow.2 ?_, ?_⟩
    · rw [UInt32.lt_iff_toNat_lt, UInt32.toNat_ofNat_of_lt' (by omega)]
      exact hentry
    · simp only [lineAt, entryLine, entryOffset, UInt64.toNat_add, UInt64.toNat_mul,
        UInt32.toNat_toUInt64, UInt64.reduceToNat,
        UInt32.toNat_ofNat_of_lt' (show i / 64 < UInt32.size by omega)]
      omega
  · have hlt : i / 64 - 1024 < count.toNat := by omega
    refine .inr ⟨UInt32.ofNat (i / 64 - 1024), mem_idsBelow.2 ?_, ?_⟩
    · rw [UInt32.lt_iff_toNat_lt, UInt32.toNat_ofNat_of_lt' (by omega)]
      exact hlt
    · simp only [lineAt, recordLine, nodeRecordOffset, maxLockCount, UInt64.toNat_add,
        UInt64.toNat_mul, UInt32.toNat_toUInt64, UInt32.reduceToNat, UInt64.reduceToNat,
        UInt32.toNat_ofNat_of_lt' (show i / 64 - 1024 < UInt32.size by omega)]
      omega

/-- The `memset` of `initialize` and its two loops: every line that the `memset` writes to is
flushed by the turn for its entry or record. -/
lemma writtenBack_initialize {L : Type} {g : Lines L Nat} {address : L → ShmOffset}
    (hg : g = linesOf address) (hoff : off.toNat % 64 = 0) {start : L}
    (hstart : address start = off) {count : UInt32} {inside : L → Bool}
    {entryTurn : LockId → List (Event L UInt32)} {recordTurn : NodeId → List (Event L UInt32)}
    (hentry : ∀ l, WrittenBack g (entryTurn l) ∧ FlushedIn g (entryLine off l) (entryTurn l))
    (hrecord : ∀ n, WrittenBack g (recordTurn n) ∧
      FlushedIn g (recordLine off n) (recordTurn n)) :
    WrittenBack g (.fill ⟨start, (recordsSize 64 64 count).toNat⟩ inside 0 ::
      ((idsBelow maxLockCount).flatMap entryTurn ++ ((idsBelow count).flatMap recordTurn ++ [])))
    := by
  rw [List.append_nil, writtenBack_fill]
  constructor
  · intro ln hfilled
    rw [hg] at hfilled
    obtain ⟨i, hi, rfl⟩ := filled_iff.1 hfilled
    rw [hstart, flushedIn_append, flushedIn_flatMap, flushedIn_flatMap]
    rcases line_of_recordsSize hoff hi with ⟨l, hl, heq⟩ | ⟨n, hn, heq⟩
    · exact .inl ⟨l, hl, heq ▸ (hentry l).2⟩
    · exact .inr ⟨n, hn, heq ▸ (hrecord n).2⟩
  · exact (writtenBack_flatMap fun l _ => (hentry l).1).append
      (writtenBack_flatMap fun n _ => (hrecord n).1)

end Records

end CxlLock
