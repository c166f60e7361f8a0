import CxlLock.AccessModel

/-!
# What a call leaves in the private cache

In `SOFTWARE_CONSISTENCY` mode other nodes see a store after the line has been flushed.
`lock_types.h` promises a flush on every write; the atomic operations of the region do not
flush, so that it is left to the algorithms to do so behind each of their writes.

`call_writes_back_iff` says for all calls, in the presence of any interference, which ones
return with a written line that they have not flushed.  These are the `acquire_lock` of the
ticket lock, which draws its ticket by a `fetch_add` on the entry and flushes the record of the
node only; and the `acquire_lock` of the two queue locks behind another node, which exchange the
tail in the entry and flush the record of that node only.
-/

namespace CxlLock

open AccessProgram

namespace LockAlgorithm

/-- The call is an `acquire_lock` that leaves the entry unflushed: one of the ticket lock, or one
of the queue locks whose exchange has replaced another node in the tail. -/
def Unflushed (off : ShmOffset) (op : Operation) :
    (k : LockAlgorithm) → List (Event k.accesses.Word UInt32) → Prop
  | .cas, _ => False
  | .faa, _ => Faa.Accesses.Unflushed off op
  | .mcs, t => Mcs.Accesses.Unflushed op t
  | .qspinlock, t => Qspinlock.Accesses.Unflushed op t

/-- The same for a call that nobody interferes with, by the memory it begins with. -/
def UnflushedFrom (off : ShmOffset) (nodeCount : UInt32) (op : Operation) :
    (k : LockAlgorithm) → (k.accesses.Word → UInt32) → Prop
  | .cas, _ => False
  | .faa, _ => Faa.Accesses.Unflushed off op
  | .mcs, m => Mcs.Accesses.UnflushedFrom nodeCount op m
  | .qspinlock, m => Qspinlock.Accesses.UnflushedFrom nodeCount op m

variable {off : ShmOffset} {nodeCount : UInt32} {fuel : Nat} {op : Operation}

lemma program_writtenBack_iff (k : LockAlgorithm) (hoff : off.toNat % 64 = 0) :
    (k.accesses.program off nodeCount fuel op).Every fun t _ =>
      WrittenBack (k.accesses.lines off) t ↔ ¬ k.Unflushed off op t := by
  cases k with
  | cas =>
      refine (Cas.Accesses.program_writtenBack nodeCount hoff op).mono fun t _ h => ?_
      exact ⟨fun _ => not_false, fun _ => h⟩
  | faa => exact Faa.Accesses.program_writtenBack_iff hoff op
  | mcs => exact Mcs.Accesses.program_writtenBack_iff hoff nodeCount fuel op
  | qspinlock => exact Qspinlock.Accesses.program_writtenBack_iff hoff nodeCount fuel op

lemma unflushed_of_exec (k : LockAlgorithm) {m m' : k.accesses.Word → UInt32}
    {t : List (Event k.accesses.Word UInt32)} {r : Answer}
    (h : (k.accesses.program off nodeCount fuel op).exec m = some (t, r, m')) :
    k.Unflushed off op t ↔ k.UnflushedFrom off nodeCount op m := by
  cases k with
  | cas => rfl
  | faa => rfl
  | mcs => exact Mcs.Accesses.unflushed_of_exec h
  | qspinlock => exact Qspinlock.Accesses.unflushed_of_exec h

end LockAlgorithm

/-- **Write-back.** A call that returns has flushed every line it has written to behind the
write, unless it is an `acquire_lock` that has changed the entry and flushed another record.
Without interference the memory at the begin of the call decides. -/
theorem call_writes_back_iff (k : LockAlgorithm) (off : ShmOffset) (nodeCount : UInt32)
    (fuel : Nat) (op : Operation) (t : List (Event k.accesses.Word UInt32)) (r : Answer)
    (hoff : off.toNat % 64 = 0)
    (hrun : (k.accesses.program off nodeCount fuel op).Runs t r) :
    (WrittenBack (k.accesses.lines off) t ↔ ¬ k.Unflushed off op t) ∧
      ∀ m m', (k.accesses.program off nodeCount fuel op).exec m = some (t, r, m') →
        (WrittenBack (k.accesses.lines off) t ↔ ¬ k.UnflushedFrom off nodeCount op m) := by
  have hwrite := (k.program_writtenBack_iff hoff).of_runs hrun
  refine ⟨hwrite, fun m m' hexec => ?_⟩
  rw [hwrite, k.unflushed_of_exec hexec]

/-- Node 1 joins the queue of lock 0 behind node 0. -/
theorem call_writes_back_iff_joins : ¬ WrittenBack (Mcs.lines 0)
    ([.store (.nextNode 1) invalidNodeId, .store (.locked 1) 1, .store (.waitingLock 1) 0,
      .flush ⟨.nextNode 1, 64⟩, .exchangeFailed (.tailNode 0) invalidNodeId,
      .load (.tailNode 0) 0, .exchange (.tailNode 0) 0 1, .store (.nextNode 0) 1,
      .flush ⟨.nextNode 0, 64⟩] : List (Event Mcs.Word UInt32)) := by
  refine (not_congr (call_writes_back_iff .mcs 0 2 2 (.acquireLock 1 0) _ (.inl .success) rfl
    ?_).1).2 ?_
  · exact ⟨_, rfl, _, rfl, _, rfl, _, rfl, .inr ⟨_, rfl, _, _, rfl, .inl ⟨_, rfl, _, rfl, _, rfl,
      rfl, rfl⟩⟩⟩
  · exact not_not.2 ⟨0, by decide, by simp⟩

/-- A request for lock 0 of the ticket lock by node 0 leaves `next_ticket` in its cache. -/
theorem faa_ticket_unflushed : ¬ ∀ (k : LockAlgorithm) (off : ShmOffset) (nodeCount : UInt32)
    (fuel : Nat) (op : Operation) (t : List (Event k.accesses.Word UInt32)) (r : Answer),
    off.toNat % 64 = 0 → (k.accesses.program off nodeCount fuel op).Runs t r →
    WrittenBack (k.accesses.lines off) t := by
  intro h
  have hback : WrittenBack (Faa.lines 0) ([.fetchAdd (.nextTicket 0) 0 1, .store (.ticket 0) 0,
      .store (.active 0) 1, .flush ⟨.ticket 0, 64⟩] : List (Event Faa.Word UInt32)) :=
    h .faa 0 1 0 (.acquireLock 0 0) _ (.inl .success) rfl
      ⟨0, _, rfl, _, rfl, _, rfl, _, rfl, rfl, rfl⟩
  have hline : (Faa.lines 0).flushed ⟨.ticket 0, 64⟩ ((Faa.lines 0).line (.nextTicket 0)) =
      false := by decide
  simp [hline] at hback

end CxlLock
