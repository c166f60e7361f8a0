import CxlLock.Cas.GlobalLock
import CxlLock.Lib.Interleaving
import CxlLock.LocalLock

/-!
# The two-tier lock over the slot table, access by access

Any number of threads on every node call `TwoTierLock::acquire`, `try_acquire` and `release`
on any locks, and the lock manager runs `check_grant` and `grant_lock` on one lock after the
other.  Each event is one access to shared memory or one call on a local mutex.

A thread is a pair of its node and an element of an arbitrary type `T`.  Its local variables
are in its program counter.  What it cannot compute, the next call it makes and the clock that
`poll_for_grant` reads, comes with the event; a time-out can therefore happen at any turn of
the poll.  `inside` records which locks the thread has got by a successful call and not begun
to give back; `release` is called for these only.
-/

namespace CxlLock.Cas

open Transition LockSlotState

/-- The call of `TwoTierLock` that takes a lock. -/
inductive Call
  | acquire (timeoutMs : UInt64)
  | tryAcquire
  deriving DecidableEq

/-- The time limit that is passed to `poll_for_grant`; zero ends the poll by a count of
spins. -/
def Call.timeoutMs : Call → UInt64
  | .acquire timeoutMs => timeoutMs
  | .tryAcquire => 0

/-- What the call returns when its poll has failed. -/
def Call.failure : Call → LockResult → LockResult
  | .acquire _, rc => rc
  | .tryAcquire, _ => .errorBusy

/-- The next access of a thread. -/
inductive ThreadPc
  | idle
  /-- Step 1: the local mutex. -/
  | lockLocal (l : LockId) (call : Call)
  /-- Step 2: `acquire_lock` of the global algorithm. -/
  | request (l : LockId) (call : Call)
  /-- Step 3: one turn of `poll_for_grant`. -/
  | poll (l : LockId) (call : Call) (spinCount : UInt32)
  /-- The poll has failed: `release_lock` withdraws the request. -/
  | cancel (l : LockId) (rc : LockResult)
  /-- The local mutex is given back and the call fails. -/
  | abandon (l : LockId) (rc : LockResult)
  /-- The two steps of `release`. -/
  | releaseGlobal (l : LockId)
  | releaseLocal (l : LockId)
  deriving DecidableEq

/-- A thread. -/
structure Thread where
  pc : ThreadPc
  /-- The locks of the calls that have succeeded, up to the store that gives the lock back. -/
  inside : LockId → Bool
  /-- What the last call has returned. -/
  result : Option LockResult

/-- What a thread is told by its environment. -/
inductive Choice
  /-- The call it makes next. -/
  | acquire (l : LockId) (timeoutMs : UInt64)
  | tryAcquire (l : LockId)
  | release (l : LockId)
  /-- The milliseconds since the start of the poll. -/
  | clock (elapsedMs : UInt64)
  deriving DecidableEq

/-- The next access of the lock manager. -/
inductive ManagerPc
  /-- The first pass of `check_grant`, at node `nid`. -/
  | checkLocked (lid : LockId) (nid : NodeId)
  /-- The second pass. -/
  | findWaiting (lid : LockId) (nid : NodeId)
  /-- The exchange of `grant_lock`. -/
  | grant (lid : LockId) (nid : NodeId)
  deriving DecidableEq

/-- The shared memory and the local mutexes of all nodes. -/
structure Memory (T : Type) where
  shm : ShmWords
  localLocks : NodeId → LocalLockArray T

/-- The local mutexes of node `n` have changed to `a`. -/
def Memory.setLocal {T : Type} (m : Memory T) (n : NodeId) (a : LocalLockArray T) : Memory T :=
  { m with localLocks := Function.update m.localLocks n a }

namespace Thread

/-- The call goes on at `pc`. -/
def goto (th : Thread) (pc : ThreadPc) : Thread := { th with pc := pc }

/-- The call returns `rc`. -/
def finish (th : Thread) (rc : LockResult) : Thread :=
  { th with pc := .idle, result := some rc }

/-- The thread is inside the critical section of `l`, or not, from now on. -/
def setInside (th : Thread) (l : LockId) (b : Bool) : Thread :=
  { th with inside := Function.update th.inside l b }

end Thread

section Programs

variable {T : Type} [DecidableEq T] (size : SystemSize) (stateOffset : ShmOffset)

/-- The begin of a call, with its check of the lock id. -/
def beginCall (m : Memory T) (th : Thread) : Choice → Option (Memory T × Thread)
  | .acquire l timeoutMs =>
      if l ≥ size.maxLocks then some (m, th.finish .errorInvalidParam)
      else some (m, th.goto (.lockLocal l (.acquire timeoutMs)))
  | .tryAcquire l =>
      if l ≥ size.maxLocks then some (m, th.finish .errorInvalidParam)
      else some (m, th.goto (.lockLocal l .tryAcquire))
  | .release l => if th.inside l then some (m, th.goto (.releaseGlobal l)) else none
  | .clock _ => none

/-- Step 1 of `acquire` and `try_acquire`. -/
def takeLocal (a : LocalLockArray T) (t : T) (l : LockId) :
    Call → Option (LockResult × LocalLockArray T)
  | .acquire _ => a.acquire t l
  | .tryAcquire => some (a.tryAcquire t l)

/-- Where `poll_for_grant` goes after a load of the slot that was not granted. -/
def pollAgain (l : LockId) (call : Call) (spinCount : UInt32) (elapsedMs : UInt64) : ThreadPc :=
  if call.timeoutMs > 0 then
    if elapsedMs ≥ call.timeoutMs then .cancel l (call.failure .errorTimeout)
    else .poll l call (spinCount + 1)
  else if spinCount > 1000 then .cancel l (call.failure .errorBusy)
  else .poll l call (spinCount + 1)

/-- One access of thread `t` of node `n`. -/
def threadStep (n : NodeId) (t : T) (c : Choice) (m : Memory T) (th : Thread) :
    Option (Memory T × Thread) :=
  match th.pc with
  | .idle => beginCall size m th c
  | .lockLocal l call =>
      (takeLocal (m.localLocks n) t l call).map fun r =>
        (m.setLocal n r.2,
          if r.1 = .success then th.goto (.request l call) else th.finish r.1)
  | .request l call =>
      let r := acquireLock stateOffset size.nodeCount n l m.shm
      some ({ m with shm := r.2 },
        th.goto (if r.1 = .success then .poll l call 0 else .abandon l r.1))
  | .poll l call spinCount =>
      match c with
      | .clock elapsedMs =>
          if pollGranted stateOffset size.nodeCount n l m.shm then
            some (m, (th.setInside l true).finish .success)
          else some (m, th.goto (pollAgain l call spinCount elapsedMs))
      | _ => none
  | .cancel l rc =>
      some ({ m with shm := (releaseLock stateOffset size.nodeCount n l m.shm).2 },
        th.goto (.abandon l rc))
  | .abandon l rc =>
      some (m.setLocal n ((m.localLocks n).release t l).2, th.finish rc)
  | .releaseGlobal l =>
      let r := releaseLock stateOffset size.nodeCount n l m.shm
      some ({ m with shm := r.2 },
        (th.setInside l false).goto
          (if r.1 = .success then .releaseLocal l else .abandon l r.1))
  | .releaseLocal l =>
      let r := (m.localLocks n).release t l
      some (m.setLocal n r.2, th.finish r.1)

/-- The scan goes on with the next lock, or begins again. -/
def nextLock (lid : LockId) : ManagerPc :=
  if lid + 1 < size.maxLocks then .checkLocked (lid + 1) 0 else .checkLocked 0 0

/-- One access of the lock manager. -/
def managerStep (shm : ShmWords) : ManagerPc → ShmWords × ManagerPc
  | .checkLocked lid nid =>
      if readSlotState lid nid size.nodeCount stateOffset shm = locked.toWord then
        (shm, nextLock size lid)
      else if nid + 1 < size.nodeCount then (shm, .checkLocked lid (nid + 1))
      else (shm, .findWaiting lid 0)
  | .findWaiting lid nid =>
      if readSlotState lid nid size.nodeCount stateOffset shm = waiting.toWord then
        (shm, .grant lid nid)
      else if nid + 1 < size.nodeCount then (shm, .findWaiting lid (nid + 1))
      else (shm, nextLock size lid)
  | .grant lid nid =>
      ((grantLock stateOffset size.nodeCount nid lid shm).2, nextLock size lid)

/-- The threads of the nodes below `node_count` and the lock manager, after `initialize` of
the table and of the local mutexes. -/
def machine : Machine (NodeId × T) Choice (Memory T) Thread ManagerPc where
  start m := (∃ shm, m.shm = (initializeShm stateOffset size.nodeCount shm).2) ∧
    ∀ n, m.localLocks n = (LocalLockArray.unused.initializeArray size.maxLocks .done).2
  idle := ⟨.idle, fun _ => false, none⟩
  managerIdle := .checkLocked 0 0
  party i c m th :=
    if i.1 < size.nodeCount then threadStep size stateOffset i.1 i.2 c m th else none
  manager m pc :=
    let r := managerStep size stateOffset m.shm pc
    some ({ m with shm := r.1 }, r.2)

end Programs

/-- A state of the interleaved two-tier lock. -/
abbrev State (T : Type) := Config (NodeId × T) (Memory T) Thread ManagerPc

/-- The state right after `initialize` of a zeroed region and of the local mutexes. -/
def zeroedStart (T : Type) (size : SystemSize) (stateOffset : ShmOffset) : State T where
  mem :=
    { shm := (initializeShm stateOffset size.nodeCount fun _ => 0).2
      localLocks := fun _ => (LocalLockArray.unused.initializeArray size.maxLocks .done).2 }
  pc _ := ⟨.idle, fun _ => false, none⟩
  mgr := .checkLocked 0 0

lemma zeroedStart_init (T : Type) [DecidableEq T] (size : SystemSize)
    (stateOffset : ShmOffset) :
    (machine size stateOffset).system.init (zeroedStart T size stateOffset) :=
  ⟨⟨⟨fun _ => 0, rfl⟩, fun _ => rfl⟩, fun _ => rfl, rfl⟩

/-- At most one thread of the whole system is inside the critical section of a lock. -/
def Exclusive {T : Type} (s : State T) : Prop :=
  ∀ l i j, (s.pc i).inside l = true → (s.pc j).inside l = true → i = j

section Slots

variable {T : Type} (size : SystemSize) (stateOffset : ShmOffset) (s : State T)

/-- The slot of node `n` for lock `l`. -/
def slot (l : LockId) (n : NodeId) : UInt32 :=
  readSlotState l n size.nodeCount stateOffset s.mem.shm

/-- At most one slot of each lock is `LOCKED`. -/
def OneLocked : Prop :=
  ∀ l, l < size.maxLocks → ∀ n, n < size.nodeCount → ∀ m, m < size.nodeCount →
    slot size stateOffset s l n = locked.toWord → slot size stateOffset s l m = locked.toWord →
      n = m

/-- Behind every slot that is not `IDLE` there is a thread of its node that has locked the
local mutex. -/
def SlotsCovered : Prop :=
  ∀ l, l < size.maxLocks → ∀ n, n < size.nodeCount →
    slot size stateOffset s l n ≠ idle.toWord → ∃ t, (s.mem.localLocks n).owner l = some t

end Slots

end CxlLock.Cas
