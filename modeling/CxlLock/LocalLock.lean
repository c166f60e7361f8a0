import CxlLock.Types
import Mathlib.Logic.Function.Basic

/-!
# The local mutexes of a node (`local_lock.cpp`)

A `LocalLockArray` is one node's array of error-checking `pthread` mutexes, one for each lock.
The threads of the node are the values of an arbitrary type `T`; a mutex is its owner.  A
blocking call that cannot go on yet is `none`.
-/

namespace CxlLock

/-- `LocalLockArray`: the mutexes of one node. -/
structure LocalLockArray (T : Type) where
  initialized : Bool
  lockCount : UInt32
  /-- The thread that has locked the mutex. -/
  owner : LockId → Option T

/-- How the allocation of the mutexes and their `pthread_mutex_init` end. -/
inductive MutexSetup
  | noMemory
  | initFailed
  | done
  deriving DecidableEq

/-- What the `pthread_mutex` functions return. -/
inductive MutexCode
  | ok
  | ebusy
  | edeadlk
  | eperm
  deriving DecidableEq

section Mutex

variable {T : Type} [DecidableEq T]

/-- `pthread_mutex_trylock` by thread `t` of an error-checking mutex with the given owner. -/
def pthreadMutexTrylock (owner : Option T) (t : T) : MutexCode × Option T :=
  if owner = none then (.ok, some t) else (.ebusy, owner)

/-- `pthread_mutex_unlock`. -/
def pthreadMutexUnlock (owner : Option T) (t : T) : MutexCode × Option T :=
  if owner = some t then (.ok, none) else (.eperm, owner)

end Mutex

namespace LocalLockArray

variable {T : Type}

/-- A `LocalLockArray` as it is constructed. -/
def unused : LocalLockArray T := ⟨false, 0, fun _ => none⟩

/-- `LocalLockArray::initialize`. -/
def initializeArray (a : LocalLockArray T) (lockCount : UInt32) (setup : MutexSetup) :
    LockResult × LocalLockArray T :=
  if lockCount = 0 ∨ maxLockCount < lockCount then (.errorInvalidParam, a)
  else if a.initialized then (.errorUnknown, a)
  else
    match setup with
    | .noMemory => (.errorShmFailure, a)
    | .initFailed => (.errorUnknown, a)
    | .done => (.success, ⟨true, lockCount, fun _ => none⟩)

/-- The mutex for `lockId` has the given owner from now on. -/
def setOwner (a : LocalLockArray T) (lockId : LockId) (o : Option T) : LocalLockArray T :=
  { a with owner := Function.update a.owner lockId o }

@[simp] lemma setOwner_owner (a : LocalLockArray T) (l j : LockId) (o : Option T) :
    (a.setOwner l o).owner j = if j = l then o else a.owner j := by
  simp [setOwner, Function.update_apply]

@[simp] lemma setOwner_initialized (a : LocalLockArray T) (l : LockId) (o : Option T) :
    (a.setOwner l o).initialized = a.initialized := rfl

@[simp] lemma setOwner_lockCount (a : LocalLockArray T) (l : LockId) (o : Option T) :
    (a.setOwner l o).lockCount = a.lockCount := rfl

lemma setOwner_setOwner (a : LocalLockArray T) (l : LockId) (o o' : Option T) :
    (a.setOwner l o).setOwner l o' = a.setOwner l o' := by
  simp [setOwner]

lemma setOwner_owner_self (a : LocalLockArray T) (l : LockId) : a.setOwner l (a.owner l) = a := by
  simp [setOwner]

variable [DecidableEq T]

/-- `LocalLockArray::acquire` by thread `t`: `pthread_mutex_lock`, which fails with `EDEADLK`
when `t` is the owner already and waits when another thread is. -/
def acquire (a : LocalLockArray T) (t : T) (lockId : LockId) :
    Option (LockResult × LocalLockArray T) :=
  if a.initialized = false ∨ lockId ≥ a.lockCount then some (.errorInvalidParam, a)
  else if a.owner lockId = none then some (.success, a.setOwner lockId (some t))
  else if a.owner lockId = some t then some (.errorUnknown, a)
  else none

/-- `LocalLockArray::release` by thread `t`: `pthread_mutex_unlock`, which fails with `EPERM`
when `t` is not the owner. -/
def release (a : LocalLockArray T) (t : T) (lockId : LockId) :
    LockResult × LocalLockArray T :=
  if a.initialized = false ∨ lockId ≥ a.lockCount then (.errorInvalidParam, a)
  else if a.owner lockId = some t then (.success, a.setOwner lockId none)
  else (.errorNotOwner, a)

/-- `LocalLockArray::try_acquire` by thread `t`: `pthread_mutex_trylock`, which fails with
`EBUSY` when the mutex has an owner. -/
def tryAcquire (a : LocalLockArray T) (t : T) (lockId : LockId) :
    LockResult × LocalLockArray T :=
  if a.initialized = false ∨ lockId ≥ a.lockCount then (.errorInvalidParam, a)
  else if a.owner lockId = none then (.success, a.setOwner lockId (some t))
  else (.errorBusy, a)

/-- `LocalLockArray::is_held_by_this_thread` by thread `t`: a `pthread_mutex_trylock` that is
undone when it succeeds. -/
def isHeldByThisThread (a : LocalLockArray T) (t : T) (lockId : LockId) :
    Bool × LocalLockArray T :=
  if a.initialized = false ∨ lockId ≥ a.lockCount then (false, a)
  else
    let r := pthreadMutexTrylock (a.owner lockId) t
    let a := a.setOwner lockId r.2
    if r.1 = .ok then (false, a.setOwner lockId (pthreadMutexUnlock (a.owner lockId) t).2)
    else if r.1 = .edeadlk ∨ r.1 = .eperm then (true, a)
    else (false, a)

/-! ## What the calls do to an initialized array -/

/-- The array has been initialized with `lockCount` mutexes. -/
def Ready (a : LocalLockArray T) (lockCount : UInt32) : Prop :=
  a.initialized = true ∧ a.lockCount = lockCount

section Specs

variable {a a' : LocalLockArray T} {count : UInt32} {t : T} {l : LockId} {rc : LockResult}

omit [DecidableEq T] in
/-- The mutexes of a running system are initialized. -/
lemma initializeArray_ready (size : SystemSize) :
    ((unused : LocalLockArray T).initializeArray size.maxLocks .done).2.Ready size.maxLocks := by
  rw [initializeArray, if_neg size.maxLocks_valid]
  exact ⟨rfl, rfl⟩

omit [DecidableEq T] in
lemma Ready.setOwner (h : a.Ready count) (o : Option T) : (a.setOwner l o).Ready count := h

omit [DecidableEq T] in
/-- The calls on the mutexes of an initialized array pass the check of their parameters. -/
lemma Ready.inRange (h : a.Ready count) (hl : l < count) :
    ¬ (a.initialized = false ∨ l ≥ a.lockCount) := by
  obtain ⟨hinit, hcount⟩ := h
  simpa [hinit, hcount] using hl

/-- A successful lock makes the caller the owner of a free mutex; a failed one, which the
owner gets, changes nothing. -/
lemma acquire_cases (h : a.Ready count) (hl : l < count) (hr : a.acquire t l = some (rc, a')) :
    a.owner l = none ∧ rc = .success ∧ a' = a.setOwner l (some t) ∨
      a.owner l = some t ∧ rc = .errorUnknown ∧ a' = a := by
  simp only [acquire, h.inRange hl, if_false] at hr
  split_ifs at hr with hnone hself
  · cases hr
    exact .inl ⟨hnone, rfl, rfl⟩
  · cases hr
    exact .inr ⟨hself, rfl, rfl⟩

omit [DecidableEq T] in
lemma tryAcquire_cases (h : a.Ready count) (hl : l < count) :
    a.owner l = none ∧ a.tryAcquire t l = (.success, a.setOwner l (some t)) ∨
      a.owner l ≠ none ∧ a.tryAcquire t l = (.errorBusy, a) := by
  simp only [tryAcquire, h.inRange hl, if_false]
  split_ifs with hnone
  · exact .inl ⟨hnone, rfl⟩
  · exact .inr ⟨hnone, rfl⟩

/-- The owner of a mutex can unlock it. -/
lemma release_of_owner (h : a.Ready count) (hl : l < count) (ho : a.owner l = some t) :
    a.release t l = (.success, a.setOwner l none) := by
  simp only [release, h.inRange hl, if_false, ho, if_true]

/-- Anybody else is refused, and the mutexes stay as they are. -/
lemma release_of_not_owner (ho : a.owner l ≠ some t) :
    (a.release t l).1 ≠ .success ∧ (a.release t l).2 = a := by
  unfold release
  split_ifs
  · exact ⟨LockResult.noConfusion, rfl⟩
  · exact ⟨LockResult.noConfusion, rfl⟩

/-- The probe of a mutex leaves it as it was, and a mutex that is locked does not say by whom. -/
lemma isHeldByThisThread_eq (a : LocalLockArray T) (t : T) (l : LockId) :
    a.isHeldByThisThread t l = (false, a) := by
  unfold isHeldByThisThread
  split_ifs with hrange
  · rfl
  · by_cases hfree : a.owner l = none
    · have hself : a.setOwner l none = a := hfree ▸ a.setOwner_owner_self l
      simp [pthreadMutexTrylock, pthreadMutexUnlock, hfree, setOwner_setOwner, hself]
    · simp [pthreadMutexTrylock, hfree, setOwner_owner_self]

end Specs

end LocalLockArray

end CxlLock
