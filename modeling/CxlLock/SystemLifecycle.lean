import CxlLock.SharedMemory
import CxlLock.TwoTierRelease

/-!
# The life of a `DistributedLockSystem` object (`distributed_lock.cpp`)

One object goes through calls of `initialize`, `shutdown` and the lock operations.  Its members
are set in the course of `initialize`, some of them before anything has been checked, and the
exits of a call that fails undo different parts of it; `shutdown` does nothing on an object that
is not initialized.  An `initialize` that stores to bytes that are not mapped does not return,
and the object is gone.

Two questions are settled for every sequence of calls.  `failed_fresh_iff`: a failed
`initialize` leaves the object like a new one exactly when its parameters say nothing (no node
id, no lock manager), the pool could not be opened, and no call before has left an algorithm
behind.  `dataKeysSafe_iff`: the operations on data keys compute a remainder by zero exactly
when the configuration that was stored last has no locks.
-/

namespace CxlLock

open Transition

/-- `get_name` of the algorithm. -/
def LockAlgorithm.getName : LockAlgorithm → String
  | .cas => "CASGlobalLock"
  | .faa => "FAAGlobalLock"
  | .mcs => "MCSGlobalLock"
  | .qspinlock => "QspinlockGlobalLock"

/-- `CxlMemoryPool`: whether it is open. -/
structure MemoryPool where
  isOpen : Bool
  deriving DecidableEq

/-- `CxlMemoryPool::close`. -/
def MemoryPool.close (_ : MemoryPool) : MemoryPool := ⟨false⟩

/-- The members of `LockManager` that its start and stop depend on. -/
structure ManagerObject where
  initialized : Bool
  running : Bool
  deriving DecidableEq

/-- `LockManager::start`; an initialized manager has the manager role. -/
def ManagerObject.start (m : ManagerObject) : LockResult × ManagerObject :=
  if m.initialized = false then (.errorLockNotInitialized, m)
  else if m.running then (.errorUnknown, m)
  else (.success, { m with running := true })

/-- `LockManager::initialize` of a new manager on a region: the result, or `none` for a call
that does not return, and the stores that come back. -/
def managerInitializeStores (k : LockAlgorithm) (shm : SharedMemoryRegion) (behind : Nat)
    (maxLocks nodeCount : UInt32) : Option LockResult × List ByteRange :=
  if maxLocks = 0 ∨ maxLockCount < maxLocks then (some .errorInvalidParam, [])
  else if nodeCount = 0 ∨ maxNodeCount < nodeCount then (some .errorInvalidParam, [])
  else k.initializeStores shm behind 0 nodeCount

/-- The members of `DistributedLockSystem::Impl`.  The local mutexes belong to the lock
calls and are new in every `initialize` that gets to them. -/
structure SystemObject where
  pool : Option MemoryPool
  twoTierLock : Option TwoTierLock
  lockManager : Option ManagerObject
  algorithm : Option LockAlgorithm
  config : SystemConfig
  nodeId : NodeId
  isLockManager : Bool
  initialized : Bool
  lockManagerStarted : Bool

namespace SystemObject

/-- A newly constructed object, with the default configuration. -/
def new : SystemObject where
  pool := none
  twoTierLock := none
  lockManager := none
  algorithm := none
  config :=
    { useFileBackedShm := false, shmSize := 64 * 1024 * 1024, maxNodes := 16, maxLocks := 256
      lockAlgorithm := "cas" }
  nodeId := invalidNodeId
  isLockManager := false
  initialized := false
  lockManagerStarted := false

/-- `get_algorithm_name`. -/
def getAlgorithmName (o : SystemObject) : String :=
  match o.algorithm with
  | some k => k.getName
  | none => "<none>"

/-- `pool_->close()`. -/
def closePool (o : SystemObject) : SystemObject := { o with pool := o.pool.map MemoryPool.close }

/-- `two_tier_lock_->shutdown()`. -/
def shutdownTwoTier (o : SystemObject) : SystemObject :=
  { o with twoTierLock := o.twoTierLock.map fun lock => { lock with initialized := false } }

/-! ## `initialize` -/

/-- Step 5: a new lock manager is initialized and started. -/
def startManager (o : SystemObject) (k : LockAlgorithm) (config : SystemConfig)
    (env : InitOutcome) : Option (LockResult × SystemObject) :=
  (managerInitializeStores k config.region env.behind config.maxLocks config.maxNodes).1.map
    fun rc =>
      if rc ≠ .success then
        (rc, ({ o with lockManager := some ⟨false, false⟩ }.shutdownTwoTier).closePool)
      else
        let r := (ManagerObject.mk true false).start
        let o := { o with lockManager := some r.2 }
        if r.1 ≠ .success then (r.1, o.shutdownTwoTier.closePool)
        else (.success, { o with lockManagerStarted := true, initialized := true })

/-- Step 4: a new `TwoTierLock` is initialized. -/
def startTwoTier (o : SystemObject) (k : LockAlgorithm) (config : SystemConfig)
    (nodeId : NodeId) (asLockManager : Bool) (env : InitOutcome) :
    Option (LockResult × SystemObject) :=
  (twoTierInitializeStores k config.region env.behind false nodeId 0 config.maxLocks
    config.maxNodes).1.bind fun rc =>
      let lock : TwoTierLock :=
        ⟨decide (rc = .success), nodeId, 0, config.maxLocks, config.nodeCount⟩
      let o := { o with twoTierLock := some lock }
      if rc ≠ .success then some (rc, o.closePool)
      else if asLockManager then o.startManager k config env
      else some (.success, { o with initialized := true })

/-- Steps 2 and 3: the algorithm is chosen by its name and the local mutexes are set up.  The
exit for an unknown name does not close the pool. -/
def startLocks (o : SystemObject) (config : SystemConfig) (nodeId : NodeId)
    (asLockManager : Bool) (env : InitOutcome) : Option (LockResult × SystemObject) :=
  match LockAlgorithm.ofName config.lockAlgorithm with
  | none => some (.errorInvalidParam, o)
  | some k =>
      let o := { o with algorithm := some k }
      let rc := ((LocalLockArray.unused : LocalLockArray Unit).initializeArray config.maxLocks
        env.mutexes).1
      if rc ≠ .success then some (rc, o.closePool)
      else o.startTwoTier k config nodeId asLockManager env

/-- `DistributedLockSystem::initialize`: the result and the object after it, or `none` for a
call that does not return. -/
def initializeObject (o : SystemObject) (config : SystemConfig) (nodeId : NodeId)
    (asLockManager : Bool) (env : InitOutcome) : Option (LockResult × SystemObject) :=
  if o.initialized then some (.errorUnknown, o)
  else
    let o := { o with config := config, nodeId := nodeId, isLockManager := asLockManager }
    match openPool config env with
    | .error rc => some (rc, { o with pool := some ⟨false⟩ })
    | .ok _ => { o with pool := some ⟨true⟩ }.startLocks config nodeId asLockManager env

/-- `DistributedLockSystem::shutdown`. -/
def shutdown (o : SystemObject) : SystemObject :=
  if o.initialized = false then o
  else
    { o with
      lockManagerStarted := if o.lockManagerStarted ∧ o.lockManager.isSome then false
        else o.lockManagerStarted
      twoTierLock := none
      algorithm := none
      pool := none
      lockManager := none
      initialized := false }

/-! ## The operations on data keys -/

/-- How a lock operation goes on: it returns at once, or it calls the `TwoTierLock` with the
lock id. -/
inductive LockCall
  | returns (rc : LockResult)
  | twoTier (lockId : LockId)
  deriving DecidableEq

/-- `hash_data_to_lock_id` of a byte key, the 64-bit FNV-1a hash modulo the number of locks;
`none` is the remainder by zero. -/
def hashDataToLockId (dataKey : List UInt8) (lockCount : UInt32) : Option LockId :=
  let hash : UInt64 := dataKey.foldl
    (fun hash byte => (hash ^^^ byte.toUInt64) * 1099511628211) 14695981039346656037
  if lockCount = 0 then none else some (hash % lockCount.toUInt64).toUInt32

/-- `get_data_lock_id`. -/
def getDataLockId (o : SystemObject) (dataKey : List UInt8) : Option LockId :=
  hashDataToLockId dataKey o.config.maxLocks

/-- `acquire_lock`, and with the same first lines `release_lock` and `try_lock`. -/
def lockCall (o : SystemObject) (lockId : LockId) : LockCall :=
  if o.initialized = false then .returns .errorLockNotInitialized else .twoTier lockId

/-- `acquire_data_lock`. -/
def acquireDataLock (o : SystemObject) (dataKey : List UInt8) : Option LockCall :=
  (o.getDataLockId dataKey).map o.lockCall

/-- `release_data_lock`. -/
def releaseDataLock (o : SystemObject) (dataKey : List UInt8) : Option LockCall :=
  (o.getDataLockId dataKey).map o.lockCall

end SystemObject

/-! ## Sequences of calls -/

/-- A call on the object. -/
inductive SystemCall
  | initializeObject (config : SystemConfig) (nodeId : NodeId) (asLockManager : Bool)
      (env : InitOutcome)
  | shutdown
  /-- A lock operation: it changes no member of the object. -/
  | lock

/-- The object after a call that returns. -/
def SystemObject.after (o : SystemObject) : SystemCall → Option SystemObject
  | .initializeObject config nodeId asLockManager env =>
      (o.initializeObject config nodeId asLockManager env).map (·.2)
  | .shutdown => some o.shutdown
  | .lock => some o

/-- A new object and the calls on it. -/
def lifecycle : LabelledSystem SystemObject SystemCall where
  init o := o = SystemObject.new
  next := SystemObject.after

/-! ## What `initialize` does -/

namespace SystemObject

variable {o : SystemObject} {k : LockAlgorithm} {config : SystemConfig} {nodeId : NodeId}
  {asLockManager : Bool} {env : InitOutcome}

/-- The sizes decide how `initialize` of the algorithm ends, whatever the records are. -/
lemma initializeRecords_result {nodeCount : UInt32} (mem : k.Shm) :
    (initializeRecords k config env nodeCount mem).map (·.1) =
      (k.initializeStores config.region env.behind 0 nodeCount).1 := by
  unfold initializeRecords LockAlgorithm.initializeStores
  split_ifs with hcount hreturns
  · simp only [Option.map_some, k.records.initialize_refused _ _ hcount]
  · simp only [Option.map_some, k.records.initialize_success _ _ hcount]
  · rfl

lemma managerInitialize_result (mem : k.Shm) :
    (managerInitialize k config env mem).map (·.1) =
      (managerInitializeStores k config.region env.behind config.maxLocks config.maxNodes).1 := by
  unfold managerInitialize managerInitializeStores
  split_ifs
  · rfl
  · rfl
  · exact initializeRecords_result mem

lemma twoTierInitialize_result (mem : k.Shm) :
    (twoTierInitialize k config env nodeId mem).map (·.1) =
      (twoTierInitializeStores k config.region env.behind false nodeId 0 config.maxLocks
        config.maxNodes).1 := by
  simp only [twoTierInitialize, twoTierInitializeStores, Bool.false_eq_true, if_false]
  split_ifs
  · rfl
  · rfl
  · exact initializeRecords_result mem

/-- The start of a manager that has been initialized succeeds, so that step 5 ends as the
manager's `initialize` does. -/
lemma startManager_result (mem : k.Shm) :
    (o.startManager k config env).map (·.1) =
      (managerInitialize k config env mem).map (·.1) := by
  have hstart : ((ManagerObject.mk true false).start).1 = .success := rfl
  rw [managerInitialize_result, startManager]
  cases (managerInitializeStores k config.region env.behind config.maxLocks config.maxNodes).1 with
  | none => rfl
  | some rc =>
      simp only [Option.map_some, hstart]
      split_ifs with h h'
      · rfl
      · exact absurd rfl h'
      · exact congrArg some (not_not.1 h).symm

lemma startTwoTier_result (mem : k.Shm) :
    (o.startTwoTier k config nodeId asLockManager env).map (·.1) =
      ((twoTierInitialize k config env nodeId mem).bind fun r =>
        if r.1 = .success ∧ asLockManager then managerInitialize k config env r.2
        else some r).map (·.1) := by
  rw [startTwoTier, ← twoTierInitialize_result mem]
  cases twoTierInitialize k config env nodeId mem with
  | none => rfl
  | some r =>
      simp only [Option.map_some, Option.bind_some]
      by_cases htwo : r.1 = .success
      · cases asLockManager with
        | true =>
            simp only [htwo, ne_eq, not_true_eq_false, if_false, if_true, and_self]
            exact startManager_result r.2
        | false =>
            simp only [htwo, ne_eq, not_true_eq_false, if_false, Bool.false_eq_true, and_false,
              Option.map_some]
      · simp only [htwo, ne_eq, not_false_eq_true, if_true, false_and, if_false, Option.map_some]

/-- **The result of `initialize`** does not depend on what earlier calls have left in the
object: it is that of `initializeSystem`. -/
lemma initializeObject_result (hk : ∀ k', LockAlgorithm.ofName config.lockAlgorithm = some k' →
    k' = k) (mem : k.Shm) :
    (o.initializeObject config nodeId asLockManager env).map (·.1) =
      (initializeSystem k config env o.initialized nodeId asLockManager mem).map (·.1) := by
  have hlocks : ∀ (o : SystemObject) (mem : k.Shm),
      (o.startLocks config nodeId asLockManager env).map (·.1) =
        (initializeLocks k config env nodeId asLockManager mem).map (·.1) := by
    intro o mem
    unfold startLocks initializeLocks initializeTwoTier
    cases hname : LockAlgorithm.ofName config.lockAlgorithm with
    | none => rfl
    | some k' =>
        obtain rfl := hk k' hname
        by_cases hmutex : ((LocalLockArray.unused :
            LocalLockArray Unit).initializeArray config.maxLocks env.mutexes).1 = .success
        · simp only [reduceCtorEq, if_false, hmutex, ne_eq, not_true_eq_false]
          exact startTwoTier_result mem
        · simp only [reduceCtorEq, if_false, hmutex, ne_eq, not_false_eq_true, if_true,
            Option.bind_some, false_and, Option.map_some]
  unfold initializeObject initializeSystem initBegin
  cases o.initialized with
  | true => rfl
  | false =>
      simp only [Bool.false_eq_true, if_false]
      cases openPool config env with
      | error rc => rfl
      | ok store =>
          cases store with
          | device => exact hlocks _ _
          | file => exact hlocks _ _

lemma initializeObject_eq_new (h : o.initialized = false) :
    (o.initializeObject config nodeId asLockManager env).map (·.1) =
      (new.initializeObject config nodeId asLockManager env).map (·.1) := by
  obtain ⟨k, hk⟩ : ∃ k, ∀ k', LockAlgorithm.ofName config.lockAlgorithm = some k' → k' = k := by
    cases LockAlgorithm.ofName config.lockAlgorithm with
    | none => exact ⟨.cas, fun k' hk' => by cases hk'⟩
    | some k => exact ⟨k, fun k' hk' => (Option.some.inj hk').symm⟩
  obtain ⟨mem⟩ : Nonempty k.Shm := by
    cases k with
    | cas => exact ⟨fun _ => 0⟩
    | faa => exact ⟨⟨fun _ => ⟨0, 0, 0⟩, fun _ => ⟨0, 0⟩⟩⟩
    | mcs => exact ⟨⟨fun _ => ⟨0, 0, 0⟩, fun _ => ⟨0, 0, 0⟩⟩⟩
    | qspinlock => exact ⟨⟨fun _ => ⟨0, 0, 0, 0⟩, fun _ => ⟨0, 0, 0, 0⟩⟩⟩
  rw [initializeObject_result hk mem, initializeObject_result hk mem, h]
  rfl

/-- What every exit has in common: the parameters are stored. -/
lemma initializeObject_stored (h : o.initialized = false) {r : LockResult × SystemObject}
    (hr : o.initializeObject config nodeId asLockManager env = some r) :
    r.2.config = config ∧ r.2.nodeId = nodeId ∧ r.2.isLockManager = asLockManager := by
  unfold initializeObject at hr
  simp only [h, Bool.false_eq_true, if_false] at hr
  split at hr
  · cases hr
    exact ⟨rfl, rfl, rfl⟩
  · unfold startLocks at hr
    dsimp only at hr
    split at hr
    · cases hr
      exact ⟨rfl, rfl, rfl⟩
    · split_ifs at hr
      · cases hr
        exact ⟨rfl, rfl, rfl⟩
      · obtain ⟨rc, -, hr⟩ := Option.bind_eq_some_iff.1 hr
        split_ifs at hr
        · cases hr
          exact ⟨rfl, rfl, rfl⟩
        · obtain ⟨rc', -, rfl⟩ := Option.map_eq_some_iff.1 hr
          dsimp only
          split_ifs <;> exact ⟨rfl, rfl, rfl⟩
        · cases hr
          exact ⟨rfl, rfl, rfl⟩

/-- A step of `initialize` that was entered with an open pool has failed and closed it. -/
structure Undone (o o' : SystemObject) : Prop where
  initialized : o'.initialized = false
  pool : o'.pool = o.pool.map MemoryPool.close
  algorithm : o'.algorithm = o.algorithm

/-- The object is in use: its `TwoTierLock` works on the given numbers of locks and nodes. -/
structure InUse (o : SystemObject) (config : SystemConfig) : Prop where
  initialized : o.initialized = true
  stored : o.config = config
  locks : ¬ (config.maxLocks = 0 ∨ maxLockCount < config.maxLocks)
  twoTier : ∃ lock, o.twoTierLock = some lock ∧ lock.initialized = true ∧
    lock.maxLocks = config.maxLocks

lemma startManager_cases (hinit : o.initialized = false) (hconfig : o.config = config)
    (hlock : ∃ lock, o.twoTierLock = some lock ∧ lock.initialized = true ∧
      lock.maxLocks = config.maxLocks) {r : LockResult × SystemObject}
    (hr : o.startManager k config env = some r) :
    r.1 = .success ∧ InUse r.2 config ∨ r.1 ≠ .success ∧ Undone o r.2 := by
  have hstart : ((ManagerObject.mk true false).start).1 = .success := rfl
  obtain ⟨rc, hrc, rfl⟩ := Option.map_eq_some_iff.1 hr
  by_cases hok : rc = .success
  · subst hok
    simp only [hstart, ne_eq, not_true_eq_false, if_false]
    refine Or.inl ⟨trivial, rfl, hconfig, ?_, hlock⟩
    intro h
    simp [managerInitializeStores, h] at hrc
  · simp only [hok, ne_eq, not_false_eq_true, if_true]
    exact Or.inr ⟨trivial, hinit, rfl, rfl⟩

lemma startTwoTier_cases (hinit : o.initialized = false) (hconfig : o.config = config)
    {r : LockResult × SystemObject}
    (hr : o.startTwoTier k config nodeId asLockManager env = some r) :
    r.1 = .success ∧ InUse r.2 config ∨ r.1 ≠ .success ∧ Undone o r.2 := by
  obtain ⟨rc, hrc, hr⟩ := Option.bind_eq_some_iff.1 hr
  by_cases hok : rc = .success
  · subst hok
    have hlocks : ¬ (config.maxLocks = 0 ∨ maxLockCount < config.maxLocks) := by
      intro h
      by_cases hnode : nodeId = invalidNodeId
      · simp [twoTierInitializeStores, hnode] at hrc
      · simp [twoTierInitializeStores, hnode, h] at hrc
    simp only [ne_eq, not_true_eq_false, if_false, decide_true] at hr
    cases asLockManager with
    | true =>
        simp only [if_true] at hr
        let lock : TwoTierLock := ⟨true, nodeId, 0, config.maxLocks, config.nodeCount⟩
        let o' : SystemObject := { o with twoTierLock := some lock }
        have hlock : ∃ lock', o'.twoTierLock = some lock' ∧ lock'.initialized = true ∧
            lock'.maxLocks = config.maxLocks := ⟨lock, rfl, rfl, rfl⟩
        rcases startManager_cases (o := o') hinit hconfig hlock hr with h | ⟨hfail, hundone⟩
        · exact Or.inl h
        · exact Or.inr ⟨hfail, hundone.initialized, hundone.pool, hundone.algorithm⟩
    | false =>
        simp only [Bool.false_eq_true, if_false, Option.some.injEq] at hr
        subst hr
        exact Or.inl ⟨rfl, rfl, hconfig, hlocks, _, rfl, rfl, rfl⟩
  · simp only [hok, ne_eq, not_false_eq_true, if_true, Option.some.injEq] at hr
    subst hr
    exact Or.inr ⟨hok, hinit, rfl, rfl⟩

/-- **The exits of `initialize`** on an object that is not initialized and has the given
algorithm. -/
inductive Exit (before : Option LockAlgorithm) (config : SystemConfig) (env : InitOutcome)
    (r : LockResult × SystemObject) : Prop
  /-- The pool could not be opened. -/
  | noPool (rc : LockResult) (herror : openPool config env = .error rc) (hfail : r.1 ≠ .success)
      (hinit : r.2.initialized = false) (hpool : r.2.pool = some ⟨false⟩)
      (halgorithm : r.2.algorithm = before)
  /-- The name of the algorithm is unknown. -/
  | noAlgorithm (store : BackingStore) (hok : openPool config env = .ok store)
      (hfail : r.1 ≠ .success) (hinit : r.2.initialized = false)
      (hpool : r.2.pool = some ⟨true⟩) (halgorithm : r.2.algorithm = before)
  /-- A later step failed. -/
  | undone (k : LockAlgorithm) (store : BackingStore) (hok : openPool config env = .ok store)
      (hfail : r.1 ≠ .success) (hinit : r.2.initialized = false)
      (hpool : r.2.pool = some ⟨false⟩) (halgorithm : r.2.algorithm = some k)
  | success (hok : r.1 = .success) (huse : InUse r.2 config)

/-- Only a successful call leaves the object initialized. -/
lemma Exit.inUse {before : Option LockAlgorithm} {r : LockResult × SystemObject}
    (h : Exit before config env r) (hinit : r.2.initialized = true) : InUse r.2 config := by
  cases h with
  | noPool rc herror hfail hno hpool halgorithm => simp [hno] at hinit
  | noAlgorithm store hok hfail hno hpool halgorithm => simp [hno] at hinit
  | undone k store hok hfail hno hpool halgorithm => simp [hno] at hinit
  | success hok huse => exact huse

lemma startLocks_exit {store : BackingStore} (hopen : openPool config env = .ok store)
    (hinit : o.initialized = false) (hconfig : o.config = config)
    (hpool : o.pool = some ⟨true⟩) {r : LockResult × SystemObject}
    (hr : o.startLocks config nodeId asLockManager env = some r) :
    Exit o.algorithm config env r := by
  unfold startLocks at hr
  cases hname : LockAlgorithm.ofName config.lockAlgorithm with
  | none =>
      rw [hname] at hr
      cases hr
      exact .noAlgorithm store hopen LockResult.noConfusion hinit hpool rfl
  | some k =>
      have hclose : o.pool.map MemoryPool.close = some ⟨false⟩ := by rw [hpool]; rfl
      simp only [hname] at hr
      split_ifs at hr with hmutex
      · cases hr
        exact .undone k store hopen hmutex hinit hclose rfl
      · let o' : SystemObject := { o with algorithm := some k }
        rcases startTwoTier_cases (o := o') hinit hconfig hr with
          ⟨hok, huse⟩ | ⟨hfail, hundone⟩
        · exact .success hok huse
        · exact .undone k store hopen hfail hundone.initialized (hundone.pool.trans hclose)
            hundone.algorithm

lemma initializeObject_exit (h : o.initialized = false) {r : LockResult × SystemObject}
    (hr : o.initializeObject config nodeId asLockManager env = some r) :
    Exit o.algorithm config env r := by
  unfold initializeObject at hr
  rw [if_neg (by simp [h])] at hr
  cases hopen : openPool config env with
  | error rc =>
      simp only [hopen] at hr
      cases hr
      exact .noPool rc hopen (openPool_error hopen) h rfl rfl
  | ok store =>
      simp only [hopen] at hr
      let o' : SystemObject := { o with
        config := config, nodeId := nodeId, isLockManager := asLockManager, pool := some ⟨true⟩ }
      exact startLocks_exit (o := o') hopen h rfl rfl hr

/-! ## A failed `initialize` -/

/-- To its user the object is like a new one, it keeps no pool open, and it can be initialized
like a new one. -/
structure Fresh (o : SystemObject) : Prop where
  notInitialized : o.initialized = false
  notManager : o.isLockManager = false
  nodeId : o.nodeId = new.nodeId
  algorithmName : o.getAlgorithmName = new.getAlgorithmName
  poolClosed : ∀ p, o.pool = some p → p.isOpen = false
  retry : ∀ config nodeId asLockManager env,
    (o.initializeObject config nodeId asLockManager env).map (·.1) =
      (new.initializeObject config nodeId asLockManager env).map (·.1)

/-- The call has no parameters to remember and does not get behind the opening of the pool, and
no algorithm is left from an earlier call. -/
def LeavesNothing (o : SystemObject) (config : SystemConfig) (nodeId : NodeId)
    (asLockManager : Bool) (env : InitOutcome) : Prop :=
  asLockManager = false ∧ nodeId = invalidNodeId ∧ (∃ rc, openPool config env = .error rc) ∧
    o.algorithm = none

/-- The name shows whether there is an algorithm. -/
lemma getAlgorithmName_eq_new : o.getAlgorithmName = new.getAlgorithmName ↔ o.algorithm = none := by
  unfold getAlgorithmName
  cases o.algorithm with
  | none => exact iff_of_true rfl rfl
  | some k => cases k <;> exact iff_of_false (by decide) (by simp)

end SystemObject

open SystemObject in
/-- **A failed `initialize` leaves a fresh system** exactly when it had nothing to leave. -/
theorem failed_fresh_iff {o : SystemObject} (hinit : o.initialized = false)
    (config : SystemConfig) (nodeId : NodeId) (asLockManager : Bool) (env : InitOutcome)
    {r : LockResult × SystemObject}
    (hr : o.initializeObject config nodeId asLockManager env = some r)
    (hfailed : r.1 ≠ .success) :
    Fresh r.2 ↔ LeavesNothing o config nodeId asLockManager env := by
  obtain ⟨-, hnode, hmanager⟩ := initializeObject_stored hinit hr
  rcases initializeObject_exit hinit hr with
    ⟨rc, herror, -, hno, hpool, halgorithm⟩ | ⟨store, hok, -, hno, hpool, halgorithm⟩ |
      ⟨k, store, hok, -, hno, hpool, halgorithm⟩ | ⟨hok, -⟩
  · constructor
    · intro h
      refine ⟨hmanager ▸ h.notManager, hnode ▸ h.nodeId, ⟨rc, herror⟩, ?_⟩
      exact halgorithm ▸ getAlgorithmName_eq_new.1 h.algorithmName
    · rintro ⟨rfl, rfl, -, hnone⟩
      refine ⟨hno, hmanager, hnode, getAlgorithmName_eq_new.2 (halgorithm.trans hnone), ?_,
        fun _ _ _ _ => initializeObject_eq_new hno⟩
      rintro p hp
      rw [hpool] at hp
      cases hp
      rfl
  · -- the pool is still open
    refine iff_of_false (fun h => ?_) fun ⟨_, _, ⟨rc, herror⟩, _⟩ => ?_
    · exact absurd (h.poolClosed _ hpool) (by decide)
    · rw [hok] at herror
      cases herror
  · -- the algorithm is still there
    refine iff_of_false (fun h => ?_) fun ⟨_, _, ⟨rc, herror⟩, _⟩ => ?_
    · rw [getAlgorithmName_eq_new.1 h.algorithmName] at halgorithm
      cases halgorithm
    · rw [hok] at herror
      cases herror
  · exact absurd hok hfailed

/-- Four nodes and eight locks with the named algorithm, on a device of one megabyte. -/
def deviceConfig (lockAlgorithm : String) : SystemConfig where
  useFileBackedShm := false
  shmSize := 1024 * 1024
  maxNodes := 4
  maxLocks := 8
  lockAlgorithm := lockAlgorithm

/-- Nothing in the environment fails. -/
def noFailure : InitOutcome := ⟨.success, .success, .done, 0⟩

/-- Neither the device nor the backing file can be mapped. -/
def noMapping : InitOutcome := ⟨.errorShmFailure, .errorShmFailure, .done, 0⟩

open SystemObject in
theorem failed_fresh_without_pool : ∃ r,
    new.initializeObject (deviceConfig "cas") invalidNodeId false noMapping = some r ∧
      (Fresh r.2 ↔ LeavesNothing new (deviceConfig "cas") invalidNodeId false noMapping) :=
  ⟨_, rfl, failed_fresh_iff rfl (deviceConfig "cas") invalidNodeId false noMapping rfl
    (by decide)⟩

open SystemObject in
/-- A call with an unknown algorithm leaves the pool open. -/
theorem failed_call_keeps_pool : ¬ ∀ o : SystemObject, lifecycle.Reachable o →
    o.initialized = false → ∀ (config : SystemConfig) (nodeId : NodeId) (asLockManager : Bool)
      (env : InitOutcome) (r : LockResult × SystemObject),
      o.initializeObject config nodeId asLockManager env = some r → r.1 ≠ .success →
        Fresh r.2 := by
  intro h
  have hfresh := h new (.start rfl) rfl (deviceConfig "ticket") 0 true noFailure _ rfl (by decide)
  exact absurd (hfresh.poolClosed ⟨true⟩ rfl) (by decide)

/-! ## Data keys -/

namespace SystemObject

/-- The operations on data keys use no remainder by zero: on an object that is not initialized
they say so, and otherwise they go to the `TwoTierLock` with a lock id in its range, which is
the same for equal keys until `shutdown`. -/
structure DataKeysSafe (o : SystemObject) : Prop where
  remainder : ∀ key, o.acquireDataLock key ≠ none ∧ o.releaseDataLock key ≠ none
  refused : o.initialized = false → ∀ key,
    o.acquireDataLock key = some (.returns .errorLockNotInitialized) ∧
      o.releaseDataLock key = some (.returns .errorLockNotInitialized)
  used : o.initialized = true → ∃ lock, o.twoTierLock = some lock ∧ lock.initialized = true ∧
    ∀ key, ∃ l, l < lock.maxLocks ∧ o.acquireDataLock key = some (.twoTier l) ∧
      o.releaseDataLock key = some (.twoTier l)
  same : o.initialized = true → ∀ o',
    (lifecycle.startingAt o).ReachableWhen (fun _ call => call ≠ .shutdown) o' →
      ∀ key, o'.acquireDataLock key = o.acquireDataLock key ∧
        o'.releaseDataLock key = o.releaseDataLock key

variable {o : SystemObject}

lemma hashDataToLockId_eq_none (key : List UInt8) {lockCount : UInt32} :
    hashDataToLockId key lockCount = none ↔ lockCount = 0 := by
  unfold hashDataToLockId
  dsimp only
  split_ifs with h
  · exact iff_of_true rfl h
  · exact iff_of_false (by simp) h

/-- The lock id of a key is below the number of locks. -/
lemma hashDataToLockId_lt {key : List UInt8} {lockCount : UInt32} {l : LockId}
    (h : hashDataToLockId key lockCount = some l) : l < lockCount := by
  unfold hashDataToLockId at h
  dsimp only at h
  split_ifs at h with hzero
  cases h
  have hpos : 0 < lockCount.toNat := Nat.pos_of_ne_zero fun hz => hzero (UInt32.toNat_inj.1 hz)
  have hlt := lockCount.toNat_lt
  rw [UInt32.lt_iff_toNat_lt, UInt64.toNat_toUInt32, UInt64.toNat_mod, UInt32.toNat_toUInt64]
  exact Nat.lt_of_le_of_lt (Nat.mod_le _ _) (Nat.mod_lt _ hpos)

/-- An object that is initialized is in use with the configuration it has stored. -/
def Consistent (o : SystemObject) : Prop := o.initialized = true → InUse o o.config

lemma Consistent.after (h : Consistent o) {call : SystemCall} {o' : SystemObject}
    (hcall : o.after call = some o') : Consistent o' := by
  cases call with
  | lock => exact Option.some.inj hcall ▸ h
  | shutdown =>
      obtain rfl := Option.some.inj hcall
      intro hinit
      unfold shutdown at hinit ⊢
      split_ifs at hinit ⊢ with hno
      · exact h hinit
  | initializeObject config nodeId asLockManager env =>
      obtain ⟨r, hr, rfl⟩ := Option.map_eq_some_iff.1 hcall
      intro hinit
      by_cases ho : o.initialized = true
      · rw [initializeObject, if_pos ho] at hr
        obtain rfl := Option.some.inj hr
        exact h ho
      · have huse := (initializeObject_exit (Bool.eq_false_iff.2 ho) hr).inUse hinit
        exact huse.stored.symm ▸ huse

lemma consistent_of_reachable (ho : lifecycle.Reachable o) : Consistent o := by
  refine ho.invariant (fun o hnew hinit => ?_) fun o call o' h hnext => h.after hnext
  rw [show o = new from hnew] at hinit
  cases hinit

/-- As long as nobody calls `shutdown`, an initialized object stays as it is. -/
lemma eq_of_no_shutdown (hinit : o.initialized = true) {o' : SystemObject}
    (ho : (lifecycle.startingAt o).ReachableWhen (fun _ call => call ≠ .shutdown) o') :
    o' = o := by
  refine ho.invariant (fun s hs => hs) fun s call s' hs hok hnext => ?_
  subst hs
  cases call with
  | lock => exact (Option.some.inj hnext).symm
  | shutdown => exact absurd rfl hok
  | initializeObject config nodeId asLockManager env =>
      obtain ⟨r, hr, rfl⟩ := Option.map_eq_some_iff.1 hnext
      rw [initializeObject, if_pos hinit] at hr
      exact congrArg Prod.snd (Option.some.inj hr).symm

lemma acquireDataLock_eq_none {key : List UInt8} :
    o.acquireDataLock key = none ↔ o.config.maxLocks = 0 := by
  rw [acquireDataLock, Option.map_eq_none_iff, getDataLockId, hashDataToLockId_eq_none]

lemma dataKeysSafe_of_ne_zero (hc : Consistent o) (hlocks : o.config.maxLocks ≠ 0) :
    DataKeysSafe o where
  remainder key := ⟨acquireDataLock_eq_none.not.2 hlocks, acquireDataLock_eq_none.not.2 hlocks⟩
  refused hno key := by
    obtain ⟨l, hl⟩ := Option.ne_none_iff_exists'.1
      ((hashDataToLockId_eq_none key).not.2 hlocks)
    simp only [acquireDataLock, releaseDataLock, getDataLockId, hl, Option.map_some, lockCall,
      hno, if_true, and_self]
  used hinit := by
    obtain ⟨lock, hlock, hready, hmax⟩ := (hc hinit).twoTier
    refine ⟨lock, hlock, hready, fun key => ?_⟩
    obtain ⟨l, hl⟩ := Option.ne_none_iff_exists'.1
      ((hashDataToLockId_eq_none key).not.2 hlocks)
    refine ⟨l, hmax ▸ hashDataToLockId_lt hl, ?_⟩
    simp only [acquireDataLock, releaseDataLock, getDataLockId, hl, Option.map_some, lockCall,
      hinit, Bool.true_eq_false, if_false, and_self]
  same hinit o' ho key := by
    rw [eq_of_no_shutdown hinit ho]
    exact ⟨rfl, rfl⟩

end SystemObject

open SystemObject in
/-- **Operations on data keys divide by zero** exactly when the configuration stored last has
no locks, which happens only on an object that is not initialized. -/
theorem dataKeysSafe_iff {o : SystemObject} (ho : lifecycle.Reachable o) :
    DataKeysSafe o ↔ o.config.maxLocks ≠ 0 :=
  ⟨fun h => acquireDataLock_eq_none.not.1 (h.remainder []).1,
    fun h => dataKeysSafe_of_ne_zero (consistent_of_reachable ho) h⟩

open SystemObject in
/-- The object has been used and shut down, and a second `initialize` has failed. -/
theorem dataKeysSafe_after_failure : ∃ o : SystemObject,
    (DataKeysSafe o ↔ o.config.maxLocks ≠ 0) ∧ o.initialized = false ∧ o.config.maxLocks = 8 := by
  obtain ⟨o, ho, hp⟩ := LabelledSystem.exists_of_exec (fun _ _ => True)
    [.initializeObject (deviceConfig "cas") 0 true noFailure, .lock, .shutdown,
      .initializeObject (deviceConfig "ticket") 1 false noFailure]
    (fun o : SystemObject => decide (o.initialized = false ∧ o.config.maxLocks = 8))
    (S := lifecycle) rfl (by decide)
  exact ⟨o, dataKeysSafe_iff ho, of_decide_eq_true hp⟩

open SystemObject in
/-- A call of `initialize` with no locks fails and leaves the divisor zero. -/
theorem remainder_by_zero : ¬ ∀ o : SystemObject, lifecycle.Reachable o → DataKeysSafe o := by
  intro h
  let config : SystemConfig := { deviceConfig "cas" with maxLocks := 0 }
  obtain ⟨o, ho, hp⟩ := LabelledSystem.exists_of_exec (fun _ _ => True)
    [.initializeObject config 0 false noFailure]
    (fun o : SystemObject => decide (o.config.maxLocks = 0)) (S := lifecycle) rfl (by decide)
  exact ((h o ho).remainder []).1 (acquireDataLock_eq_none.2 (of_decide_eq_true hp))

end CxlLock
