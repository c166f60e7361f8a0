import CxlLock.Cas.SeveralLocks
import CxlLock.Faa.SeveralLocks
import CxlLock.LocalLock
import CxlLock.Mcs.SeveralLocks
import CxlLock.Qspinlock.SeveralLocks
import CxlLock.SharedMemory

/-!
# `DistributedLockSystem::initialize` (`distributed_lock.cpp`)

A node joins the system in five steps: it opens the memory pool, chooses the global lock
algorithm by name, sets up its local mutexes, initializes its `TwoTierLock` and, on the node of
the lock manager, the `LockManager`.  Three of them write to shared memory: a file-backed pool
is filled with zeros, and both the `TwoTierLock` and the `LockManager` call `initialize` of the
algorithm.

The three writes are steps of their own (`InitPc.step`), since other nodes run between them;
`initializeSystem` is the call that nothing interrupts.  `initializeSystem_same_iff` says exactly
when that leaves the lock records as they were: unless it stops early, when they are still the
initial ones.  The interface says that `initialize` of the algorithm is called once, by the lock
manager.
-/

namespace CxlLock

/-! ## The records of the four algorithms -/

/-- The lock records of an algorithm in the shared memory region, and what the writes of
`initialize` do to them. -/
structure LockRecords (Shm : Type) where
  algorithm : GlobalLockAlgorithm Shm
  /-- The `memset` of the whole region, on the records for the given number of nodes. -/
  zeroFill (nodeCount : UInt32) (shm : Shm) : Shm
  /-- The two memories have the same lock records. -/
  Same (nodeCount : UInt32) (shm shm' : Shm) : Prop
  /-- All lock records are zero. -/
  Zeroed (nodeCount : UInt32) (shm : Shm) : Prop
  /-- No record shows a request, a grant or a queue. -/
  Pristine (nodeCount : UInt32) (shm : Shm) : Prop
  decidableZeroed : ∀ c shm, Decidable (Zeroed c shm)
  decidablePristine : ∀ c shm, Decidable (Pristine c shm)
  same_refl : ∀ c shm, Same c shm shm
  zeroFill_same : ∀ c shm, Same c (zeroFill c shm) shm ↔ Zeroed c shm
  initialize_refused : ∀ c shm, c = 0 ∨ maxNodeCount < c →
    algorithm.initializeShm c shm = (.errorInvalidParam, shm)
  initialize_success : ∀ c shm, ¬ (c = 0 ∨ maxNodeCount < c) →
    (algorithm.initializeShm c shm).1 = .success
  initialize_idem : ∀ c shm, (algorithm.initializeShm c (algorithm.initializeShm c shm).2).2 =
    (algorithm.initializeShm c shm).2
  initialize_same : ∀ c shm, ¬ (c = 0 ∨ maxNodeCount < c) →
    (Same c (algorithm.initializeShm c shm).2 shm ↔ Pristine c shm)
  initialize_zeroFill_same : ∀ c shm, ¬ (c = 0 ∨ maxNodeCount < c) →
    (Same c (algorithm.initializeShm c (zeroFill c shm)).2 shm ↔ Pristine c shm)

/-- Writing one value into a table of records changes nothing when it is there already. -/
lemma fill_eq_iff {α : Type} {f : UInt32 → α} {count : UInt32} {v : α} :
    (fun i => if i < count then v else f i) = f ↔ ∀ i, i < count → f i = v := by
  rw [funext_iff]
  refine forall_congr' fun i => ?_
  split_ifs with h <;> simp [h, eq_comm]

/-- Of two writes into a table the second one counts. -/
lemma fill_fill {α : Type} {f : UInt32 → α} {count : UInt32} {v w : α} :
    (fun i => if i < count then v else if i < count then w else f i) =
      fun i => if i < count then v else f i := by
  funext i
  split_ifs <;> rfl

/-- The tickets and entries of `faa_global_lock.cpp`. -/
def Faa.records : LockRecords FaaShm where
  algorithm := Faa.algorithm
  zeroFill nodeCount shm :=
    { entry := fun lid => if lid < maxLockCount then ⟨0, 0, 0⟩ else shm.entry lid
      ticket := fun nid => if nid < nodeCount then ⟨0, 0⟩ else shm.ticket nid }
  Same _ shm shm' := shm = shm'
  Zeroed nodeCount shm := (∀ l, l < maxLockCount → shm.entry l = ⟨0, 0, 0⟩) ∧
    ∀ n, n < nodeCount → shm.ticket n = ⟨0, 0⟩
  Pristine nodeCount shm := (∀ l, l < maxLockCount → shm.entry l = ⟨0, 0, invalidNodeId⟩) ∧
    ∀ n, n < nodeCount → shm.ticket n = ⟨0, 0⟩
  decidableZeroed _ _ := inferInstanceAs (Decidable (_ ∧ _))
  decidablePristine _ _ := inferInstanceAs (Decidable (_ ∧ _))
  same_refl _ _ := rfl
  zeroFill_same c shm := by
    obtain ⟨entry, ticket⟩ := shm
    simp only [FaaShm.mk.injEq, fill_eq_iff]
  initialize_refused c shm h := by simp [Faa.algorithm, Faa.initializeShm, h]
  initialize_success c shm h := by simp [Faa.algorithm, Faa.initializeShm, h]
  initialize_idem c shm := by
    by_cases h : c = 0 ∨ maxNodeCount < c <;>
      simp only [Faa.algorithm, Faa.initializeShm, h, if_true, if_false, fill_fill]
  initialize_same c shm h := by
    obtain ⟨entry, ticket⟩ := shm
    simp only [Faa.algorithm, Faa.initializeShm, h, if_false, FaaShm.mk.injEq, fill_eq_iff]
  initialize_zeroFill_same c shm h := by
    obtain ⟨entry, ticket⟩ := shm
    simp only [Faa.algorithm, Faa.initializeShm, h, if_false, fill_fill, FaaShm.mk.injEq,
      fill_eq_iff]

/-- The entries and queue nodes of `mcs_global_lock.cpp`. -/
def Mcs.records : LockRecords McsShm where
  algorithm := Mcs.algorithm
  zeroFill nodeCount shm :=
    { entry := fun lid => if lid < maxLockCount then ⟨0, 0, 0⟩ else shm.entry lid
      node := fun nid => if nid < nodeCount then ⟨0, 0, 0⟩ else shm.node nid }
  Same _ shm shm' := shm = shm'
  Zeroed nodeCount shm := (∀ l, l < maxLockCount → shm.entry l = ⟨0, 0, 0⟩) ∧
    ∀ n, n < nodeCount → shm.node n = ⟨0, 0, 0⟩
  Pristine nodeCount shm :=
    (∀ l, l < maxLockCount → shm.entry l = ⟨invalidNodeId, invalidNodeId, invalidNodeId⟩) ∧
      ∀ n, n < nodeCount → shm.node n = ⟨0, 0, invalidLockId⟩
  decidableZeroed _ _ := inferInstanceAs (Decidable (_ ∧ _))
  decidablePristine _ _ := inferInstanceAs (Decidable (_ ∧ _))
  same_refl _ _ := rfl
  zeroFill_same c shm := by
    obtain ⟨entry, node⟩ := shm
    simp only [McsShm.mk.injEq, fill_eq_iff]
  initialize_refused c shm h := by simp [Mcs.algorithm, Mcs.initializeShm, h]
  initialize_success c shm h := by simp [Mcs.algorithm, Mcs.initializeShm, h]
  initialize_idem c shm := by
    by_cases h : c = 0 ∨ maxNodeCount < c <;>
      simp only [Mcs.algorithm, Mcs.initializeShm, h, if_true, if_false, fill_fill]
  initialize_same c shm h := by
    obtain ⟨entry, node⟩ := shm
    simp only [Mcs.algorithm, Mcs.initializeShm, h, if_false, McsShm.mk.injEq, fill_eq_iff]
  initialize_zeroFill_same c shm h := by
    obtain ⟨entry, node⟩ := shm
    simp only [Mcs.algorithm, Mcs.initializeShm, h, if_false, fill_fill, McsShm.mk.injEq,
      fill_eq_iff]

/-- The entries and queue nodes of `qspinlock_global_lock.cpp`. -/
def Qspinlock.records : LockRecords QspinShm where
  algorithm := Qspinlock.algorithm
  zeroFill nodeCount shm :=
    { entry := fun lid => if lid < maxLockCount then ⟨0, 0, 0, 0⟩ else shm.entry lid
      node := fun nid => if nid < nodeCount then ⟨0, 0, 0, 0⟩ else shm.node nid }
  Same _ shm shm' := shm = shm'
  Zeroed nodeCount shm := (∀ l, l < maxLockCount → shm.entry l = ⟨0, 0, 0, 0⟩) ∧
    ∀ n, n < nodeCount → shm.node n = ⟨0, 0, 0, 0⟩
  Pristine nodeCount shm :=
    (∀ l, l < maxLockCount → shm.entry l = ⟨0, invalidNodeId, invalidNodeId, 0⟩) ∧
      ∀ n, n < nodeCount → shm.node n = ⟨invalidNodeId, 0, invalidLockId, 0⟩
  decidableZeroed _ _ := inferInstanceAs (Decidable (_ ∧ _))
  decidablePristine _ _ := inferInstanceAs (Decidable (_ ∧ _))
  same_refl _ _ := rfl
  zeroFill_same c shm := by
    obtain ⟨entry, node⟩ := shm
    simp only [QspinShm.mk.injEq, fill_eq_iff]
  initialize_refused c shm h := by simp [Qspinlock.algorithm, Qspinlock.initializeShm, h]
  initialize_success c shm h := by simp [Qspinlock.algorithm, Qspinlock.initializeShm, h]
  initialize_idem c shm := by
    by_cases h : c = 0 ∨ maxNodeCount < c <;>
      simp only [Qspinlock.algorithm, Qspinlock.initializeShm, h, if_true, if_false, fill_fill]
  initialize_same c shm h := by
    obtain ⟨entry, node⟩ := shm
    simp only [Qspinlock.algorithm, Qspinlock.initializeShm, h, if_false, QspinShm.mk.injEq,
      fill_eq_iff]
  initialize_zeroFill_same c shm h := by
    obtain ⟨entry, node⟩ := shm
    simp only [Qspinlock.algorithm, Qspinlock.initializeShm, h, if_false, fill_fill,
      QspinShm.mk.injEq, fill_eq_iff]

/-- The slots of `cas_global_lock.cpp`, with the table at the begin of the region.  The words
behind the table are no lock records. -/
def Cas.records : LockRecords ShmWords where
  algorithm := Cas.algorithm 0
  zeroFill _ _ := fun _ => 0
  Same nodeCount shm shm' := ∀ l, l < maxLockCount → ∀ n, n < nodeCount →
    readSlotState l n nodeCount 0 shm = readSlotState l n nodeCount 0 shm'
  Zeroed nodeCount shm := ∀ l, l < maxLockCount → ∀ n, n < nodeCount →
    readSlotState l n nodeCount 0 shm = 0
  Pristine nodeCount shm := ∀ l, l < maxLockCount → ∀ n, n < nodeCount →
    readSlotState l n nodeCount 0 shm = LockSlotState.idle.toWord
  decidableZeroed c _ := inferInstanceAs
    (Decidable (∀ l, l < maxLockCount → ∀ n, n < c → _ = _))
  decidablePristine c _ := inferInstanceAs
    (Decidable (∀ l, l < maxLockCount → ∀ n, n < c → _ = _))
  same_refl _ _ _ _ _ _ := rfl
  zeroFill_same c shm := by
    refine forall₄_congr fun l hl n hn => ?_
    exact eq_comm
  initialize_refused c shm h := by simp [Cas.algorithm, Cas.initializeShm, h]
  initialize_success c shm h := by simp [Cas.algorithm, Cas.initializeShm, h]
  initialize_idem c shm := by
    by_cases h : c = 0 ∨ maxNodeCount < c <;>
      simp only [Cas.algorithm, Cas.initializeShm, h, if_true, if_false]
    funext addr
    split_ifs <;> rfl
  initialize_same c shm h := by
    have hcount := UInt32.not_lt.1 (not_or.1 h).2
    refine forall₄_congr fun l hl n hn => ?_
    rw [Cas.algorithm, readSlotState_initialize hcount hl hn]
    exact eq_comm
  initialize_zeroFill_same c shm h := by
    have hcount := UInt32.not_lt.1 (not_or.1 h).2
    refine forall₄_congr fun l hl n hn => ?_
    rw [Cas.algorithm, readSlotState_initialize hcount hl hn]
    exact eq_comm

namespace LockAlgorithm

/-- What the algorithm stores its records in. -/
abbrev Shm : LockAlgorithm → Type
  | .cas => ShmWords
  | .faa => FaaShm
  | .mcs => McsShm
  | .qspinlock => QspinShm

/-- The records of the algorithm. -/
def records : (k : LockAlgorithm) → LockRecords k.Shm
  | .cas => Cas.records
  | .faa => Faa.records
  | .mcs => Mcs.records
  | .qspinlock => Qspinlock.records

end LockAlgorithm

/-! ## The call -/

/-- `DistributedLockSystem::Config`, as far as `initialize` depends on it; `node_id` is passed
on its own. -/
structure SystemConfig where
  useFileBackedShm : Bool
  shmSize : UInt64
  maxNodes : UInt32
  maxLocks : UInt32
  lockAlgorithm : String

/-- The number of nodes that `TwoTierLock::initialize` passes on. -/
def SystemConfig.nodeCount (config : SystemConfig) : UInt32 :=
  if config.maxNodes > 0 then config.maxNodes else config.maxLocks

/-- Where the shared memory is. -/
inductive BackingStore
  | device
  | file
  deriving DecidableEq

/-- What `initialize` meets with: the results of mapping the device and the backing file, how
the set-up of the local mutexes ends, and the number of bytes behind the region that are mapped
as well. -/
structure InitOutcome where
  mapDevice : LockResult
  mapFile : LockResult
  mutexes : MutexSetup
  behind : Nat
  deriving DecidableEq

/-- The region of a pool that has been opened. -/
def SystemConfig.region (config : SystemConfig) : SharedMemoryRegion := ⟨true, config.shmSize⟩

/-- `CxlMemoryPool::open`. -/
def openDevice (config : SystemConfig) (env : InitOutcome) : LockResult :=
  if config.shmSize = 0 then .errorInvalidParam else env.mapDevice

/-- `CxlMemoryPool::open_file_backed`, without its `memset`. -/
def openFileBacked (config : SystemConfig) (env : InitOutcome) : LockResult :=
  if config.shmSize = 0 then .errorInvalidParam else env.mapFile

/-- Step 1 of `initialize`: the store that is opened, with a fall back from the device to the
file. -/
def openPool (config : SystemConfig) (env : InitOutcome) : Except LockResult BackingStore :=
  if config.useFileBackedShm = false ∧ openDevice config env = .success then .ok .device
  else if openFileBacked config env = .success then .ok .file
  else .error (openFileBacked config env)

section Initialize

variable (k : LockAlgorithm) (config : SystemConfig) (env : InitOutcome)

/-- `initialize` of the algorithm on the region of the pool; `none` when it does not return. -/
def initializeRecords (nodeCount : UInt32) (shm : k.Shm) : Option (LockResult × k.Shm) :=
  (k.initializeStores config.region env.behind 0 nodeCount).1.map fun _ =>
    k.records.algorithm.initializeShm nodeCount shm

/-- `TwoTierLock::initialize` of a new `TwoTierLock`. -/
def twoTierInitialize (nodeId : NodeId) (shm : k.Shm) : Option (LockResult × k.Shm) :=
  if nodeId = invalidNodeId then some (.errorInvalidParam, shm)
  else if config.maxLocks = 0 ∨ maxLockCount < config.maxLocks then
    some (.errorInvalidParam, shm)
  else initializeRecords k config env config.nodeCount shm

/-- `LockManager::initialize` of a new `LockManager`, with the `start` after it, which succeeds
then. -/
def managerInitialize (shm : k.Shm) : Option (LockResult × k.Shm) :=
  if config.maxLocks = 0 ∨ maxLockCount < config.maxLocks then some (.errorInvalidParam, shm)
  else if config.maxNodes = 0 ∨ maxNodeCount < config.maxNodes then
    some (.errorInvalidParam, shm)
  else initializeRecords k config env config.maxNodes shm

/-- Steps 2 to 4 of `initialize`. -/
def initializeTwoTier (nodeId : NodeId) (shm : k.Shm) : Option (LockResult × k.Shm) :=
  if LockAlgorithm.ofName config.lockAlgorithm = none then some (.errorInvalidParam, shm)
  else
    let rc := ((LocalLockArray.unused : LocalLockArray Unit).initializeArray config.maxLocks
      env.mutexes).1
    if rc ≠ .success then some (rc, shm) else twoTierInitialize k config env nodeId shm

/-- What `initialize` does next. -/
inductive InitPc
  /-- The `memset` of `open_file_backed`. -/
  | fillPool
  /-- Steps 2 to 4, on the store that has been opened. -/
  | twoTier (store : BackingStore)
  /-- Step 5. -/
  | manager
  deriving DecidableEq

/-- The call has written to shared memory and has not returned. -/
def InitPc.midway : InitPc → Bool
  | .fillPool | .twoTier .device => false
  | .twoTier .file | .manager => true

/-- The number of steps after this one, at most. -/
def InitPc.left : InitPc → Nat
  | .fillPool => 2
  | .twoTier _ => 1
  | .manager => 0

/-- How `initialize` begins: it returns, or goes on after step 1 has opened a store. -/
def initBegin (initialized : Bool) : LockResult ⊕ InitPc :=
  if initialized then .inl .errorUnknown
  else
    match openPool config env with
    | .error rc => .inl rc
    | .ok .file => .inr .fillPool
    | .ok .device => .inr (.twoTier .device)

/-- One step of `initialize`, with at most one of its writes: the result when it returns, or
what it does next. -/
def InitPc.step (nodeId : NodeId) (asLockManager : Bool) :
    InitPc → k.Shm → Option ((LockResult ⊕ InitPc) × k.Shm)
  | .fillPool, shm => some (.inr (.twoTier .file), k.records.zeroFill config.nodeCount shm)
  | .twoTier _, shm => (initializeTwoTier k config env nodeId shm).map fun r =>
      (if r.1 = .success ∧ asLockManager then .inr .manager else .inl r.1, r.2)
  | .manager, shm => (managerInitialize k config env shm).map fun r => (.inl r.1, r.2)

/-- Steps 2 to 5 of `initialize`, when nothing interrupts them. -/
def initializeLocks (nodeId : NodeId) (asLockManager : Bool) (shm : k.Shm) :
    Option (LockResult × k.Shm) :=
  (initializeTwoTier k config env nodeId shm).bind fun r =>
    if r.1 = .success ∧ asLockManager then managerInitialize k config env r.2 else some r

/-- The rest of the call, when nothing interrupts it. -/
def InitPc.finish (nodeId : NodeId) (asLockManager : Bool) :
    InitPc → k.Shm → Option (LockResult × k.Shm)
  | .fillPool, shm =>
      initializeLocks k config env nodeId asLockManager (k.records.zeroFill config.nodeCount shm)
  | .twoTier _, shm => initializeLocks k config env nodeId asLockManager shm
  | .manager, shm => managerInitialize k config env shm

/-- `DistributedLockSystem::initialize`, when nothing interrupts it. -/
def initializeSystem (initialized : Bool) (nodeId : NodeId) (asLockManager : Bool)
    (shm : k.Shm) : Option (LockResult × k.Shm) :=
  match initBegin config env initialized with
  | .inl rc => some (rc, shm)
  | .inr pc => pc.finish k config env nodeId asLockManager shm

end Initialize

/-! ## What the call does to the records -/

/-- Nothing stops the call before `initialize` of the algorithm writes the records. -/
def Proceeds (config : SystemConfig) (nodeId : NodeId) (env : InitOutcome) : Prop :=
  LockAlgorithm.ofName config.lockAlgorithm ≠ none ∧
    ¬ (config.maxLocks = 0 ∨ maxLockCount < config.maxLocks) ∧ env.mutexes = .done ∧
      nodeId ≠ invalidNodeId ∧ ¬ (config.nodeCount = 0 ∨ maxNodeCount < config.nodeCount)

instance (config : SystemConfig) (nodeId : NodeId) (env : InitOutcome) :
    Decidable (Proceeds config nodeId env) :=
  inferInstanceAs (Decidable (_ ∧ _))

/-- How far the call gets. -/
inductive Reached
  /-- It stops before any write. -/
  | nothing
  /-- It stops after the `memset` of the pool. -/
  | zeroFill
  /-- It gets to `initialize` of the algorithm. -/
  | records
  deriving DecidableEq

/-- How far `initialize` gets. -/
def reached (config : SystemConfig) (initialized : Bool) (nodeId : NodeId)
    (env : InitOutcome) : Reached :=
  if initialized then .nothing
  else
    match openPool config env with
    | .error _ => .nothing
    | .ok store =>
        if Proceeds config nodeId env then .records
        else if store = .file then .zeroFill else .nothing

/-- The condition under which the call leaves the lock records as they are. -/
def Undisturbed {Shm : Type} (R : LockRecords Shm) (config : SystemConfig)
    (initialized : Bool) (nodeId : NodeId) (env : InitOutcome) (shm : Shm) : Prop :=
  match reached config initialized nodeId env with
  | .nothing => True
  | .zeroFill => R.Zeroed config.nodeCount shm
  | .records => R.Pristine config.nodeCount shm

instance {Shm : Type} (R : LockRecords Shm) (config : SystemConfig) (initialized : Bool)
    (nodeId : NodeId) (env : InitOutcome) (shm : Shm) :
    Decidable (Undisturbed R config initialized nodeId env shm) :=
  match h : reached config initialized nodeId env with
  | .nothing => .isTrue (by simp [Undisturbed, h])
  | .zeroFill =>
      have := R.decidableZeroed config.nodeCount shm
      decidable_of_iff (R.Zeroed config.nodeCount shm) (by simp [Undisturbed, h])
  | .records =>
      have := R.decidablePristine config.nodeCount shm
      decidable_of_iff (R.Pristine config.nodeCount shm) (by simp [Undisturbed, h])

section Effects

variable {k : LockAlgorithm} {config : SystemConfig} {nodeId : NodeId} {env : InitOutcome}
  {asLockManager : Bool} {shm : k.Shm} {r : LockResult × k.Shm}

lemma openPool_error {rc : LockResult} (h : openPool config env = .error rc) :
    rc ≠ .success := by
  unfold openPool at h
  split_ifs at h with hdevice hfile
  cases h
  exact hfile

/-- A call that returns at once fails. -/
lemma initBegin_inl {initialized : Bool} {code : LockResult}
    (h : initBegin config env initialized = .inl code) : code ≠ .success := by
  unfold initBegin at h
  split_ifs at h
  · cases h
    exact LockResult.noConfusion
  · split at h
    · rename_i hpool
      cases h
      exact openPool_error hpool
    · cases h
    · cases h

/-- The set-up of the mutexes succeeds when the number of locks is within the limit. -/
lemma initializeArray_success_iff {T : Type} {count : UInt32} {setup : MutexSetup} :
    ((LocalLockArray.unused : LocalLockArray T).initializeArray count setup).1 = .success ↔
      ¬ (count = 0 ∨ maxLockCount < count) ∧ setup = .done := by
  by_cases h : count = 0 ∨ maxLockCount < count
  · simp [LocalLockArray.initializeArray, h]
  · cases setup <;> simp [LocalLockArray.initializeArray, LocalLockArray.unused, h]

/-- A step of the call and the rest of it are the rest of it. -/
lemma InitPc.finish_of_step {pc : InitPc} {a : LockResult ⊕ InitPc} {shm' : k.Shm}
    (h : pc.step k config env nodeId asLockManager shm = some (a, shm')) :
    pc.finish k config env nodeId asLockManager shm =
      a.elim (fun rc => some (rc, shm')) fun pc' =>
        pc'.finish k config env nodeId asLockManager shm' := by
  cases pc with
  | fillPool =>
      obtain ⟨rfl, rfl⟩ := Prod.mk.inj (Option.some.inj h)
      rfl
  | twoTier store =>
      obtain ⟨r, hr, heq⟩ := Option.map_eq_some_iff.1 h
      obtain ⟨rfl, rfl⟩ := Prod.mk.inj heq
      rw [InitPc.finish, initializeLocks, hr, Option.bind_some]
      by_cases hgo : r.1 = .success ∧ asLockManager = true
      · rw [if_pos hgo, if_pos hgo]
        rfl
      · rw [if_neg hgo, if_neg hgo]
        rfl
  | manager =>
      obtain ⟨r, hr, heq⟩ := Option.map_eq_some_iff.1 h
      obtain ⟨rfl, rfl⟩ := Prod.mk.inj heq
      exact hr

/-- A step that does not return has written, and is one of finitely many. -/
lemma InitPc.inr_of_step {pc pc' : InitPc} {shm' : k.Shm}
    (h : pc.step k config env nodeId asLockManager shm = some (.inr pc', shm')) :
    pc'.midway = true ∧ pc'.left < pc.left := by
  cases pc with
  | fillPool =>
      obtain ⟨⟨⟩, -⟩ := Prod.mk.inj (Option.some.inj h)
      exact ⟨rfl, Nat.one_lt_two⟩
  | twoTier store =>
      obtain ⟨r, -, heq⟩ := Option.map_eq_some_iff.1 h
      have hgo := (Prod.mk.inj heq).1
      split_ifs at hgo
      cases hgo
      exact ⟨rfl, Nat.zero_lt_one⟩
  | manager =>
      obtain ⟨r, -, heq⟩ := Option.map_eq_some_iff.1 h
      cases (Prod.mk.inj heq).1

/-- A call that returns takes its next step. -/
lemma InitPc.step_of_finish {pc : InitPc}
    (hr : pc.finish k config env nodeId asLockManager shm = some r) :
    ∃ a, pc.step k config env nodeId asLockManager shm = some a := by
  cases pc with
  | fillPool => exact ⟨_, rfl⟩
  | twoTier store =>
      obtain ⟨r', hr', -⟩ := Option.bind_eq_some_iff.1 hr
      exact ⟨_, Option.map_eq_some_iff.2 ⟨r', hr', rfl⟩⟩
  | manager => exact ⟨_, Option.map_eq_some_iff.2 ⟨r, hr, rfl⟩⟩

lemma initializeRecords_shm {nodeCount : UInt32}
    (h : initializeRecords k config env nodeCount shm = some r) :
    r = k.records.algorithm.initializeShm nodeCount shm := by
  obtain ⟨-, -, rfl⟩ := Option.map_eq_some_iff.1 h
  rfl

lemma twoTierInitialize_refused (h : nodeId = invalidNodeId ∨
    config.nodeCount = 0 ∨ maxNodeCount < config.nodeCount)
    (hr : twoTierInitialize k config env nodeId shm = some r) :
    r.1 ≠ .success ∧ r.2 = shm := by
  unfold twoTierInitialize at hr
  split_ifs at hr with hnode hlocks
  · cases hr
    exact ⟨LockResult.noConfusion, rfl⟩
  · cases hr
    exact ⟨LockResult.noConfusion, rfl⟩
  · rw [initializeRecords_shm hr, k.records.initialize_refused _ _ (h.resolve_left hnode)]
    exact ⟨LockResult.noConfusion, rfl⟩

lemma initializeTwoTier_stopped (h : ¬ Proceeds config nodeId env)
    (hr : initializeTwoTier k config env nodeId shm = some r) :
    r.1 ≠ .success ∧ r.2 = shm := by
  unfold initializeTwoTier at hr
  dsimp only at hr
  split_ifs at hr with hname hmutex
  · cases hr
    exact ⟨LockResult.noConfusion, rfl⟩
  · cases hr
    exact ⟨hmutex, rfl⟩
  · obtain ⟨hlocks, hdone⟩ := initializeArray_success_iff.1 (not_not.1 hmutex)
    refine twoTierInitialize_refused ?_ hr
    by_contra hok
    exact h ⟨hname, hlocks, hdone, (not_or.1 hok).1, (not_or.1 hok).2⟩

lemma initializeTwoTier_eq (h : Proceeds config nodeId env) :
    initializeTwoTier k config env nodeId shm =
      initializeRecords k config env config.nodeCount shm := by
  obtain ⟨hname, hlocks, hdone, hnode, -⟩ := h
  have hmutex := (initializeArray_success_iff (T := Unit)).2 ⟨hlocks, hdone⟩
  simp only [initializeTwoTier, hname, if_false, hmutex, ne_eq, not_true_eq_false,
    twoTierInitialize, hnode, hlocks]

/-- The number of nodes of the lock manager is that of the `TwoTierLock`. -/
lemma nodeCount_eq_maxNodes (h : config.maxNodes ≠ 0) : config.nodeCount = config.maxNodes := by
  rw [SystemConfig.nodeCount, if_pos]
  exact UInt32.pos_iff_ne_zero.2 h

/-- The lock manager writes the records once more, or stops before. -/
lemma managerInitialize_cases (hr : managerInitialize k config env shm = some r) :
    r.1 ≠ .success ∧ r.2 = shm ∨
      r = k.records.algorithm.initializeShm config.nodeCount shm := by
  unfold managerInitialize at hr
  split_ifs at hr with hlocks hnodes
  · cases hr
    exact .inl ⟨LockResult.noConfusion, rfl⟩
  · cases hr
    exact .inl ⟨LockResult.noConfusion, rfl⟩
  · rw [nodeCount_eq_maxNodes (not_or.1 hnodes).1]
    exact .inr (initializeRecords_shm hr)

lemma initializeLocks_stopped (h : ¬ Proceeds config nodeId env)
    (hr : initializeLocks k config env nodeId asLockManager shm = some r) :
    r.1 ≠ .success ∧ r.2 = shm := by
  obtain ⟨r', hr', hr⟩ := Option.bind_eq_some_iff.1 hr
  obtain ⟨hfailed, hshm⟩ := initializeTwoTier_stopped h hr'
  rw [if_neg fun hok => hfailed hok.1] at hr
  obtain rfl := Option.some.inj hr
  exact ⟨hfailed, hshm⟩

lemma initializeLocks_shm (h : Proceeds config nodeId env)
    (hr : initializeLocks k config env nodeId asLockManager shm = some r) :
    r.2 = (k.records.algorithm.initializeShm config.nodeCount shm).2 := by
  obtain ⟨r', hr', hr⟩ := Option.bind_eq_some_iff.1 hr
  rw [initializeTwoTier_eq h] at hr'
  obtain rfl := initializeRecords_shm hr'
  split_ifs at hr
  · rcases managerInitialize_cases hr with ⟨-, hshm⟩ | rfl
    · exact hshm
    · exact k.records.initialize_idem _ _
  · cases hr
    rfl

/-- **When a node's `initialize` leaves the lock records as they are.** -/
theorem initializeSystem_same_iff {initialized : Bool}
    (hr : initializeSystem k config env initialized nodeId asLockManager shm = some r) :
    k.records.Same config.nodeCount r.2 shm ↔
      Undisturbed k.records config initialized nodeId env shm := by
  unfold initializeSystem initBegin at hr
  unfold Undisturbed reached
  cases initialized with
  | true =>
      cases hr
      simpa using k.records.same_refl _ _
  | false =>
      simp only [Bool.false_eq_true, if_false] at hr ⊢
      cases hpool : openPool config env with
      | error rc =>
          simp only [hpool] at hr ⊢
          cases hr
          simpa using k.records.same_refl _ _
      | ok store =>
          by_cases hproceeds : Proceeds config nodeId env
          · have hcount := hproceeds.2.2.2.2
            simp only [hproceeds, if_true]
            cases store with
            | device =>
                simp only [hpool, InitPc.finish] at hr
                rw [initializeLocks_shm hproceeds hr]
                exact k.records.initialize_same _ _ hcount
            | file =>
                simp only [hpool, InitPc.finish] at hr
                rw [initializeLocks_shm hproceeds hr]
                exact k.records.initialize_zeroFill_same _ _ hcount
          · simp only [hproceeds, if_false]
            cases store with
            | device =>
                simp only [hpool, InitPc.finish] at hr
                rw [(initializeLocks_stopped hproceeds hr).2]
                simpa using k.records.same_refl _ _
            | file =>
                simp only [hpool, InitPc.finish] at hr
                rw [(initializeLocks_stopped hproceeds hr).2]
                exact k.records.zeroFill_same _ _

/-- The call returns where `initialize` of the algorithm does. -/
lemma initializeSystem_returns {initialized : Bool}
    (h : k.Returns config.region env.behind 0 config.nodeCount) :
    ∃ r, initializeSystem k config env initialized nodeId asLockManager shm = some r := by
  have hrecords : ∀ shm', ∃ r, initializeRecords k config env config.nodeCount shm' = some r := by
    intro shm'
    unfold initializeRecords LockAlgorithm.initializeStores
    split_ifs
    · exact ⟨_, rfl⟩
    · exact ⟨_, rfl⟩
  have hmanager : ∀ shm', ∃ r, managerInitialize k config env shm' = some r := by
    intro shm'
    unfold managerInitialize
    split_ifs with hlocks hnodes
    · exact ⟨_, rfl⟩
    · exact ⟨_, rfl⟩
    · rw [← nodeCount_eq_maxNodes (not_or.1 hnodes).1]
      exact hrecords shm'
  have htwoTier : ∀ shm', ∃ r, initializeTwoTier k config env nodeId shm' = some r := by
    intro shm'
    unfold initializeTwoTier twoTierInitialize
    dsimp only
    split_ifs
    any_goals exact ⟨_, rfl⟩
    exact hrecords shm'
  have hlocks : ∀ shm', ∃ r, initializeLocks k config env nodeId asLockManager shm' =
      some r := by
    intro shm'
    obtain ⟨r, hr⟩ := htwoTier shm'
    rw [initializeLocks, hr, Option.bind_some]
    split_ifs
    · exact hmanager r.2
    · exact ⟨r, rfl⟩
  unfold initializeSystem
  cases initBegin config env initialized with
  | inl rc => exact ⟨_, rfl⟩
  | inr pc =>
      cases pc with
      | fillPool => exact hlocks _
      | twoTier store => exact hlocks _
      | manager => exact hmanager _

/-- A call that succeeds leaves initial records, wherever it is. -/
lemma InitPc.finish_success {pc : InitPc}
    (hr : pc.finish k config env nodeId asLockManager shm = some r) (hok : r.1 = .success) :
    ∃ shm₀, r.2 = (k.records.algorithm.initializeShm config.nodeCount shm₀).2 := by
  have hlocks : ∀ shm', initializeLocks k config env nodeId asLockManager shm' = some r →
      ∃ shm₀, r.2 = (k.records.algorithm.initializeShm config.nodeCount shm₀).2 := by
    intro shm' hr'
    by_cases hproceeds : Proceeds config nodeId env
    · exact ⟨_, initializeLocks_shm hproceeds hr'⟩
    · exact absurd hok (initializeLocks_stopped hproceeds hr').1
  cases pc with
  | fillPool => exact hlocks _ hr
  | twoTier store => exact hlocks _ hr
  | manager =>
      rcases managerInitialize_cases hr with ⟨hfailed, -⟩ | rfl
      · exact absurd hok hfailed
      · exact ⟨_, rfl⟩

end Effects

end CxlLock
