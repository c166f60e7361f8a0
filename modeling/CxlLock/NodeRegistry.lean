import Mathlib.Data.List.Induction
import Mathlib.Data.List.GetD
import Mathlib.Data.List.TakeWhile
import CxlLock.SharedMemory
import CxlLock.Lib.ByteMemory

/-!
# The node registry (`node_registry.cpp`)

The registry is an array of `NodeGlobalInfo` records in shared memory, one slot for each node
id.  A `NodeRegistry` writes to the slot of its own id: the whole record when it registers, the
byte of `is_active` when it unregisters, and the eight bytes of `last_heartbeat` with a
heartbeat.  `discover_nodes` and `get_active_node_count` read all slots.

The memory is modelled byte by byte, with the records at the offsets that the code computes, so
that a call that touched a neighbouring slot would show.  The results are in two steps.
`readSlot_runCall` says that every call acts on the record of its own slot and on no other.
`registry_reports_registered` says, for all sequences of calls, that what is found is what the
calls say: who is registered, with which values and times.
-/

namespace CxlLock

open ByteMemory

/-- `NodeConfig`; strings are their bytes. -/
@[ext] structure NodeConfig where
  nodeId : NodeId
  nodeName : List UInt8
  ipAddress : List UInt8
  numComputeThreads : UInt32
  isLockManager : Bool
  deriving DecidableEq

/-- `NodeGlobalInfo`. -/
structure NodeGlobalInfo where
  nodeId : NodeId
  nodeName : Fin 64 → UInt8
  ipAddress : Fin 64 → UInt8
  numComputeThreads : UInt32
  isActive : Bool
  registrationTime : UInt64
  lastHeartbeat : UInt64

/-- `NodeRegistry::Impl`. -/
structure NodeRegistry where
  localConfig : NodeConfig
  hasLocalConfig : Bool
  deriving DecidableEq

/-! ## The record in memory -/

namespace NodeGlobalInfo

/-- `sizeof(NodeGlobalInfo)`: the two 64-bit times are aligned to 8 bytes. -/
def size : UInt64 := 160

/-- The offset of `is_active`. -/
def isActiveAt : Nat := 136

/-- The offset of `last_heartbeat`. -/
def lastHeartbeatAt : Nat := 152

/-- The record as bytes; the padding behind `is_active` is zeroed by the `memset`. -/
def bytes (info : NodeGlobalInfo) : List UInt8 :=
  word32.encode info.nodeId ++ (chars 64).encode info.nodeName ++
    (chars 64).encode info.ipAddress ++ word32.encode info.numComputeThreads ++
    flag.encode info.isActive ++ List.replicate 7 0 ++ word64.encode info.registrationTime ++
    word64.encode info.lastHeartbeat

/-- The record at an address. -/
def read (mem : Memory) (addr : Nat) : NodeGlobalInfo where
  nodeId := word32.load mem addr
  nodeName := (chars 64).load mem (addr + 4)
  ipAddress := (chars 64).load mem (addr + 68)
  numComputeThreads := word32.load mem (addr + 132)
  isActive := flag.load mem (addr + isActiveAt)
  registrationTime := word64.load mem (addr + 144)
  lastHeartbeat := word64.load mem (addr + lastHeartbeatAt)

end NodeGlobalInfo

/-! ## Writing to the own slot -/

/-- The bytes of a string up to its end or its first NUL, as `c_str()` gives them. -/
def cString (s : List UInt8) : List UInt8 := s.takeWhile (· ≠ 0)

/-- `strncpy` into an array of 64 characters. -/
def strncpy (dest : Fin 64 → UInt8) (src : List UInt8) (count : Nat) : Fin 64 → UInt8 := fun i =>
  if i < count then (cString src).getD i 0 else dest i

/-- A bounded copy into a zeroed array, terminated in its last place. -/
def copyString (src : List UInt8) : Fin 64 → UInt8 :=
  Function.update (strncpy (fun _ => 0) src 63) 63 0

/-- The offset of a slot. -/
def slotOffset (registryOffset : ShmOffset) (nodeId : NodeId) : ShmOffset :=
  registryOffset + nodeId.toUInt64 * NodeGlobalInfo.size

namespace NodeRegistry

/-- The record that `register_in_shared_memory` builds. -/
def newInfo (config : NodeConfig) (now : UInt64) : NodeGlobalInfo where
  nodeId := config.nodeId
  nodeName := copyString config.nodeName
  ipAddress := copyString config.ipAddress
  numComputeThreads := config.numComputeThreads
  isActive := true
  registrationTime := now
  lastHeartbeat := now

section Calls

variable (registry : NodeRegistry) (shm : SharedMemoryRegion) (registryOffset : ShmOffset)

/-- The checks that open the three calls, and the write to the slot of the own node. -/
def writeOwnSlot (write : Nat → Memory → Memory) (mem : Memory) : LockResult × Memory :=
  if shm.valid = false then (.errorInvalidParam, mem)
  else if registry.hasLocalConfig = false then (.errorInvalidParam, mem)
  else if registry.localConfig.nodeId ≥ maxNodeCount then (.errorInvalidParam, mem)
  else
    match shm.offsetToPtr (slotOffset registryOffset registry.localConfig.nodeId) with
    | none => (.errorShmFailure, mem)
    | some nodePtr => (.success, write nodePtr.toNat mem)

/-- `NodeRegistry::register_in_shared_memory`, with the reading of the clock. -/
def registerInSharedMemory (now : UInt64) : Memory → LockResult × Memory :=
  registry.writeOwnSlot shm registryOffset fun nodePtr mem =>
    store mem nodePtr (newInfo registry.localConfig now).bytes

/-- `NodeRegistry::unregister`. -/
def unregister : Memory → LockResult × Memory :=
  registry.writeOwnSlot shm registryOffset fun nodePtr mem =>
    flag.store mem (nodePtr + NodeGlobalInfo.isActiveAt) false

/-- `NodeRegistry::update_heartbeat`, with the reading of the clock. -/
def updateHeartbeat (now : UInt64) : Memory → LockResult × Memory :=
  registry.writeOwnSlot shm registryOffset fun nodePtr mem =>
    word64.store mem (nodePtr + NodeGlobalInfo.lastHeartbeatAt) now

end Calls

end NodeRegistry

/-! ## Reading all slots -/

section Queries

variable (shm : SharedMemoryRegion) (registryOffset : ShmOffset) (maxNodes : UInt32)
  (mem : Memory)

/-- The bound of the two loops. -/
def slotLimit : UInt32 := if maxNodes > maxNodeCount then maxNodeCount else maxNodes

/-- One turn of the loop of `get_active_node_count`. -/
def countStep (count : UInt32) (i : NodeId) : UInt32 :=
  match shm.offsetToPtr (slotOffset registryOffset i) with
  | none => count
  | some nodePtr =>
      if flag.load mem (nodePtr.toNat + NodeGlobalInfo.isActiveAt) then count + 1 else count

/-- `NodeRegistry::get_active_node_count`. -/
def getActiveNodeCount : UInt32 :=
  if shm.valid = false then 0
  else (idsBelow (slotLimit maxNodes)).foldl (countStep shm registryOffset mem) 0

/-- One turn of the loop of `discover_nodes`. -/
def discoverStep (result : List NodeGlobalInfo) (i : NodeId) : List NodeGlobalInfo :=
  match shm.offsetToPtr (slotOffset registryOffset i) with
  | none => result
  | some nodePtr =>
      let info := NodeGlobalInfo.read mem nodePtr.toNat
      if info.isActive then result ++ [info] else result

/-- `NodeRegistry::discover_nodes`. -/
def discoverNodes : List NodeGlobalInfo :=
  if shm.valid = false then []
  else (idsBelow (slotLimit maxNodes)).foldl (discoverStep shm registryOffset mem) []

end Queries

/-! ## Sequences of calls -/

/-- A call of one of the registries, with the reading of the clock. -/
inductive RegistryCall (ι : Type)
  | register (i : ι) (now : UInt64)
  | unregister (i : ι)
  | heartbeat (i : ι) (now : UInt64)
  deriving DecidableEq

section Runs

variable {ι : Type} (registries : ι → NodeRegistry) (shm : SharedMemoryRegion)
  (registryOffset : ShmOffset)

/-- What a call returns and what it leaves in memory. -/
def runCall (mem : Memory) : RegistryCall ι → LockResult × Memory
  | .register i now => (registries i).registerInSharedMemory shm registryOffset now mem
  | .unregister i => (registries i).unregister shm registryOffset mem
  | .heartbeat i now => (registries i).updateHeartbeat shm registryOffset now mem

/-- The memory after a sequence of calls. -/
def runCalls (mem : Memory) (calls : List (RegistryCall ι)) : Memory :=
  calls.foldl (fun mem call => (runCall registries shm registryOffset mem call).2) mem

end Runs

/-! ## One record -/

section Record

variable (mem : Memory) (addr : Nat)

namespace NodeGlobalInfo

lemma bytes_length (info : NodeGlobalInfo) : info.bytes.length = 160 := by
  simp [bytes, Codec.encode_length]

/-- A record that has been stored is read back. -/
lemma read_store (info : NodeGlobalInfo) : read (store mem addr info.bytes) addr = info := by
  obtain ⟨nodeId, nodeName, ipAddress, numComputeThreads, isActive, registrationTime,
    lastHeartbeat⟩ := info
  simp only [read, bytes, isActiveAt, lastHeartbeatAt, store_append, List.length_append,
    Codec.encode_length, List.length_replicate, word32_size, word64_size, flag_size, chars_size,
    Nat.reduceAdd, NodeGlobalInfo.mk.injEq]
  refine ⟨?_, ?_, ?_, ?_, ?_, ?_, ?_⟩ <;>
    simp (disch := simp [Codec.encode_length]) only [Codec.load_of_disjoint,
      Codec.load_store_encode]

/-- A store outside the record. -/
lemma read_store_of_disjoint {a : Nat} {bytes : List UInt8}
    (h : addr + 160 ≤ a ∨ a + bytes.length ≤ addr) :
    read (store mem a bytes) addr = read mem addr := by
  have hfield : ∀ {α : Type} (c : Codec α) (d : Nat), d + c.size ≤ 160 →
      c.load (store mem a bytes) (addr + d) = c.load mem (addr + d) := fun c d hd => by
    apply c.load_of_disjoint
    omega
  simp only [read, isActiveAt, lastHeartbeatAt]
  rw [← Nat.add_zero addr, hfield word32 0 (by simp)]
  simp only [Nat.add_zero]
  rw [hfield (chars 64) 4 (by simp), hfield (chars 64) 68 (by simp), hfield word32 132 (by simp),
    hfield flag 136 (by simp), hfield word64 144 (by simp), hfield word64 152 (by simp)]

/-- The store of `is_active` keeps the other fields. -/
lemma read_store_isActive (v : Bool) : read (flag.store mem (addr + isActiveAt) v) addr =
    { read mem addr with isActive := v } := by
  simp only [read, isActiveAt, lastHeartbeatAt, Codec.load_store_self, NodeGlobalInfo.mk.injEq]
  refine ⟨?_, ?_, ?_, ?_, trivial, ?_, ?_⟩ <;>
    exact Codec.load_store_of_disjoint _ _ _ _ _ (by simp)

/-- The store of `last_heartbeat` keeps the other fields. -/
lemma read_store_lastHeartbeat (v : UInt64) :
    read (word64.store mem (addr + lastHeartbeatAt) v) addr =
      { read mem addr with lastHeartbeat := v } := by
  simp only [read, isActiveAt, lastHeartbeatAt, Codec.load_store_self, NodeGlobalInfo.mk.injEq]
  refine ⟨?_, ?_, ?_, ?_, ?_, ?_, trivial⟩ <;>
    exact Codec.load_store_of_disjoint _ _ _ _ _ (by simp)

end NodeGlobalInfo

end Record

/-! ## The slots of an array that lies in the region -/

/-- An array of slots within the mapped region, and the registries that use it: each has a
loaded configuration, and no two have the same node id. -/
structure RegistryArray (ι : Type) where
  shm : SharedMemoryRegion
  registryOffset : ShmOffset
  registries : ι → NodeRegistry
  inside : registryOffset.toNat + maxNodeCount.toNat * 160 ≤ shm.getSize.toNat
  loaded : ∀ i, (registries i).hasLocalConfig = true
  inRange : ∀ i, (registries i).localConfig.nodeId < maxNodeCount
  distinct : Function.Injective fun i => (registries i).localConfig.nodeId

namespace RegistryCall

variable {ι : Type}

/-- The registry that makes the call. -/
@[simp] def caller : RegistryCall ι → ι
  | .register i _ | .unregister i | .heartbeat i _ => i

/-- What the call does to the record of its own slot. -/
@[simp] def apply (config : NodeConfig) : RegistryCall ι → NodeGlobalInfo → NodeGlobalInfo
  | .register _ now, _ => NodeRegistry.newInfo config now
  | .unregister _, info => { info with isActive := false }
  | .heartbeat _ now, info => { info with lastHeartbeat := now }

end RegistryCall

namespace RegistryArray

variable {ι : Type} (array : RegistryArray ι)

/-- The configuration of a registry. -/
def config (i : ι) : NodeConfig := (array.registries i).localConfig

lemma config_nodeId_lt (i : ι) : (array.config i).nodeId < maxNodeCount := array.inRange i

lemma config_nodeId_inj {i j : ι} : (array.config i).nodeId = (array.config j).nodeId ↔ i = j :=
  array.distinct.eq_iff

/-- The record of a slot. -/
def readSlot (mem : Memory) (k : NodeId) : NodeGlobalInfo :=
  NodeGlobalInfo.read mem (slotOffset array.registryOffset k).toNat

/-- The memory after a sequence of calls. -/
def after (mem : Memory) (calls : List (RegistryCall ι)) : Memory :=
  runCalls array.registries array.shm array.registryOffset mem calls

section Slots

variable {k : NodeId} (mem : Memory)

lemma toNat_lt_of_lt_maxNodeCount (hk : k < maxNodeCount) : k.toNat < 64 := by
  simpa [UInt32.lt_iff_toNat_lt, maxNodeCount] using hk

/-- The arithmetic of slot offsets does not wrap. -/
lemma slotOffset_toNat (hk : k < maxNodeCount) :
    (slotOffset array.registryOffset k).toNat = array.registryOffset.toNat + k.toNat * 160 := by
  have hlt := toNat_lt_of_lt_maxNodeCount hk
  have hinside := array.inside
  have hsize := array.shm.getSize.toNat_lt
  have hmax : maxNodeCount.toNat = 64 := rfl
  simp only [slotOffset, NodeGlobalInfo.size, UInt64.toNat_add, UInt64.toNat_mul,
    UInt32.toNat_toUInt64, UInt64.reduceToNat]
  omega

lemma offsetToPtr_slot (hk : k < maxNodeCount) :
    array.shm.offsetToPtr (slotOffset array.registryOffset k) =
      some (slotOffset array.registryOffset k) := by
  have hlt := toNat_lt_of_lt_maxNodeCount hk
  have hinside := array.inside
  have hmax : maxNodeCount.toNat = 64 := rfl
  apply SharedMemoryRegion.offsetToPtr_of_lt
  rw [array.slotOffset_toNat hk]
  omega

lemma valid : array.shm.valid = true := by
  have hinside := array.inside
  have hmax : maxNodeCount.toNat = 64 := rfl
  by_contra hinvalid
  have hsize : array.shm.getSize.toNat = 0 := by simp [SharedMemoryRegion.getSize, hinvalid]
  omega

/-- The slots of two nodes do not overlap. -/
lemma slot_disjoint {j : NodeId} (hk : k < maxNodeCount) (hj : j < maxNodeCount) (h : k ≠ j) :
    (slotOffset array.registryOffset k).toNat + 160 ≤
        (slotOffset array.registryOffset j).toNat ∨
      (slotOffset array.registryOffset j).toNat + 160 ≤
        (slotOffset array.registryOffset k).toNat := by
  have hne : k.toNat ≠ j.toNat := fun heq => h (UInt32.toNat_inj.1 heq)
  rw [array.slotOffset_toNat hk, array.slotOffset_toNat hj]
  omega

/-- Every call passes its checks and writes to the slot of its registry. -/
lemma writeOwnSlot_eq (i : ι) (write : Nat → Memory → Memory) :
    (array.registries i).writeOwnSlot array.shm array.registryOffset write mem =
      (.success, write (slotOffset array.registryOffset (array.config i).nodeId).toNat mem) := by
  have hrange : ¬ (array.registries i).localConfig.nodeId ≥ maxNodeCount :=
    UInt32.not_le.2 (array.inRange i)
  have hptr := array.offsetToPtr_slot (array.inRange i)
  simp only [NodeRegistry.writeOwnSlot, array.valid, array.loaded i, hrange, hptr, if_false,
    Bool.true_eq_false, config]

/-- A write within the slot of a registry leaves the other slots as they are. -/
lemma readSlot_of_ne {i : ι} {d : Nat} {bytes : List UInt8}
    (hbytes : d + bytes.length ≤ 160) (hk : k < maxNodeCount)
    (hne : k ≠ (array.config i).nodeId) :
    array.readSlot (store mem ((slotOffset array.registryOffset (array.config i).nodeId).toNat +
      d) bytes) k = array.readSlot mem k := by
  apply NodeGlobalInfo.read_store_of_disjoint
  rcases array.slot_disjoint hk (array.inRange i) hne with hbefore | hbehind
  · left
    exact Nat.le_trans hbefore (Nat.le_add_right _ _)
  · right
    exact Nat.le_trans (by rw [Nat.add_assoc]; exact Nat.add_le_add_left hbytes _) hbehind

/-- **One call**: it succeeds, and acts on the record of its own slot only. -/
lemma readSlot_runCall (call : RegistryCall ι) (hk : k < maxNodeCount) :
    (runCall array.registries array.shm array.registryOffset mem call).1 = .success ∧
    array.readSlot (runCall array.registries array.shm array.registryOffset mem call).2 k =
      if k = (array.config call.caller).nodeId then
        call.apply (array.config call.caller) (array.readSlot mem k)
      else array.readSlot mem k := by
  cases call with
  | register i now =>
      rw [runCall, NodeRegistry.registerInSharedMemory, array.writeOwnSlot_eq]
      refine ⟨rfl, ?_⟩
      split_ifs with hki
      · rw [readSlot, hki]
        exact NodeGlobalInfo.read_store _ _ _
      · exact array.readSlot_of_ne mem (d := 0) (by simp [NodeGlobalInfo.bytes_length]) hk hki
  | unregister i =>
      rw [runCall, NodeRegistry.unregister, array.writeOwnSlot_eq]
      refine ⟨rfl, ?_⟩
      split_ifs with hki
      · rw [readSlot, readSlot, hki]
        exact NodeGlobalInfo.read_store_isActive _ _ _
      · exact array.readSlot_of_ne mem
          (by simp [Codec.encode_length, NodeGlobalInfo.isActiveAt]) hk hki
  | heartbeat i now =>
      rw [runCall, NodeRegistry.updateHeartbeat, array.writeOwnSlot_eq]
      refine ⟨rfl, ?_⟩
      split_ifs with hki
      · rw [readSlot, readSlot, hki]
        exact NodeGlobalInfo.read_store_lastHeartbeat _ _ _
      · exact array.readSlot_of_ne mem
          (by simp [Codec.encode_length, NodeGlobalInfo.lastHeartbeatAt]) hk hki

end Slots

section Queries

variable {array} {mem : Memory} {maxNodes : UInt32}

lemma lt_slotLimit {k : NodeId} : k < slotLimit maxNodes ↔ k < maxNodes ∧ k < maxNodeCount := by
  have hmax : maxNodeCount.toNat = 64 := rfl
  unfold slotLimit
  simp only [gt_iff_lt, UInt32.lt_iff_toNat_lt]
  split_ifs <;> omega

/-- The slots that hold an active record. -/
def activeSlots (array : RegistryArray ι) (mem : Memory) (ids : List NodeId) : List NodeId :=
  ids.filter fun k => (array.readSlot mem k).isActive

lemma activeSlots_cons {k : NodeId} {ids : List NodeId} : array.activeSlots mem (k :: ids) =
    if (array.readSlot mem k).isActive then k :: array.activeSlots mem ids
    else array.activeSlots mem ids :=
  List.filter_cons

/-- The loop of `discover_nodes` collects the active records of the slots it passes. -/
lemma foldl_discoverStep {ids : List NodeId} (hids : ∀ k ∈ ids, k < maxNodeCount)
    (result : List NodeGlobalInfo) :
    ids.foldl (discoverStep array.shm array.registryOffset mem) result =
      result ++ (array.activeSlots mem ids).map (array.readSlot mem) := by
  induction ids generalizing result with
  | nil => simp [activeSlots]
  | cons k ids ih =>
      have hstep : discoverStep array.shm array.registryOffset mem result k =
          if (array.readSlot mem k).isActive then result ++ [array.readSlot mem k]
          else result := by
        rw [discoverStep, array.offsetToPtr_slot (hids k List.mem_cons_self)]
        rfl
      rw [List.foldl_cons, hstep, ih fun j hj => hids j (List.mem_cons_of_mem k hj),
        activeSlots_cons]
      split_ifs <;> simp

/-- The loop of `get_active_node_count` counts the same records. -/
lemma foldl_countStep {ids : List NodeId} (hids : ∀ k ∈ ids, k < maxNodeCount) {count : UInt32}
    (hcount : count.toNat + ids.length < 2 ^ 32) :
    (ids.foldl (countStep array.shm array.registryOffset mem) count).toNat =
      count.toNat + (array.activeSlots mem ids).length := by
  induction ids generalizing count with
  | nil => simp [activeSlots]
  | cons k ids ih =>
      have hstep : countStep array.shm array.registryOffset mem count k =
          if (array.readSlot mem k).isActive then count + 1 else count := by
        rw [countStep, array.offsetToPtr_slot (hids k List.mem_cons_self)]
        rfl
      have hrest : ∀ j ∈ ids, j < maxNodeCount := fun j hj => hids j (List.mem_cons_of_mem k hj)
      rw [List.length_cons] at hcount
      rw [List.foldl_cons, hstep, activeSlots_cons]
      split_ifs
      · have hone : (count + 1).toNat = count.toNat + 1 := by
          simp only [UInt32.toNat_add, UInt32.reduceToNat]
          omega
        rw [ih hrest (by omega), hone, List.length_cons]
        omega
      · exact ih hrest (by omega)

/-- `discover_nodes` returns the records of the active slots below its bound. -/
lemma discoverNodes_eq : discoverNodes array.shm array.registryOffset maxNodes mem =
    (array.activeSlots mem (idsBelow (slotLimit maxNodes))).map (array.readSlot mem) := by
  rw [discoverNodes, if_neg (by simp [array.valid]),
    foldl_discoverStep fun k hk => (lt_slotLimit.1 (mem_idsBelow.1 hk)).2, List.nil_append]

/-- `get_active_node_count` returns their number. -/
lemma getActiveNodeCount_eq :
    (getActiveNodeCount array.shm array.registryOffset maxNodes mem).toNat =
      (discoverNodes array.shm array.registryOffset maxNodes mem).length := by
  have hlength : (idsBelow (slotLimit maxNodes)).length ≤ 64 := by
    have hmax : maxNodeCount.toNat = 64 := rfl
    simp only [idsBelow, List.length_map, List.length_range, slotLimit]
    split_ifs with hlimit
    · rw [hmax]
    · rw [UInt32.not_lt, UInt32.le_iff_toNat_le, hmax] at hlimit
      exact hlimit
  rw [getActiveNodeCount, if_neg (by simp [array.valid]),
    foldl_countStep (fun k hk => (lt_slotLimit.1 (mem_idsBelow.1 hk)).2)
      (by simp only [UInt32.reduceToNat]; omega), discoverNodes_eq, List.length_map]
  simp

/-- The memory of the array is zero. -/
def Zeroed (mem : Memory) : Prop :=
  ∀ a, array.registryOffset.toNat ≤ a →
    a < array.registryOffset.toNat + maxNodeCount.toNat * 160 → mem a = 0

lemma Zeroed.isActive (h : array.Zeroed mem) {k : NodeId} (hk : k < maxNodeCount) :
    (array.readSlot mem k).isActive = false := by
  have hlt := toNat_lt_of_lt_maxNodeCount hk
  have hmax : maxNodeCount.toNat = 64 := rfl
  have hzero : mem ((slotOffset array.registryOffset k).toNat + 136) = 0 := by
    rw [array.slotOffset_toNat hk]
    apply h <;> omega
  simp [readSlot, NodeGlobalInfo.read, NodeGlobalInfo.isActiveAt, Codec.load, flag, load, hzero]

end Queries

end RegistryArray

/-! ## What a sequence of calls says about a node -/

/-- The latest value that `p` gives on a list. -/
def latest {α β : Type} (p : α → Option β) (calls : List α) : Option β := calls.reverse.findSome? p

@[simp] lemma latest_nil {α β : Type} (p : α → Option β) : latest p [] = none := rfl

@[simp] lemma latest_concat {α β : Type} (p : α → Option β) (calls : List α) (call : α) :
    latest p (calls ++ [call]) = (p call).or (latest p calls) := by
  cases h : p call <;> simp [latest, h]

section Spec

variable {ι : Type} {i : ι} {call : RegistryCall ι} {calls : List (RegistryCall ι)}

/-- The latest `register` of `i` comes after its latest `unregister`. -/
def Registered (calls : List (RegistryCall ι)) (i : ι) : Prop :=
  ∃ before now after, calls = before ++ .register i now :: after ∧ .unregister i ∉ after

/-- Being registered, one call later. -/
lemma registered_concat : Registered (calls ++ [call]) i ↔
    (∃ now, call = .register i now) ∨ call ≠ .unregister i ∧ Registered calls i := by
  constructor
  · rintro ⟨before, now, after, heq, hafter⟩
    rcases List.eq_nil_or_concat after with rfl | ⟨rest, last, rfl⟩
    · obtain ⟨-, hlast⟩ := List.append_inj' heq rfl
      exact .inl ⟨now, List.singleton_inj.1 hlast⟩
    · rw [List.concat_eq_append] at heq hafter
      rw [← List.cons_append, ← List.append_assoc] at heq
      obtain ⟨rfl, hlast⟩ := List.append_inj' heq rfl
      obtain rfl := List.singleton_inj.1 hlast
      rw [List.mem_append, not_or] at hafter
      refine .inr ⟨fun hun => hafter.2 (by simp [hun]), before, now, rest, rfl, hafter.1⟩
  · rintro (⟨now, rfl⟩ | ⟨hne, before, now, after, rfl, hafter⟩)
    · exact ⟨calls, now, [], rfl, by simp⟩
    · exact ⟨before, now, after ++ [call], by simp, by simp [hafter, Ne.symm hne]⟩

variable [DecidableEq ι]

/-- The time at which the call registers `i`. -/
@[simp] def RegistryCall.registeredAt (i : ι) : RegistryCall ι → Option UInt64
  | .register j now => if j = i then some now else none
  | .unregister _ | .heartbeat _ _ => none

/-- The time at which the call is a sign of life of `i`. -/
@[simp] def RegistryCall.seenAt (i : ι) : RegistryCall ι → Option UInt64
  | .register j now | .heartbeat j now => if j = i then some now else none
  | .unregister _ => none

/-- The text in an array of characters: up to the first NUL. -/
def text (array : Fin 64 → UInt8) : List UInt8 := cString (List.ofFn array)

/-- The record says of `i` what its configuration and the calls say. -/
structure Describes (config : NodeConfig) (i : ι) (calls : List (RegistryCall ι))
    (info : NodeGlobalInfo) : Prop where
  nodeId : info.nodeId = config.nodeId
  numComputeThreads : info.numComputeThreads = config.numComputeThreads
  nodeName : text info.nodeName = (cString config.nodeName).take 63
  ipAddress : text info.ipAddress = (cString config.ipAddress).take 63
  registrationTime : latest (RegistryCall.registeredAt i) calls = some info.registrationTime
  lastHeartbeat : latest (RegistryCall.seenAt i) calls = some info.lastHeartbeat

/-- A registered node has a time of registration. -/
lemma Registered.latest_ne_none (h : Registered calls i) :
    latest (RegistryCall.registeredAt i) calls ≠ none := by
  obtain ⟨before, now, after, rfl, -⟩ := h
  simp [latest]

end Spec

/-- The bytes of a C string hold no NUL. -/
lemma ne_zero_of_mem_cString {src : List UInt8} {b : UInt8} (h : b ∈ cString src) : b ≠ 0 := by
  simpa using List.mem_takeWhile_imp h

/-- A bounded copy holds the first 63 bytes of the string and is padded with NULs. -/
lemma ofFn_copyString (src : List UInt8) : List.ofFn (copyString src) =
    (cString src).take 63 ++ List.replicate (64 - ((cString src).take 63).length) 0 := by
  have hlen : ((cString src).take 63).length ≤ 63 := List.length_take_le 63 _
  apply List.ext_getElem
  · simp only [List.length_ofFn, List.length_append, List.length_replicate]
    omega
  · intro i hi _
    rw [List.length_ofFn] at hi
    rw [List.getElem_ofFn, List.getElem_append]
    by_cases hlast : i = 63
    · subst hlast
      have hpast : ¬ 63 < ((cString src).take 63).length := by omega
      rw [dif_neg hpast, List.getElem_replicate]
      rfl
    · have hne : (⟨i, hi⟩ : Fin 64) ≠ 63 := fun h => hlast (congrArg Fin.val h)
      have hcopied : i < 63 := by omega
      simp only [copyString, Function.update_of_ne hne, strncpy, hcopied, if_true]
      split_ifs with hin
      · rw [List.getElem_take, List.getD_eq_getElem]
      · rw [List.getElem_replicate, List.getD_eq_default]
        rw [List.length_take] at hin
        omega

/-- The text in a bounded copy. -/
lemma text_copyString (src : List UInt8) : text (copyString src) = (cString src).take 63 := by
  have hcopied : ∀ b ∈ (cString src).take 63, decide (b ≠ 0) = true := fun b hb => by
    simpa using ne_zero_of_mem_cString (List.mem_of_mem_take hb)
  rw [text, ofFn_copyString, cString, List.takeWhile_append_of_pos hcopied]
  simp

/-! ## Whole runs -/

namespace RegistryArray

variable {ι : Type} [DecidableEq ι] (array : RegistryArray ι)

/-- The slots hold what the calls say. -/
structure SlotsKept (calls : List (RegistryCall ι)) (mem : Memory) : Prop where
  active : ∀ i, (array.readSlot mem (array.config i).nodeId).isActive = true ↔
    Registered calls i
  described : ∀ i, latest (RegistryCall.registeredAt i) calls ≠ none →
    Describes (array.config i) i calls (array.readSlot mem (array.config i).nodeId)
  others : ∀ k, k < maxNodeCount → (∀ i, (array.config i).nodeId ≠ k) →
    (array.readSlot mem k).isActive = false

section Kept

variable {array} {calls : List (RegistryCall ι)} {mem : Memory} {call : RegistryCall ι}

lemma SlotsKept.zeroed (h : array.Zeroed mem) : array.SlotsKept [] mem := by
  refine ⟨fun i => ?_, fun i hi => absurd rfl hi, fun k hk _ => h.isActive hk⟩
  rw [h.isActive (array.config_nodeId_lt i)]
  simp [Registered]

/-- The slot of `i` changes only by the calls of `i`. -/
lemma readSlot_own (i : ι) :
    array.readSlot (runCall array.registries array.shm array.registryOffset mem call).2
        (array.config i).nodeId =
      if i = call.caller then
        call.apply (array.config i) (array.readSlot mem (array.config i).nodeId)
      else array.readSlot mem (array.config i).nodeId := by
  rw [(array.readSlot_runCall mem call (array.config_nodeId_lt i)).2]
  by_cases hi : i = call.caller
  · rw [if_pos (by rw [hi]), if_pos hi, hi]
  · rw [if_neg (mt array.config_nodeId_inj.1 hi), if_neg hi]

/-- A call of another registry says nothing about `i`. -/
lemma describes_concat_of_ne {config : NodeConfig} {i : ι} {info : NodeGlobalInfo}
    (hi : i ≠ call.caller) (h : Describes config i calls info) :
    Describes config i (calls ++ [call]) info := by
  have hregistered : call.registeredAt i = none := by
    cases call <;> simp_all [eq_comm]
  have hseen : call.seenAt i = none := by
    cases call <;> simp_all [eq_comm]
  refine ⟨h.nodeId, h.numComputeThreads, h.nodeName, h.ipAddress, ?_, ?_⟩
  · rw [latest_concat, hregistered, Option.none_or, h.registrationTime]
  · rw [latest_concat, hseen, Option.none_or, h.lastHeartbeat]

/-- **The step of the invariant**: one more call. -/
lemma SlotsKept.step (h : array.SlotsKept calls mem) :
    array.SlotsKept (calls ++ [call])
      (runCall array.registries array.shm array.registryOffset mem call).2 := by
  refine ⟨fun i => ?_, fun i hlatest => ?_, fun k hk hne => ?_⟩
  · rw [readSlot_own, registered_concat]
    have hactive := h.active i
    cases call with
    | register j now =>
        by_cases hi : i = j
        · simp [hi, NodeRegistry.newInfo]
        · simp [hi, Ne.symm hi, hactive]
    | unregister j =>
        by_cases hi : i = j
        · simp [hi]
        · simp [hi, Ne.symm hi, hactive]
    | heartbeat j now =>
        by_cases hi : i = j
        · simpa [hi] using hi ▸ hactive
        · simp [hi, hactive]
  · rw [readSlot_own]
    by_cases hi : i = call.caller
    · rw [if_pos hi]
      cases call with
      | register j now =>
          obtain rfl : i = j := hi
          constructor <;> simp [NodeRegistry.newInfo, text_copyString]
      | unregister j =>
          obtain rfl : i = j := hi
          have hbefore := h.described i (by simpa using hlatest)
          exact ⟨hbefore.nodeId, hbefore.numComputeThreads, hbefore.nodeName, hbefore.ipAddress,
            by simpa using hbefore.registrationTime, by simpa using hbefore.lastHeartbeat⟩
      | heartbeat j now =>
          obtain rfl : i = j := hi
          have hbefore := h.described i (by simpa using hlatest)
          exact ⟨hbefore.nodeId, hbefore.numComputeThreads, hbefore.nodeName, hbefore.ipAddress,
            by simpa using hbefore.registrationTime, by simp⟩
    · rw [if_neg hi]
      apply describes_concat_of_ne hi
      apply h.described i
      cases call <;> simp_all [eq_comm]
  · rw [(array.readSlot_runCall mem call hk).2, if_neg (Ne.symm (hne call.caller))]
    exact h.others k hk hne

/-- The invariant holds after every sequence of calls. -/
lemma slotsKept_after (hzero : array.Zeroed mem) (calls : List (RegistryCall ι)) :
    array.SlotsKept calls (array.after mem calls) := by
  induction calls using List.reverseRecOn with
  | nil => exact .zeroed hzero
  | append_singleton calls call ih =>
      rw [after, runCalls, List.foldl_append, List.foldl_cons, List.foldl_nil]
      exact ih.step

end Kept

/-! ## What the queries find -/

section Found

variable {array} {calls : List (RegistryCall ι)} {mem : Memory} {maxNodes : UInt32}
  (h : array.SlotsKept calls mem)
include h

/-- An active slot belongs to a registered node, and the record says its id. -/
lemma SlotsKept.of_active {k : NodeId} (hk : k < maxNodeCount)
    (hactive : (array.readSlot mem k).isActive = true) :
    ∃ i, (array.config i).nodeId = k ∧ Registered calls i ∧
      Describes (array.config i) i calls (array.readSlot mem k) := by
  by_cases howner : ∃ i, (array.config i).nodeId = k
  · obtain ⟨i, rfl⟩ := howner
    have hregistered := (h.active i).1 hactive
    exact ⟨i, rfl, hregistered, h.described i hregistered.latest_ne_none⟩
  · rw [h.others k hk (not_exists.1 howner)] at hactive
    cases hactive

/-- The node ids that are found. -/
lemma SlotsKept.map_nodeId :
    (discoverNodes array.shm array.registryOffset maxNodes mem).map NodeGlobalInfo.nodeId =
      array.activeSlots mem (idsBelow (slotLimit maxNodes)) := by
  rw [discoverNodes_eq, List.map_map]
  apply (List.map_congr_left ?_).trans (List.map_id _)
  intro k hk
  obtain ⟨hmem, hactive⟩ := List.mem_filter.1 hk
  obtain ⟨i, hi, -, hdescribes⟩ := h.of_active (lt_slotLimit.1 (mem_idsBelow.1 hmem)).2 hactive
  exact hdescribes.nodeId.trans hi

lemma SlotsKept.mem_map_nodeId {k : NodeId} :
    k ∈ (discoverNodes array.shm array.registryOffset maxNodes mem).map NodeGlobalInfo.nodeId ↔
      (k < maxNodes ∧ k < maxNodeCount) ∧
        ∃ i, (array.config i).nodeId = k ∧ Registered calls i := by
  rw [h.map_nodeId, activeSlots, List.mem_filter, mem_idsBelow, lt_slotLimit]
  constructor
  · rintro ⟨hk, hactive⟩
    obtain ⟨i, hi, hregistered, -⟩ := h.of_active hk.2 hactive
    exact ⟨hk, i, hi, hregistered⟩
  · rintro ⟨hk, i, rfl, hregistered⟩
    exact ⟨hk, (h.active i).2 hregistered⟩

end Found

/-- What `discover_nodes` and `get_active_node_count` return after a sequence of calls. -/
structure ReportsRegistered (calls : List (RegistryCall ι)) (mem : Memory)
    (maxNodes : UInt32) : Prop where
  /-- Increasing slot order, without duplicates. -/
  ordered : ((discoverNodes array.shm array.registryOffset maxNodes mem).map
    NodeGlobalInfo.nodeId).Pairwise (· < ·)
  /-- A record for exactly the registered nodes below the bound. -/
  exactly : ∀ k,
    k ∈ (discoverNodes array.shm array.registryOffset maxNodes mem).map NodeGlobalInfo.nodeId ↔
      (k < maxNodes ∧ k < maxNodeCount) ∧ ∃ i, (array.config i).nodeId = k ∧ Registered calls i
  /-- Each record carries the values and times of its node. -/
  described : ∀ info ∈ discoverNodes array.shm array.registryOffset maxNodes mem,
    ∃ i, Describes (array.config i) i calls info
  counted : (getActiveNodeCount array.shm array.registryOffset maxNodes mem).toNat =
    (discoverNodes array.shm array.registryOffset maxNodes mem).length
  /-- A heartbeat does not make a node active. -/
  heartbeat : ∀ i now, ¬ Registered calls i → (array.config i).nodeId ∉
    (discoverNodes array.shm array.registryOffset maxNodes (runCall array.registries array.shm
      array.registryOffset mem (.heartbeat i now)).2).map NodeGlobalInfo.nodeId

/-- **The registry reports exactly the registered nodes**, whatever calls have been made and
whatever the clocks have read. -/
theorem registry_reports_registered (mem : Memory) (hzero : array.Zeroed mem)
    (calls : List (RegistryCall ι)) (maxNodes : UInt32) :
    array.ReportsRegistered calls (array.after mem calls) maxNodes := by
  have h := slotsKept_after hzero calls
  refine ⟨?_, fun k => h.mem_map_nodeId, fun info hinfo => ?_, getActiveNodeCount_eq,
    fun i now hnot hfound => ?_⟩
  · rw [h.map_nodeId]
    exact (pairwise_idsBelow _).filter _
  · rw [discoverNodes_eq, List.mem_map] at hinfo
    obtain ⟨k, hk, rfl⟩ := hinfo
    obtain ⟨hmem, hactive⟩ := List.mem_filter.1 hk
    obtain ⟨i, -, -, hdescribes⟩ := h.of_active (lt_slotLimit.1 (mem_idsBelow.1 hmem)).2 hactive
    exact ⟨i, hdescribes⟩
  · obtain ⟨-, j, hj, hregistered⟩ := h.step.mem_map_nodeId.1 hfound
    obtain rfl := array.config_nodeId_inj.1 hj
    rcases registered_concat.1 hregistered with ⟨t, ht⟩ | ⟨-, hbefore⟩
    · cases ht
    · exact hnot hbefore

end RegistryArray

/-- Two registries on an array at the begin of the region. -/
def twoNodeArray : RegistryArray (Fin 2) where
  shm := ⟨true, 10240⟩
  registryOffset := 0
  registries i := ⟨⟨UInt32.ofNat i, [110], [49], 4, false⟩, true⟩
  inside := by decide
  loaded _ := rfl
  inRange := by decide
  distinct := by
    intro i j
    revert i j
    decide

/-- The registry 0 registers and sends a heartbeat, the registry 1 registers and leaves. -/
theorem registry_reports_registered_two :
    twoNodeArray.ReportsRegistered
        [.register 0 5, .register 1 7, .heartbeat 0 9, .unregister 1]
        (twoNodeArray.after (fun _ => 0)
          [.register 0 5, .register 1 7, .heartbeat 0 9, .unregister 1]) 2 ∧
      Registered [.register 0 5, .register 1 7, .heartbeat 0 9, .unregister 1] (0 : Fin 2) :=
  ⟨twoNodeArray.registry_reports_registered (fun _ => 0) (fun _ _ _ => rfl) _ 2,
    [], 5, _, rfl, by decide⟩

end CxlLock
