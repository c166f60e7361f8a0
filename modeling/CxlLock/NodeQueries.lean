import CxlLock.NodeRegistry

/-!
# Accesses to one slot and the liveness check (`node_registry.cpp`)

`register_in_shared_memory`, `unregister`, `update_heartbeat` and `get_node_info` translate the
offset of one slot with `offset_to_ptr`, which looks at its first byte only.  A slot that begins
in the region and ends behind it is accepted, and so is a slot whose 64-bit offset wraps around
to the begin of the region.  `slotAccess_inside_iff` says which accesses that leaves to be good.

`is_node_alive` scales its timeout to nanoseconds in 64 bits.  `isNodeAlive_exact_iff` says that
the check is exact until that product wraps, and beyond that only for nodes that the wrapped
timeout still finds fresh.
-/

namespace CxlLock

open ByteMemory

/-! ## Reading one slot -/

section GetNodeInfo

variable (shm : SharedMemoryRegion) (registryOffset : ShmOffset) (nodeId : NodeId) (mem : Memory)

/-- `NodeRegistry::get_node_info`. -/
def getNodeInfo : Except LockResult NodeGlobalInfo :=
  if shm.valid = false then .error .errorInvalidParam
  else if nodeId ≥ maxNodeCount then .error .errorInvalidParam
  else
    match shm.offsetToPtr (slotOffset registryOffset nodeId) with
    | none => .error .errorShmFailure
    | some nodePtr => .ok (NodeGlobalInfo.read mem nodePtr.toNat)

/-- `NodeRegistry::is_node_alive`, with the reading of the clock. -/
def isNodeAlive (now timeoutMs : UInt64) : Bool :=
  if shm.valid = false then false
  else if nodeId ≥ maxNodeCount then false
  else if timeoutMs = 0 then false
  else
    match getNodeInfo shm registryOffset nodeId mem with
    | .error _ => false
    | .ok info =>
        if info.isActive = false then false
        else if info.lastHeartbeat = 0 then false
        else
          let timeoutNs := timeoutMs * 1000000
          if now < info.lastHeartbeat then true
          else
            let elapsedNs := now - info.lastHeartbeat
            decide (elapsedNs < timeoutNs)

end GetNodeInfo

/-! ## The region is not left -/

/-- A call that accesses one slot, with the reading of the clock. -/
inductive SlotAccess
  | registerInSharedMemory (now : UInt64)
  | unregister
  | updateHeartbeat (now : UInt64)
  | getNodeInfo (nodeId : NodeId)

namespace SlotAccess

variable (registry : NodeRegistry) (shm : SharedMemoryRegion) (registryOffset : ShmOffset)

/-- The result of the call and the memory that it leaves. -/
def run (mem : Memory) : SlotAccess → LockResult × Memory
  | .registerInSharedMemory now => registry.registerInSharedMemory shm registryOffset now mem
  | .unregister => registry.unregister shm registryOffset mem
  | .updateHeartbeat now => registry.updateHeartbeat shm registryOffset now mem
  | .getNodeInfo nodeId =>
      match CxlLock.getNodeInfo shm registryOffset nodeId mem with
      | .ok _ => (.success, mem)
      | .error rc => (rc, mem)

/-- The node whose slot is accessed. -/
def nodeId : SlotAccess → NodeId
  | .registerInSharedMemory _ | .unregister | .updateHeartbeat _ => registry.localConfig.nodeId
  | .getNodeInfo nodeId => nodeId

/-- The configuration that the three calls on the own slot need has not been loaded. -/
def LacksConfig : SlotAccess → Prop
  | .registerInSharedMemory _ | .unregister | .updateHeartbeat _ =>
      registry.hasLocalConfig = false
  | .getNodeInfo _ => False

/-- The checks of the parameters refuse the call. -/
def Refused (access : SlotAccess) : Prop :=
  shm.valid = false ∨ access.LacksConfig registry ∨ access.nodeId registry ≥ maxNodeCount

/-- The end of the slot in unbounded integers. -/
def slotEnd (nodeId : NodeId) : Nat :=
  registryOffset.toNat + nodeId.toNat * NodeGlobalInfo.size.toNat + NodeGlobalInfo.size.toNat

/-- A call that succeeds has its whole record in the region, and a call that fails writes
nothing. -/
structure StaysInside (mem : Memory) (access : SlotAccess) : Prop where
  inside : (access.run registry shm registryOffset mem).1 = .success →
    slotEnd registryOffset (access.nodeId registry) ≤ shm.getSize.toNat
  unchanged : (access.run registry shm registryOffset mem).1 ≠ .success →
    (access.run registry shm registryOffset mem).2 = mem

end SlotAccess

section Inside

variable {registry : NodeRegistry} {shm : SharedMemoryRegion} {registryOffset : ShmOffset}
  {mem : Memory}

lemma SharedMemoryRegion.offsetToPtr_eq (offset : ShmOffset) :
    shm.offsetToPtr offset =
      if offset.toNat < shm.getSize.toNat then some offset else none := by
  unfold offsetToPtr getSize
  cases shm.valid with
  | false => simp
  | true =>
      have hge : offset ≥ shm.size ↔ ¬ offset.toNat < shm.size.toNat := by
        rw [ge_iff_le, UInt64.le_iff_toNat_le, not_lt]
      simp only [hge, Bool.true_eq_false, if_false, if_true, ite_not]

/-- What makes a call on the own slot succeed, and that it writes nothing when it fails. -/
lemma NodeRegistry.writeOwnSlot_cases (write : Nat → Memory → Memory) :
    ((registry.writeOwnSlot shm registryOffset write mem).1 = .success ↔
        ¬ (shm.valid = false ∨ registry.hasLocalConfig = false ∨
            registry.localConfig.nodeId ≥ maxNodeCount) ∧
          (slotOffset registryOffset registry.localConfig.nodeId).toNat < shm.getSize.toNat) ∧
      ((registry.writeOwnSlot shm registryOffset write mem).1 ≠ .success →
        (registry.writeOwnSlot shm registryOffset write mem).2 = mem) := by
  simp only [writeOwnSlot, SharedMemoryRegion.offsetToPtr_eq]
  split_ifs with hvalid hconfig hid hlt
  · simp [hvalid]
  · simp [hconfig]
  · simp [hid]
  · simp [hvalid, hconfig, hid, hlt]
  · simp [hlt]

lemma getNodeInfo_eq (nodeId : NodeId) :
    getNodeInfo shm registryOffset nodeId mem =
      if shm.valid = false ∨ nodeId ≥ maxNodeCount then .error .errorInvalidParam
      else if (slotOffset registryOffset nodeId).toNat < shm.getSize.toNat then
        .ok (NodeGlobalInfo.read mem (slotOffset registryOffset nodeId).toNat)
      else .error .errorShmFailure := by
  simp only [getNodeInfo, SharedMemoryRegion.offsetToPtr_eq, ite_or]
  split_ifs <;> rfl

namespace SlotAccess

lemma run_success_iff (registry : NodeRegistry) (shm : SharedMemoryRegion)
    (registryOffset : ShmOffset) (mem : Memory) (access : SlotAccess) :
    (access.run registry shm registryOffset mem).1 = .success ↔
      ¬ access.Refused registry shm ∧
        (slotOffset registryOffset (access.nodeId registry)).toNat < shm.getSize.toNat := by
  cases access with
  | registerInSharedMemory now => exact (NodeRegistry.writeOwnSlot_cases _).1
  | unregister => exact (NodeRegistry.writeOwnSlot_cases _).1
  | updateHeartbeat now => exact (NodeRegistry.writeOwnSlot_cases _).1
  | getNodeInfo k =>
      simp only [run, getNodeInfo_eq, Refused, LacksConfig, nodeId, false_or]
      split_ifs with hparam hlt
      · simp [hparam]
      · simp [hparam, hlt]
      · simp [hlt]

lemma run_unchanged (access : SlotAccess)
    (h : (access.run registry shm registryOffset mem).1 ≠ .success) :
    (access.run registry shm registryOffset mem).2 = mem := by
  cases access with
  | registerInSharedMemory now => exact (NodeRegistry.writeOwnSlot_cases _).2 h
  | unregister => exact (NodeRegistry.writeOwnSlot_cases _).2 h
  | updateHeartbeat now => exact (NodeRegistry.writeOwnSlot_cases _).2 h
  | getNodeInfo k =>
      simp only [run]
      cases CxlLock.getNodeInfo shm registryOffset k mem with
      | ok info => rfl
      | error rc => rfl

/-- A slot access keeps to the region exactly when its parameters are refused, its 64-bit offset
is not in the region, or the slot ends in the region. -/
theorem slotAccess_inside_iff (registry : NodeRegistry) (shm : SharedMemoryRegion)
    (registryOffset : ShmOffset) (mem : Memory) (access : SlotAccess) :
    access.StaysInside registry shm registryOffset mem ↔
      access.Refused registry shm ∨
        shm.getSize.toNat ≤
          (registryOffset.toNat + (access.nodeId registry).toNat * 160) % 2 ^ 64 ∨
        slotEnd registryOffset (access.nodeId registry) ≤ shm.getSize.toNat := by
  have hstart : (slotOffset registryOffset (access.nodeId registry)).toNat =
      (registryOffset.toNat + (access.nodeId registry).toNat * 160) % 2 ^ 64 := by
    simp [slotOffset, NodeGlobalInfo.size]
  have hsuccess := run_success_iff registry shm registryOffset mem access
  rw [hstart] at hsuccess
  constructor
  · intro h
    by_contra hnot
    simp only [not_or, not_le] at hnot
    obtain ⟨hallowed, hlt, hend⟩ := hnot
    exact absurd (h.inside (hsuccess.2 ⟨hallowed, hlt⟩)) (not_le.2 hend)
  · intro h
    refine ⟨fun hrc => ?_, access.run_unchanged⟩
    obtain ⟨hallowed, hlt⟩ := hsuccess.1 hrc
    rcases h with hrefused | hpast | hend
    · exact absurd hrefused hallowed
    · exact absurd hlt (not_lt.2 hpast)
    · exact hend

end SlotAccess

/-- Registered as node 0 in a region that holds only a part of its record. -/
def shortRegion : SharedMemoryRegion := ⟨true, 100⟩

/-- Node 0 with its configuration. -/
def nodeZero : NodeRegistry := ⟨⟨0, [110], [49], 4, false⟩, true⟩

/-- The record of node 0 goes 60 bytes over the end of the region. -/
theorem record_straddles_region :
    (nodeZero.registerInSharedMemory shortRegion 0 7 (fun _ => 0)).1 = .success ∧
      shortRegion.getSize.toNat < SlotAccess.slotEnd 0 0 ∧
      (nodeZero.registerInSharedMemory shortRegion 0 7 (fun _ => 0)).2 152 = 7 := by
  decide +kernel

end Inside

/-! ## The liveness check -/

section Liveness

variable {shm : SharedMemoryRegion} {registryOffset : ShmOffset} {nodeId : NodeId}
  {mem : Memory} {info : NodeGlobalInfo} {now : UInt64}

/-- The node is alive for the timeout, in unbounded integers. -/
def AliveWithin (info : NodeGlobalInfo) (now timeoutMs : UInt64) : Prop :=
  info.isActive = true ∧ info.lastHeartbeat ≠ 0 ∧ 0 < timeoutMs.toNat ∧
    now.toNat - info.lastHeartbeat.toNat < timeoutMs.toNat * 1000000

/-- The timeout in nanoseconds fits into 64 bits, or what is left of it is long enough, or the
node is not alive whatever the timeout. -/
def TimeoutFits (info : NodeGlobalInfo) (now timeoutMs : UInt64) : Prop :=
  timeoutMs.toNat * 1000000 < 2 ^ 64 ∨
    now.toNat - info.lastHeartbeat.toNat < timeoutMs.toNat * 1000000 % 2 ^ 64 ∨
    info.isActive = false ∨ info.lastHeartbeat = 0

/-- A record that can be read is judged with the wrapped timeout. -/
lemma isNodeAlive_eq_true_iff
    (hread : getNodeInfo shm registryOffset nodeId mem = .ok info)
    (hnow : info.lastHeartbeat ≤ now) (timeoutMs : UInt64) :
    isNodeAlive shm registryOffset nodeId mem now timeoutMs = true ↔
      info.isActive = true ∧ info.lastHeartbeat ≠ 0 ∧ timeoutMs ≠ 0 ∧
        now.toNat - info.lastHeartbeat.toNat < timeoutMs.toNat * 1000000 % 2 ^ 64 := by
  have hallowed : ¬ (shm.valid = false ∨ nodeId ≥ maxNodeCount) := fun hparam => by
    rw [getNodeInfo_eq, if_pos hparam] at hread
    cases hread
  obtain ⟨hvalid, hid⟩ := not_or.1 hallowed
  simp only [isNodeAlive, hread, if_neg hvalid, if_neg hid, if_neg (UInt64.not_lt.2 hnow)]
  split_ifs with htimeout hinactive hheartbeat
  · simp [htimeout]
  · simp [hinactive]
  · simp [hheartbeat]
  · rw [decide_eq_true_iff, UInt64.lt_iff_toNat_lt, UInt64.toNat_sub_of_le _ _ hnow]
    simp [htimeout, hinactive, hheartbeat]

/-- The check is exact, and a longer timeout keeps a node alive, exactly as long as the timeout
does not wrap or the wrapped timeout will do. -/
theorem isNodeAlive_exact_iff (shm : SharedMemoryRegion) (registryOffset : ShmOffset)
    (nodeId : NodeId) (mem : Memory) (info : NodeGlobalInfo) (now : UInt64)
    (hread : getNodeInfo shm registryOffset nodeId mem = .ok info)
    (hnow : info.lastHeartbeat ≤ now) (timeoutMs : UInt64) :
    ((isNodeAlive shm registryOffset nodeId mem now timeoutMs = true ↔
        AliveWithin info now timeoutMs) ↔ TimeoutFits info now timeoutMs) ∧
      ∀ shorter ≤ timeoutMs, isNodeAlive shm registryOffset nodeId mem now shorter = true →
        (isNodeAlive shm registryOffset nodeId mem now timeoutMs = true ↔
          TimeoutFits info now timeoutMs) := by
  have halive := isNodeAlive_eq_true_iff hread hnow
  constructor
  · rw [halive, AliveWithin, TimeoutFits, ← Bool.not_eq_true]
    have hpositive : timeoutMs ≠ 0 ↔ 0 < timeoutMs.toNat := by
      rw [ne_eq, ← UInt64.toNat_inj, UInt64.toNat_zero, Nat.pos_iff_ne_zero]
    have helapsed : now.toNat - info.lastHeartbeat.toNat < 2 ^ 64 :=
      (Nat.sub_le _ _).trans_lt now.toNat_lt
    rw [hpositive]
    by_cases hfits : timeoutMs.toNat * 1000000 < 2 ^ 64
    · simp only [hfits, true_or, Nat.mod_eq_of_lt]
    · have hlong : now.toNat - info.lastHeartbeat.toNat < timeoutMs.toNat * 1000000 :=
        helapsed.trans_le (not_lt.1 hfits)
      have hpos : 0 < timeoutMs.toNat := by omega
      simp only [hlong, hpos, hfits, and_true, true_and, false_or]
      tauto
  · intro shorter hle halready
    obtain ⟨hactive, hheartbeat, hshorter, hfresh⟩ := (halive shorter).1 halready
    have hne : timeoutMs ≠ 0 := by
      rintro rfl
      exact hshorter (UInt64.le_zero_iff.1 hle)
    have hlonger : shorter.toNat * 1000000 % 2 ^ 64 ≤ timeoutMs.toNat * 1000000 :=
      (Nat.mod_le _ _).trans (Nat.mul_le_mul_right _ (UInt64.le_iff_toNat_le.1 hle))
    simp only [halive, TimeoutFits, hactive, hheartbeat, hne, ne_eq, not_false_eq_true, true_and,
      Bool.true_eq_false, or_false]
    refine ⟨.inr, fun hfits => hfits.elim (fun hlt => ?_) id⟩
    rw [Nat.mod_eq_of_lt hlt]
    exact hfresh.trans_le hlonger

/-- A region of ten kilobytes and a memory in which node 0 has registered at time 10^9. -/
def registeredMemory : Memory :=
  (nodeZero.registerInSharedMemory ⟨true, 10240⟩ 0 1000000000 (fun _ => 0)).2

lemma read_registeredMemory : getNodeInfo ⟨true, 10240⟩ 0 0 registeredMemory =
    .ok (NodeRegistry.newInfo nodeZero.localConfig 1000000000) :=
  congrArg Except.ok (NodeGlobalInfo.read_store _ _ _)

theorem isNodeAlive_exact_iff_second :
    ((isNodeAlive ⟨true, 10240⟩ 0 0 registeredMemory 1500000000 1000 = true ↔
        AliveWithin (NodeRegistry.newInfo nodeZero.localConfig 1000000000) 1500000000 1000) ↔
      TimeoutFits (NodeRegistry.newInfo nodeZero.localConfig 1000000000) 1500000000 1000) ∧
      ∀ shorter ≤ 1000,
        isNodeAlive ⟨true, 10240⟩ 0 0 registeredMemory 1500000000 shorter = true →
        (isNodeAlive ⟨true, 10240⟩ 0 0 registeredMemory 1500000000 1000 = true ↔
          TimeoutFits (NodeRegistry.newInfo nodeZero.localConfig 1000000000) 1500000000 1000) :=
  isNodeAlive_exact_iff _ _ _ _ _ _ read_registeredMemory (by decide) 1000

/-- Half a second after its heartbeat the node is alive for one second, and not alive for the
584 years of a timeout whose nanoseconds wrap to 448384. -/
theorem long_timeout_wraps :
    isNodeAlive ⟨true, 10240⟩ 0 0 registeredMemory 1500000000 1000 = true ∧
      isNodeAlive ⟨true, 10240⟩ 0 0 registeredMemory 1500000000 18446744073710 = false ∧
      AliveWithin (NodeRegistry.newInfo nodeZero.localConfig 1000000000) 1500000000
        18446744073710 := by
  have hnow : (NodeRegistry.newInfo nodeZero.localConfig 1000000000).lastHeartbeat ≤
      1500000000 := by
    decide
  have halive := isNodeAlive_eq_true_iff read_registeredMemory hnow
  refine ⟨(halive _).2 (by decide), ?_, by decide, by decide, by decide, by decide⟩
  rw [← Bool.not_eq_true, halive]
  decide

end Liveness

end CxlLock
