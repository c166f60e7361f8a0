import CxlLock.ConfigRoundTrip
import CxlLock.FailureDetector

/-!
# From configuration files to the registry (`node_registry.cpp`)

Each node of a cluster loads its configuration file and registers with it; the other nodes read
its record from shared memory.  `record_matches_file` is about the whole way: what `get_node_info`
returns for a registered node, after any calls of all nodes, is what the file of that node says,
where the record has room for the first 63 bytes of a string, up to its first NUL.

`Cluster` is what this needs of the files: each is in the documented form, and the node ids in
them are different and within the limit.  `Cluster.array` is the array of registries that have
loaded them.
-/

namespace CxlLock.ConfigFile

open ByteMemory NodeRegistry

section Load

variable {registry : NodeRegistry} {files : List UInt8 → Option (List UInt8)}
  {configPath : List UInt8} {config : NodeConfig}

/-- A file in the documented form is accepted, and spells out its configuration. -/
lemma Writable.spelledOut (h : Writable config) (layout : Layout) :
    Accepted (entries (writeConfig layout config)) ∧
      spelledOut (entries (writeConfig layout config)) = config := by
  have hall : ∀ f, f ∈ layout.order := fun f =>
    layout.complete.mem_iff.2 (by cases f <;> decide)
  have hnodup : layout.order.Nodup := layout.complete.nodup_iff.2 (by decide)
  have hconfig : ConfigFile.spelledOut (entriesOf config layout.order) = config :=
    spelledOut_entriesOf hnodup hall
  rw [h.entries_writeConfig]
  refine ⟨⟨forall_readable_iff.2 fun value hvalue => ?_, ?_⟩, hconfig⟩
  · rcases mem_numberTexts.1 hvalue with hid | hthreads
    · exact stoul_ne_none hnodup (f := .nodeId) rfl hid
    · exact stoul_ne_none hnodup (f := .numComputeThreads) rfl hthreads
  · rw [hconfig]
    rintro hinv
    exact absurd (hinv ▸ h.nodeId) (by decide)

/-- After the load the configuration is there to be registered. -/
lemma Writable.load (h : Writable config) {layout : Layout} (hpath : configPath ≠ [])
    (hfile : files configPath = some (writeConfig layout config)) :
    registry.loadLocalConfig files configPath = (.success, ⟨config, true⟩) := by
  obtain ⟨haccepted, hconfig⟩ := h.spelledOut layout
  rw [load_of_opened hpath hfile, if_pos haccepted, hconfig]

end Load

/-! ## A cluster -/

/-- The configuration files of a cluster, and where its registry is. -/
structure Cluster (ι : Type) where
  shm : SharedMemoryRegion
  registryOffset : ShmOffset
  /-- The contents of the files that can be opened. -/
  files : List UInt8 → Option (List UInt8)
  configPath : ι → List UInt8
  config : ι → NodeConfig
  layout : ι → Layout
  inside : registryOffset.toNat + maxNodeCount.toNat * 160 ≤ shm.getSize.toNat
  path_ne : ∀ i, configPath i ≠ []
  written : ∀ i, files (configPath i) = some (writeConfig (layout i) (config i))
  writable : ∀ i, Writable (config i)
  inRange : ∀ i, (config i).nodeId < maxNodeCount
  distinct : Function.Injective fun i => (config i).nodeId

namespace Cluster

variable {ι : Type} (cluster : Cluster ι) (before : ι → NodeRegistry)

/-- What each node does with its file. -/
def load (i : ι) : LockResult × NodeRegistry :=
  (before i).loadLocalConfig cluster.files (cluster.configPath i)

lemma load_eq (i : ι) : cluster.load before i = (.success, ⟨cluster.config i, true⟩) :=
  (cluster.writable i).load (cluster.path_ne i) (cluster.written i)

/-- The registries after they have loaded their files. -/
def array : RegistryArray ι where
  shm := cluster.shm
  registryOffset := cluster.registryOffset
  registries i := (cluster.load before i).2
  inside := cluster.inside
  loaded i := by rw [load_eq]
  inRange i := by
    rw [load_eq]
    exact cluster.inRange i
  distinct i j h := by
    simp only [load_eq] at h
    exact cluster.distinct h

lemma array_config (i : ι) : (cluster.array before).config i = cluster.config i := by
  show (cluster.load before i).2.localConfig = _
  rw [load_eq]

variable [DecidableEq ι]

/-- **What the others read about a node is what its file says.**  Whatever the registries have
stored before: every node loads its file, and after any calls of all nodes the record of a
registered node is active and has the id, the number of threads, and the first 63 bytes of each
string of its file. -/
theorem record_matches_file (mem : Memory) (hzero : (cluster.array before).Zeroed mem)
    (calls : List (RegistryCall ι)) (i : ι) (hi : Registered calls i) :
    (∀ j, (cluster.load before j).1 = .success) ∧
      ∃ info, getNodeInfo cluster.shm cluster.registryOffset (cluster.config i).nodeId
          ((cluster.array before).after mem calls) = .ok info ∧
        info.isActive = true ∧ info.nodeId = (cluster.config i).nodeId ∧
        info.numComputeThreads = (cluster.config i).numComputeThreads ∧
        text info.nodeName = (cString (cluster.config i).nodeName).take 63 ∧
        text info.ipAddress = (cString (cluster.config i).ipAddress).take 63 := by
  refine ⟨fun j => by rw [load_eq], ?_⟩
  have hkept := RegistryArray.slotsKept_after hzero calls
  have hread := (cluster.array before).getNodeInfo_config ((cluster.array before).after mem calls) i
  have hactive := (hkept.active i).2 hi
  have hinfo := hkept.described i hi.latest_ne_none
  rw [array_config] at hread hactive hinfo
  exact ⟨_, hread, hactive, hinfo.nodeId, hinfo.numComputeThreads, hinfo.nodeName,
    hinfo.ipAddress⟩

end Cluster

/-- The configuration of one of two nodes, with a colon, a comma and braces in its name. -/
def twoConfigs (i : Bool) : NodeConfig := { oddConfig with nodeId := if i then 1 else 0 }

/-- The two nodes and their files. -/
def twoNodeCluster : Cluster Bool where
  shm := ⟨true, 10240⟩
  registryOffset := 0
  files path := some (writeConfig reversedLayout (twoConfigs (path == [98])))
  configPath i := if i then [98] else [97]
  config := twoConfigs
  layout _ := reversedLayout
  inside := twoNodeArray.inside
  path_ne i := by cases i <;> decide
  written i := by cases i <;> rfl
  writable i :=
    ⟨by cases i <;> decide, oddConfig_writable.nodeName, oddConfig_writable.ipAddress⟩
  inRange i := by cases i <;> decide
  distinct := by
    intro i j
    cases i <;> cases j <;> decide

/-- Node 0 loads its file and registers, and node 1 reads its 64 threads. -/
theorem record_matches_file_two : ∃ info,
    getNodeInfo twoNodeCluster.shm twoNodeCluster.registryOffset
        (twoNodeCluster.config false).nodeId
        ((twoNodeCluster.array fun _ => nodeZero).after (fun _ => 0)
          [.register false 5, .register true 7]) = .ok info ∧
      info.numComputeThreads = 64 := by
  obtain ⟨-, info, hread, -, -, hthreads, -⟩ := twoNodeCluster.record_matches_file
    (fun _ => nodeZero) (fun _ => 0) (fun _ _ _ => rfl) [.register false 5, .register true 7] false
    ⟨[], 5, _, rfl, by decide⟩
  exact ⟨info, hread, hthreads⟩

end CxlLock.ConfigFile
