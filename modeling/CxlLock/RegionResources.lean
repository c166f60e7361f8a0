import CxlLock.CacheFlush
import CxlLock.SharedMemory
import CxlLock.Lib.Ownership
import CxlLock.Lib.StandardText
import CxlLock.Lib.Transition

/-!
# What a shared memory region owns (`shared_memory.cpp`)

A `SharedMemoryRegion` owns a file descriptor and a mapping.  `init` opens and maps, and gives
everything back when a step of it fails; `cleanup`, the destructor and the assignment of another
region give back what there is; a move hands it over.

A run is any sequence of such calls on any number of regions.  What the kernel answers comes with
the call (`Answers`): whether a path is a directory, whether it can be opened, and where a mapping
is placed.  `regions_sound` says that nothing leaks, nothing is given back twice, and that the
pointers of `offset_to_ptr` lie in the region's own mapping.
-/

namespace CxlLock.Region

open Transition Ownership StandardText

/-- `INVALID_OFFSET`. -/
def invalidOffset : ShmOffset := 0xFFFFFFFFFFFFFFFF

/-- A file descriptor other than `-1`. -/
abbrev Fd := ℕ

/-- A mapping into the address space. -/
structure Mapping where
  base : UInt64
  size : UInt64
  deriving DecidableEq

/-- The mappings have no byte in common. -/
def Mapping.Apart (m n : Mapping) : Prop :=
  m.base.toNat + m.size.toNat ≤ n.base.toNat ∨ n.base.toNat + n.size.toNat ≤ m.base.toNat

instance (m n : Mapping) : Decidable (m.Apart n) := inferInstanceAs (Decidable (_ ∨ _))

/-- What the regions of the process have open and mapped. -/
structure Os where
  files : Finset Fd
  mappings : Finset Mapping
  /-- A descriptor has been closed, or a mapping removed, that is not there. -/
  misused : Bool

namespace Os

/-- `close`. -/
def close (os : Os) (fd : Fd) : Os :=
  if fd ∈ os.files then { os with files := os.files.erase fd } else { os with misused := true }

/-- `munmap`. -/
def munmap (os : Os) (m : Mapping) : Os :=
  if m ∈ os.mappings then { os with mappings := os.mappings.erase m }
  else { os with misused := true }

end Os

/-- `SharedMemoryRegion::Config`, without the flag `create`, which nothing reads. -/
structure Config where
  devicePath : List UInt8
  size : UInt64
  consistency : ConsistencyMode

/-- `SharedMemoryRegion::Impl`; `-1` and `MAP_FAILED` are `none`. -/
structure Impl where
  fd : Option Fd := none
  base : Option UInt64 := none
  size : UInt64 := 0
  consistency : ConsistencyMode := .softwareConsistency
  valid : Bool := false
  path : List UInt8 := []

/-- What the kernel answers to the calls of `init`. -/
structure Answers where
  /-- `stat` says that the device path is a directory. -/
  isDirectory : Bool
  opened : Option Fd
  /-- `ftruncate` succeeds. -/
  truncated : Bool
  /-- `mmap` with `MAP_SYNC`. -/
  mappedSync : Option UInt64
  mapped : Option UInt64

namespace Impl

/-- `Impl::is_dax_device`. -/
def isDaxDevice (path : List UInt8) : Bool := decide (ascii "/dev/dax" <:+: path)

/-- `SharedMemoryRegion::cleanup`. -/
def cleanup (os : Os) (impl : Impl) : Os × Impl :=
  let unmapped := match impl.base with
    | some base =>
        if base ≠ 0 then (os.munmap ⟨base, impl.size⟩, { impl with base := none }) else (os, impl)
    | none => (os, impl)
  let closed := match unmapped.2.fd with
    | some fd => (unmapped.1.close fd, { unmapped.2 with fd := none })
    | none => unmapped
  (closed.1, { closed.2 with
    size := 0, valid := false, path := [], consistency := .softwareConsistency })

/-- A step of `init` has failed. -/
def fail (os : Os) (impl : Impl) : LockResult × Os × Impl :=
  (.errorShmFailure, impl.cleanup os)

/-- What `init` finds after it has given up an earlier mapping. -/
def startOver (os : Os) (impl : Impl) : Os × Impl :=
  if impl.valid then impl.cleanup os else (os, impl)

/-- `SharedMemoryRegion::init`. -/
def init (config : Config) (env : Answers) (os : Os) (impl : Impl) : LockResult × Os × Impl :=
  if config.size = 0 then (.errorInvalidParam, os, impl)
  else
    let (os, impl) := impl.startOver os
    let usingDirSimulation := isDaxDevice config.devicePath && env.isDirectory
    let isDax := isDaxDevice config.devicePath && !usingDirSimulation
    let impl := { impl with
      path := if usingDirSimulation then config.devicePath ++ ascii "/shm.bin"
        else config.devicePath
      size := config.size
      consistency := config.consistency
      fd := env.opened }
    match env.opened with
    | none => impl.fail os
    | some fd =>
        let os := { os with files := insert fd os.files }
        -- a device keeps its size
        if !isDax && !env.truncated then impl.fail os
        else
          let base := if isDax then env.mappedSync.or env.mapped else env.mapped
          let impl := { impl with base := base }
          match base with
          | none => impl.fail os
          | some base =>
              (.success, { os with mappings := insert ⟨base, config.size⟩ os.mappings },
                { impl with valid := true })

/-- The members that addressing depends on. -/
def region (impl : Impl) : SharedMemoryRegion := ⟨impl.valid, impl.size⟩

/-- `SharedMemoryRegion::offset_to_ptr`, as an address. -/
def offsetToPtr (impl : Impl) (offset : ShmOffset) : Option UInt64 :=
  match impl.base with
  | none => none
  | some base =>
      if impl.valid = false ∨ base = 0 then none
      else if offset ≥ impl.size then none
      else some (base + offset)

/-- `SharedMemoryRegion::ptr_to_offset`; the null pointer is the address 0. -/
def ptrToOffset (impl : Impl) (ptr : UInt64) : ShmOffset :=
  match impl.base with
  | none => invalidOffset
  | some base =>
      if impl.valid = false ∨ ptr = 0 then invalidOffset
      else if ptr < base ∨ ptr ≥ base + impl.size then invalidOffset
      else ptr - base

end Impl

/-! ## Calls on any number of regions -/

/-- The regions of a process, as far as they are constructed. -/
structure State (T : Type) where
  os : Os
  region : T → Option Impl

/-- A call on a region. -/
inductive Call (T : Type)
  | construct (i : T)
  | init (i : T) (config : Config) (env : Answers)
  | cleanup (i : T)
  | moveConstruct (i source : T)
  | moveAssign (i source : T)
  | destroy (i : T)

/-- An address at which the kernel can place a mapping: the range is free and ends before the end
of the address space. -/
def Placed (os : Os) (size base : UInt64) : Prop :=
  base ≠ 0 ∧ base.toNat + size.toNat < 2 ^ 64 ∧ ∀ m ∈ os.mappings, Mapping.Apart ⟨base, size⟩ m

instance (os : Os) (size base : UInt64) : Decidable (Placed os size base) :=
  inferInstanceAs (Decidable (_ ∧ _ ∧ _))

/-- What the kernel can answer: a new descriptor, and addresses of free ranges. -/
def Answers.Possible (env : Answers) (os : Os) (config : Config) : Prop :=
  (∀ fd ∈ env.opened, fd ∉ os.files) ∧ (∀ base ∈ env.mappedSync, Placed os config.size base) ∧
    ∀ base ∈ env.mapped, Placed os config.size base

-- the addresses are checked one by one, never by going through all of `UInt64`
instance (env : Answers) (os : Os) (config : Config) : Decidable (env.Possible os config) :=
  have := Option.decidableForallMem (p := fun base => Placed os config.size base)
  @instDecidableAnd _ _ _ (@instDecidableAnd _ _ (this env.mappedSync) (this env.mapped))

section Machine

variable {T : Type} [DecidableEq T]

/-- A region after a call, with what the call has done to the files and mappings. -/
def State.set (s : State T) (i : T) (r : Os × Impl) : State T where
  os := r.1
  region := Function.update s.region i (some r.2)

/-- The calls, one at a time; a region that is not constructed, or is constructed already, is not
used. -/
def regions (T : Type) [DecidableEq T] : LabelledSystem (State T) (Call T) where
  init s := s.os = ⟨∅, ∅, false⟩ ∧ ∀ i, s.region i = none
  next s
    | .construct i => if s.region i = none then some (s.set i (s.os, {})) else none
    | .init i config env => (s.region i).bind fun impl =>
        if env.Possible (impl.startOver s.os).1 config then
          some (s.set i (impl.init config env s.os).2)
        else none
    | .cleanup i => (s.region i).map fun impl => s.set i (impl.cleanup s.os)
    | .moveConstruct i source =>
        if s.region i = none then
          (s.region source).map fun other => (s.set source (s.os, {})).set i (s.os, other)
        else none
    | .moveAssign i source =>
        (s.region i).bind fun impl => (s.region source).map fun other =>
          if i = source then s
          else
            let os := (impl.cleanup s.os).1
            (s.set source (os, {})).set i (os, other)
    | .destroy i => (s.region i).map fun impl =>
        ⟨(impl.cleanup s.os).1, Function.update s.region i none⟩

end Machine

/-! ## Who owns what -/

namespace Impl

/-- The mapping of a region. -/
def mapping (impl : Impl) : Option Mapping := impl.base.map fun base => ⟨base, impl.size⟩

/-- A region that has a file open and mapped. -/
structure Open (impl : Impl) : Prop where
  valid : impl.valid = true
  fd : ∃ fd, impl.fd = some fd
  base : ∃ base, impl.base = some base

/-- A region is open, or as it was constructed. -/
def WellFormed (impl : Impl) : Prop := impl.Open ∨ impl = {}

end Impl

section Owners

variable {T : Type}

/-- The files of the regions. -/
def heldFile (region : T → Option Impl) (i : T) : Option Fd := (region i).bind Impl.fd

/-- The mappings of the regions. -/
def heldMapping (region : T → Option Impl) (i : T) : Option Mapping := (region i).bind Impl.mapping

/-- What is open and mapped is what the regions own. -/
structure Kept (os : Os) (region : T → Option Impl) : Prop where
  files : Owned (heldFile region) os.files
  mappings : Owned (heldMapping region) os.mappings
  sound : os.misused = false
  placed : ∀ m ∈ os.mappings, m.base ≠ 0 ∧ m.base.toNat + m.size.toNat < 2 ^ 64
  apart : ∀ m ∈ os.mappings, ∀ n ∈ os.mappings, m ≠ n → m.Apart n

variable [DecidableEq T] {os os' : Os} {region : T → Option Impl} {i : T} {impl : Impl}
  {v : Option Impl}

lemma heldFile_update : heldFile (Function.update region i v) =
    Function.update (heldFile region) i (v.bind Impl.fd) := by
  funext k
  by_cases hki : k = i
  · simp [heldFile, hki]
  · simp [heldFile, Function.update_of_ne hki]

lemma heldMapping_update : heldMapping (Function.update region i v) =
    Function.update (heldMapping region) i (v.bind Impl.mapping) := by
  funext k
  by_cases hki : k = i
  · simp [heldMapping, hki]
  · simp [heldMapping, Function.update_of_ne hki]

/-- `cleanup` gives back what the region has and leaves it as it was constructed. -/
lemma Impl.cleanup_eq (hfd : ∀ fd, impl.fd = some fd → fd ∈ os.files)
    (hmapping : ∀ m, impl.mapping = some m → m ∈ os.mappings ∧ m.base ≠ 0) :
    impl.cleanup os =
      ({ files := impl.fd.elim os.files os.files.erase
         mappings := impl.mapping.elim os.mappings os.mappings.erase
         misused := os.misused }, {}) := by
  obtain ⟨fd, base, size, consistency, valid, path⟩ := impl
  cases base with
  | none =>
      cases fd with
      | none => rfl
      | some fd => simp [cleanup, Os.close, hfd fd rfl, Impl.mapping]
  | some base =>
      obtain ⟨hmem, hbase⟩ := hmapping ⟨base, size⟩ rfl
      cases fd with
      | none => simp [cleanup, Os.munmap, hmem, hbase, Impl.mapping]
      | some fd => simp [cleanup, Os.munmap, Os.close, hmem, hbase, hfd fd rfl, Impl.mapping]

/-- A region gives back what it has. -/
lemma Kept.cleanup (h : Kept os region) (hi : region i = some impl) (v : Option Impl)
    (hv : v = some {} ∨ v = none) :
    (impl.cleanup os).2 = {} ∧
      Kept (impl.cleanup os).1 (Function.update region i v) := by
  have hfile : heldFile region i = impl.fd := by simp [heldFile, hi]
  have hmap : heldMapping region i = impl.mapping := by simp [heldMapping, hi]
  have hvfd : v.bind Impl.fd = none := by rcases hv with rfl | rfl <;> rfl
  have hvmap : v.bind Impl.mapping = none := by rcases hv with rfl | rfl <;> rfl
  have hsub : ∀ m, m ∈ impl.mapping.elim os.mappings os.mappings.erase → m ∈ os.mappings := by
    intro m hm
    cases hmapping : impl.mapping with
    | none => rwa [hmapping] at hm
    | some n =>
        rw [hmapping] at hm
        exact Finset.mem_of_mem_erase hm
  rw [Impl.cleanup_eq (fun fd hfd => h.files.exist i fd (hfile.trans hfd)) fun m hm =>
    ⟨h.mappings.exist i m (hmap.trans hm), (h.placed m (h.mappings.exist i m (hmap.trans hm))).1⟩]
  refine ⟨rfl, ?_, ?_, h.sound, fun m hm => h.placed m (hsub m hm),
    fun m hm n hn => h.apart m (hsub m hm) n (hsub n hn)⟩
  · rw [heldFile_update, hvfd, ← hfile]
    exact h.files.drop i
  · rw [heldMapping_update, hvmap, ← hmap]
    exact h.mappings.drop i

/-- A region opens a file. -/
lemma Kept.open (h : Kept os region) (hi : region i = some {}) {fd : Fd} (hfd : fd ∉ os.files)
    (hopened : impl.fd = some fd) (hbase : impl.base = none) :
    Kept { os with files := insert fd os.files } (Function.update region i (some impl)) := by
  have hfile : heldFile region i = none := by simp [heldFile, hi]
  have hmap : heldMapping region i = none := by simp [heldMapping, hi, Impl.mapping]
  refine ⟨?_, ?_, h.sound, h.placed, h.apart⟩
  · rw [heldFile_update, Option.bind_some, hopened]
    exact h.files.acquire hfile hfd
  · have hnone : (some impl).bind Impl.mapping = none := by simp [Impl.mapping, hbase]
    rw [heldMapping_update, hnone, Function.update_eq_self_iff.2 hmap.symm]
    exact h.mappings

/-- A region maps its file. -/
lemma Kept.map (h : Kept os region) (hi : region i = some impl) (hbase : impl.base = none)
    {base : UInt64} (hsize : impl.size ≠ 0) (hplaced : Placed os impl.size base) :
    Kept { os with mappings := insert ⟨base, impl.size⟩ os.mappings }
      (Function.update region i (some { impl with base := some base, valid := true })) := by
  have hmap : heldMapping region i = none := by simp [heldMapping, hi, Impl.mapping, hbase]
  have hpos : 0 < impl.size.toNat := Nat.pos_of_ne_zero fun hzero =>
    hsize (UInt64.toNat_inj.1 hzero)
  have hnew : (⟨base, impl.size⟩ : Mapping) ∉ os.mappings := fun hmem => by
    have hapart := hplaced.2.2 _ hmem
    simp only [Mapping.Apart] at hapart
    omega
  refine ⟨?_, ?_, h.sound, fun m hm => ?_, fun m hm n hn hne => ?_⟩
  · have hsame : (some { impl with base := some base, valid := true }).bind Impl.fd =
        heldFile region i := by simp [heldFile, hi]
    rw [heldFile_update, hsame, Function.update_eq_self]
    exact h.files
  · rw [heldMapping_update]
    exact h.mappings.acquire hmap hnew
  · rcases Finset.mem_insert.1 hm with rfl | hm
    · exact ⟨hplaced.1, hplaced.2.1⟩
    · exact h.placed m hm
  · rcases Finset.mem_insert.1 hm with rfl | hm <;> rcases Finset.mem_insert.1 hn with rfl | hn
    · exact absurd rfl hne
    · exact hplaced.2.2 n hn
    · exact (hplaced.2.2 m hm).symm
    · exact h.apart m hm n hn hne

/-- What a call of `init` leaves. -/
structure InitSpec (config : Config) (region : T → Option Impl) (i : T) (impl : Impl)
    (r : LockResult × Os × Impl) : Prop where
  kept : Kept r.2.1 (Function.update region i (some r.2.2))
  /-- Success: the region is open, with the size and consistency mode that were asked for. -/
  opened : r.1 = .success →
    r.2.2.Open ∧ r.2.2.size = config.size ∧ r.2.2.consistency = config.consistency
  /-- Failure: the region is as it was constructed, or as before if the size was 0. -/
  failed : r.1 ≠ .success → r.2.2 = {} ∨ config.size = 0 ∧ r.2.2 = impl

lemma Impl.startOver_eq (h : Kept os region) (hi : region i = some impl) (hwf : impl.WellFormed) :
    (impl.startOver os).2 = {} ∧
      Kept (impl.startOver os).1 (Function.update region i (some {})) := by
  unfold startOver
  split_ifs with hvalid
  · exact h.cleanup hi (some {}) (.inl rfl)
  · have hfresh : impl = {} := hwf.resolve_left fun hopen => hvalid hopen.valid
    subst hfresh
    refine ⟨rfl, ?_⟩
    rw [Function.update_eq_self_iff.2 hi.symm]
    exact h

omit [DecidableEq T] in
/-- The files and mappings are determined by the regions. -/
lemma Kept.os_eq (h : Kept os region) (h' : Kept os' region) : os = os' := by
  obtain ⟨files, mappings, misused⟩ := os
  obtain ⟨files', mappings', misused'⟩ := os'
  obtain rfl : files = files' := h.files.live_eq h'.files
  obtain rfl : mappings = mappings' := h.mappings.live_eq h'.mappings
  obtain rfl : misused = misused' := h.sound.trans h'.sound.symm
  rfl

omit [DecidableEq T] in
/-- Only what the regions hold matters. -/
lemma Kept.congr {region' : T → Option Impl} (h : Kept os region)
    (hfiles : heldFile region' = heldFile region)
    (hmappings : heldMapping region' = heldMapping region) : Kept os region' :=
  ⟨hfiles ▸ h.files, hmappings ▸ h.mappings, h.sound, h.placed, h.apart⟩

/-- A step of `init` that fails gives back what `init` has got so far. -/
lemma Kept.fail {config : Config} {before : Impl}
    (h : Kept os (Function.update region i (some impl))) :
    InitSpec config region i before (impl.fail os) := by
  obtain ⟨hfresh, hkept⟩ := h.cleanup (Function.update_self ..) (some {}) (.inl rfl)
  rw [Function.update_idem] at hkept
  refine ⟨?_, fun hrc => LockResult.noConfusion hrc, fun _ => .inl hfresh⟩
  show Kept (impl.cleanup os).1 (Function.update region i (some (impl.cleanup os).2))
  rw [hfresh]
  exact hkept

/-- **What `init` does**, whatever the kernel answers. -/
lemma Kept.init (h : Kept os region) (hi : region i = some impl) (hwf : impl.WellFormed)
    {config : Config} {env : Answers} (henv : env.Possible (impl.startOver os).1 config) :
    InitSpec config region i impl (impl.init config env os) := by
  unfold Impl.init
  split_ifs with hsize
  · refine ⟨?_, fun hrc => LockResult.noConfusion hrc, fun _ => .inr ⟨hsize, rfl⟩⟩
    rw [Function.update_eq_self_iff.2 hi.symm]
    exact h
  obtain ⟨hfresh, hkept⟩ := Impl.startOver_eq h hi hwf
  obtain ⟨⟨os₁, impl₁⟩, hstart⟩ : ∃ r, impl.startOver os = r := ⟨_, rfl⟩
  rw [hstart] at hfresh hkept henv ⊢
  dsimp only at hfresh hkept henv ⊢
  subst hfresh
  -- the path that is opened does not matter
  generalize (Impl.isDaxDevice config.devicePath && env.isDirectory) = usingDirSimulation
  generalize (Impl.isDaxDevice config.devicePath && !usingDirSimulation) = isDax
  generalize (if usingDirSimulation = true then config.devicePath ++ ascii "/shm.bin"
    else config.devicePath) = path
  obtain ⟨hnewFile, hsync, hplain⟩ := henv
  have hbase : ∀ base ∈ (if isDax = true then env.mappedSync.or env.mapped else env.mapped),
      Placed os₁ config.size base := by
    intro base hbase
    split at hbase
    · rcases Option.or_eq_some_iff.1 hbase with hbase | ⟨-, hbase⟩
      · exact hsync base hbase
      · exact hplain base hbase
    · exact hplain base hbase
  generalize (if isDax = true then env.mappedSync.or env.mapped else env.mapped) = mapped at hbase ⊢
  cases hopened : env.opened with
  | none =>
      -- nothing has been opened yet
      apply Kept.fail
      apply hkept.congr
      · rw [heldFile_update, heldFile_update]
        rfl
      · rw [heldMapping_update, heldMapping_update]
        rfl
  | some fd =>
      have hopen : ∀ impl₁ : Impl, impl₁.fd = some fd → impl₁.base = none →
          Kept { os₁ with files := insert fd os₁.files }
            (Function.update region i (some impl₁)) := by
        intro impl₁ hfd hunmapped
        have hkept := hkept.open (Function.update_self ..) (hnewFile fd hopened) hfd hunmapped
        rwa [Function.update_idem] at hkept
      show InitSpec config region i impl (ite _ _ _)
      split_ifs with htruncated
      · exact Kept.fail (hopen _ rfl rfl)
      · cases mapped with
        | none => exact Kept.fail (hopen _ rfl rfl)
        | some base =>
            have hkept := (hopen ⟨some fd, none, config.size, config.consistency, false, path⟩
              rfl rfl).map (Function.update_self ..) rfl hsize (hbase base rfl)
            rw [Function.update_idem] at hkept
            exact ⟨hkept, fun _ => ⟨⟨rfl, ⟨fd, rfl⟩, base, rfl⟩, rfl, rfl⟩,
              fun hrc => absurd rfl hrc⟩

omit [DecidableEq T] in
/-- A region that is not constructed, or has not been opened, has nothing. -/
lemma held_eq_none (hnone : ∀ impl, region i = some impl → impl = {}) :
    heldFile region i = none ∧ heldMapping region i = none := by
  cases hi : region i with
  | none => simp [heldFile, heldMapping, hi]
  | some impl =>
      obtain rfl := hnone impl hi
      simp [heldFile, heldMapping, hi, Impl.mapping]

/-- A region that has nothing takes over what `source` has. -/
lemma Kept.move (h : Kept os region) (source : T)
    (hnone : ∀ impl, region i = some impl → impl = {}) (hv : v = some {} ∨ v = none) :
    Kept os (Function.update (Function.update region source v) i (region source)) := by
  obtain ⟨hfile, hmapping⟩ := held_eq_none hnone
  have hvfd : v.bind Impl.fd = none := by rcases hv with rfl | rfl <;> rfl
  have hvmap : v.bind Impl.mapping = none := by rcases hv with rfl | rfl <;> rfl
  refine ⟨?_, ?_, h.sound, h.placed, h.apart⟩
  · rw [heldFile_update, heldFile_update, hvfd]
    exact h.files.transfer hfile
  · rw [heldMapping_update, heldMapping_update, hvmap]
    exact h.mappings.transfer hmapping

/-- A region that has nothing is put in place of another that has nothing. -/
lemma Kept.replace (h : Kept os region) (hnone : ∀ impl, region i = some impl → impl = {})
    (hv : v = some {} ∨ v = none) : Kept os (Function.update region i v) := by
  obtain ⟨hfile, hmapping⟩ := held_eq_none hnone
  apply h.congr
  · rw [heldFile_update, Function.update_eq_self_iff, hfile]
    rcases hv with rfl | rfl <;> rfl
  · rw [heldMapping_update, Function.update_eq_self_iff, hmapping]
    rcases hv with rfl | rfl <;> rfl

end Owners

section Runs

variable {T : Type} [DecidableEq T] {s s' : State T} {c : Call T}

/-- The invariant of the runs. -/
structure Inv (s : State T) : Prop where
  kept : Kept s.os s.region
  wellFormed : ∀ i impl, s.region i = some impl → impl.WellFormed

lemma wellFormed_update {region : T → Option Impl} {i : T} {v : Option Impl}
    (h : ∀ i impl, region i = some impl → impl.WellFormed) (hv : ∀ impl ∈ v, impl.WellFormed) :
    ∀ k impl, Function.update region i v k = some impl → impl.WellFormed := by
  intro k impl hk
  by_cases hki : k = i
  · rw [hki, Function.update_self] at hk
    exact hv impl hk
  · rw [Function.update_of_ne hki] at hk
    exact h k impl hk

lemma wellFormed_fresh : ∀ impl ∈ some ({} : Impl), impl.WellFormed := by
  rintro impl ⟨⟩
  exact .inr rfl

lemma Inv.next (h : Inv s) (hnext : (regions T).next s c = some s') : Inv s' := by
  cases c with
  | construct i =>
      simp only [regions, Option.ite_none_right_eq_some, Option.some.injEq] at hnext
      obtain ⟨hi, rfl⟩ := hnext
      refine ⟨h.kept.replace ?_ (.inl rfl), wellFormed_update h.wellFormed wellFormed_fresh⟩
      simp [hi]
  | init i config env =>
      simp only [regions, Option.bind_eq_some_iff, Option.ite_none_right_eq_some,
        Option.some.injEq] at hnext
      obtain ⟨impl, hi, henv, rfl⟩ := hnext
      have hinit := h.kept.init hi (h.wellFormed i impl hi) henv
      refine ⟨hinit.kept, wellFormed_update h.wellFormed ?_⟩
      rintro _ ⟨⟩
      by_cases hrc : (impl.init config env s.os).1 = .success
      · exact .inl (hinit.opened hrc).1
      · rcases hinit.failed hrc with hfresh | ⟨-, hsame⟩
        · exact .inr hfresh
        · rw [hsame]
          exact h.wellFormed i impl hi
  | cleanup i =>
      simp only [regions, Option.map_eq_some_iff] at hnext
      obtain ⟨impl, hi, rfl⟩ := hnext
      obtain ⟨hfresh, hkept⟩ := h.kept.cleanup hi (some {}) (.inl rfl)
      refine ⟨?_, ?_⟩
      · show Kept (impl.cleanup s.os).1 (Function.update s.region i (some (impl.cleanup s.os).2))
        rwa [hfresh]
      · apply wellFormed_update h.wellFormed
        rw [hfresh]
        exact wellFormed_fresh
  | moveConstruct i source =>
      simp only [regions, Option.ite_none_right_eq_some, Option.map_eq_some_iff] at hnext
      obtain ⟨hi, other, hsource, rfl⟩ := hnext
      refine ⟨?_, ?_⟩
      · show Kept s.os (Function.update (Function.update s.region source (some {})) i (some other))
        rw [← hsource]
        exact h.kept.move source (by simp [hi]) (.inl rfl)
      · apply wellFormed_update (wellFormed_update h.wellFormed wellFormed_fresh)
        rintro _ ⟨⟩
        exact h.wellFormed source other hsource
  | moveAssign i source =>
      simp only [regions, Option.bind_eq_some_iff, Option.map_eq_some_iff] at hnext
      obtain ⟨impl, hi, other, hsource, hs'⟩ := hnext
      split_ifs at hs' with hsame
      · exact hs' ▸ h
      subst hs'
      obtain ⟨-, hkept⟩ := h.kept.cleanup hi (some {}) (.inl rfl)
      have hmove := hkept.move (i := i) source (by simp) (.inl rfl)
      rw [Function.update_of_ne (Ne.symm hsame), hsource, Function.update_comm hsame,
        Function.update_idem] at hmove
      refine ⟨hmove, ?_⟩
      apply wellFormed_update (wellFormed_update h.wellFormed wellFormed_fresh)
      rintro _ ⟨⟩
      exact h.wellFormed source other hsource
  | destroy i =>
      simp only [regions, Option.map_eq_some_iff] at hnext
      obtain ⟨impl, hi, rfl⟩ := hnext
      obtain ⟨-, hkept⟩ := h.kept.cleanup hi none (.inr rfl)
      refine ⟨hkept, wellFormed_update h.wellFormed ?_⟩
      rintro _ ⟨⟩

lemma reachable_inv (hs : (regions T).Reachable s) : Inv s := by
  refine LabelledSystem.Reachable.invariant (fun s hs => ?_)
    (fun s e s' h hnext => h.next hnext) hs
  obtain ⟨hos, hnone⟩ := hs
  refine ⟨⟨?_, ?_, ?_, ?_, ?_⟩, fun i impl hi => ?_⟩
  · rw [hos]
    exact Owned.empty fun i => by simp [heldFile, hnone i]
  · rw [hos]
    exact Owned.empty fun i => by simp [heldMapping, hnone i]
  · rw [hos]
  · simp [hos]
  · simp [hos]
  · rw [hnone] at hi
    cases hi

/-- **Nothing leaks and nothing is given back twice.**  In every run a region that is valid owns
an open file and a mapping of its size, any other is as it was constructed; no two regions share a
file or a mapping, there are none besides, and no call closes or unmaps what is not there.  So
nothing is left once no region is valid. -/
theorem regions_sound (hs : (regions T).Reachable s) :
    s.os.misused = false ∧ Owned (heldFile s.region) s.os.files ∧
      Owned (heldMapping s.region) s.os.mappings ∧
      (∀ i impl, s.region i = some impl → impl.Open ∨ impl = {}) ∧
      ((∀ i impl, s.region i = some impl → impl.valid = false) →
        s.os.files = ∅ ∧ s.os.mappings = ∅) := by
  have h := reachable_inv hs
  refine ⟨h.kept.sound, h.kept.files, h.kept.mappings, h.wellFormed, fun hinvalid => ?_⟩
  have hfresh : ∀ i, s.region i = none ∨ s.region i = some {} := by
    intro i
    cases hi : s.region i with
    | none => exact .inl rfl
    | some impl =>
        have hnot : ¬ impl.Open := fun hopen =>
          Bool.false_ne_true ((hinvalid i impl hi).symm.trans hopen.valid)
        exact .inr (congrArg some ((h.wellFormed i impl hi).resolve_left hnot))
  constructor
  · apply h.kept.files.eq_empty
    intro i
    rcases hfresh i with hi | hi <;> simp [heldFile, hi]
  · apply h.kept.mappings.eq_empty
    intro i
    rcases hfresh i with hi | hi <;> simp [heldMapping, hi, Impl.mapping]

/-- A region that has been opened and handed over. -/
def handedOver : Option (State Bool) :=
  (regions Bool).exec (fun _ _ => True) ⟨⟨∅, ∅, false⟩, fun _ => none⟩
    [.construct false, .init false ⟨ascii "/tmp/shm", 4096, .softwareConsistency⟩
        ⟨false, some 3, true, none, some 65536⟩,
      .moveConstruct true false]

lemma reachable_handedOver {s : State Bool} (hs : handedOver = some s) :
    (regions Bool).Reachable s := by
  have hstart : (regions Bool).Reachable ⟨⟨∅, ∅, false⟩, fun _ => none⟩ :=
    .start ⟨rfl, fun _ => rfl⟩
  exact hstart.exec hs

theorem regions_sound_handed_over : ∃ s, handedOver = some s ∧ s.os.files = {3} ∧
    s.os.misused = false ∧ Owned (heldFile s.region) s.os.files ∧
      Owned (heldMapping s.region) s.os.mappings ∧
      (∀ i impl, s.region i = some impl → impl.Open ∨ impl = {}) ∧
      ((∀ i impl, s.region i = some impl → impl.valid = false) →
        s.os.files = ∅ ∧ s.os.mappings = ∅) :=
  ⟨_, rfl, rfl, regions_sound (reachable_handedOver rfl)⟩

/-! ## Pointers -/

omit [DecidableEq T] in
/-- A region that hands out or takes a pointer owns a mapping. -/
lemma Inv.mapping (h : Inv s) {i : T} {impl : Impl} (hi : s.region i = some impl)
    (hvalid : impl.valid = true) : ∃ base, impl.base = some base ∧ base ≠ 0 ∧
      base.toNat + impl.size.toNat < 2 ^ 64 ∧ (⟨base, impl.size⟩ : Mapping) ∈ s.os.mappings := by
  rcases h.wellFormed i impl hi with hopen | rfl
  · obtain ⟨base, hbase⟩ := hopen.base
    have hmem : (⟨base, impl.size⟩ : Mapping) ∈ s.os.mappings :=
      h.kept.mappings.exist i _ (by simp [heldMapping, hi, Impl.mapping, hbase])
    obtain ⟨hne, hend⟩ := h.kept.placed _ hmem
    exact ⟨base, hbase, hne, hend, hmem⟩
  · cases hvalid

/-- `offset_to_ptr` in numbers. -/
lemma Impl.offsetToPtr_eq_some {impl : Impl} {base : UInt64} (hbase : impl.base = some base)
    (hne : base ≠ 0) (hvalid : impl.valid = true)
    (hend : base.toNat + impl.size.toNat < 2 ^ 64) {offset ptr : UInt64} :
    impl.offsetToPtr offset = some ptr ↔
      offset.toNat < impl.size.toNat ∧ ptr.toNat = base.toNat + offset.toNat := by
  simp only [offsetToPtr, hbase, hvalid, hne, Bool.true_eq_false, or_self, if_false, ge_iff_le,
    UInt64.le_iff_toNat_le]
  split_ifs with hsize
  · simp only [false_iff]
    omega
  · rw [Option.some.injEq, ← UInt64.toNat_inj, UInt64.toNat_add,
      Nat.mod_eq_of_lt (by omega), eq_comm, and_iff_right (by omega)]

/-- `ptr_to_offset` in numbers. -/
lemma Impl.ptrToOffset_eq {impl : Impl} {base : UInt64} (hbase : impl.base = some base)
    (hne : base ≠ 0) (hvalid : impl.valid = true)
    (hend : base.toNat + impl.size.toNat < 2 ^ 64) {offset ptr : UInt64} :
    impl.ptrToOffset ptr = offset ∧ offset ≠ invalidOffset ↔
      offset.toNat < impl.size.toNat ∧ ptr.toNat = base.toNat + offset.toNat := by
  have hpos : 0 < base.toNat := Nat.pos_of_ne_zero fun hzero => hne (UInt64.toNat_inj.1 hzero)
  have hlast : invalidOffset.toNat = 2 ^ 64 - 1 := rfl
  have hzero : ptr = 0 ↔ ptr.toNat = 0 := by rw [← UInt64.toNat_inj]; rfl
  have hsum : (base + impl.size).toNat = base.toNat + impl.size.toNat := by
    rw [UInt64.toNat_add, Nat.mod_eq_of_lt hend]
  simp only [ptrToOffset, hbase, hvalid, Bool.true_eq_false, false_or, hzero, ge_iff_le,
    UInt64.lt_iff_toNat_lt, UInt64.le_iff_toNat_le, hsum]
  split_ifs with hnull hout
  · constructor
    · rintro ⟨rfl, hoff⟩
      exact absurd rfl hoff
    · omega
  · constructor
    · rintro ⟨rfl, hoff⟩
      exact absurd rfl hoff
    · omega
  · have hsub : (ptr - base).toNat = ptr.toNat - base.toNat :=
      UInt64.toNat_sub_of_le _ _ (UInt64.le_iff_toNat_le.2 (by omega))
    rw [ne_eq, ← UInt64.toNat_inj, ← UInt64.toNat_inj, hsub, hlast]
    omega

/-- **`ptr_to_offset` is the inverse of `offset_to_ptr`**, and no two regions know the same
pointer. -/
theorem pointers_inverse (hs : (regions T).Reachable s) {i : T} {impl : Impl}
    (hi : s.region i = some impl) (offset : ShmOffset) (ptr : UInt64) :
    (impl.offsetToPtr offset = some ptr ↔ impl.ptrToOffset ptr = offset ∧ offset ≠ invalidOffset) ∧
      (impl.offsetToPtr offset = some ptr → ∀ j other, s.region j = some other → j ≠ i →
        other.ptrToOffset ptr = invalidOffset) := by
  have h := reachable_inv hs
  cases hvalid : impl.valid with
  | false =>
      have hnull : impl.offsetToPtr offset = none := by
        cases hbase : impl.base <;> simp [Impl.offsetToPtr, hbase, hvalid]
      have hunknown : impl.ptrToOffset ptr = invalidOffset := by
        cases hbase : impl.base <;> simp [Impl.ptrToOffset, hbase, hvalid]
      rw [hnull, hunknown]
      exact ⟨by simp [eq_comm], by rintro ⟨⟩⟩
  | true =>
      obtain ⟨base, hbase, hne, hend, hmem⟩ := h.mapping hi hvalid
      have hptr : impl.offsetToPtr offset = some ptr ↔ _ :=
        Impl.offsetToPtr_eq_some hbase hne hvalid hend
      refine ⟨hptr.trans (Impl.ptrToOffset_eq hbase hne hvalid hend).symm, ?_⟩
      intro hoffset j other hj hji
      by_contra hknown
      have hvalid' : other.valid = true := by
        by_contra hinvalid
        apply hknown
        cases hbase' : other.base <;> simp [Impl.ptrToOffset, hbase', hinvalid]
      obtain ⟨base', hbase', hne', hend', hmem'⟩ := h.mapping hj hvalid'
      have hoffset' := (Impl.ptrToOffset_eq hbase' hne' hvalid' hend').1 ⟨rfl, hknown⟩
      -- the mappings are apart, so that they are the same one
      have hsame : (⟨base, impl.size⟩ : Mapping) = ⟨base', other.size⟩ := by
        by_contra hdiff
        have hapart := h.kept.apart _ hmem _ hmem' hdiff
        simp only [Mapping.Apart] at hapart
        have hoffset := hptr.1 hoffset
        omega
      apply hji
      apply h.kept.mappings.unique j i ⟨base', other.size⟩
      · simp [heldMapping, hj, Impl.mapping, hbase']
      · rw [← hsame]
        simp [heldMapping, hi, Impl.mapping, hbase]

theorem pointers_inverse_handed_over : ∃ s impl, handedOver = some s ∧
    s.region true = some impl ∧ impl.offsetToPtr 4095 = some 69631 ∧
    (impl.offsetToPtr 4095 = some 69631 ↔
      impl.ptrToOffset 69631 = 4095 ∧ 4095 ≠ invalidOffset) ∧
      (impl.offsetToPtr 4095 = some 69631 → ∀ j other, s.region j = some other → j ≠ true →
        other.ptrToOffset 69631 = invalidOffset) :=
  ⟨_, _, rfl, rfl, rfl, pointers_inverse (reachable_handedOver rfl) rfl 4095 69631⟩

/-- The model of addressing by distances from the base address agrees. -/
lemma Impl.offsetToPtr_region {impl : Impl} {base : UInt64} (hbase : impl.base = some base)
    (hne : base ≠ 0) (offset : ShmOffset) :
    impl.offsetToPtr offset = (impl.region.offsetToPtr offset).map (base + ·) := by
  by_cases hvalid : impl.valid = false
  · simp [offsetToPtr, SharedMemoryRegion.offsetToPtr, region, hbase, hvalid]
  · by_cases hsize : offset ≥ impl.size <;>
      simp [offsetToPtr, SharedMemoryRegion.offsetToPtr, region, hbase, hne, hvalid, hsize]

/-- An access that keeps within the region by its distance from the base address touches bytes of
the region's own mapping only. -/
lemma access_in_own_mapping (hs : (regions T).Reachable s) {i : T} {impl : Impl}
    (hi : s.region i = some impl) {r : ByteRange} (hr : r.InBounds impl.region)
    (hbytes : 0 < r.bytes.toNat) :
    ∃ offset ptr m, r.ptr = some offset ∧ impl.offsetToPtr offset = some ptr ∧
      heldMapping s.region i = some m ∧ m ∈ s.os.mappings ∧ m.base.toNat ≤ ptr.toNat ∧
      ptr.toNat + (r.field.toNat + r.bytes.toNat) ≤ m.base.toNat + m.size.toNat := by
  obtain ⟨offset, hoffset, hlast⟩ := hr
  have hvalid : impl.valid = true := by
    by_contra hinvalid
    simp only [SharedMemoryRegion.getSize, Impl.region, hinvalid, if_false] at hlast
    have hzero : (0 : UInt64).toNat = 0 := rfl
    omega
  obtain ⟨base, hbase, hne, hend, hmem⟩ := (reachable_inv hs).mapping hi hvalid
  simp only [SharedMemoryRegion.getSize, Impl.region, hvalid, if_true] at hlast
  have hsum : (base + offset).toNat = base.toNat + offset.toNat := by
    rw [UInt64.toNat_add, Nat.mod_eq_of_lt (by omega)]
  refine ⟨offset, base + offset, ⟨base, impl.size⟩, hoffset, ?_, ?_, hmem, ?_, ?_⟩
  · rw [Impl.offsetToPtr_region hbase hne, SharedMemoryRegion.offsetToPtr_of_lt]
    · rfl
    · simp only [SharedMemoryRegion.getSize, Impl.region, hvalid, if_true]
      omega
  · simp [heldMapping, hi, Impl.mapping, hbase]
  · show base.toNat ≤ (base + offset).toNat
    omega
  · show (base + offset).toNat + _ ≤ base.toNat + impl.size.toNat
    omega

end Runs

end CxlLock.Region
