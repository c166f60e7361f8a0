import CxlLock.RegionResources

/-!
# The memory pool (`cxl_memory_pool.cpp`)

A `CxlMemoryPool` owns its `SharedMemoryRegion` through a pointer, and keeps the size and the
consistency mode of the mapping a second time beside it.  A move takes the region away from the
source: the pointer is null then, and only an assignment of another pool makes the source usable
again, since `open` follows the pointer without a check.

`pools_sound`: in every run the two descriptions agree, an open pool writes and flushes within its
own mapping, and a pool that is closed, destroyed or assigned to has given back everything.
-/

namespace CxlLock

open Transition Ownership Region

/-- `CxlMemoryPool`; the region after a move is `none`. -/
structure CxlMemoryPool where
  shm : Option Impl := some {}
  consistencyMode : ConsistencyMode := .softwareConsistency
  size : UInt64 := 0
  isOpen : Bool := false

namespace Region

/-- An access to memory, which has to be mapped. -/
def Os.touch (os : Os) (ptr size : UInt64) : Os :=
  if ∃ m ∈ os.mappings, m.base.toNat ≤ ptr.toNat ∧
      ptr.toNat + size.toNat ≤ m.base.toNat + m.size.toNat then os
  else { os with misused := true }

namespace Impl

/-- `SharedMemoryRegion::get_base_address`. -/
def getBaseAddress (impl : Impl) : Option UInt64 := if impl.valid then impl.base else none

/-- `SharedMemoryRegion::flush_cache`, as an access to the range. -/
def flushCache (os : Os) (impl : Impl) (addr size : UInt64) : Os :=
  if impl.valid = false ∨ addr = 0 ∨ size = 0 then os
  else match impl.consistency with
    | .hardwareConsistency => os
    | .softwareConsistency => os.touch addr size

end Impl

end Region

namespace CxlMemoryPool

/-- `open` and `open_file_backed`: `none` if the region is called through a null pointer. -/
def openWith (zeroed : Bool) (config : Region.Config) (env : Answers) (os : Os)
    (pool : CxlMemoryPool) : Option (LockResult × Os × CxlMemoryPool) :=
  if pool.isOpen then some (.errorUnknown, os, pool)
  else if config.size = 0 then some (.errorInvalidParam, os, pool)
  else pool.shm.map fun impl =>
    match impl.init config env os with
    | (.success, os, impl) =>
        let os := match zeroed, impl.getBaseAddress with
          | true, some base => impl.flushCache (os.touch base config.size) base config.size
          | _, _ => os
        (.success, os, ⟨some impl, config.consistency, config.size, true⟩)
    | (rc, os, impl) => (rc, os, { pool with shm := some impl })

/-- `CxlMemoryPool::open`. -/
def «open» : Region.Config → Answers → Os → CxlMemoryPool →
    Option (LockResult × Os × CxlMemoryPool) := openWith false

/-- `CxlMemoryPool::open_file_backed`. -/
def openFileBacked : Region.Config → Answers → Os → CxlMemoryPool →
    Option (LockResult × Os × CxlMemoryPool) := openWith true

/-- The flush of the mapping that `close` begins with. -/
def flushMapping (os : Os) (pool : CxlMemoryPool) (impl : Impl) : Os :=
  match pool.consistencyMode, impl.getBaseAddress with
  | .softwareConsistency, some base =>
      if pool.size > 0 then impl.flushCache os base pool.size else os
  | _, _ => os

/-- `CxlMemoryPool::close`. -/
def close (os : Os) (pool : CxlMemoryPool) : Os × CxlMemoryPool :=
  if pool.isOpen = false then (os, pool)
  else
    let cleaned := match pool.shm with
      | none => (os, none)
      | some impl =>
          let os := pool.flushMapping os impl
          ((impl.cleanup os).1, some (impl.cleanup os).2)
    (cleaned.1, { pool with shm := cleaned.2, size := 0, isOpen := false })

/-- The end of the region that a pool points to. -/
def deleteShm (r : Os × CxlMemoryPool) : Os :=
  match r.2.shm with
  | none => r.1
  | some impl => (impl.cleanup r.1).1

/-- A pool that another pool has taken over. -/
def movedFrom (other : CxlMemoryPool) : CxlMemoryPool :=
  { other with shm := none, isOpen := false, size := 0 }

/-! ## Calls on any number of pools -/

/-- The pools of a process, as far as they are constructed. -/
structure State (T : Type) where
  os : Os
  pool : T → Option CxlMemoryPool

/-- A call on a pool. -/
inductive Call (T : Type)
  | construct (i : T)
  | open (i : T) (config : Region.Config) (env : Answers)
  | openFileBacked (i : T) (config : Region.Config) (env : Answers)
  | close (i : T)
  | moveConstruct (i source : T)
  | moveAssign (i source : T)
  | destroy (i : T)

section Machine

variable {T : Type} [DecidableEq T]

/-- A pool after a call. -/
def State.set (s : State T) (i : T) (r : Os × CxlMemoryPool) : State T where
  os := r.1
  pool := Function.update s.pool i (some r.2)

/-- A call of `open` on a pool; a closed pool begins with a region that has nothing, so that the
answers are about the files and mappings as they are. -/
def State.open (s : State T) (zeroed : Bool) (i : T) (config : Region.Config) (env : Answers) :
    Option (State T) :=
  (s.pool i).bind fun pool =>
    if env.Possible s.os config then
      (pool.openWith zeroed config env s.os).map fun r => s.set i r.2
    else none

/-- The calls, one at a time.  There is no step that uses a pool that is not constructed, or
follows a null pointer. -/
def pools (T : Type) [DecidableEq T] : LabelledSystem (State T) (Call T) where
  init s := s.os = ⟨∅, ∅, false⟩ ∧ ∀ i, s.pool i = none
  next s
    | .construct i => if s.pool i = none then some (s.set i (s.os, {})) else none
    | .open i config env => s.open false i config env
    | .openFileBacked i config env => s.open true i config env
    | .close i => (s.pool i).map fun pool => s.set i (pool.close s.os)
    | .moveConstruct i source =>
        if s.pool i = none then
          (s.pool source).map fun other =>
            (s.set source (s.os, other.movedFrom)).set i (s.os, other)
        else none
    | .moveAssign i source =>
        (s.pool i).bind fun pool => (s.pool source).map fun other =>
          if i = source then s
          else
            let os := deleteShm (pool.close s.os)
            (s.set source (os, other.movedFrom)).set i (os, other)
    | .destroy i => (s.pool i).map fun pool =>
        ⟨deleteShm (pool.close s.os), Function.update s.pool i none⟩

end Machine

/-! ## What a pool keeps -/

/-- An open pool describes its region a second time; a closed one has no region, or one as it was
constructed. -/
structure WellFormed (pool : CxlMemoryPool) : Prop where
  opened : pool.isOpen = true → ∃ impl, pool.shm = some impl ∧ impl.Open ∧
    impl.size = pool.size ∧ impl.consistency = pool.consistencyMode
  closed : pool.isOpen = false → pool.size = 0 ∧ ∀ impl ∈ pool.shm, impl = {}

lemma WellFormed.shm {pool : CxlMemoryPool} (h : pool.WellFormed) {impl : Impl}
    (himpl : pool.shm = some impl) : impl.WellFormed := by
  cases hopen : pool.isOpen with
  | false => exact .inr ((h.closed hopen).2 impl himpl)
  | true =>
      obtain ⟨impl', himpl', hopen', -⟩ := h.opened hopen
      rw [himpl, Option.some.injEq] at himpl'
      exact .inl (himpl' ▸ hopen')

section Owners

variable {T : Type}

/-- The regions of the pools. -/
def shmOf (pool : T → Option CxlMemoryPool) (i : T) : Option Impl := (pool i).bind shm

variable [DecidableEq T] {os : Os} {pool : T → Option CxlMemoryPool} {i : T} {p : CxlMemoryPool}
  {v : Option CxlMemoryPool}

lemma shmOf_update : shmOf (Function.update pool i v) =
    Function.update (shmOf pool) i (v.bind shm) := by
  funext k
  by_cases hki : k = i
  · simp [shmOf, hki]
  · simp [shmOf, Function.update_of_ne hki]

omit [DecidableEq T] in
/-- A pool writes and flushes within its own mapping. -/
lemma touch_own (h : Kept os (shmOf pool)) {impl : Impl} (himpl : shmOf pool i = some impl)
    {base : UInt64} (hbase : impl.base = some base) : os.touch base impl.size = os := by
  have hmem : (⟨base, impl.size⟩ : Mapping) ∈ os.mappings :=
    h.mappings.exist i _ (by simp [heldMapping, himpl, Impl.mapping, hbase])
  exact if_pos ⟨⟨base, impl.size⟩, hmem, le_refl _, le_refl _⟩

omit [DecidableEq T] in
lemma flushCache_own (h : Kept os (shmOf pool)) {impl : Impl} (himpl : shmOf pool i = some impl)
    {base : UInt64} (hbase : impl.base = some base) : impl.flushCache os base impl.size = os := by
  unfold Impl.flushCache
  split_ifs
  · rfl
  · split
    · rfl
    · exact touch_own h himpl hbase

omit [DecidableEq T] in
lemma flushMapping_own (h : Kept os (shmOf pool)) {impl : Impl}
    (himpl : shmOf pool i = some impl) (hsize : impl.size = p.size) :
    p.flushMapping os impl = os := by
  unfold flushMapping
  split
  case h_1 base _ hbase =>
    simp only [Impl.getBaseAddress, Option.ite_none_right_eq_some] at hbase
    split_ifs
    · rw [← hsize]
      exact flushCache_own h himpl hbase.2
    · rfl
  case h_2 => rfl

/-- `close` gives back what the region has; the flush before keeps within the mapping. -/
lemma close_eq (h : Kept os (shmOf pool)) (hi : pool i = some p) (hwf : p.WellFormed) :
    p.close os = (p.shm.elim os fun impl => (impl.cleanup os).1,
      { p with shm := p.shm.map fun _ => {}, size := 0, isOpen := false }) := by
  cases hclosed : p.isOpen with
  | false =>
      obtain ⟨hsize, hfresh⟩ := hwf.closed hclosed
      obtain ⟨shm, mode, size, isOpen⟩ := p
      dsimp only at hclosed hsize hfresh
      subst hclosed hsize
      cases shm with
      | none => rfl
      | some impl =>
          obtain rfl := hfresh impl rfl
          rfl
  | true =>
      obtain ⟨impl, himpl, hopen, hsize, hmode⟩ := hwf.opened hclosed
      have hshm : shmOf pool i = some impl := by simp [shmOf, hi, himpl]
      have hcleanup : (impl.cleanup os).2 = {} := (h.cleanup hshm none (.inr rfl)).1
      simp only [close, hclosed, himpl, flushMapping_own h hshm hsize, hcleanup,
        Bool.true_eq_false, if_false, Option.map_some, Option.elim_some]

/-- What is left of a pool after `close`. -/
lemma kept_close (h : Kept os (shmOf pool)) (hi : pool i = some p) (hwf : p.WellFormed) :
    Kept (p.close os).1 (shmOf (Function.update pool i (some (p.close os).2))) := by
  rw [close_eq h hi hwf, shmOf_update]
  cases hshm : p.shm with
  | none =>
      have hnone : shmOf pool i = none := by simp [shmOf, hi, hshm]
      show Kept os (Function.update (shmOf pool) i none)
      rwa [Function.update_eq_self_iff.2 hnone.symm]
  | some impl => exact (h.cleanup (by simp [shmOf, hi, hshm]) _ (.inl rfl)).2

/-- A closed pool has nothing to delete. -/
lemma deleteShm_close (h : Kept os (shmOf pool)) (hi : pool i = some p) (hwf : p.WellFormed) :
    deleteShm (p.close os) = (p.close os).1 := by
  rw [close_eq h hi hwf]
  cases hshm : p.shm with
  | none => simp [deleteShm]
  | some impl =>
      simp only [deleteShm, Option.map_some, Option.elim_some]
      rfl

/-- A closed pool has no region, or one as it was constructed. -/
lemma closed_bare (h : Kept os (shmOf pool)) (hi : pool i = some p) (hwf : p.WellFormed) :
    ∀ impl, shmOf (Function.update pool i (some (p.close os).2)) i = some impl → impl = {} := by
  rw [close_eq h hi hwf]
  cases hshm : p.shm <;> simp [shmOf]

lemma wellFormed_close (h : Kept os (shmOf pool)) (hi : pool i = some p) (hwf : p.WellFormed) :
    (p.close os).2.WellFormed := by
  rw [close_eq h hi hwf]
  refine ⟨fun hopen => Bool.noConfusion hopen, fun _ => ⟨rfl, fun impl himpl => ?_⟩⟩
  obtain ⟨-, -, rfl⟩ := Option.map_eq_some_iff.1 himpl
  rfl

/-- What a call of `open` or `open_file_backed` leaves. -/
structure OpenSpec (config : Region.Config) (pool : T → Option CxlMemoryPool) (i : T)
    (os : Os) (p : CxlMemoryPool) (r : LockResult × Os × CxlMemoryPool) : Prop where
  kept : Kept r.2.1 (shmOf (Function.update pool i (some r.2.2)))
  wellFormed : r.2.2.WellFormed
  /-- Success: the pool was closed, and is open as it was asked for. -/
  opened : r.1 = .success → (p.shm = some {} ∧ p.isOpen = false) ∧ r.2.2.isOpen = true ∧
    r.2.2.size = config.size ∧ r.2.2.consistencyMode = config.consistency
  failed : r.1 ≠ .success → r.2 = (os, p)

/-- **What `open` and `open_file_backed` do**, whatever the kernel answers. -/
lemma openWith_spec (h : Kept os (shmOf pool)) (hi : pool i = some p) (hwf : p.WellFormed)
    {zeroed : Bool} {config : Region.Config} {env : Answers} (henv : env.Possible os config)
    {r : LockResult × Os × CxlMemoryPool} (hr : p.openWith zeroed config env os = some r) :
    OpenSpec config pool i os p r := by
  have hrefused : ∀ rc : LockResult, rc ≠ .success → OpenSpec config pool i os p (rc, os, p) := by
    intro rc hrc
    refine ⟨?_, hwf, fun hsuccess => absurd hsuccess hrc, fun _ => rfl⟩
    rwa [Function.update_eq_self_iff.2 hi.symm]
  unfold openWith at hr
  split_ifs at hr with hopen hsize
  · obtain rfl := Option.some.inj hr
    exact hrefused _ (by decide)
  · obtain rfl := Option.some.inj hr
    exact hrefused _ (by decide)
  obtain ⟨impl, himpl, hrun⟩ := Option.map_eq_some_iff.1 hr
  have hshm : shmOf pool i = some impl := by simp [shmOf, hi, himpl]
  obtain rfl : impl = {} := (hwf.closed (eq_false_of_ne_true hopen)).2 impl himpl
  have hinit : InitSpec config (shmOf pool) i {} (Impl.init config env os {}) :=
    h.init hshm (.inr rfl) henv
  obtain ⟨⟨rc, os', impl'⟩, hcall⟩ : ∃ r, Impl.init config env os {} = r := ⟨_, rfl⟩
  rw [hcall] at hrun hinit
  by_cases hrc : rc = .success
  · subst hrc
    obtain ⟨hopened, hsame, hmode⟩ : impl'.Open ∧ impl'.size = config.size ∧
        impl'.consistency = config.consistency := hinit.opened rfl
    have hshm' : shmOf (Function.update pool i
        (some ⟨some impl', config.consistency, config.size, true⟩)) i = some impl' := by
      simp [shmOf]
    have hkept : Kept os' (shmOf (Function.update pool i
        (some ⟨some impl', config.consistency, config.size, true⟩))) := by
      rw [shmOf_update]
      exact hinit.kept
    obtain ⟨base, hbase⟩ := hopened.base
    have hzeroed : impl'.flushCache (os'.touch base config.size) base config.size = os' := by
      rw [← hsame, touch_own hkept hshm' hbase, flushCache_own hkept hshm' hbase]
    have hgot : impl'.getBaseAddress = some base := by
      simp [Impl.getBaseAddress, hopened.valid, hbase]
    obtain rfl : (_, os', _) = r := by
      cases zeroed <;> simpa [hgot, hzeroed] using hrun
    refine ⟨hkept, ⟨fun _ => ⟨impl', rfl, hopened, hsame, hmode⟩, fun hclosed => ?_⟩,
      fun _ => ⟨⟨himpl, eq_false_of_ne_true hopen⟩, rfl, rfl, rfl⟩,
      fun hfailed => absurd rfl hfailed⟩
    cases hclosed
  · obtain rfl : impl' = {} := (hinit.failed hrc).elim id fun hzero => absurd hzero.1 hsize
    have hkept : Kept os' (Function.update (shmOf pool) i (some {})) := hinit.kept
    rw [Function.update_eq_self_iff.2 hshm.symm] at hkept
    obtain rfl : os' = os := hkept.os_eq h
    have hsame : { p with shm := some {} } = p := by rw [← himpl]
    split at hrun
    case h_1 hsuccess => exact absurd (congrArg Prod.fst hsuccess) hrc
    case h_2 hfailure =>
      cases hfailure
      rw [hsame] at hrun
      exact hrun ▸ hrefused rc hrc

end Owners

section Runs

variable {T : Type} [DecidableEq T] {s s' : State T} {c : Call T} {i source : T}

/-- The invariant of the runs. -/
structure Inv (s : State T) : Prop where
  kept : Kept s.os (shmOf s.pool)
  wellFormed : ∀ i pool, s.pool i = some pool → pool.WellFormed

lemma wellFormed_update {pool : T → Option CxlMemoryPool} {v : Option CxlMemoryPool}
    (h : ∀ i p, pool i = some p → p.WellFormed) (hv : ∀ p ∈ v, p.WellFormed) :
    ∀ k p, Function.update pool i v k = some p → p.WellFormed := by
  intro k p hk
  by_cases hki : k = i
  · rw [hki, Function.update_self] at hk
    exact hv p hk
  · rw [Function.update_of_ne hki] at hk
    exact h k p hk

lemma wellFormed_fresh : ({} : CxlMemoryPool).WellFormed :=
  ⟨fun hopen => Bool.noConfusion hopen, fun _ => ⟨rfl, fun _ himpl => (Option.some.inj himpl).symm⟩⟩

lemma wellFormed_movedFrom (other : CxlMemoryPool) : other.movedFrom.WellFormed :=
  ⟨fun hopen => Bool.noConfusion hopen, fun _ => ⟨rfl, by rintro _ ⟨⟩⟩⟩

lemma wellFormed_moved {pool : T → Option CxlMemoryPool} {other : CxlMemoryPool}
    (h : ∀ i p, pool i = some p → p.WellFormed) (hother : other.WellFormed) :
    ∀ k p, Function.update (Function.update pool source (some other.movedFrom)) i (some other) k =
      some p → p.WellFormed := by
  apply wellFormed_update (wellFormed_update h _)
  · rintro _ ⟨⟩
    exact hother
  · rintro _ ⟨⟩
    exact wellFormed_movedFrom other

lemma Inv.open (h : Inv s) {zeroed : Bool} {config : Region.Config} {env : Answers}
    (hnext : s.open zeroed i config env = some s') : Inv s' := by
  simp only [State.open, Option.bind_eq_some_iff, Option.ite_none_right_eq_some,
    Option.map_eq_some_iff] at hnext
  obtain ⟨p, hi, henv, r, hr, rfl⟩ := hnext
  have hspec := openWith_spec h.kept hi (h.wellFormed i p hi) henv hr
  refine ⟨hspec.kept, wellFormed_update h.wellFormed ?_⟩
  rintro _ ⟨⟩
  exact hspec.wellFormed

/-- `i` has nothing, and takes over `source`. -/
lemma kept_move {os : Os} {pool : T → Option CxlMemoryPool} {other : CxlMemoryPool}
    (h : Kept os (shmOf pool)) (hsource : pool source = some other)
    (hnone : ∀ impl, shmOf pool i = some impl → impl = {}) :
    Kept os (shmOf (Function.update (Function.update pool source (some other.movedFrom)) i
      (some other))) := by
  have hshm : (some other).bind shm = shmOf pool source := by simp [shmOf, hsource]
  rw [shmOf_update, shmOf_update, hshm]
  exact h.move source hnone (.inr rfl)

lemma Inv.next (h : Inv s) (hnext : (pools T).next s c = some s') : Inv s' := by
  cases c with
  | construct i =>
      simp only [pools, Option.ite_none_right_eq_some, Option.some.injEq] at hnext
      obtain ⟨hi, rfl⟩ := hnext
      refine ⟨?_, wellFormed_update h.wellFormed ?_⟩
      · show Kept s.os (shmOf (Function.update s.pool i (some {})))
        rw [shmOf_update]
        exact h.kept.replace (by simp [shmOf, hi]) (.inl rfl)
      · rintro _ ⟨⟩
        exact wellFormed_fresh
  | «open» i config env => exact h.open hnext
  | openFileBacked i config env => exact h.open hnext
  | close i =>
      simp only [pools, Option.map_eq_some_iff] at hnext
      obtain ⟨p, hi, rfl⟩ := hnext
      refine ⟨kept_close h.kept hi (h.wellFormed i p hi), wellFormed_update h.wellFormed ?_⟩
      rintro _ ⟨⟩
      exact wellFormed_close h.kept hi (h.wellFormed i p hi)
  | moveConstruct i source =>
      simp only [pools, Option.ite_none_right_eq_some, Option.map_eq_some_iff] at hnext
      obtain ⟨hi, other, hsource, rfl⟩ := hnext
      refine ⟨kept_move h.kept hsource (by simp [shmOf, hi]), ?_⟩
      exact wellFormed_moved h.wellFormed (h.wellFormed source other hsource)
  | moveAssign i source =>
      simp only [pools, Option.bind_eq_some_iff, Option.map_eq_some_iff] at hnext
      obtain ⟨p, hi, other, hsource, hs'⟩ := hnext
      split_ifs at hs' with hsame
      · exact hs' ▸ h
      subst hs'
      have hp := h.wellFormed i p hi
      have hmove := kept_move (kept_close h.kept hi hp)
        ((Function.update_of_ne (Ne.symm hsame) ..).trans hsource) (closed_bare h.kept hi hp)
      rw [Function.update_comm hsame, Function.update_idem,
        ← deleteShm_close h.kept hi hp] at hmove
      exact ⟨hmove, wellFormed_moved h.wellFormed (h.wellFormed source other hsource)⟩
  | destroy i =>
      simp only [pools, Option.map_eq_some_iff] at hnext
      obtain ⟨p, hi, rfl⟩ := hnext
      have hp := h.wellFormed i p hi
      have hkept := (kept_close h.kept hi hp).replace (closed_bare h.kept hi hp) (.inr rfl)
      have hnone : none = (none : Option CxlMemoryPool).bind shm := rfl
      rw [hnone, ← shmOf_update, Function.update_idem, ← deleteShm_close h.kept hi hp] at hkept
      refine ⟨hkept, wellFormed_update h.wellFormed ?_⟩
      rintro _ ⟨⟩

lemma reachable_inv (hs : (pools T).Reachable s) : Inv s := by
  refine LabelledSystem.Reachable.invariant (fun s hs => ?_)
    (fun s e s' h hnext => h.next hnext) hs
  obtain ⟨hos, hnone⟩ := hs
  have hshm : ∀ i, shmOf s.pool i = none := fun i => by simp [shmOf, hnone i]
  refine ⟨⟨?_, ?_, ?_, ?_, ?_⟩, fun i p hi => ?_⟩
  · rw [hos]
    exact Owned.empty fun i => by simp [heldFile, hshm i]
  · rw [hos]
    exact Owned.empty fun i => by simp [heldMapping, hshm i]
  · rw [hos]
  · simp [hos]
  · simp [hos]
  · rw [hnone] at hi
    cases hi

/-- **A pool agrees with its region.**  In every run an open pool owns an open region of the size
and consistency mode that it says, and any other pool has nothing; nothing is written or flushed
outside of the mappings, closed twice, or left open when no pool is open. -/
theorem pools_sound (hs : (pools T).Reachable s) :
    s.os.misused = false ∧ (∀ i p, s.pool i = some p → p.WellFormed) ∧
      Owned (heldFile (shmOf s.pool)) s.os.files ∧
      Owned (heldMapping (shmOf s.pool)) s.os.mappings ∧
      ((∀ i p, s.pool i = some p → p.isOpen = false) → s.os.files = ∅ ∧ s.os.mappings = ∅) := by
  have h := reachable_inv hs
  refine ⟨h.kept.sound, h.wellFormed, h.kept.files, h.kept.mappings, fun hclosed => ?_⟩
  have hbare : ∀ i impl, shmOf s.pool i = some impl → impl = {} := by
    intro i impl hi
    obtain ⟨p, hp, himpl⟩ := Option.bind_eq_some_iff.1 hi
    exact ((h.wellFormed i p hp).closed (hclosed i p hp)).2 impl himpl
  constructor
  · exact h.kept.files.eq_empty fun i => (held_eq_none (hbare i)).1
  · exact h.kept.mappings.eq_empty fun i => (held_eq_none (hbare i)).2

/-- Two pools: the first is opened and moved from, the second takes over. -/
def twoPools : Option (State Bool) :=
  (pools Bool).exec (fun _ _ => True) ⟨⟨∅, ∅, false⟩, fun _ => none⟩
    [.construct false,
      .openFileBacked false ⟨StandardText.ascii "/tmp/shm", 4096, .softwareConsistency⟩
        ⟨false, some 3, true, none, some 65536⟩,
      .moveConstruct true false]

lemma reachable_twoPools {s : State Bool} (hs : twoPools = some s) : (pools Bool).Reachable s := by
  have hstart : (pools Bool).Reachable ⟨⟨∅, ∅, false⟩, fun _ => none⟩ := .start ⟨rfl, fun _ => rfl⟩
  exact hstart.exec hs

theorem pools_sound_two : ∃ s, twoPools = some s ∧ s.os.files = {3} ∧
    s.os.misused = false ∧ (∀ i p, s.pool i = some p → p.WellFormed) ∧
      Owned (heldFile (shmOf s.pool)) s.os.files ∧
      Owned (heldMapping (shmOf s.pool)) s.os.mappings ∧
      ((∀ i p, s.pool i = some p → p.isOpen = false) → s.os.files = ∅ ∧ s.os.mappings = ∅) :=
  ⟨_, rfl, rfl, pools_sound (reachable_twoPools rfl)⟩

end Runs

end CxlMemoryPool

end CxlLock
