import CxlLock.SoftwareConsistency

/-!
# Flushing a range of addresses (`cxl_memory_pool.h`, `shared_memory.cpp`)

`flush_cache_region` is to flush all cache lines of a range.  Its loop steps by 64 from the first
address of the range, which need not be the first one of a line, so that it can step over the
end of the range before it gets to the last line.  `flush_covers_iff` says for which ranges it
gets there, and `flushedLines_eq` that it flushes the lines that `linesOf` says.

Pointers are 64-bit addresses, and the pointer of the loop wraps around.
-/

namespace CxlLock

/-- How the caches of the nodes are kept coherent. -/
inductive ConsistencyMode
  | softwareConsistency
  | hardwareConsistency
  deriving DecidableEq

/-- The loop of `flush_cache_region`: the addresses that it executes `CLFLUSH` on, if it gets to
its end within `fuel` turns. -/
def flushLoop (stop : UInt64) : Nat → UInt64 → Option (List UInt64)
  | 0, _ => none
  | fuel + 1, ptr =>
      if ptr < stop then (flushLoop stop fuel (ptr + 64)).map (ptr :: ·) else some []

/-- `flush_cache_region`. -/
def flushCacheRegion (fuel : Nat) (addr size : UInt64) : Option (List UInt64) :=
  flushLoop (addr + size) fuel addr

namespace SharedMemoryRegion

variable (shm : SharedMemoryRegion) (consistency : ConsistencyMode) (fuel : Nat)

/-- `SharedMemoryRegion::flush_cache`; the null pointer is the address 0. -/
def flushCache (addr size : UInt64) : Option (List UInt64) :=
  if shm.valid = false ∨ addr = 0 ∨ size = 0 then some []
  else if consistency = .hardwareConsistency then some []
  else flushCacheRegion fuel addr size

/-- `SharedMemoryRegion::invalidate_cache`. -/
def invalidateCache (addr size : UInt64) : Option (List UInt64) :=
  shm.flushCache consistency fuel addr size

end SharedMemoryRegion

/-- A call that flushes ends, and it flushes every line that holds a byte of the range. -/
def CoversRange (flush : Nat → Option (List UInt64)) (addr size : UInt64) : Prop :=
  ∃ fuel flushed, flush fuel = some flushed ∧
    ∀ a, addr.toNat ≤ a → a < addr.toNat + size.toNat → ∃ p ∈ flushed, p.toNat / 64 = a / 64

/-- Stepping by 64 from the begin of the range gets to its last line, and that line is not the
last one of the address space. -/
def StepsToEnd (addr size : UInt64) : Prop :=
  addr.toNat % 64 + (size.toNat - 1) % 64 < 64 ∧ addr.toNat + size.toNat ≤ 2 ^ 64 - 64

instance (addr size : UInt64) : Decidable (StepsToEnd addr size) :=
  inferInstanceAs (Decidable (_ ∧ _))

/-! ## The loop -/

section Loop

variable {stop ptr : UInt64} {fuel fuel' count : Nat} {flushed flushed' : List UInt64}

/-- More turns than needed change nothing. -/
lemma flushLoop_add (h : flushLoop stop fuel ptr = some flushed) (more : Nat) :
    flushLoop stop (fuel + more) ptr = some flushed := by
  induction fuel generalizing ptr flushed with
  | zero => cases h
  | succ fuel ih =>
      rw [Nat.add_right_comm]
      unfold flushLoop at h ⊢
      split_ifs at h ⊢ with hlt
      · obtain ⟨rest, hrest, rfl⟩ := Option.map_eq_some_iff.1 h
        rw [ih hrest, Option.map_some]
      · exact h

lemma flushLoop_unique (h : flushLoop stop fuel ptr = some flushed)
    (h' : flushLoop stop fuel' ptr = some flushed') : flushed = flushed' := by
  have hsum := flushLoop_add h fuel'
  rw [Nat.add_comm, flushLoop_add h' fuel] at hsum
  exact (Option.some.inj hsum).symm

/-- The loop ends when the pointer passes the end of the range without a wrap. -/
lemma flushLoop_eq (hbefore : ptr.toNat + 64 * count < stop.toNat + 64)
    (hpassed : stop.toNat ≤ ptr.toNat + 64 * count) (hwrap : ptr.toNat + 64 * count < 2 ^ 64) :
    flushLoop stop (count + 1) ptr =
      some ((List.range count).map fun i => UInt64.ofNat (ptr.toNat + 64 * i)) := by
  induction count generalizing ptr with
  | zero =>
      have hend : ¬ ptr < stop := by
        rw [UInt64.lt_iff_toNat_lt]
        omega
      simp [flushLoop, hend]
  | succ count ih =>
      have hlt : ptr < stop := by
        rw [UInt64.lt_iff_toNat_lt]
        omega
      have hnext : (ptr + 64).toNat = ptr.toNat + 64 := by
        simp only [UInt64.toNat_add, UInt64.reduceToNat]
        omega
      rw [flushLoop, if_pos hlt, ih (by omega) (by omega) (by omega), Option.map_some,
        List.range_succ_eq_map, List.map_cons, List.map_map, Nat.mul_zero, Nat.add_zero,
        UInt64.ofNat_toNat, hnext]
      congr 2
      apply List.map_congr_left
      intro i _
      simp only [Function.comp_apply]
      congr 1
      omega

/-- The loop does not end when the last pointer before a wrap is still in the range. -/
lemma flushLoop_eq_none (h : 2 ^ 64 - 64 + ptr.toNat % 64 < stop.toNat) :
    flushLoop stop fuel ptr = none := by
  induction fuel generalizing ptr with
  | zero => rfl
  | succ fuel ih =>
      have hptr := ptr.toNat_lt
      have hlt : ptr < stop := by
        rw [UInt64.lt_iff_toNat_lt]
        omega
      have hnext : (ptr + 64).toNat % 64 = ptr.toNat % 64 := by
        simp only [UInt64.toNat_add, UInt64.reduceToNat]
        omega
      rw [flushLoop, if_pos hlt, ih (by rwa [hnext]), Option.map_none]

end Loop

/-! ## The lines of a range -/

section Range

variable {addr size : UInt64}

/-- The addresses flushed for a range, when the loop ends. -/
lemma flushCacheRegion_eq (hfits : addr.toNat + size.toNat < 2 ^ 64)
    (hwrap : addr.toNat + 64 * ((size.toNat + 63) / 64) < 2 ^ 64) :
    flushCacheRegion ((size.toNat + 63) / 64 + 1) addr size =
      some ((List.range ((size.toNat + 63) / 64)).map fun i =>
        UInt64.ofNat (addr.toNat + 64 * i)) := by
  have hstop : (addr + size).toNat = addr.toNat + size.toNat := by
    rw [UInt64.toNat_add, Nat.mod_eq_of_lt hfits]
  apply flushLoop_eq <;> omega

/-- The loop flushes the lines that `linesOf` says. -/
lemma flushedLines_eq {L : Type} {address : L → ShmOffset} {r : AccessProgram.Range L}
    (hsize : r.bytes = size.toNat) (hfits : (address r.start).toNat + size.toNat < 2 ^ 64)
    (hwrap : (address r.start).toNat + 64 * ((size.toNat + 63) / 64) < 2 ^ 64) :
    ∃ flushed, flushCacheRegion ((size.toNat + 63) / 64 + 1) (address r.start) size =
        some flushed ∧
      ∀ ln, (linesOf address).flushed r ln = true ↔ ∃ p ∈ flushed, p.toNat / 64 = ln := by
  refine ⟨_, flushCacheRegion_eq hfits hwrap, fun ln => ?_⟩
  simp only [linesOf, hsize, List.any_eq_true, List.mem_range, beq_iff_eq, List.mem_map,
    exists_exists_and_eq_and, lineAt, UInt64.toNat_ofNat']

/-- **Which ranges are flushed as a whole.** -/
lemma flushCacheRegion_covers_iff (hpos : 0 < size) (hfits : addr.toNat + size.toNat < 2 ^ 64) :
    CoversRange (fun fuel => flushCacheRegion fuel addr size) addr size ↔
      StepsToEnd addr size := by
  rw [UInt64.lt_iff_toNat_lt, UInt64.toNat_zero] at hpos
  have hstop : (addr + size).toNat = addr.toNat + size.toNat := by
    rw [UInt64.toNat_add, Nat.mod_eq_of_lt hfits]
  have hword : UInt64.size = 2 ^ 64 := rfl
  unfold StepsToEnd
  constructor
  · rintro ⟨fuel, flushed, hflushed, hcovers⟩
    change flushCacheRegion fuel addr size = some flushed at hflushed
    have hends : addr.toNat + size.toNat ≤ 2 ^ 64 - 64 + addr.toNat % 64 := by
      by_contra hlong
      rw [flushCacheRegion, flushLoop_eq_none (by omega)] at hflushed
      cases hflushed
    have hwrap : addr.toNat + 64 * ((size.toNat + 63) / 64) < 2 ^ 64 := by omega
    obtain rfl := flushLoop_unique hflushed (flushCacheRegion_eq hfits hwrap)
    -- the line of the last byte is among those flushed
    obtain ⟨p, hp, hline⟩ := hcovers (addr.toNat + size.toNat - 1) (by omega) (by omega)
    obtain ⟨i, hi, rfl⟩ := List.mem_map.1 hp
    rw [List.mem_range] at hi
    rw [UInt64.toNat_ofNat_of_lt' (by omega)] at hline
    omega
  · rintro ⟨hsteps, hend⟩
    have hwrap : addr.toNat + 64 * ((size.toNat + 63) / 64) < 2 ^ 64 := by omega
    refine ⟨_, _, flushCacheRegion_eq hfits hwrap, fun a hle hlt => ?_⟩
    refine ⟨UInt64.ofNat (addr.toNat + 64 * (a / 64 - addr.toNat / 64)),
      List.mem_map.2 ⟨a / 64 - addr.toNat / 64, List.mem_range.2 (by omega), rfl⟩, ?_⟩
    rw [UInt64.toNat_ofNat_of_lt' (by omega)]
    omega

/-- A call with a null pointer, or on a region that is not mapped, flushes nothing. -/
lemma flushCache_covers_iff (shm : SharedMemoryRegion) (hpos : 0 < size)
    (hfits : addr.toNat + size.toNat < 2 ^ 64) :
    CoversRange (fun fuel => shm.flushCache .softwareConsistency fuel addr size) addr size ↔
      (shm.valid = true ∧ addr ≠ 0) ∧ StepsToEnd addr size := by
  have hsize : size ≠ 0 := (UInt64.ne_of_lt hpos).symm
  have hbytes : 0 < size.toNat := UInt64.lt_iff_toNat_lt.1 hpos
  by_cases hpassed : shm.valid = true ∧ addr ≠ 0
  · rw [and_iff_right hpassed, ← flushCacheRegion_covers_iff hpos hfits]
    simp only [SharedMemoryRegion.flushCache, hpassed.1, hpassed.2, hsize, Bool.true_eq_false,
      or_self, reduceCtorEq, if_false]
  · refine iff_of_false ?_ fun h => hpassed h.1
    rintro ⟨fuel, flushed, hflushed, hcovers⟩
    have hnothing : shm.valid = false ∨ addr = 0 ∨ size = 0 := by
      rw [not_and_or, Bool.not_eq_true, not_not] at hpassed
      exact hpassed.imp_right .inl
    simp only [SharedMemoryRegion.flushCache, if_pos hnothing, Option.some.injEq] at hflushed
    obtain ⟨p, hp, -⟩ := hcovers addr.toNat (by omega) (by omega)
    rw [← hflushed] at hp
    cases hp

end Range

/-- **Every touched line is flushed** exactly when stepping by 64 from the begin of the range
gets to its last line; so it is for `flush_cache` and `invalidate_cache` of a mapped region. -/
theorem flush_covers_iff (shm : SharedMemoryRegion) (addr size : UInt64) (hpos : 0 < size)
    (hfits : addr.toNat + size.toNat < 2 ^ 64) :
    (CoversRange (fun fuel => flushCacheRegion fuel addr size) addr size ↔
        StepsToEnd addr size) ∧
      (CoversRange (fun fuel => shm.flushCache .softwareConsistency fuel addr size) addr size ↔
        (shm.valid = true ∧ addr ≠ 0) ∧ StepsToEnd addr size) ∧
      (CoversRange (fun fuel => shm.invalidateCache .softwareConsistency fuel addr size)
          addr size ↔
        (shm.valid = true ∧ addr ≠ 0) ∧ StepsToEnd addr size) :=
  ⟨flushCacheRegion_covers_iff hpos hfits, flushCache_covers_iff shm hpos hfits,
    flushCache_covers_iff shm hpos hfits⟩

/-- A record of the node registry at the begin of a page. -/
theorem flush_covers_iff_page :
    CoversRange (fun fuel => flushCacheRegion fuel 4096 160) 4096 160 :=
  (flush_covers_iff ⟨true, 8192⟩ 4096 160 (by decide) (by decide)).1.2 (by decide)

/-- A record of the node registry 40 bytes behind the begin of a page: its last eight bytes,
which are the heartbeat, are in a line that is not flushed. -/
theorem unaligned_record_unflushed : ¬ ∀ addr size : UInt64, 0 < size →
    addr.toNat + size.toNat < 2 ^ 64 →
    CoversRange (fun fuel => flushCacheRegion fuel addr size) addr size := by
  intro h
  have hsteps := (flushCacheRegion_covers_iff (by decide) (by decide)).1
    (h 4136 160 (by decide) (by decide))
  exact absurd hsteps (by decide)

end CxlLock
