import CxlLock.Lib.WordMixing
import CxlLock.SystemLifecycle
import CxlLock.Types

/-!
# From data ids and data keys to lock ids (`two_tier_lock.cpp`)

`hash_data_to_lock_id` of a 64-bit data id mixes its bits by three shifts and two products and
takes the remainder by the number of locks.  No step before the remainder loses anything, so
that all locks get the same number of data ids, up to one (`id_hash_balanced`).

`hash_data_to_lock_id` of a byte key takes in one byte after the other.  With a power of two of
locks, 256 or more, a byte that differs shows in the bits that the remainder keeps
(`key_hash_separates`).
-/

namespace CxlLock

open WordMixing

namespace TwoTierLock

/-- The steps of `hash_data_to_lock_id` before the remainder. -/
def mixDataId (dataId : UInt64) : UInt64 :=
  let hash := dataId
  let hash := hash ^^^ (hash >>> 33)
  let hash := hash * 0xff51afd7ed558ccd
  let hash := hash ^^^ (hash >>> 33)
  let hash := hash * 0xc4ceb9fe1a85ec53
  hash ^^^ (hash >>> 33)

/-- `TwoTierLock::hash_data_to_lock_id` of a data id; `none` is the remainder by zero. -/
def hashDataToLockId (dataId : UInt64) (lockCount : UInt32) : Option LockId :=
  if lockCount = 0 then none else some (mixDataId dataId % lockCount.toUInt64).toUInt32

/-! ## The mixing loses nothing -/

lemma toBitVec_mixDataId (dataId : UInt64) : (mixDataId dataId).toBitVec =
    xorShift 33 (xorShift 33 (xorShift 33 dataId.toBitVec * 0xff51afd7ed558ccd#64) *
      0xc4ceb9fe1a85ec53#64) := rfl

lemma mixDataId_bijective : Function.Bijective mixDataId := by
  have hbits : Function.Bijective UInt64.toBitVec :=
    Function.bijective_iff_has_inverse.2 ⟨UInt64.ofBitVec, fun _ => rfl, fun _ => rfl⟩
  have hshift : Function.Bijective (xorShift 33 : BitVec 64 → BitVec 64) :=
    xorShift_bijective (by decide)
  have hfirst : Function.Bijective fun x : BitVec 64 => x * 0xff51afd7ed558ccd#64 :=
    mul_bijective_of_odd (by decide) (by decide)
  have hsecond : Function.Bijective fun x : BitVec 64 => x * 0xc4ceb9fe1a85ec53#64 :=
    mul_bijective_of_odd (by decide) (by decide)
  have hmix : Function.Bijective (UInt64.toBitVec ∘ mixDataId) := by
    rw [show UInt64.toBitVec ∘ mixDataId = _ from funext toBitVec_mixDataId]
    exact hshift.comp (hsecond.comp (hshift.comp (hfirst.comp (hshift.comp hbits))))
  exact (Function.Bijective.of_comp_iff' hbits mixDataId).1 hmix

/-- Which lock a data id goes to. -/
lemma hashDataToLockId_eq_some {dataId : UInt64} {lockCount : UInt32} {l : LockId}
    (hl : l < lockCount) : hashDataToLockId dataId lockCount = some l ↔
      ((mixDataId dataId).toFin : Nat) % lockCount.toNat = l.toNat := by
  have hpos : lockCount ≠ 0 := by
    rintro rfl
    exact absurd hl UInt32.not_lt_zero
  have hlt := lockCount.toNat_lt
  have hmod := Nat.mod_lt (mixDataId dataId).toNat (show 0 < lockCount.toNat from
    Nat.zero_lt_of_lt (UInt32.lt_iff_toNat_lt.1 hl))
  rw [hashDataToLockId, if_neg hpos, Option.some.injEq, ← UInt32.toNat_inj,
    UInt64.toNat_toUInt32, UInt64.toNat_mod, UInt32.toNat_toUInt64, Nat.mod_eq_of_lt (by omega)]
  exact Iff.rfl

/-- **The id hash is perfectly balanced.**  The steps before the remainder are a bijection, and
every lock id gets the floor or the ceiling of `2 ^ 64 / lock_count` data ids. -/
theorem id_hash_balanced (lockCount : UInt32) (l : LockId) (hl : l < lockCount) :
    Function.Bijective mixDataId ∧
      (Nat.card {dataId : UInt64 // hashDataToLockId dataId lockCount = some l} =
          2 ^ 64 / lockCount.toNat ∨
        Nat.card {dataId : UInt64 // hashDataToLockId dataId lockCount = some l} =
          (2 ^ 64 + (lockCount.toNat - 1)) / lockCount.toNat) := by
  have hnumber : Function.Bijective fun dataId => (mixDataId dataId).toFin := by
    have hfin : Function.Bijective UInt64.toFin :=
      Function.bijective_iff_has_inverse.2 ⟨UInt64.ofFin, fun _ => rfl, fun _ => rfl⟩
    exact hfin.comp mixDataId_bijective
  refine ⟨mixDataId_bijective, ?_⟩
  simp only [hashDataToLockId_eq_some hl]
  exact card_remainder_floor_or_ceil hnumber (UInt32.lt_iff_toNat_lt.1 hl)

/-- Three locks do not divide the data ids evenly. -/
theorem id_hash_balanced_three : Function.Bijective mixDataId ∧
    (Nat.card {dataId : UInt64 // hashDataToLockId dataId 3 = some 0} = 6148914691236517205 ∨
      Nat.card {dataId : UInt64 // hashDataToLockId dataId 3 = some 0} = 6148914691236517206) :=
  id_hash_balanced 3 0 (by decide)

end TwoTierLock

namespace SystemObject

/-! ## Byte keys -/

/-- The steps of the byte-key hash before the remainder, as a hash of words of 64 bits. -/
def keyBits (dataKey : List UInt8) : BitVec 64 :=
  (dataKey.map fun byte => byte.toUInt64.toBitVec).foldl (xorMul 1099511628211#64)
    14695981039346656037#64

lemma toBitVec_foldl_key (dataKey : List UInt8) (hash : UInt64) :
    (dataKey.foldl (fun hash byte => (hash ^^^ byte.toUInt64) * 1099511628211) hash).toBitVec =
      (dataKey.map fun byte => byte.toUInt64.toBitVec).foldl (xorMul 1099511628211#64)
        hash.toBitVec := by
  induction dataKey generalizing hash with
  | nil => rfl
  | cons byte dataKey ih => exact ih _

/-- The lock id is the hash modulo the number of locks. -/
lemma toNat_hashDataToLockId {dataKey : List UInt8} {lockCount : UInt32} {l : LockId}
    (h : hashDataToLockId dataKey lockCount = some l) :
    l.toNat = (keyBits dataKey).toNat % lockCount.toNat := by
  have hlt := UInt32.lt_iff_toNat_lt.1 (hashDataToLockId_lt h)
  unfold hashDataToLockId at h
  dsimp only at h
  split_ifs at h with hzero
  cases h
  have hmod : (keyBits dataKey).toNat % lockCount.toNat < lockCount.toNat :=
    Nat.mod_lt _ (by omega)
  have hcount := lockCount.toNat_lt
  rw [UInt64.toNat_toUInt32, UInt64.toNat_mod, UInt32.toNat_toUInt64, ← UInt64.toNat_toBitVec,
    toBitVec_foldl_key]
  exact Nat.mod_eq_of_lt (Nat.lt_trans hmod hcount)

/-- Bytes are told apart by any eight low bits or more. -/
lemma setWidth_byte_ne {k : Nat} (hk : 8 ≤ k) {byte byte' : UInt8} (h : byte ≠ byte') :
    byte.toUInt64.toBitVec.setWidth k ≠ byte'.toUInt64.toBitVec.setWidth k := by
  intro heq
  have hpow : 2 ^ 8 ≤ 2 ^ k := Nat.pow_le_pow_right (by omega) hk
  have hbyte := byte.toNat_lt
  have hbyte' := byte'.toNat_lt
  have hnat := congrArg BitVec.toNat heq
  rw [BitVec.toNat_setWidth, BitVec.toNat_setWidth, UInt64.toNat_toBitVec, UInt64.toNat_toBitVec,
    UInt8.toNat_toUInt64, UInt8.toNat_toUInt64, Nat.mod_eq_of_lt (by omega),
    Nat.mod_eq_of_lt (by omega)] at hnat
  exact h (UInt8.toNat_inj.1 hnat)

/-- The low bits of the hashes of near keys differ. -/
lemma setWidth_keyBits_ne {k : Nat} (hk : 8 ≤ k) (hk64 : k ≤ 64) {dataKey dataKey' : List UInt8}
    (h : DifferInOne dataKey dataKey') :
    (keyBits dataKey).setWidth k ≠ (keyBits dataKey').setWidth k := by
  obtain ⟨before, byte, byte', after, hbyte, rfl, rfl⟩ := h.split
  simp only [keyBits, List.map_append, List.map_cons]
  exact setWidth_foldl_xorMul_ne (by omega) hk64 (by decide) (setWidth_byte_ne hk hbyte) _ _ _

/-- **The byte-key hash separates near keys.**  With `2 ^ k` locks, `k` at least eight, two keys
of the same length that differ in one position get two lock ids; `k` is at most 31, as the number
of locks has 32 bits. -/
theorem key_hash_separates {k : Nat} {lockCount : UInt32} (hk : 8 ≤ k)
    (hcount : lockCount.toNat = 2 ^ k) {dataKey dataKey' : List UInt8}
    (h : DifferInOne dataKey dataKey') :
    ∃ l l', hashDataToLockId dataKey lockCount = some l ∧
      hashDataToLockId dataKey' lockCount = some l' ∧ l ≠ l' := by
  have hpos : 0 < 2 ^ k := Nat.two_pow_pos k
  have hdefined (key : List UInt8) : ∃ l, hashDataToLockId key lockCount = some l := by
    rw [← Option.ne_none_iff_exists', ne_eq, hashDataToLockId_eq_none, ← UInt32.toNat_inj]
    exact fun hzero => hpos.ne' (hcount.symm.trans hzero)
  obtain ⟨l, hl⟩ := hdefined dataKey
  obtain ⟨l', hl'⟩ := hdefined dataKey'
  refine ⟨l, l', hl, hl', ?_⟩
  rintro rfl
  have hk32 : k < 32 := (Nat.pow_lt_pow_iff_right (by omega)).1 (hcount ▸ lockCount.toNat_lt)
  apply setWidth_keyBits_ne hk (by omega) h
  apply BitVec.eq_of_toNat_eq
  rw [BitVec.toNat_setWidth, BitVec.toNat_setWidth, ← hcount, ← toNat_hashDataToLockId hl,
    ← toNat_hashDataToLockId hl']

/-- Two keys of three bytes and 1024 locks. -/
theorem key_hash_separates_bytes :
    ∃ l l', hashDataToLockId [1, 2, 3] 1024 = some l ∧
      hashDataToLockId [1, 5, 3] 1024 = some l' ∧ l ≠ l' :=
  key_hash_separates (k := 10) (by decide) (by decide)
    ⟨rfl, 1, by decide, fun i hi => by
      rcases i with _ | _ | _ | i
      · exact absurd rfl hi
      · rfl
      · exact absurd rfl hi
      · exact absurd rfl hi⟩

end SystemObject

end CxlLock
