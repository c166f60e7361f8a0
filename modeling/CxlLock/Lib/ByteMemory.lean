import Mathlib.Logic.Function.Basic
import Mathlib.Tactic.Ring

/-!
# Memory as bytes, and values stored in it

A memory gives a byte for every address.  `load` and `store` move lists of bytes; what a load
sees of an earlier store is settled by the two lemmas `load_store_self` and
`load_store_of_disjoint`, and a store of a concatenation is the stores of its parts one after
the other (`store_append`), so that the fields of a record can be read back one by one.

A `Codec` is a fixed-size representation of a type, with the proof that decoding reverses
encoding.  Where records lie in a table, they are the cells of it: different cells are disjoint,
and all of them lie within the table (`Extent.cell_disjoint`, `Extent.cell_within`).
-/

namespace ByteMemory

universe u

/-- The byte at every address. -/
abbrev Memory := Nat → UInt8

/-- The bytes from an address on. -/
def load (m : Memory) (addr len : Nat) : List UInt8 :=
  (List.range len).map fun i => m (addr + i)

/-- Overwrite the bytes from an address on. -/
def store (m : Memory) (addr : Nat) (bytes : List UInt8) : Memory := fun a =>
  if addr ≤ a then bytes[a - addr]?.getD (m a) else m a

section LoadStore

variable (m : Memory) (addr : Nat) (bytes : List UInt8)

@[simp] lemma load_length (len : Nat) : (load m addr len).length = len := by
  simp [load]

/-- The byte at an address that the store does not cover. -/
lemma store_of_disjoint {a : Nat} (h : a < addr ∨ addr + bytes.length ≤ a) :
    store m addr bytes a = m a := by
  unfold store
  split_ifs with hle
  · rw [List.getElem?_eq_none (by omega), Option.getD_none]
  · rfl

/-- The byte at an address that the store covers. -/
lemma store_of_covered {i : Nat} (h : i < bytes.length) :
    store m addr bytes (addr + i) = bytes[i] := by
  simp [store, h]

/-- A load of what has just been stored. -/
@[simp] lemma load_store_self : load (store m addr bytes) addr bytes.length = bytes := by
  apply List.ext_getElem
  · simp
  · intro i _ hi
    simp [load, store_of_covered m addr bytes hi]

/-- A load next to a store. -/
lemma load_store_of_disjoint {a len : Nat} (h : a + len ≤ addr ∨ addr + bytes.length ≤ a) :
    load (store m addr bytes) a len = load m a len := by
  unfold load
  apply List.map_congr_left
  intro i hi
  rw [List.mem_range] at hi
  apply store_of_disjoint
  omega

/-- Storing a concatenation, part by part. -/
lemma store_append (more : List UInt8) :
    store m addr (bytes ++ more) = store (store m addr bytes) (addr + bytes.length) more := by
  funext a
  by_cases hlow : a < addr ∨ addr + bytes.length ≤ a
  · rcases hlow with hlt | hge
    · rw [store_of_disjoint m addr _ (.inl hlt), store_of_disjoint _ _ _ (.inl (by omega)),
        store_of_disjoint m addr _ (.inl hlt)]
    · have hle : addr ≤ a := by omega
      have hsub : a - addr - bytes.length = a - (addr + bytes.length) := by omega
      have hpast : bytes[a - addr]? = none := List.getElem?_eq_none (by omega)
      simp only [store, hle, hge, if_true]
      rw [List.getElem?_append_right (by omega), hsub, hpast, Option.getD_none]
  · obtain ⟨i, rfl⟩ : ∃ i, a = addr + i := ⟨a - addr, by omega⟩
    have hi : i < bytes.length := by omega
    rw [store_of_covered m addr _ (by simp; omega), store_of_disjoint _ _ _ (.inl (by omega)),
      store_of_covered m addr _ hi, List.getElem_append_left hi]

end LoadStore

/-! ## Values -/

/-- A representation of the values of a type as bytes, all of the same number. -/
structure Codec (α : Type u) where
  size : Nat
  encode : α → List UInt8
  decode : List UInt8 → α
  encode_length : ∀ v, (encode v).length = size
  decode_encode : ∀ v, decode (encode v) = v

namespace Codec

variable {α : Type u} (c : Codec α)

/-- The value at an address. -/
def load (m : Memory) (addr : Nat) : α := c.decode (ByteMemory.load m addr c.size)

/-- Store a value at an address. -/
def store (m : Memory) (addr : Nat) (v : α) : Memory := ByteMemory.store m addr (c.encode v)

variable (m : Memory) (addr : Nat) (v : α)

@[simp] lemma load_store_self : c.load (c.store m addr v) addr = v := by
  have h := ByteMemory.load_store_self m addr (c.encode v)
  rw [c.encode_length] at h
  rw [load, store, h, c.decode_encode]

/-- The same for a store of the encoded value. -/
@[simp] lemma load_store_encode : c.load (ByteMemory.store m addr (c.encode v)) addr = v :=
  c.load_store_self m addr v

/-- A value next to a store of bytes. -/
lemma load_of_disjoint {a : Nat} {bytes : List UInt8}
    (h : a + c.size ≤ addr ∨ addr + bytes.length ≤ a) :
    c.load (ByteMemory.store m addr bytes) a = c.load m a := by
  rw [load, load_store_of_disjoint m addr bytes h, load]

/-- A value next to a store of another value. -/
lemma load_store_of_disjoint {β : Type u} (d : Codec β) (w : β) {a : Nat}
    (h : a + c.size ≤ addr ∨ addr + d.size ≤ a) :
    c.load (d.store m addr w) a = c.load m a :=
  c.load_of_disjoint m addr (by rwa [d.encode_length])

end Codec

/-! ## Unsigned integers, least significant byte first -/

/-- The lowest `width` bytes of a number. -/
def littleEndian : Nat → Nat → List UInt8
  | 0, _ => []
  | width + 1, n => UInt8.ofNat n :: littleEndian width (n / 256)

/-- The number with the given bytes. -/
def ofLittleEndian (bytes : List UInt8) : Nat :=
  bytes.foldr (fun b n => b.toNat + 256 * n) 0

@[simp] lemma littleEndian_length (width n : Nat) : (littleEndian width n).length = width := by
  induction width generalizing n with
  | zero => rfl
  | succ width ih => simp [littleEndian, ih]

lemma ofLittleEndian_littleEndian {width n : Nat} (h : n < 256 ^ width) :
    ofLittleEndian (littleEndian width n) = n := by
  induction width generalizing n with
  | zero =>
      rw [pow_zero] at h
      simp [littleEndian, ofLittleEndian]
      omega
  | succ width ih =>
      have hrest : n / 256 < 256 ^ width := by
        rw [Nat.div_lt_iff_lt_mul (by omega), ← pow_succ]
        exact h
      have hbyte : (UInt8.ofNat n).toNat = n % 256 := by simp
      have htail := ih hrest
      rw [ofLittleEndian] at htail
      rw [littleEndian, ofLittleEndian, List.foldr_cons, htail, hbyte]
      omega

/-- `uint32_t`. -/
def word32 : Codec UInt32 where
  size := 4
  encode v := littleEndian 4 v.toNat
  decode bytes := UInt32.ofNat (ofLittleEndian bytes)
  encode_length _ := littleEndian_length 4 _
  decode_encode v := by
    rw [ofLittleEndian_littleEndian (by have := v.toNat_lt; omega), UInt32.ofNat_toNat]

/-- `uint64_t`. -/
def word64 : Codec UInt64 where
  size := 8
  encode v := littleEndian 8 v.toNat
  decode bytes := UInt64.ofNat (ofLittleEndian bytes)
  encode_length _ := littleEndian_length 8 _
  decode_encode v := by
    rw [ofLittleEndian_littleEndian (by have := v.toNat_lt; omega), UInt64.ofNat_toNat]

/-- `bool`, one byte. -/
def flag : Codec Bool where
  size := 1
  encode v := [if v then 1 else 0]
  decode bytes := bytes.headD 0 != 0
  encode_length _ := rfl
  decode_encode v := by cases v <;> rfl

/-- An array of `k` characters. -/
def chars (k : Nat) : Codec (Fin k → UInt8) where
  size := k
  encode v := List.ofFn v
  decode bytes := fun i => bytes.getD i 0
  encode_length v := List.length_ofFn
  decode_encode v := by
    funext i
    simp

/-! ## Ranges and tables of cells -/

/-- A number of bytes from an address on. -/
structure Extent where
  start : Nat
  bytes : Nat

namespace Extent

variable (r r' : Extent)

/-- The ranges have no byte in common. -/
def Disjoint : Prop := r.start + r.bytes ≤ r'.start ∨ r'.start + r'.bytes ≤ r.start

/-- All bytes of the first range are bytes of the second. -/
def Within : Prop := r'.start ≤ r.start ∧ r.start + r.bytes ≤ r'.start + r'.bytes

/-- The cell with index `i` of a table of cells of one size. -/
def cell (base size i : Nat) : Extent := ⟨base + i * size, size⟩

variable {base size i j count : Nat}

/-- Different cells have no byte in common. -/
lemma cell_disjoint (h : i ≠ j) : (cell base size i).Disjoint (cell base size j) := by
  have hstep {a b : Nat} (hab : a < b) : base + a * size + size ≤ base + b * size := by
    have hmul := Nat.mul_le_mul_right size hab
    rw [Nat.succ_mul] at hmul
    omega
  rcases Nat.lt_or_gt_of_ne h with hlt | hlt
  · exact .inl (hstep hlt)
  · exact .inr (hstep hlt)

/-- The cells of a table lie within it. -/
lemma cell_within (h : i < count) : (cell base size i).Within ⟨base, count * size⟩ := by
  have hmul := Nat.mul_le_mul_right size (Nat.succ_le_of_lt h)
  rw [Nat.succ_mul] at hmul
  constructor
  · exact Nat.le_add_right base (i * size)
  · show base + i * size + size ≤ base + count * size
    omega

/-- In a table of rows of `n` cells, the cells of different rows or columns are different. -/
lemma row_cell_inj {n a b c d : Nat} (hb : b < n) (hd : d < n) (h : a * n + b = c * n + d) :
    a = c ∧ b = d := by
  have hpos : 0 < n := Nat.zero_lt_of_lt hb
  have hmod := congrArg (· % n) h
  simp only [Nat.mul_add_mod_self_right, Nat.mod_eq_of_lt hb, Nat.mod_eq_of_lt hd] at hmod
  subst hmod
  exact ⟨Nat.eq_of_mul_eq_mul_right hpos (Nat.add_right_cancel h), rfl⟩

end Extent

section Sizes

@[simp] lemma word32_size : word32.size = 4 := rfl
@[simp] lemma word64_size : word64.size = 8 := rfl
@[simp] lemma flag_size : flag.size = 1 := rfl
@[simp] lemma chars_size (k : Nat) : (chars k).size = k := rfl

end Sizes

end ByteMemory
