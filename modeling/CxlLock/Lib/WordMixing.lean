import Mathlib.Data.Int.CardIntervalMod
import Mathlib.Data.Int.GCD
import Mathlib.Data.Nat.Prime.Basic
import Mathlib.SetTheory.Cardinal.Finite

/-!
# Mixing the bits of a word, and remainders of words

Hash functions of fixed width are built from two kinds of steps that lose nothing: the xor of a
word with its own right shift (`xorShift_bijective`) and the product with an odd constant
(`mul_bijective_of_odd`).  Taking in the words of a list by xor and product loses nothing
either, even of the lowest bits (`setWidth_foldl_xorMul_ne`).  The remainder at the end does
lose something; how many words have a given remainder is `card_remainder`, whatever bijection
has numbered them.
-/

namespace WordMixing

open scoped Count

section Steps

variable {w : Nat}

/-- The xor of a word with its right shift. -/
def xorShift (s : Nat) (x : BitVec w) : BitVec w := x ^^^ (x >>> s)

/-- A shift by half the width or more is undone by doing it again. -/
lemma xorShift_xorShift {s : Nat} (hs : w ≤ 2 * s) (x : BitVec w) :
    xorShift s (xorShift s x) = x := by
  apply BitVec.eq_of_getLsbD_eq
  intro i hi
  have hgone : x.getLsbD (s + (s + i)) = false := BitVec.getLsbD_of_ge x _ (by omega)
  simp only [xorShift, BitVec.getLsbD_xor, BitVec.getLsbD_ushiftRight, hgone]
  cases x.getLsbD i <;> cases x.getLsbD (s + i) <;> rfl

lemma xorShift_bijective {s : Nat} (hs : w ≤ 2 * s) :
    Function.Bijective (xorShift s : BitVec w → BitVec w) :=
  Function.Involutive.bijective (xorShift_xorShift hs)

/-- An odd constant has an inverse modulo a power of two. -/
lemma exists_inverse_of_odd (hw : 0 < w) {a : BitVec w} (ha : Odd a.toNat) :
    ∃ b : BitVec w, a * b = 1#w := by
  have hcoprime : Nat.Coprime a.toNat (2 ^ w) := (Nat.coprime_two_right.2 ha).pow_right w
  have hone : 1 < 2 ^ w := Nat.one_lt_two_pow hw.ne'
  obtain ⟨m, -, hm⟩ := Nat.exists_mul_mod_eq_one_of_coprime hcoprime hone
  refine ⟨BitVec.ofNat w m, BitVec.eq_of_toNat_eq ?_⟩
  rw [BitVec.toNat_mul, BitVec.toNat_ofNat, Nat.mul_mod_mod, hm, BitVec.toNat_ofNat,
    Nat.mod_eq_of_lt hone]

/-- The product with an odd constant. -/
lemma mul_bijective_of_odd (hw : 0 < w) {a : BitVec w} (ha : Odd a.toNat) :
    Function.Bijective fun x : BitVec w => x * a := by
  obtain ⟨b, hb⟩ := exists_inverse_of_odd hw ha
  refine Function.bijective_iff_has_inverse.2 ⟨fun x => x * b, fun x => ?_, fun x => ?_⟩
  · show x * a * b = x
    rw [BitVec.mul_assoc, hb, BitVec.mul_one]
  · show x * b * a = x
    rw [BitVec.mul_assoc, BitVec.mul_comm b a, hb, BitVec.mul_one]

end Steps

/-! ## Words taken in one after the other

A hash of a whole list takes in one word after the other by xor, each time followed by a
product.  Neither operation carries anything from the high bits to the low ones, so that what
the lowest bits come to is a hash of the lowest bits. -/

section Lists

variable {w : Nat}

/-- The hash with one word taken in. -/
def xorMul (p hash x : BitVec w) : BitVec w := (hash ^^^ x) * p

lemma xorMul_left_injective (hw : 0 < w) {p : BitVec w} (hp : Odd p.toNat) (x : BitVec w) :
    Function.Injective fun hash => xorMul p hash x := by
  intro hash hash' h
  have hxor : hash ^^^ x = hash' ^^^ x := (mul_bijective_of_odd hw hp).injective h
  exact (BitVec.xor_left_inj x).1 hxor

lemma xorMul_right_injective (hw : 0 < w) {p : BitVec w} (hp : Odd p.toNat) (hash : BitVec w) :
    Function.Injective (xorMul p hash) := by
  intro x x' h
  have hxor : hash ^^^ x = hash ^^^ x' := (mul_bijective_of_odd hw hp).injective h
  exact (BitVec.xor_right_inj hash).1 hxor

/-- Different hashes stay different, whatever is taken in by both. -/
lemma foldl_xorMul_injective (hw : 0 < w) {p : BitVec w} (hp : Odd p.toNat)
    (xs : List (BitVec w)) : Function.Injective fun hash => xs.foldl (xorMul p) hash := by
  induction xs with
  | nil => exact Function.injective_id
  | cons x xs ih => exact ih.comp (xorMul_left_injective hw hp x)

/-- A word in the middle makes a difference. -/
lemma foldl_xorMul_ne (hw : 0 < w) {p : BitVec w} (hp : Odd p.toNat) {x x' : BitVec w}
    (hx : x ≠ x') (hash : BitVec w) (before after : List (BitVec w)) :
    (before ++ x :: after).foldl (xorMul p) hash ≠
      (before ++ x' :: after).foldl (xorMul p) hash := by
  rw [List.foldl_append, List.foldl_append, List.foldl_cons, List.foldl_cons]
  intro h
  have hstep := foldl_xorMul_injective hw hp after h
  exact hx (xorMul_right_injective hw hp _ hstep)

lemma setWidth_xorMul {k : Nat} (hk : k ≤ w) (p hash x : BitVec w) :
    (xorMul p hash x).setWidth k =
      xorMul (p.setWidth k) (hash.setWidth k) (x.setWidth k) := by
  rw [xorMul, BitVec.setWidth_mul _ _ hk, BitVec.setWidth_xor, xorMul]

lemma setWidth_foldl_xorMul {k : Nat} (hk : k ≤ w) (p hash : BitVec w) (xs : List (BitVec w)) :
    (xs.foldl (xorMul p) hash).setWidth k =
      (xs.map (BitVec.setWidth k)).foldl (xorMul (p.setWidth k)) (hash.setWidth k) := by
  induction xs generalizing hash with
  | nil => rfl
  | cons x xs ih => rw [List.foldl_cons, ih, setWidth_xorMul hk, List.map_cons, List.foldl_cons]

lemma odd_setWidth {k : Nat} (hk : 0 < k) {p : BitVec w} (hp : Odd p.toNat) :
    Odd (p.setWidth k).toNat := by
  rw [BitVec.toNat_setWidth, Nat.odd_iff, Nat.mod_mod_of_dvd _ (dvd_pow_self 2 hk.ne')]
  exact Nat.odd_iff.1 hp

/-- The lowest bits see a difference within the lowest bits. -/
lemma setWidth_foldl_xorMul_ne {k : Nat} (hk : 0 < k) (hkw : k ≤ w) {p : BitVec w}
    (hp : Odd p.toNat) {x x' : BitVec w} (hx : x.setWidth k ≠ x'.setWidth k) (hash : BitVec w)
    (before after : List (BitVec w)) :
    ((before ++ x :: after).foldl (xorMul p) hash).setWidth k ≠
      ((before ++ x' :: after).foldl (xorMul p) hash).setWidth k := by
  rw [setWidth_foldl_xorMul hkw, setWidth_foldl_xorMul hkw]
  simp only [List.map_append, List.map_cons]
  exact foldl_xorMul_ne hk (odd_setWidth hk hp) hx _ _ _

/-- Two lists of one length that differ in exactly one position. -/
def DifferInOne {α : Type*} (xs ys : List α) : Prop :=
  xs.length = ys.length ∧ ∃! i : Nat, xs[i]? ≠ ys[i]?

/-- What is before the position and what is after it is the same. -/
lemma DifferInOne.split {α : Type*} {xs ys : List α} (h : DifferInOne xs ys) :
    ∃ before x y after, x ≠ y ∧ xs = before ++ x :: after ∧ ys = before ++ y :: after := by
  obtain ⟨hlength, i, hi, honly⟩ := h
  have hsame (j : Nat) (hj : j ≠ i) : xs[j]? = ys[j]? := by
    by_contra hdiffer
    exact hj (honly j hdiffer)
  have hx : i < xs.length := by
    by_contra hout
    exact hi (by rw [List.getElem?_eq_none (by omega), List.getElem?_eq_none (by omega)])
  have hy : i < ys.length := hlength ▸ hx
  have hbefore : xs.take i = ys.take i := by
    apply List.ext_getElem?
    intro j
    rw [List.getElem?_take, List.getElem?_take]
    split_ifs with hj
    · exact hsame j (by omega)
    · rfl
  have hafter : xs.drop (i + 1) = ys.drop (i + 1) := by
    apply List.ext_getElem?
    intro j
    rw [List.getElem?_drop, List.getElem?_drop]
    exact hsame _ (by omega)
  refine ⟨xs.take i, xs[i], ys[i], xs.drop (i + 1), ?_, ?_, ?_⟩
  · intro heq
    exact hi (by rw [List.getElem?_eq_getElem hx, List.getElem?_eq_getElem hy, heq])
  · rw [List.getElem_cons_drop hx, List.take_append_drop]
  · rw [hbefore, hafter, List.getElem_cons_drop hy, List.take_append_drop]

end Lists

/-! ## Remainders -/

section Remainders

universe u

variable {α : Type u}

/-- How many values leave the remainder `l`, when the values are numbered from 0 on. -/
lemma card_remainder {size : Nat} {number : α → Fin size} (hnumber : Function.Bijective number)
    {c l : Nat} (hl : l < c) :
    Nat.card {x : α // (number x : Nat) % c = l} =
      size / c + if l < size % c then 1 else 0 := by
  have hcount : Nat.card {x : α // (number x : Nat) % c = l} = size.count (· ≡ l [MOD c]) := by
    have hsame (x : α) : (number x : Nat) % c = l ↔
        ((Fin.equivSubtype (number x) : {i // i < size}) : Nat) ≡ l [MOD c] := by
      rw [Nat.ModEq, Nat.mod_eq_of_lt hl]
      exact Iff.rfl
    have below := ((Equiv.ofBijective number hnumber).trans Fin.equivSubtype).subtypeEquiv
      (q := fun i : {i // i < size} => (i : Nat) ≡ l [MOD c]) hsame
    rw [Nat.card_congr (below.trans (Equiv.subtypeSubtypeEquivSubtypeInter _ (· ≡ l [MOD c]))),
      Nat.count_eq_card_fintype, Nat.card_eq_fintype_card]
  rw [hcount, Nat.count_modEq_card size (Nat.zero_lt_of_lt hl), Nat.mod_eq_of_lt hl]

/-- The same in words: the numbers of values differ by at most one between remainders. -/
lemma card_remainder_floor_or_ceil {size : Nat} {number : α → Fin size}
    (hnumber : Function.Bijective number) {c l : Nat} (hl : l < c) :
    Nat.card {x : α // (number x : Nat) % c = l} = size / c ∨
      Nat.card {x : α // (number x : Nat) % c = l} = (size + (c - 1)) / c := by
  have hc : 0 < c := Nat.zero_lt_of_lt hl
  rw [card_remainder hnumber hl]
  split_ifs with hrest
  · right
    have hsize := Nat.div_add_mod size c
    have hlt := Nat.mod_lt size hc
    have hsum : size + (c - 1) = (size % c - 1) + c * (size / c + 1) := by
      rw [Nat.mul_add, Nat.mul_one]
      omega
    have hnone : (size % c - 1) / c = 0 := Nat.div_eq_of_lt (by omega)
    rw [hsum, Nat.add_mul_div_left _ _ hc, hnone, Nat.zero_add]
  · left
    rfl

end Remainders

end WordMixing
