import CxlLock.Types

/-!
# The lock word of the qspinlock (`qspinlock_global_lock.h`)

Bit 0 of the word is the locked bit, bit 1 the pending bit, and bits 2 to 17 hold the tail
index: the id of the last node of the queue plus one, or 0 for an empty queue.
-/

namespace CxlLock.Qspinlock

/-- Extract the locked bit. -/
def qspinLocked (word : UInt32) : UInt32 := word &&& (0x1 : UInt32)

/-- Extract the tail index. -/
def qspinTailIdx (word : UInt32) : UInt32 := (word >>> (2 : UInt32)) &&& (0xFFFF : UInt32)

/-- The word with a new tail index, locked and pending bits kept. -/
def qspinSetTail (oldWord tailIdx : UInt32) : UInt32 :=
  (oldWord &&& (0x3 : UInt32)) ||| (tailIdx <<< (2 : UInt32))

/-- Node id of a tail index. -/
def qspinTailToNode (tailIdx : UInt32) : NodeId :=
  if tailIdx = 0 then invalidNodeId else tailIdx - 1

/-- Tail index of a node id. -/
def qspinNodeToTail (nodeId : NodeId) : UInt32 := nodeId + 1

/-- The word of a held lock whose queue ends at the given tail index: `(tail << 2) | 0x1`. -/
def qspinHeldWord (tailIdx : UInt32) : UInt32 := (tailIdx <<< (2 : UInt32)) ||| (0x1 : UInt32)

/-! ## How the fields combine -/

lemma qspinHeldWord_eq (t : UInt32) : qspinHeldWord t = qspinSetTail 1 t := by
  have h : (1 : UInt32) &&& (0x3 : UInt32) = 0x1 := by decide
  rw [qspinHeldWord, qspinSetTail, h, UInt32.or_comm]

lemma qspinLocked_setTail (w t : UInt32) : qspinLocked (qspinSetTail w t) = qspinLocked w := by
  have hmask : (3 : ℕ) &&& 1 = 1 := rfl
  have hshift : t.toNat <<< 2 % 2 ^ 32 &&& 1 = 0 := by
    rw [Nat.and_one_is_mod, Nat.shiftLeft_eq]
    omega
  apply UInt32.toNat_inj.1
  simp only [qspinLocked, qspinSetTail, UInt32.toNat_and, UInt32.toNat_or,
    UInt32.toNat_shiftLeft, UInt32.reduceToNat, Nat.reduceMod]
  rw [Nat.and_or_distrib_right, Nat.and_assoc, hmask, hshift, Nat.or_zero]

lemma qspinLocked_heldWord (t : UInt32) : qspinLocked (qspinHeldWord t) = 1 := by
  rw [qspinHeldWord_eq, qspinLocked_setTail]
  decide

lemma qspinTailIdx_setTail (w : UInt32) {t : UInt32} (ht : t.toNat < 2 ^ 16) :
    qspinTailIdx (qspinSetTail w t) = t := by
  have hlow : w.toNat &&& 3 < 2 ^ 2 := Nat.lt_of_le_of_lt Nat.and_le_right (by decide)
  have hfit : t.toNat <<< 2 < 2 ^ 32 := by rw [Nat.shiftLeft_eq]; omega
  apply UInt32.toNat_inj.1
  simp only [qspinTailIdx, qspinSetTail, UInt32.toNat_and, UInt32.toNat_or,
    UInt32.toNat_shiftLeft, UInt32.toNat_shiftRight, UInt32.reduceToNat, Nat.reduceMod]
  rw [Nat.mod_eq_of_lt hfit, Nat.shiftRight_or_distrib, Nat.shiftLeft_shiftRight,
    Nat.shiftRight_eq_div_pow (w.toNat &&& 3), Nat.div_eq_of_lt hlow, Nat.zero_or,
    Nat.and_two_pow_sub_one_eq_mod _ 16, Nat.mod_eq_of_lt ht]

lemma qspinTailIdx_heldWord {t : UInt32} (ht : t.toNat < 2 ^ 16) :
    qspinTailIdx (qspinHeldWord t) = t := by
  rw [qspinHeldWord_eq, qspinTailIdx_setTail 1 ht]

lemma qspinHeldWord_ne_zero (t : UInt32) : qspinHeldWord t ≠ 0 := fun h => by
  have := qspinLocked_heldWord t
  rw [h] at this
  exact absurd this (by decide)

lemma qspinSetTail_ne_zero (w : UInt32) {t : UInt32} (ht : t.toNat < 2 ^ 16) (h0 : t ≠ 0) :
    qspinSetTail w t ≠ 0 := fun h => by
  have := qspinTailIdx_setTail w ht
  rw [h] at this
  exact h0 (this.symm.trans (by decide))

/-! ## Tail indices of node ids -/

section NodeIds

variable {n m count : NodeId}

lemma qspinNodeToTail_toNat (hcount : count ≤ maxNodeCount) (hn : n < count) :
    (qspinNodeToTail n).toNat = n.toNat + 1 ∧ n.toNat < 64 := by
  simp only [UInt32.le_iff_toNat_le, UInt32.lt_iff_toNat_lt, maxNodeCount,
    UInt32.reduceToNat] at hcount hn
  simp only [qspinNodeToTail, UInt32.toNat_add, UInt32.reduceToNat]
  omega

lemma qspinNodeToTail_lt (hcount : count ≤ maxNodeCount) (hn : n < count) :
    (qspinNodeToTail n).toNat < 2 ^ 16 := by
  have := qspinNodeToTail_toNat hcount hn
  omega

lemma qspinNodeToTail_ne_zero (hcount : count ≤ maxNodeCount) (hn : n < count) :
    qspinNodeToTail n ≠ 0 := fun h => by
  have := qspinNodeToTail_toNat hcount hn
  simp only [h, UInt32.reduceToNat] at this
  omega

@[simp] lemma qspinNodeToTail_inj : qspinNodeToTail n = qspinNodeToTail m ↔ n = m :=
  UInt32.add_left_inj 1

lemma qspinTailToNode_nodeToTail (hcount : count ≤ maxNodeCount) (hn : n < count) :
    qspinTailToNode (qspinNodeToTail n) = n := by
  rw [qspinTailToNode, if_neg (qspinNodeToTail_ne_zero hcount hn), qspinNodeToTail,
    UInt32.add_sub_cancel]

end NodeIds

end CxlLock.Qspinlock
