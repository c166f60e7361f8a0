import Mathlib.Data.List.DropRight
import Mathlib.Data.Nat.Digits.Defs

/-!
# Texts as the standard library reads them

A text is a list of bytes.  `isSpace` and `isDigit` are the classes of the "C" locale, `lines`
are the texts that `std::getline` delivers one after another, and `stoul` is `std::stoul` in base
ten for a 64-bit `unsigned long`: it skips white space, takes a sign and the longest prefix of
digits, negates modulo `2 ^ 64`, and throws when there are no digits or the magnitude has more
than 64 bits.

A numeral that is written with digits alone is read as its value, and what has been written with
white space around it is got back by `strip`.
-/

namespace StandardText

/-- `std::isspace`. -/
def isSpace (b : UInt8) : Bool := b == 32 || (9 ≤ b && b ≤ 13)

/-- `std::isdigit`. -/
def isDigit (b : UInt8) : Bool := 48 ≤ b && b ≤ 57

/-- The bytes of a literal. -/
def ascii (s : String) : List UInt8 := s.toList.map fun c => c.toNat.toUInt8

/-! ## Taking away what surrounds a text -/

section Strip

variable {α : Type*} (p : α → Bool)

/-- Take away the elements with `p` from both ends. -/
def strip (s : List α) : List α := (s.dropWhile p).rdropWhile p

/-- Nothing with `p` is at the ends. -/
def Bare (s : List α) : Prop := (∀ x ∈ s.head?, p x = false) ∧ ∀ x ∈ s.getLast?, p x = false

variable {p} {s before after : List α}

lemma Bare.dropWhile_append (h : Bare p s) (hs : s ≠ []) :
    (s ++ after).dropWhile p = s ++ after := by
  cases s with
  | nil => exact absurd rfl hs
  | cons x s => simp [h.1 x rfl]

lemma Bare.rdropWhile (h : Bare p s) : s.rdropWhile p = s := by
  refine List.rdropWhile_eq_self_iff.2 fun hs => ?_
  simp [h.2 _ (List.getLast?_eq_some_getLast hs)]

lemma rdropWhile_append_of_forall (h : ∀ x ∈ after, p x = true) :
    (s ++ after).rdropWhile p = s.rdropWhile p := by
  rw [List.rdropWhile, List.reverse_append, List.dropWhile_append_of_pos (by simpa using h)]
  rfl

/-- What has been put around a text is taken away again. -/
lemma strip_padded (hbefore : ∀ x ∈ before, p x = true) (hafter : ∀ x ∈ after, p x = true)
    (h : Bare p s) : strip p (before ++ (s ++ after)) = s := by
  rw [strip, List.dropWhile_append_of_pos hbefore]
  by_cases hs : s = []
  · subst hs
    have hnil : after.dropWhile p = [] := List.dropWhile_eq_nil_iff.2 hafter
    rw [List.nil_append, hnil, List.rdropWhile_nil]
  · rw [h.dropWhile_append hs, rdropWhile_append_of_forall hafter, h.rdropWhile]

end Strip

/-! ## Lines -/

/-- The texts that `std::getline` delivers: what is behind the last line break is one only when
it is not empty. -/
def lines : List UInt8 → List (List UInt8)
  | [] => []
  | b :: s =>
      if b = 10 then [] :: lines s
      else
        match lines s with
        | [] => [[b]]
        | l :: ls => (b :: l) :: ls

lemma lines_append_break {l : List UInt8} (h : 10 ∉ l) (s : List UInt8) :
    lines (l ++ 10 :: s) = l :: lines s := by
  induction l with
  | nil => simp [lines]
  | cons b l ih =>
      obtain ⟨hb, hl⟩ := not_or.1 (mt List.mem_cons.2 h)
      rw [List.cons_append, lines, if_neg (Ne.symm hb), ih hl]

lemma lines_of_ne_nil {l : List UInt8} (h : 10 ∉ l) (hne : l ≠ []) : lines l = [l] := by
  induction l with
  | nil => exact absurd rfl hne
  | cons b l ih =>
      obtain ⟨hb, hl⟩ := not_or.1 (mt List.mem_cons.2 h)
      rw [lines, if_neg (Ne.symm hb)]
      cases l with
      | nil => rfl
      | cons c l => rw [ih hl (List.cons_ne_nil c l)]

/-- Lines with a break behind each of them, or behind each but the last. -/
def unlines (finalBreak : Bool) : List (List UInt8) → List UInt8
  | [] => []
  | [l] => if finalBreak then l ++ [10] else l
  | l :: l' :: ls => l ++ 10 :: unlines finalBreak (l' :: ls)

/-- Lines that have been written are read again. -/
theorem lines_unlines (finalBreak : Bool) {ls : List (List UInt8)} (hbreak : ∀ l ∈ ls, 10 ∉ l)
    (hlast : ∀ l ∈ ls.getLast?, l ≠ []) : lines (unlines finalBreak ls) = ls := by
  induction ls with
  | nil => rfl
  | cons l ls ih =>
      have hl : 10 ∉ l := hbreak l List.mem_cons_self
      cases ls with
      | nil =>
          cases finalBreak with
          | true => exact lines_append_break hl []
          | false => exact lines_of_ne_nil hl (hlast l rfl)
      | cons l' ls =>
          rw [unlines, lines_append_break hl, ih (fun x hx => hbreak x (List.mem_cons_of_mem _ hx))
            (by simpa using hlast)]

/-! ## Numerals -/

/-- The value of a text of digits. -/
def decimalValue (s : List UInt8) : Nat := s.foldl (fun v b => 10 * v + (b.toNat - 48)) 0

/-- A decimal numeral: digits alone. -/
def IsNumeral (s : List UInt8) : Prop := s ≠ [] ∧ ∀ b ∈ s, isDigit b = true

instance (s : List UInt8) : Decidable (IsNumeral s) :=
  have := List.decidableBAll (fun b => isDigit b = true) s
  inferInstanceAs (Decidable (_ ∧ _))

/-- `std::stoul` in base ten; `none` when it throws. -/
def stoul (s : List UInt8) : Option UInt64 :=
  let s := s.dropWhile isSpace
  let negative := s.head? == some 45
  let s := if negative || s.head? == some 43 then s.drop 1 else s
  let digits := s.takeWhile isDigit
  if digits = [] then none
  else if decimalValue digits ≥ 2 ^ 64 then none
  else
    let value := UInt64.ofNat (decimalValue digits)
    some (if negative then 0 - value else value)

/-- The numeral of a number, without leading zeros. -/
def decimal (n : Nat) : List UInt8 :=
  if n = 0 then [48] else (Nat.digits 10 n).reverse.map fun d => UInt8.ofNat (48 + d)

lemma isDigit_iff {b : UInt8} : isDigit b = true ↔ 48 ≤ b.toNat ∧ b.toNat ≤ 57 := by
  simp [isDigit, UInt8.le_iff_toNat_le]

lemma isSpace_eq_false_of_isDigit {b : UInt8} (h : isDigit b = true) : isSpace b = false := by
  rw [isDigit_iff] at h
  simp only [isSpace, Bool.or_eq_false_iff, beq_eq_false_iff_ne, ne_eq, ← UInt8.toNat_inj,
    Bool.and_eq_false_iff, decide_eq_false_iff_not, UInt8.le_iff_toNat_le, UInt8.reduceToNat]
  omega

section IsNumeral

variable {s : List UInt8} {b : UInt8}

/-- Nothing but a digit is at the begin of a numeral. -/
lemma IsNumeral.head?_ne (h : IsNumeral s) (hb : isDigit b = false) : s.head? ≠ some b :=
  fun hhead => by
    rw [h.2 b (List.mem_of_head? hhead)] at hb
    cases hb

lemma IsNumeral.dropWhile_isSpace (h : IsNumeral s) : s.dropWhile isSpace = s := by
  refine List.dropWhile_eq_self_iff.2 fun hpos => ?_
  simp [isSpace_eq_false_of_isDigit (h.2 _ (List.getElem_mem hpos))]

/-- A plain numeral is read as its value when it has at most 64 bits, and refused otherwise. -/
theorem stoul_of_isNumeral (h : IsNumeral s) :
    stoul s = if decimalValue s < 2 ^ 64 then some (UInt64.ofNat (decimalValue s)) else none := by
  have hminus : (s.head? == some 45) = false := beq_eq_false_iff_ne.2 (h.head?_ne (by decide))
  have hplus : (s.head? == some 43) = false := beq_eq_false_iff_ne.2 (h.head?_ne (by decide))
  have htake : s.takeWhile isDigit = s := List.takeWhile_eq_self_iff.2 h.2
  simp only [stoul, h.dropWhile_isSpace, hminus, hplus, Bool.or_self, Bool.false_eq_true,
    if_false, htake, h.1, ge_iff_le, ← not_lt]
  exact ite_not _ _ _

end IsNumeral

lemma toNat_digit {d : Nat} (hd : d < 10) : (UInt8.ofNat (48 + d)).toNat = 48 + d :=
  UInt8.toNat_ofNat_of_lt' (by have : UInt8.size = 256 := rfl; omega)

lemma decimal_isNumeral (n : Nat) : IsNumeral (decimal n) := by
  unfold decimal
  split_ifs with hn
  · decide
  · refine ⟨by simpa [Nat.digits_ne_nil_iff_ne_zero] using hn, fun b hb => ?_⟩
    obtain ⟨d, hd, rfl⟩ := List.mem_map.1 hb
    have hlt : d < 10 := Nat.digits_lt_base (by decide) (List.mem_reverse.1 hd)
    rw [isDigit_iff, toNat_digit hlt]
    omega

lemma decimalValue_decimal (n : Nat) : decimalValue (decimal n) = n := by
  unfold decimal
  split_ifs with hn
  · rw [hn]
    rfl
  · have hdigit : ∀ d ∈ Nat.digits 10 n, (UInt8.ofNat (48 + d)).toNat - 48 = d := fun d hd => by
      rw [toNat_digit (Nat.digits_lt_base (by decide) hd), Nat.add_sub_cancel_left]
    calc decimalValue ((Nat.digits 10 n).reverse.map fun d => UInt8.ofNat (48 + d))
        = (Nat.digits 10 n).foldr
            (fun d v => 10 * v + ((UInt8.ofNat (48 + d)).toNat - 48)) 0 := by
          rw [decimalValue, List.foldl_map, List.foldl_reverse]
      _ = (Nat.digits 10 n).foldr (fun d v => d + 10 * v) 0 :=
          List.foldr_ext _ _ _ fun d hd v => by rw [hdigit d hd, Nat.add_comm]
      _ = Nat.ofDigits 10 (Nat.digits 10 n) := (Nat.ofDigits_eq_foldr 10 _).symm
      _ = n := Nat.ofDigits_digits 10 n

/-- A number that has been written is read again. -/
theorem stoul_decimal {n : Nat} (h : n < 2 ^ 64) : stoul (decimal n) = some (UInt64.ofNat n) := by
  rw [stoul_of_isNumeral (decimal_isNumeral n), decimalValue_decimal, if_pos h]

end StandardText
