import Mathlib.Data.List.Basic
import Mathlib.Order.Lattice

/-!
# Maps as sorted lists

A map is the list of its entries, in the order of their keys, each key once.  `insert` puts an
entry at its place, in place of an entry with the same key.  Two such lists are equal if they have
the same entry for every key.
-/

namespace SortedMap

universe u v

variable {K : Type u} {V : Type v} [LinearOrder K] {m m' : List (K × V)} {k j : K} {x : V}

/-- Put an entry at its place. -/
def insert (k : K) (x : V) : List (K × V) → List (K × V)
  | [] => [(k, x)]
  | (j, y) :: rest =>
      if k < j then (k, x) :: (j, y) :: rest
      else if k = j then (k, x) :: rest
      else (j, y) :: insert k x rest

/-- The keys ascend. -/
def Sorted (m : List (K × V)) : Prop := m.Pairwise fun a b => a.1 < b.1

lemma lookup_cons : ((k, x) :: m).lookup j = if j = k then some x else m.lookup j := by
  by_cases hjk : j = k
  · rw [if_pos hjk, hjk, List.lookup_cons_self]
  · have hne : (j == k) = false := beq_eq_false_iff_ne.2 hjk
    rw [if_neg hjk, List.lookup_cons, hne]

lemma lookup_insert : (insert k x m).lookup j = if j = k then some x else m.lookup j := by
  induction m with
  | nil => exact lookup_cons
  | cons b rest ih =>
      obtain ⟨i, y⟩ := b
      rw [insert]
      by_cases hlt : k < i
      · rw [if_pos hlt]
        exact lookup_cons
      rw [if_neg hlt]
      by_cases heq : k = i
      · rw [if_pos heq, lookup_cons, lookup_cons, ← heq]
        split_ifs <;> rfl
      · rw [if_neg heq, lookup_cons, lookup_cons, ih]
        by_cases hji : j = i
        · have hjk : j ≠ k := fun hjk => heq (hjk.symm.trans hji)
          rw [if_pos hji, if_neg hjk, if_pos hji]
        · rw [if_neg hji, if_neg hji]

lemma mem_insert {a : K × V} (h : a ∈ insert k x m) : a = (k, x) ∨ a ∈ m := by
  induction m with
  | nil => simpa [insert] using h
  | cons b rest ih =>
      unfold insert at h
      split_ifs at h
      · simpa using h
      · rcases List.mem_cons.1 h with h | h
        · exact .inl h
        · exact .inr (List.mem_cons_of_mem _ h)
      · rcases List.mem_cons.1 h with h | h
        · exact .inr (h ▸ List.mem_cons_self)
        · exact (ih h).imp_right (List.mem_cons_of_mem _)

namespace Sorted

lemma nil : Sorted ([] : List (K × V)) := List.Pairwise.nil

lemma insert (h : Sorted m) : Sorted (insert k x m) := by
  induction m with
  | nil => simp [SortedMap.insert, Sorted]
  | cons b rest ih =>
      obtain ⟨hb, hrest⟩ := List.pairwise_cons.1 h
      unfold SortedMap.insert
      split_ifs with hlt heq
      · refine List.pairwise_cons.2 ⟨fun a ha => ?_, h⟩
        rcases List.mem_cons.1 ha with rfl | ha
        · exact hlt
        · exact lt_trans hlt (hb a ha)
      · exact List.pairwise_cons.2 ⟨fun a ha => heq ▸ hb a ha, hrest⟩
      · refine List.pairwise_cons.2 ⟨fun a ha => ?_, ih hrest⟩
        rcases mem_insert ha with rfl | ha
        · exact lt_of_le_of_ne (not_lt.1 hlt) (Ne.symm heq)
        · exact hb a ha

/-- An entry is found by its key. -/
lemma lookup_eq_some (h : Sorted m) : m.lookup k = some x ↔ (k, x) ∈ m := by
  induction m with
  | nil => simp
  | cons b rest ih =>
      obtain ⟨i, y⟩ := b
      obtain ⟨hb, hrest⟩ := List.pairwise_cons.1 h
      rw [lookup_cons]
      split_ifs with hki
      · subst hki
        have hnot : (k, x) ∉ rest := fun hmem => lt_irrefl k (hb _ hmem)
        simp [hnot, eq_comm]
      · rw [ih hrest, List.mem_cons]
        simp [hki]

/-- **Sorted lists with the same entries are the same.** -/
theorem ext (h : Sorted m) (h' : Sorted m') (hsame : ∀ k, m.lookup k = m'.lookup k) : m = m' := by
  have hasymm : ∀ a b : K × V, a ∈ m → b ∈ m' → a.1 < b.1 → b.1 < a.1 → a = b :=
    fun a b _ _ hab hba => absurd hba (lt_asymm hab)
  have hnodup : ∀ {m : List (K × V)}, Sorted m → m.Nodup := fun h =>
    List.Pairwise.imp (fun hlt heq => absurd (congrArg Prod.fst heq) (ne_of_lt hlt)) h
  refine List.Perm.eq_of_pairwise hasymm h h' ?_
  rw [List.perm_ext_iff_of_nodup (hnodup h) (hnodup h')]
  rintro ⟨k, x⟩
  rw [← h.lookup_eq_some, ← h'.lookup_eq_some, hsame]

end Sorted

end SortedMap
