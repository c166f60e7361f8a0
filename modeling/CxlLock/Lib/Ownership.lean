import Mathlib.Data.Finset.Erase
import Mathlib.Data.Finset.Insert

/-!
# Resources with one owner each

Objects of a program own resources of their environment: a file descriptor, a mapping, a cell of
the heap.  `held i` is the resource that object `i` says it owns and `live` are the resources that
exist.  `Owned held live` says that they agree: what an object holds exists, no two objects hold
the same, and what exists is held by an object, so that nothing dangles, nothing is released twice,
and nothing leaks.

The lemmas say how an object gets, releases and hands over a resource.
-/

namespace Ownership

universe u v

variable {T : Type u} {R : Type v} [DecidableEq R] {held : T → Option R} {live : Finset R}
  {i j : T} {r : R}

/-- Each resource that exists is held by exactly one object. -/
structure Owned (held : T → Option R) (live : Finset R) : Prop where
  exist : ∀ i r, held i = some r → r ∈ live
  unique : ∀ i j r, held i = some r → held j = some r → i = j
  covered : ∀ r ∈ live, ∃ i, held i = some r

namespace Owned

omit [DecidableEq R] in
lemma empty (h : ∀ i, held i = none) : Owned held ∅ := by
  refine ⟨fun i r hi => ?_, fun i j r hi => ?_, fun r hr => absurd hr (Finset.notMem_empty r)⟩
  · rw [h] at hi
    cases hi
  · rw [h] at hi
    cases hi

omit [DecidableEq R] in
/-- When no object holds anything, nothing is left. -/
lemma eq_empty (h : Owned held live) (hnone : ∀ i, held i = none) : live = ∅ := by
  refine Finset.eq_empty_of_forall_notMem fun r hr => ?_
  obtain ⟨i, hi⟩ := h.covered r hr
  rw [hnone] at hi
  cases hi

omit [DecidableEq R] in
/-- What exists is determined by what is held. -/
lemma live_eq {live' : Finset R} (h : Owned held live) (h' : Owned held live') : live = live' := by
  ext r
  constructor
  · intro hr
    obtain ⟨i, hi⟩ := h.covered r hr
    exact h'.exist i r hi
  · intro hr
    obtain ⟨i, hi⟩ := h'.covered r hr
    exact h.exist i r hi

variable [DecidableEq T]

lemma release (h : Owned held live) (hi : held i = some r) :
    Owned (Function.update held i none) (live.erase r) := by
  have hother : ∀ k s, Function.update held i none k = some s → k ≠ i ∧ held k = some s := by
    intro k s hk
    by_cases hki : k = i
    · rw [hki, Function.update_self] at hk
      cases hk
    · exact ⟨hki, by rwa [Function.update_of_ne hki] at hk⟩
  refine ⟨fun k s hk => ?_, fun k k' s hk hk' => ?_, fun s hs => ?_⟩
  · obtain ⟨hki, hk⟩ := hother k s hk
    refine Finset.mem_erase.2 ⟨fun hsr => hki (h.unique k i s hk ?_), h.exist k s hk⟩
    rw [hi, hsr]
  · exact h.unique k k' s (hother k s hk).2 (hother k' s hk').2
  · obtain ⟨hsr, hs⟩ := Finset.mem_erase.1 hs
    obtain ⟨k, hk⟩ := h.covered s hs
    refine ⟨k, ?_⟩
    rw [Function.update_of_ne, hk]
    rintro rfl
    exact hsr (Option.some.inj (hk.symm.trans hi))

/-- An object gives back what it holds, if it holds anything. -/
lemma drop (h : Owned held live) (i : T) :
    Owned (Function.update held i none) ((held i).elim live live.erase) := by
  cases hi : held i with
  | none => rwa [Function.update_eq_self_iff.2 hi.symm]
  | some r => exact h.release hi

lemma acquire (h : Owned held live) (hi : held i = none) (hr : r ∉ live) :
    Owned (Function.update held i (some r)) (insert r live) := by
  have hcases : ∀ k s, Function.update held i (some r) k = some s →
      k = i ∧ s = r ∨ k ≠ i ∧ held k = some s := by
    intro k s hk
    by_cases hki : k = i
    · rw [hki, Function.update_self] at hk
      exact .inl ⟨hki, (Option.some.inj hk).symm⟩
    · exact .inr ⟨hki, by rwa [Function.update_of_ne hki] at hk⟩
  refine ⟨fun k s hk => ?_, fun k k' s hk hk' => ?_, fun s hs => ?_⟩
  · rcases hcases k s hk with ⟨-, rfl⟩ | ⟨-, hk⟩
    · exact Finset.mem_insert_self ..
    · exact Finset.mem_insert_of_mem (h.exist k s hk)
  · rcases hcases k s hk with ⟨rfl, rfl⟩ | ⟨hki, hk⟩ <;>
      rcases hcases k' s hk' with ⟨hk'i, hsr⟩ | ⟨hk'i, hk'⟩
    · exact hk'i.symm
    · exact absurd (h.exist k' s hk') hr
    · exact absurd (h.exist k s hk) (hsr ▸ hr)
    · exact h.unique k k' s hk hk'
  · rcases Finset.mem_insert.1 hs with rfl | hs
    · exact ⟨i, Function.update_self ..⟩
    · obtain ⟨k, hk⟩ := h.covered s hs
      refine ⟨k, ?_⟩
      rw [Function.update_of_ne, hk]
      rintro rfl
      rw [hi] at hk
      cases hk

omit [DecidableEq R] in
/-- `j` takes over what `i` holds. -/
lemma transfer (h : Owned held live) (hj : held j = none) :
    Owned (Function.update (Function.update held i none) j (held i)) live := by
  have hcases : ∀ k s, Function.update (Function.update held i none) j (held i) k = some s →
      k = j ∧ held i = some s ∨ k ≠ j ∧ k ≠ i ∧ held k = some s := by
    intro k s hk
    by_cases hkj : k = j
    · rw [hkj, Function.update_self] at hk
      exact .inl ⟨hkj, hk⟩
    · rw [Function.update_of_ne hkj] at hk
      by_cases hki : k = i
      · rw [hki, Function.update_self] at hk
        cases hk
      · exact .inr ⟨hkj, hki, by rwa [Function.update_of_ne hki] at hk⟩
  refine ⟨fun k s hk => ?_, fun k k' s hk hk' => ?_, fun s hs => ?_⟩
  · rcases hcases k s hk with ⟨-, hi⟩ | ⟨-, -, hk⟩
    · exact h.exist i s hi
    · exact h.exist k s hk
  · rcases hcases k s hk with ⟨hkj, hi⟩ | ⟨-, hki, hk⟩ <;>
      rcases hcases k' s hk' with ⟨hk'j, hi'⟩ | ⟨-, hk'i, hk'⟩
    · exact hkj.trans hk'j.symm
    · exact absurd (h.unique k' i s hk' hi) hk'i
    · exact absurd (h.unique k i s hk hi') hki
    · exact h.unique k k' s hk hk'
  · obtain ⟨k, hk⟩ := h.covered s hs
    by_cases hki : k = i
    · refine ⟨j, ?_⟩
      rw [Function.update_self, ← hki, hk]
    · refine ⟨k, ?_⟩
      have hkj : k ≠ j := by
        rintro rfl
        rw [hj] at hk
        cases hk
      rw [Function.update_of_ne hkj, Function.update_of_ne hki, hk]

end Owned

end Ownership
