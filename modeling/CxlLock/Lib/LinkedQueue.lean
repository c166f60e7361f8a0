import Mathlib.Logic.Function.Basic
import Mathlib.Data.List.Nodup

/-!
# Queues linked through a `next` function

`Path next a q b` says that following `next` from `a` visits exactly the entries of `q`, in
this order, and arrives at `b`.  A queue that starts at `a` and ends with a nil pointer is
`Path next a q nil`.  The lemmas are about the two ways such a queue changes: links outside it
are free, and a new entry is linked behind the last one.

Where links are set late, so that a queue is not a path all the time, `Consecutive q a b` says
that `b` comes right behind `a` in `q`; a representation then says what holds of each such
pair.
-/

namespace LinkedQueue

variable {α : Type*} {next next' : α → α} {a b z n : α} {q r : List α}

/-- Following `next` from `a` visits `q` and arrives at `b`. -/
def Path (next : α → α) : α → List α → α → Prop
  | a, [], b => a = b
  | a, c :: q, b => a = c ∧ Path next (next c) q b

instance Path.decidable [DecidableEq α] (next : α → α) :
    ∀ a q b, Decidable (Path next a q b)
  | a, [], b => inferInstanceAs (Decidable (a = b))
  | _, c :: q, b =>
      have := Path.decidable next (next c) q b
      inferInstanceAs (Decidable (_ ∧ _))

@[simp] lemma path_nil : Path next a [] b ↔ a = b := Iff.rfl

@[simp] lemma path_cons : Path next a (n :: q) b ↔ a = n ∧ Path next (next n) q b := Iff.rfl

lemma path_append : Path next a (q ++ r) b ↔ ∃ c, Path next a q c ∧ Path next c r b := by
  induction q generalizing a with
  | nil => simp
  | cons c q ih => simp [ih, and_assoc]

lemma path_concat : Path next a (q ++ [z]) b ↔ Path next a q z ∧ next z = b := by
  simp [path_append]

/-- Only the links of the visited entries matter. -/
lemma Path.congr (h : Path next a q b) (hnext : ∀ c ∈ q, next' c = next c) :
    Path next' a q b := by
  induction q generalizing a with
  | nil => exact h
  | cons c q ih =>
      rw [path_cons] at h ⊢
      rw [hnext c (by simp)]
      exact ⟨h.1, ih h.2 fun d hd => hnext d (by simp [hd])⟩

/-- The entries a path visits are determined by its start, as long as it has not arrived. -/
lemma Path.unique (h : Path next a q b) (h' : Path next a r b) (hq : b ∉ q) (hr : b ∉ r) :
    q = r := by
  induction q generalizing a r with
  | nil =>
      cases r with
      | nil => rfl
      | cons c r => exact absurd (h ▸ h'.1 ▸ List.mem_cons_self) hr
  | cons c q ih =>
      obtain ⟨rfl, h⟩ := h
      cases r with
      | nil =>
          rw [path_nil] at h'
          exact absurd (h' ▸ List.mem_cons_self) hq
      | cons d r =>
          obtain ⟨rfl, h'⟩ := h'
          rw [ih h h' (fun hm => hq (by simp [hm])) fun hm => hr (by simp [hm])]

variable (next') in
/-- Linking `n` behind the last entry `z`, in a memory that has changed nowhere else on the
queue. -/
lemma Path.link (h : Path next a (q ++ [z]) b) (hsame : ∀ c ∈ q, next' c = next c)
    (hz : next' z = n) : Path next' a (q ++ [z] ++ [n]) (next' n) := by
  obtain ⟨hq, -⟩ := path_concat.1 h
  exact path_concat.2 ⟨path_concat.2 ⟨hq.congr hsame, hz⟩, rfl⟩

/-! ## Neighbours in a queue -/

/-- `b` comes right behind `a` in `q`. -/
def Consecutive (q : List α) (a b : α) : Prop := ∃ l r, q = l ++ a :: b :: r

namespace Consecutive

@[simp] lemma not_nil : ¬ Consecutive [] a b := by
  rintro ⟨l, r, h⟩
  simp at h

lemma cons_iff : Consecutive (z :: q) a b ↔ a = z ∧ q.head? = some b ∨ Consecutive q a b := by
  constructor
  · rintro ⟨l, r, h⟩
    cases l with
    | nil =>
        obtain ⟨rfl, rfl⟩ := List.cons.inj h
        exact .inl ⟨rfl, rfl⟩
    | cons c l => exact .inr ⟨l, r, (List.cons.inj h).2⟩
  · rintro (⟨rfl, hb⟩ | ⟨l, r, rfl⟩)
    · cases q with
      | nil => simp at hb
      | cons c q => exact ⟨[], q, by simpa using hb⟩
    · exact ⟨z :: l, r, rfl⟩

lemma concat_iff :
    Consecutive (q ++ [z]) a b ↔ Consecutive q a b ∨ q.getLast? = some a ∧ b = z := by
  induction q with
  | nil => simp [cons_iff]
  | cons c q ih =>
      rw [List.cons_append, cons_iff, ih, cons_iff]
      cases q with
      | nil => simp [eq_comm]
      | cons d q => simp [List.getLast?_cons_cons, or_assoc]

lemma mem_left (h : Consecutive q a b) : a ∈ q := by
  obtain ⟨l, r, rfl⟩ := h
  simp

lemma mem_right (h : Consecutive q a b) : b ∈ q := by
  obtain ⟨l, r, rfl⟩ := h
  simp

lemma right_unique {c : α} (hq : q.Nodup) (h : Consecutive q a b) (h' : Consecutive q a c) :
    b = c := by
  induction q with
  | nil => simp at h
  | cons d q ih =>
      obtain ⟨hd, hq⟩ := List.nodup_cons.1 hq
      rw [cons_iff] at h h'
      rcases h with ⟨rfl, hb⟩ | h <;> rcases h' with ⟨h1, hc⟩ | h'
      · exact Option.some.inj (hb.symm.trans hc)
      · exact absurd h'.mem_left hd
      · exact absurd (h1 ▸ h.mem_left) hd
      · exact ih hq h h'

lemma left_unique {c : α} (hq : q.Nodup) (h : Consecutive q a b) (h' : Consecutive q c b) :
    a = c := by
  induction q with
  | nil => simp at h
  | cons d q ih =>
      obtain ⟨hd, hq⟩ := List.nodup_cons.1 hq
      have hhead : ∀ {x}, q.head? = some b → ¬ Consecutive q x b := fun hb hx => by
        cases q with
        | nil => simp at hb
        | cons e q =>
            obtain rfl : e = b := by simpa using hb
            rcases cons_iff.1 hx with ⟨-, hb⟩ | hx
            · exact (List.nodup_cons.1 hq).1 (List.mem_of_mem_head? hb)
            · exact (List.nodup_cons.1 hq).1 hx.mem_right
      rw [cons_iff] at h h'
      rcases h with ⟨rfl, hb⟩ | h <;> rcases h' with ⟨rfl, hb'⟩ | h'
      · rfl
      · exact absurd h' (hhead hb)
      · exact absurd h (hhead hb')
      · exact ih hq h h'

/-- Nothing comes before the head. -/
lemma ne_head (hq : q.Nodup) (h : Consecutive q a b) : q.head? ≠ some b := by
  rintro hb
  cases q with
  | nil => simp at hb
  | cons c q =>
      obtain rfl : c = b := by simpa using hb
      obtain ⟨hc, -⟩ := List.nodup_cons.1 hq
      rcases cons_iff.1 h with ⟨-, hb⟩ | h
      · exact hc (List.mem_of_mem_head? hb)
      · exact hc h.mem_right

/-- Nothing comes behind the last entry. -/
lemma ne_last (hq : q.Nodup) (h : Consecutive q a b) : q.getLast? ≠ some a := by
  obtain ⟨l, r, rfl⟩ := h
  intro ha
  have := List.mem_of_getLast? (l := b :: r) (a := a) (by
    simpa [List.getLast?_append, List.getLast?_cons] using ha)
  simp only [List.nodup_append, List.nodup_cons] at hq
  exact hq.2.1.1 this

/-- Every entry but the head has a predecessor. -/
lemma exists_left (h : b ∈ q) : q.head? = some b ∨ ∃ a, Consecutive q a b := by
  obtain ⟨l, r, rfl⟩ := List.append_of_mem h
  cases hl : l.getLast? with
  | none =>
      rw [List.getLast?_eq_none_iff.1 hl]
      exact .inl rfl
  | some a =>
      obtain ⟨l', rfl⟩ := List.getLast?_eq_some_iff.1 hl
      exact .inr ⟨a, l', r, by simp⟩

/-- Every entry but the last has a successor. -/
lemma exists_right (h : a ∈ q) : q.getLast? = some a ∨ ∃ b, Consecutive q a b := by
  obtain ⟨l, r, rfl⟩ := List.append_of_mem h
  cases r with
  | nil => exact .inl (by simp)
  | cons b r => exact .inr ⟨b, l, r, rfl⟩

end Consecutive

/-! ## A queue from outside -/

/-- Members, ends and neighbours of a queue, for arguments that do not change the queue. -/
structure View (α : Type*) where
  mem : α → Prop
  front : Option α
  back : Option α
  follows : α → α → Prop

/-- The view of a list. -/
def view (q : List α) : View α := ⟨(· ∈ q), q.head?, q.getLast?, Consecutive q⟩

/-- What holds of the view of a queue without repeated entries. -/
structure View.Wf (V : View α) : Prop where
  front_mem : ∀ a, V.front = some a → V.mem a
  back_mem : ∀ a, V.back = some a → V.mem a
  follows_mem : ∀ a b, V.follows a b → V.mem a ∧ V.mem b
  right_unique : ∀ a b c, V.follows a b → V.follows a c → b = c
  left_unique : ∀ a b c, V.follows a b → V.follows c b → a = c
  ne_front : ∀ a b, V.follows a b → V.front ≠ some b
  ne_back : ∀ a b, V.follows a b → V.back ≠ some a
  exists_left : ∀ b, V.mem b → V.front = some b ∨ ∃ a, V.follows a b
  exists_right : ∀ a, V.mem a → V.back = some a ∨ ∃ b, V.follows a b

lemma view_wf (hq : q.Nodup) : (view q).Wf where
  front_mem _ h := List.mem_of_mem_head? h
  back_mem _ h := List.mem_of_getLast? h
  follows_mem _ _ h := ⟨h.mem_left, h.mem_right⟩
  right_unique _ _ _ h h' := h.right_unique hq h'
  left_unique _ _ _ h h' := h.left_unique hq h'
  ne_front _ _ h := h.ne_head hq
  ne_back _ _ h := h.ne_last hq
  exists_left _ h := Consecutive.exists_left h
  exists_right _ h := Consecutive.exists_right h

end LinkedQueue
