import Mathlib.Logic.Function.Basic

/-!
# Programs by their accesses to memory

A `Prog` is a sequential program given by what it does to a memory of locations: loads, stores,
exchanges, additions, fills and flushes of ranges.  A loop that has no bound in the program it
models has one here, and is `stuck` when it runs out; a result about all bounds is one about
all runs that end.

`Runs p t a` says that `p` can return `a` after the accesses `t`, whatever other parties do to
the memory meanwhile: a load may read any value, and an exchange may succeed or fail.  `exec` is
the run in which nobody interferes.  Results about all runs are proved backwards over the
program, with `Every`: `Every.of_runs` is the rule, and `every_bind` its case for a sequence.
-/

namespace AccessProgram

universe u

/-- A number of bytes from the address of a location on. -/
structure Range (L : Type u) where
  start : L
  bytes : Nat
  deriving DecidableEq

/-- One access. -/
inductive Event (L V : Type u)
  | load (x : L) (v : V)
  | store (x : L) (v : V)
  /-- An exchange that has found the expected value and stored the new one. -/
  | exchange (x : L) (old new : V)
  | exchangeFailed (x : L) (expected : V)
  | fetchAdd (x : L) (old v : V)
  /-- The bytes of the range are set, which hold the given locations. -/
  | fill (r : Range L) (inside : L → Bool) (v : V)
  | flush (r : Range L)

/-- A program that returns an `α`. -/
inductive Prog (L V α : Type u)
  | ret (a : α)
  | stuck
  | load (x : L) (k : V → Prog L V α)
  | store (x : L) (v : V) (k : Prog L V α)
  | compareExchange (x : L) (expected desired : V) (k : Bool → Prog L V α)
  | fetchAdd (x : L) (v : V) (k : V → Prog L V α)
  | fill (r : Range L) (inside : L → Bool) (v : V) (k : Prog L V α)
  | flush (r : Range L) (k : Prog L V α)

namespace Prog

variable {L V α β : Type u}

/-- One program after another. -/
def bind : Prog L V α → (α → Prog L V β) → Prog L V β
  | .ret a, f => f a
  | .stuck, _ => .stuck
  | .load x k, f => .load x fun v => (k v).bind f
  | .store x v k, f => .store x v (k.bind f)
  | .compareExchange x expected desired k, f =>
      .compareExchange x expected desired fun ok => (k ok).bind f
  | .fetchAdd x v k, f => .fetchAdd x v fun old => (k old).bind f
  | .fill r inside v k, f => .fill r inside v (k.bind f)
  | .flush r k, f => .flush r (k.bind f)

/-- A loop over a list of indices. -/
def forEach {ι : Type u} : List ι → (ι → Prog L V β → Prog L V β) → Prog L V β → Prog L V β
  | [], _, k => k
  | i :: is, body, k => body i (forEach is body k)

/-! ## All runs -/

/-- The program can return `b` after the accesses `t`. -/
def Runs : Prog L V α → List (Event L V) → α → Prop
  | .ret a, t, b => t = [] ∧ b = a
  | .stuck, _, _ => False
  | .load x k, t, b => ∃ v t', t = .load x v :: t' ∧ (k v).Runs t' b
  | .store x v k, t, b => ∃ t', t = .store x v :: t' ∧ k.Runs t' b
  | .compareExchange x expected desired k, t, b =>
      (∃ t', t = .exchange x expected desired :: t' ∧ (k true).Runs t' b) ∨
        ∃ t', t = .exchangeFailed x expected :: t' ∧ (k false).Runs t' b
  | .fetchAdd x v k, t, b => ∃ old t', t = .fetchAdd x old v :: t' ∧ (k old).Runs t' b
  | .fill r inside v k, t, b => ∃ t', t = .fill r inside v :: t' ∧ k.Runs t' b
  | .flush r k, t, b => ∃ t', t = .flush r :: t' ∧ k.Runs t' b

/-- Whatever is read, the accesses and the result satisfy `Q` if the program returns. -/
def Every : Prog L V α → (List (Event L V) → α → Prop) → Prop
  | .ret a, Q => Q [] a
  | .stuck, _ => True
  | .load x k, Q => ∀ v, (k v).Every fun t => Q (.load x v :: t)
  | .store x v k, Q => k.Every fun t => Q (.store x v :: t)
  | .compareExchange x expected desired k, Q =>
      ((k true).Every fun t => Q (.exchange x expected desired :: t)) ∧
        (k false).Every fun t => Q (.exchangeFailed x expected :: t)
  | .fetchAdd x v k, Q => ∀ old, (k old).Every fun t => Q (.fetchAdd x old v :: t)
  | .fill r inside v k, Q => k.Every fun t => Q (.fill r inside v :: t)
  | .flush r k, Q => k.Every fun t => Q (.flush r :: t)

/-- **The rule for all runs.** -/
theorem Every.of_runs {p : Prog L V α} {Q : List (Event L V) → α → Prop} (h : p.Every Q)
    {t : List (Event L V)} {a : α} (hrun : p.Runs t a) : Q t a := by
  induction p generalizing Q t with
  | ret b =>
      obtain ⟨rfl, rfl⟩ := hrun
      exact h
  | stuck => exact hrun.elim
  | load x k ih =>
      obtain ⟨v, t', rfl, hrest⟩ := hrun
      exact ih v (h v) hrest
  | store x v k ih =>
      obtain ⟨t', rfl, hrest⟩ := hrun
      exact ih h hrest
  | compareExchange x expected desired k ih =>
      rcases hrun with ⟨t', rfl, hrest⟩ | ⟨t', rfl, hrest⟩
      · exact ih true h.1 hrest
      · exact ih false h.2 hrest
  | fetchAdd x v k ih =>
      obtain ⟨old, t', rfl, hrest⟩ := hrun
      exact ih old (h old) hrest
  | fill r inside v k ih =>
      obtain ⟨t', rfl, hrest⟩ := hrun
      exact ih h hrest
  | flush r k ih =>
      obtain ⟨t', rfl, hrest⟩ := hrun
      exact ih h hrest

/-- A stronger postcondition. -/
theorem Every.mono {p : Prog L V α} {Q Q' : List (Event L V) → α → Prop} (h : p.Every Q)
    (himp : ∀ t a, Q t a → Q' t a) : p.Every Q' := by
  induction p generalizing Q Q' with
  | ret b => exact himp [] b h
  | stuck => trivial
  | load x k ih => exact fun v => ih v (h v) fun t => himp _
  | store x v k ih => exact ih h fun t => himp _
  | compareExchange x expected desired k ih =>
      exact ⟨ih true h.1 fun t => himp _, ih false h.2 fun t => himp _⟩
  | fetchAdd x v k ih => exact fun old => ih old (h old) fun t => himp _
  | fill r inside v k ih => exact ih h fun t => himp _
  | flush r k ih => exact ih h fun t => himp _

/-- All runs of a sequence. -/
theorem every_bind {p : Prog L V α} {f : α → Prog L V β} {Q : List (Event L V) → β → Prop} :
    (p.bind f).Every Q ↔ p.Every fun t a => (f a).Every fun t' => Q (t ++ t') := by
  induction p generalizing Q with
  | ret b => rfl
  | stuck => rfl
  | load x k ih => exact forall_congr' fun v => ih v
  | store x v k ih => exact ih
  | compareExchange x expected desired k ih => exact and_congr (ih true) (ih false)
  | fetchAdd x v k ih => exact forall_congr' fun old => ih old
  | fill r inside v k ih => exact ih
  | flush r k ih => exact ih

/-- All runs of a loop whose turns have no branches. -/
theorem every_forEach {ι : Type u} {body : ι → Prog L V β → Prog L V β}
    {turn : ι → List (Event L V)}
    (hbody : ∀ i k (Q : List (Event L V) → β → Prop),
      (body i k).Every Q ↔ k.Every fun t => Q (turn i ++ t))
    (is : List ι) (k : Prog L V β) (Q : List (Event L V) → β → Prop) :
    (forEach is body k).Every Q ↔ k.Every fun t => Q (is.flatMap turn ++ t) := by
  induction is generalizing Q with
  | nil => rfl
  | cons i is ih =>
      rw [forEach, hbody, ih]
      simp only [List.flatMap_cons, List.append_assoc]

/-- What holds of all accesses and results holds of all runs. -/
theorem Every.of_forall (p : Prog L V α) {Q : List (Event L V) → α → Prop} (h : ∀ t a, Q t a) :
    p.Every Q := by
  induction p generalizing Q with
  | ret b => exact h [] b
  | stuck => trivial
  | load x k ih => exact fun v => ih v fun t => h _
  | store x v k ih => exact ih fun t => h _
  | compareExchange x expected desired k ih => exact ⟨ih true fun t => h _, ih false fun t => h _⟩
  | fetchAdd x v k ih => exact fun old => ih old fun t => h _
  | fill r inside v k ih => exact ih fun t => h _
  | flush r k ih => exact ih fun t => h _

/-- A program that begins with a fill. -/
theorem Every.of_fill {p : Prog L V α} {r : Range L} {inside : L → Bool} {v : V}
    {Q : List (Event L V) → α → Prop} (h : ∀ t a, Q (.fill r inside v :: t) a) :
    (Prog.fill r inside v p).Every Q :=
  .of_forall p h

/-! ## The run without interference -/

section Exec

variable [DecidableEq L] [DecidableEq V] [Add V]

/-- The accesses, the result and the memory of the run in which nobody else accesses the
memory. -/
def exec : Prog L V α → (L → V) → Option (List (Event L V) × α × (L → V))
  | .ret a, m => some ([], a, m)
  | .stuck, _ => none
  | .load x k, m => (exec (k (m x)) m).map fun r => (.load x (m x) :: r.1, r.2)
  | .store x v k, m =>
      (exec k (Function.update m x v)).map fun r => (.store x v :: r.1, r.2)
  | .compareExchange x expected desired k, m =>
      if m x = expected then
        (exec (k true) (Function.update m x desired)).map fun r =>
          (.exchange x expected desired :: r.1, r.2)
      else (exec (k false) m).map fun r => (.exchangeFailed x expected :: r.1, r.2)
  | .fetchAdd x v k, m =>
      (exec (k (m x)) (Function.update m x (m x + v))).map fun r =>
        (.fetchAdd x (m x) v :: r.1, r.2)
  | .fill r inside v k, m =>
      (exec k fun x => if inside x then v else m x).map fun r' => (.fill r inside v :: r'.1, r'.2)
  | .flush r k, m => (exec k m).map fun r' => (.flush r :: r'.1, r'.2)

attribute [local simp] exec in
/-- A sequence does the accesses of both programs. -/
lemma exec_bind (p : Prog L V α) (f : α → Prog L V β) (m : L → V) :
    (p.bind f).exec m = (p.exec m).bind fun r =>
      ((f r.2.1).exec r.2.2).map fun r' => (r.1 ++ r'.1, r'.2) := by
  induction p generalizing m with
  | ret a => simp [bind, exec]
  | stuck => rfl
  | load x k ih => simp [bind, exec, ih, Option.map_bind, Option.bind_map, Function.comp_def]
  | store x v k ih => simp [bind, exec, ih, Option.map_bind, Option.bind_map, Function.comp_def]
  | compareExchange x expected desired k ih =>
      simp only [bind, exec]
      split
      · simp [ih, Option.map_bind, Option.bind_map, Function.comp_def]
      · simp [ih, Option.map_bind, Option.bind_map, Function.comp_def]
  | fetchAdd x v k ih =>
      simp [bind, exec, ih, Option.map_bind, Option.bind_map, Function.comp_def]
  | fill r inside v k ih =>
      simp [bind, exec, ih, Option.map_bind, Option.bind_map, Function.comp_def]
  | flush r k ih => simp [bind, exec, ih, Option.map_bind, Option.bind_map, Function.comp_def]

/-- The run without interference is one of the runs. -/
theorem runs_of_exec {p : Prog L V α} {m m' : L → V} {t : List (Event L V)} {a : α}
    (h : p.exec m = some (t, a, m')) : p.Runs t a := by
  induction p generalizing m t with
  | ret b =>
      obtain ⟨rfl, rfl, -⟩ : [] = t ∧ b = a ∧ m = m' := by simpa [exec] using h
      exact ⟨rfl, rfl⟩
  | stuck => simp [exec] at h
  | load x k ih =>
      obtain ⟨⟨t', r⟩, hr, heq⟩ := Option.map_eq_some_iff.1 h
      obtain ⟨rfl, rfl⟩ := Prod.mk.inj heq
      exact ⟨_, t', rfl, ih _ hr⟩
  | store x v k ih =>
      obtain ⟨⟨t', r⟩, hr, heq⟩ := Option.map_eq_some_iff.1 h
      obtain ⟨rfl, rfl⟩ := Prod.mk.inj heq
      exact ⟨t', rfl, ih hr⟩
  | compareExchange x expected desired k ih =>
      simp only [exec] at h
      split at h
      · obtain ⟨⟨t', r⟩, hr, heq⟩ := Option.map_eq_some_iff.1 h
        obtain ⟨rfl, rfl⟩ := Prod.mk.inj heq
        exact .inl ⟨t', rfl, ih true hr⟩
      · obtain ⟨⟨t', r⟩, hr, heq⟩ := Option.map_eq_some_iff.1 h
        obtain ⟨rfl, rfl⟩ := Prod.mk.inj heq
        exact .inr ⟨t', rfl, ih false hr⟩
  | fetchAdd x v k ih =>
      obtain ⟨⟨t', r⟩, hr, heq⟩ := Option.map_eq_some_iff.1 h
      obtain ⟨rfl, rfl⟩ := Prod.mk.inj heq
      exact ⟨_, t', rfl, ih _ hr⟩
  | fill r inside v k ih =>
      obtain ⟨⟨t', r⟩, hr, heq⟩ := Option.map_eq_some_iff.1 h
      obtain ⟨rfl, rfl⟩ := Prod.mk.inj heq
      exact ⟨t', rfl, ih hr⟩
  | flush r k ih =>
      obtain ⟨⟨t', r⟩, hr, heq⟩ := Option.map_eq_some_iff.1 h
      obtain ⟨rfl, rfl⟩ := Prod.mk.inj heq
      exact ⟨t', rfl, ih hr⟩

/-- The result and the memory of the run without interference. -/
def outcome (p : Prog L V α) (m : L → V) : Option (α × (L → V)) :=
  (p.exec m).map Prod.snd

section Outcome

variable {x : L} {v : V} {m : L → V}

@[simp] lemma outcome_ret (a : α) : (Prog.ret a).outcome m = some (a, m) := rfl

@[simp] lemma outcome_stuck : (Prog.stuck : Prog L V α).outcome m = none := rfl

@[simp] lemma outcome_load (k : V → Prog L V α) :
    (Prog.load x k).outcome m = (k (m x)).outcome m := by
  simp only [outcome, exec, Option.map_map]
  rfl

@[simp] lemma outcome_store (k : Prog L V α) :
    (Prog.store x v k).outcome m = k.outcome (Function.update m x v) := by
  simp only [outcome, exec, Option.map_map]
  rfl

@[simp] lemma outcome_compareExchange (expected desired : V) (k : Bool → Prog L V α) :
    (Prog.compareExchange x expected desired k).outcome m =
      if m x = expected then (k true).outcome (Function.update m x desired)
      else (k false).outcome m := by
  simp only [outcome, exec]
  split
  · rw [Option.map_map]
    rfl
  · rw [Option.map_map]
    rfl

@[simp] lemma outcome_fetchAdd (k : V → Prog L V α) :
    (Prog.fetchAdd x v k).outcome m = (k (m x)).outcome (Function.update m x (m x + v)) := by
  simp only [outcome, exec, Option.map_map]
  rfl

@[simp] lemma outcome_fill (r : Range L) (inside : L → Bool) (k : Prog L V α) :
    (Prog.fill r inside v k).outcome m = k.outcome fun x => if inside x then v else m x := by
  simp only [outcome, exec, Option.map_map]
  rfl

@[simp] lemma outcome_flush (r : Range L) (k : Prog L V α) :
    (Prog.flush r k).outcome m = k.outcome m := by
  simp only [outcome, exec, Option.map_map]
  rfl

@[simp] lemma outcome_bind (p : Prog L V α) (f : α → Prog L V β) :
    (p.bind f).outcome m = (p.outcome m).bind fun r => (f r.1).outcome r.2 := by
  simp [outcome, exec_bind, Option.map_bind, Option.bind_map, Function.comp_def]

/-- A program that has only loaded returns what it returns on a memory with the values it has
read. -/
theorem outcome_of_loads {p : Prog L V α} {t : List (Event L V)} {a : α} (hrun : p.Runs t a)
    (hloads : ∀ e ∈ t, ∃ x, e = .load x (m x)) : p.outcome m = some (a, m) := by
  induction p generalizing t with
  | ret b =>
      obtain ⟨-, rfl⟩ := hrun
      rfl
  | stuck => exact hrun.elim
  | load x k ih =>
      obtain ⟨v, t', rfl, hrest⟩ := hrun
      obtain ⟨y, hy⟩ := hloads _ List.mem_cons_self
      obtain ⟨rfl, rfl⟩ := Event.load.inj hy
      rw [outcome_load]
      exact ih _ hrest fun e he => hloads e (List.mem_cons_of_mem _ he)
  | store x v k ih =>
      obtain ⟨t', rfl, -⟩ := hrun
      obtain ⟨y, hy⟩ := hloads _ List.mem_cons_self
      cases hy
  | compareExchange x expected desired k ih =>
      rcases hrun with ⟨t', rfl, -⟩ | ⟨t', rfl, -⟩
      · obtain ⟨y, hy⟩ := hloads _ List.mem_cons_self
        cases hy
      · obtain ⟨y, hy⟩ := hloads _ List.mem_cons_self
        cases hy
  | fetchAdd x v k ih =>
      obtain ⟨old, t', rfl, -⟩ := hrun
      obtain ⟨y, hy⟩ := hloads _ List.mem_cons_self
      cases hy
  | fill r inside v k ih =>
      obtain ⟨t', rfl, -⟩ := hrun
      obtain ⟨y, hy⟩ := hloads _ List.mem_cons_self
      cases hy
  | flush r k ih =>
      obtain ⟨t', rfl, -⟩ := hrun
      obtain ⟨y, hy⟩ := hloads _ List.mem_cons_self
      cases hy

/-- A loop whose turns write, for each index, the words it touches: `written x` to `x`. -/
theorem outcome_forEach {ι : Type u} {body : ι → Prog L V β → Prog L V β}
    {touches : ι → L → Bool} {written : L → V}
    (hbody : ∀ i k m, (body i k).outcome m =
      k.outcome fun x => if touches i x then written x else m x)
    (is : List ι) (k : Prog L V β) (m : L → V) :
    (forEach is body k).outcome m =
      k.outcome fun x => if ∃ i ∈ is, touches i x then written x else m x := by
  induction is generalizing m with
  | nil => simp [forEach]
  | cons i is ih =>
      rw [forEach, hbody, ih]
      congr 1
      funext x
      by_cases hi : touches i x <;> simp [hi]

end Outcome

end Exec

end Prog

/-! ## What is written -/

section Writes

variable {L V : Type u} {e : Event L V} {t t' : List (Event L V)} {x y : L}

/-- The access writes the location. -/
def Event.Writes : Event L V → L → Prop
  | .store x _, y | .exchange x _ _, y | .fetchAdd x _ _, y => x = y
  | .fill _ inside _, y => inside y = true
  | .load _ _, _ | .exchangeFailed _ _, _ | .flush _, _ => False

/-- The access writes nothing. -/
def Event.Silent : Event L V → Prop
  | .load _ _ | .exchangeFailed _ _ | .flush _ => True
  | .store _ _ | .exchange _ _ _ | .fetchAdd _ _ _ | .fill _ _ _ => False

/-- The accesses write no other locations than those in `P`. -/
def WritesOnly (P : L → Prop) (t : List (Event L V)) : Prop :=
  ∀ e ∈ t, ∀ x, e.Writes x → P x

variable {P : L → Prop}

@[simp] lemma writes_store {v : V} : (Event.store x v).Writes y ↔ x = y := Iff.rfl

@[simp] lemma writes_exchange {v w : V} : (Event.exchange x v w).Writes y ↔ x = y := Iff.rfl

@[simp] lemma writes_load {v : V} : ¬ (Event.load x v).Writes y := not_false

@[simp] lemma writes_exchangeFailed {v : V} : ¬ (Event.exchangeFailed x v).Writes y := not_false

@[simp] lemma writes_flush {r : Range L} : ¬ (Event.flush r : Event L V).Writes y := not_false

@[simp] lemma writesOnly_nil : WritesOnly P ([] : List (Event L V)) := by
  intro e he
  simp at he

lemma writesOnly_cons :
    WritesOnly P (e :: t) ↔ (∀ x, e.Writes x → P x) ∧ WritesOnly P t := by
  simp only [WritesOnly, List.mem_cons, forall_eq_or_imp]

lemma Event.Silent.not_writes (h : e.Silent) (x : L) : ¬ e.Writes x := by
  cases e with
  | load | exchangeFailed | flush => exact not_false
  | _ => exact h.elim

lemma WritesOnly.mono {P' : L → Prop} (h : WritesOnly P t) (himp : ∀ x, P x → P' x) :
    WritesOnly P' t := fun e he x hx => himp x (h e he x hx)

@[simp] lemma writesOnly_store {v : V} :
    WritesOnly P (.store x v :: t) ↔ P x ∧ WritesOnly P t := by
  simp [writesOnly_cons]

@[simp] lemma writesOnly_exchange {v w : V} :
    WritesOnly P (.exchange x v w :: t) ↔ P x ∧ WritesOnly P t := by
  simp [writesOnly_cons]

/-- An access that writes nothing does not matter. -/
lemma writesOnly_silent (h : e.Silent) : WritesOnly P (e :: t) ↔ WritesOnly P t := by
  rw [writesOnly_cons]
  exact and_iff_right fun x hx => absurd hx (h.not_writes x)

@[simp] lemma writesOnly_load {v : V} : WritesOnly P (.load x v :: t) ↔ WritesOnly P t :=
  writesOnly_silent trivial

@[simp] lemma writesOnly_exchangeFailed {v : V} :
    WritesOnly P (.exchangeFailed x v :: t) ↔ WritesOnly P t :=
  writesOnly_silent trivial

@[simp] lemma writesOnly_flush {r : Range L} :
    WritesOnly P (.flush r :: t) ↔ WritesOnly P t :=
  writesOnly_silent trivial

end Writes

end AccessProgram
