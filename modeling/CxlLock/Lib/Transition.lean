import Mathlib.Logic.Function.Basic

/-!
# Labelled transition systems and their runs

A system is a set of initial states and a partial step function: `next s e` is the state
after event `e`, or `none` when `e` cannot happen in `s`.  All choices of a scheduler, of a
clock and of the environment are put into the events, so a run is just a list of events and
an interleaving of several parties is one list.

`ReachableWhen ok` are the states of the runs all of whose steps meet the condition `ok` on
the state *before* the step; `Reachable` is the case without a condition.  The one induction
over runs is `ReachableWhen.invariant`: what holds initially and is kept by every step that
meets the condition holds in every reached state.  `exec` runs a list of events and is how a
concrete run is shown to exist.  `withHistory` puts a record of the steps beside the state, for
properties of what a run has done on its way.
-/

namespace Transition

universe u v

/-- A labelled transition system with a partial, per-label deterministic step. -/
structure LabelledSystem (σ : Type u) (ε : Type v) where
  /-- The states a run may start in. -/
  init : σ → Prop
  /-- The state after an event, if the event can happen. -/
  next : σ → ε → Option σ

namespace LabelledSystem

variable {σ : Type u} {ε : Type v} (S : LabelledSystem σ ε)

/-- The states reached by runs all of whose steps meet `ok`. -/
inductive ReachableWhen (ok : σ → ε → Prop) : σ → Prop
  /-- The empty run. -/
  | start {s : σ} : S.init s → ReachableWhen ok s
  /-- One more step, taken from a state in which it meets `ok`. -/
  | step {s s' : σ} {e : ε} : ReachableWhen ok s → ok s e → S.next s e = some s' →
      ReachableWhen ok s'

/-- The states reached by any run. -/
def Reachable : σ → Prop := S.ReachableWhen fun _ _ => True

/-- Run a list of events from a state, each of which has to meet `ok` where it happens. -/
def exec (ok : σ → ε → Prop) [∀ s e, Decidable (ok s e)] : σ → List ε → Option σ
  | s, [] => some s
  | s, e :: es => if ok s e then (S.next s e).bind fun s' => exec ok s' es else none

variable {S}

/-- **The invariant rule.**  A property of the initial states that every step meeting `ok`
keeps holds in every state such runs reach. -/
theorem ReachableWhen.invariant {ok : σ → ε → Prop} {I : σ → Prop}
    (hinit : ∀ s, S.init s → I s)
    (hstep : ∀ s e s', I s → ok s e → S.next s e = some s' → I s')
    {s : σ} (hs : S.ReachableWhen ok s) : I s := by
  induction hs with
  | start h => exact hinit _ h
  | step _ hok hnext ih => exact hstep _ _ _ ih hok hnext

/-- A weaker condition admits more runs. -/
theorem ReachableWhen.mono {ok ok' : σ → ε → Prop} (h : ∀ s e, ok s e → ok' s e)
    {s : σ} (hs : S.ReachableWhen ok s) : S.ReachableWhen ok' s := by
  induction hs with
  | start hi => exact .start hi
  | step _ hok hnext ih => exact .step ih (h _ _ hok) hnext

theorem ReachableWhen.reachable {ok : σ → ε → Prop} {s : σ}
    (hs : S.ReachableWhen ok s) : S.Reachable s :=
  hs.mono fun _ _ _ => trivial

/-- The invariant rule for runs without a condition. -/
theorem Reachable.invariant {I : σ → Prop} (hinit : ∀ s, S.init s → I s)
    (hstep : ∀ s e s', I s → S.next s e = some s' → I s')
    {s : σ} (hs : S.Reachable s) : I s :=
  ReachableWhen.invariant hinit (fun s e s' hI _ hnext => hstep s e s' hI hnext) hs

theorem Reachable.next {s s' : σ} {e : ε} (hs : S.Reachable s) (h : S.next s e = some s') :
    S.Reachable s' :=
  .step hs trivial h

/-- Executing a list of events from a reached state stays among the reached states. -/
theorem ReachableWhen.exec {ok : σ → ε → Prop} [∀ s e, Decidable (ok s e)] {s s' : σ}
    {es : List ε} (hs : S.ReachableWhen ok s) (h : S.exec ok s es = some s') :
    S.ReachableWhen ok s' := by
  induction es generalizing s with
  | nil =>
      simp only [LabelledSystem.exec, Option.some.injEq] at h
      exact h ▸ hs
  | cons e es ih =>
      simp only [LabelledSystem.exec] at h
      split at h
      · rename_i hok
        obtain ⟨t, ht, h⟩ := Option.bind_eq_some_iff.1 h
        exact ih (hs.step hok ht) h
      · cases h

/-- The same system, started in one given state. -/
def startingAt (S : LabelledSystem σ ε) (s₀ : σ) : LabelledSystem σ ε where
  init s := s = s₀
  next := S.next

/-- A run can be continued by a run that starts where it has ended. -/
theorem ReachableWhen.trans {ok : σ → ε → Prop} {s t : σ} (hs : S.ReachableWhen ok s)
    (ht : (S.startingAt s).ReachableWhen ok t) : S.ReachableWhen ok t := by
  induction ht with
  | start h => exact h ▸ hs
  | step _ hok hnext ih => exact ih.step hok hnext

/-! ## Runs with a record of what has happened -/

section History

variable {η : Type*} {h₀ : η} {record : σ → ε → σ → η → η}

/-- The same system with a history beside the state: each step records what it has done, and
no step depends on the record. -/
def withHistory (S : LabelledSystem σ ε) (h₀ : η) (record : σ → ε → σ → η → η) :
    LabelledSystem (σ × η) ε where
  init p := S.init p.1 ∧ p.2 = h₀
  next p e := (S.next p.1 e).map fun s' => (s', record p.1 e s' p.2)

/-- A run with its record is a run of the system. -/
theorem ReachableWhen.forget {ok : σ → ε → Prop} {p : σ × η}
    (hp : (S.withHistory h₀ record).ReachableWhen (fun p => ok p.1) p) :
    S.ReachableWhen ok p.1 := by
  induction hp with
  | start h => exact .start h.1
  | step _ hok hnext ih =>
      obtain ⟨t, ht, rfl⟩ := Option.map_eq_some_iff.1 hnext
      exact ih.step hok ht

theorem Reachable.forget {p : σ × η} (hp : (S.withHistory h₀ record).Reachable p) :
    S.Reachable p.1 :=
  ReachableWhen.forget hp

/-- One more step, recorded. -/
theorem ReachableWhen.recorded {ok : σ → ε → Prop} {s s' : σ} {e : ε} {h : η}
    (hp : (S.withHistory h₀ record).ReachableWhen (fun p => ok p.1) (s, h)) (hok : ok s e)
    (hnext : S.next s e = some s') :
    (S.withHistory h₀ record).ReachableWhen (fun p => ok p.1) (s', record s e s' h) :=
  hp.step hok (by simp [withHistory, hnext])

/-- Every run of the system has a record. -/
theorem ReachableWhen.exists_history {ok : σ → ε → Prop} {s : σ} (hs : S.ReachableWhen ok s)
    (h₀ : η) (record : σ → ε → σ → η → η) :
    ∃ h, (S.withHistory h₀ record).ReachableWhen (fun p => ok p.1) (s, h) := by
  induction hs with
  | start hi => exact ⟨h₀, .start ⟨hi, rfl⟩⟩
  | step _ hok hnext ih =>
      obtain ⟨h, hh⟩ := ih
      exact ⟨_, hh.recorded hok hnext⟩

end History

/-- A concrete run whose last state passes the check `p`: the state is reached.  The premise
on the run is closed and is meant to be evaluated. -/
theorem exists_of_exec (ok : σ → ε → Prop) [∀ s e, Decidable (ok s e)] (es : List ε)
    (p : σ → Bool) {s : σ} (hs : S.init s) (h : (S.exec ok s es).any p = true) :
    ∃ s', S.ReachableWhen ok s' ∧ p s' = true := by
  obtain ⟨s', hs', hp⟩ := (Option.any_eq_true _ _).1 h
  exact ⟨s', (ReachableWhen.start hs).exec hs', hp⟩

end LabelledSystem

end Transition
