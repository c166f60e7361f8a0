import CxlLock.Lib.Transition

/-!
# Simulations between labelled transition systems

A simulation relates the states of a concrete system to those of an abstract one, so that every
step of the concrete system is matched by some number of steps of the abstract one, none at all
included.  Then every state reached by the concrete system is related to a reached state of the
abstract one (`Simulation.exists_related`), and what holds of the reached states of the abstract
system carries over.

The conditions `okC` and `okA` on the steps are those of `ReachableWhen`.
-/

namespace Transition

universe u v u' v'

variable {σ : Type u} {ε : Type v} {τ : Type u'} {η : Type v'}

/-- Every step of `C` is matched by steps of `A`. -/
structure Simulation (C : LabelledSystem σ ε) (okC : σ → ε → Prop) (A : LabelledSystem τ η)
    (okA : τ → η → Prop) (R : σ → τ → Prop) : Prop where
  init : ∀ s, C.init s → ∃ a, A.init a ∧ R s a
  step : ∀ s a e s', C.ReachableWhen okC s → A.ReachableWhen okA a → R s a → okC s e →
    C.next s e = some s' → ∃ a', (A.startingAt a).ReachableWhen okA a' ∧ R s' a'

namespace LabelledSystem

variable {A : LabelledSystem τ η} {okA : τ → η → Prop} {a a' : τ} {f : η}

/-- No step at all. -/
lemma reachableWhen_self (A : LabelledSystem τ η) (okA : τ → η → Prop) (a : τ) :
    (A.startingAt a).ReachableWhen okA a :=
  .start rfl

/-- One step. -/
lemma reachableWhen_one (hok : okA a f) (hnext : A.next a f = some a') :
    (A.startingAt a).ReachableWhen okA a' :=
  (reachableWhen_self A okA a).step hok hnext

end LabelledSystem

namespace Simulation

variable {C : LabelledSystem σ ε} {okC : σ → ε → Prop} {A : LabelledSystem τ η}
  {okA : τ → η → Prop} {R : σ → τ → Prop}

/-- **Every reached state is related to a reached state.** -/
theorem exists_related (h : Simulation C okC A okA R) {s : σ} (hs : C.ReachableWhen okC s) :
    ∃ a, A.ReachableWhen okA a ∧ R s a := by
  induction hs with
  | start hi =>
      obtain ⟨a, ha, hR⟩ := h.init _ hi
      exact ⟨a, .start ha, hR⟩
  | step hs hok hnext ih =>
      obtain ⟨a, ha, hR⟩ := ih
      obtain ⟨a', ha', hR'⟩ := h.step _ a _ _ hs ha hR hok hnext
      exact ⟨a', ha.trans ha', hR'⟩

end Simulation

end Transition
