import CxlLock.Lib.Transition
import Mathlib.Data.Nat.Init

/-!
# Infinite runs, fairness, and what a run leads to

`InfiniteRun` is a run that goes on for ever: at each time one event happens, or nothing does.
All its steps meet a condition, so its states are those of `ReachableWhen`.  A run is fair to an
event when the event, once it can happen from some time on, does happen.

`LeadsTo p q` says that after every state with `p` there is one with `q`.  Fairness comes in by
one rule only, `LeadsTo.of_fair`: `p` lasts until `q`, and in `p` the event can happen and makes
`q` true.  The other rules combine such facts, by transitivity, by cases and by a rank.

The last section is about services that keep a list of the calls and a list of the calls served
so far.  If the calls served are always the first ones, and whenever a call is left over one more
is served some time, then every call is served (`LeadsTo.served`).
-/

namespace Transition.LabelledSystem

universe u v

variable {σ : Type u} {ε : Type v}

/-- The event can happen. -/
def Enabled (S : LabelledSystem σ ε) (s : σ) (e : ε) : Prop := ∃ s', S.next s e = some s'

/-- A run without an end, all of whose steps meet `ok`. -/
structure InfiniteRun (S : LabelledSystem σ ε) (ok : σ → ε → Prop) where
  state : ℕ → σ
  /-- What happens at a time, if anything does. -/
  event : ℕ → Option ε
  starts : S.init (state 0)
  step : ∀ t e, event t = some e → S.next (state t) e = some (state (t + 1))
  meets : ∀ t e, event t = some e → ok (state t) e
  rest : ∀ t, event t = none → state (t + 1) = state t

namespace InfiniteRun

variable {S : LabelledSystem σ ε} {ok : σ → ε → Prop} (r : S.InfiniteRun ok)

lemma reachable (t : ℕ) : S.ReachableWhen ok (r.state t) := by
  induction t with
  | zero => exact .start r.starts
  | succ t ih =>
      cases he : r.event t with
      | none =>
          rw [r.rest t he]
          exact ih
      | some e => exact ih.step (r.meets t e he) (r.step t e he)

/-- The event happens again and again unless it is impossible again and again. -/
def Fair (e : ε) : Prop :=
  ∀ t, ∃ t', t ≤ t' ∧ (r.event t' = some e ∨ ¬ S.Enabled (r.state t') e)

/-- After every state with `p` there is a state with `q`. -/
def LeadsTo (p q : σ → Prop) : Prop :=
  ∀ t, p (r.state t) → ∃ t', t ≤ t' ∧ q (r.state t')

variable {r} {p q q' : σ → Prop}

/-- What every step keeps stays true. -/
lemma stays (hstep : ∀ s e s', S.ReachableWhen ok s → p s → ok s e → S.next s e = some s' → p s')
    {t t' : ℕ} (hp : p (r.state t)) (ht : t ≤ t') : p (r.state t') := by
  induction t', ht using Nat.le_induction with
  | base => exact hp
  | succ t' _ ih =>
      cases he : r.event t' with
      | none =>
          rw [r.rest t' he]
          exact ih
      | some e => exact hstep _ e _ (r.reachable t') ih (r.meets t' e he) (r.step t' e he)

namespace LeadsTo

lemma of_imp (h : ∀ s, S.ReachableWhen ok s → p s → q s) : r.LeadsTo p q :=
  fun t hp => ⟨t, Nat.le_refl t, h _ (r.reachable t) hp⟩

lemma trans (h : r.LeadsTo p q) (h' : r.LeadsTo q q') : r.LeadsTo p q' := by
  intro t hp
  obtain ⟨t₁, ht₁, hq⟩ := h t hp
  obtain ⟨t₂, ht₂, hq'⟩ := h' t₁ hq
  exact ⟨t₂, Nat.le_trans ht₁ ht₂, hq'⟩

/-- Cases on the state the run starts from. -/
lemma cases {p' : σ → Prop} (h : r.LeadsTo p q) (h' : r.LeadsTo p' q) :
    r.LeadsTo (fun s => p s ∨ p' s) q :=
  fun t hp => hp.elim (h t) (h' t)

lemma mono {p' : σ → Prop} (h : r.LeadsTo p q) (hp : ∀ s, S.ReachableWhen ok s → p' s → p s)
    (hq : ∀ s, S.ReachableWhen ok s → q s → q' s) : r.LeadsTo p' q' :=
  ((of_imp hp).trans h).trans (of_imp hq)

/-- A parameter of the state that the run starts from. -/
lemma exists_left {α : Type*} {p : α → σ → Prop} (h : ∀ a, r.LeadsTo (p a) q) :
    r.LeadsTo (fun s => ∃ a, p a s) q :=
  fun t ⟨a, ha⟩ => h a t ha

/-- **The rule for fair events.**  `p` lasts until `q`; while it lasts, `e` can happen, and it
makes `q` true. -/
theorem of_fair {e : ε} (hfair : r.Fair e)
    (hstep : ∀ s e' s', S.ReachableWhen ok s → p s → ok s e' → S.next s e' = some s' →
      p s' ∨ q s')
    (hhelps : ∀ s s', S.ReachableWhen ok s → p s → ok s e → S.next s e = some s' → q s')
    (henabled : ∀ s, S.ReachableWhen ok s → p s → S.Enabled s e) : r.LeadsTo p q := by
  intro t hp
  obtain ⟨t', ht, he⟩ := hfair t
  -- up to the time given by fairness, `q` has come true or `p` still holds
  have huntil : (∃ k, t ≤ k ∧ q (r.state k)) ∨ p (r.state t') := by
    clear he
    induction t', ht using Nat.le_induction with
    | base => exact .inr hp
    | succ k hk ih =>
        rcases ih with hq | hpk
        · exact .inl hq
        cases hek : r.event k with
        | none =>
            rw [r.rest k hek]
            exact .inr hpk
        | some e' =>
            rcases hstep _ e' _ (r.reachable k) hpk (r.meets k e' hek) (r.step k e' hek) with
              hp' | hq
            · exact .inr hp'
            · exact .inl ⟨k + 1, by omega, hq⟩
  rcases huntil with hq | hpt
  · exact hq
  rcases he with he | hdisabled
  · exact ⟨t' + 1, by omega,
      hhelps _ _ (r.reachable t') hpt (r.meets t' e he) (r.step t' e he)⟩
  · exact absurd (henabled _ (r.reachable t') hpt) hdisabled

/-- Induction on a rank that does not stay where it is. -/
theorem rank (μ : σ → ℕ)
    (h : ∀ k, r.LeadsTo (fun s => p s ∧ μ s = k) fun s => q s ∨ p s ∧ μ s < k) :
    r.LeadsTo p q := by
  have hall : ∀ k t, p (r.state t) → μ (r.state t) = k → ∃ t', t ≤ t' ∧ q (r.state t') := by
    intro k
    induction k using Nat.strong_induction_on with
    | _ k ih =>
        intro t hp hk
        obtain ⟨t₁, ht₁, hq | ⟨hp₁, hlt⟩⟩ := h k t ⟨hp, hk⟩
        · exact ⟨t₁, ht₁, hq⟩
        · obtain ⟨t₂, ht₂, hq⟩ := ih _ hlt t₁ hp₁ rfl
          exact ⟨t₂, Nat.le_trans ht₁ ht₂, hq⟩
  exact fun t hp => hall _ t hp rfl

/-! ## Services with a list of calls -/

/-- **Every call is served.**  The calls served are the first ones, no call is taken back, and
while a call is left over some time one more is served. -/
theorem served {α : Type*} {calls done : σ → List α}
    (hinitial : ∀ s, S.ReachableWhen ok s → done s <+: calls s)
    (hcalls : ∀ s e s', S.ReachableWhen ok s → ok s e → S.next s e = some s' →
      calls s <+: calls s')
    (hprogress : ∀ k, r.LeadsTo (fun s => (done s).length = k ∧ k < (calls s).length)
      fun s => k < (done s).length)
    (i : ℕ) (a : α) :
    r.LeadsTo (fun s => (calls s)[i]? = some a) fun s => (done s)[i]? = some a := by
  have hget : ∀ s, S.ReachableWhen ok s → (calls s)[i]? = some a → i < (done s).length →
      (done s)[i]? = some a := by
    intro s hs ha hi
    have hsame := List.prefix_iff_getElem?.1 (hinitial s hs) i hi
    rw [List.getElem?_eq_getElem hi, ← hsame, ha]
  refine rank (fun s => i + 1 - (done s).length) fun k t ⟨ha, hk⟩ => ?_
  by_cases hi : i < (done (r.state t)).length
  · exact ⟨t, Nat.le_refl t, .inl (hget _ (r.reachable t) ha hi)⟩
  have hlt : i < (calls (r.state t)).length := (List.getElem?_eq_some_iff.1 ha).1
  obtain ⟨t', ht, hmore⟩ := hprogress _ t ⟨rfl, by omega⟩
  have ha' : (calls (r.state t'))[i]? = some a := by
    refine r.stays (p := fun s => (calls s)[i]? = some a) (fun s e s' hs hp hok hnext => ?_) ha ht
    obtain ⟨hi, hget⟩ := List.getElem?_eq_some_iff.1 hp
    rw [List.prefix_iff_getElem?.1 (hcalls s e s' hs hok hnext) i hi, hget]
  exact ⟨t', ht, .inr ⟨ha', by omega⟩⟩

end LeadsTo

/-! ## The rest of a run -/

section Rest

variable {p : ε → Prop}

/-- What is left of a run from a time on, in case all later events meet one more condition. -/
def after (r : S.InfiniteRun ok) (T : ℕ) (hp : ∀ t e, T ≤ t → r.event t = some e → p e) :
    (S.startingAt (r.state T)).InfiniteRun fun s e => ok s e ∧ p e where
  state t := r.state (T + t)
  event t := r.event (T + t)
  starts := rfl
  step t e he := r.step (T + t) e he
  meets t e he := ⟨r.meets (T + t) e he, hp _ e (Nat.le_add_right T t) he⟩
  rest t he := r.rest (T + t) he

variable {T : ℕ} {hp : ∀ t e, T ≤ t → r.event t = some e → p e}

/-- It is fair to the same events. -/
lemma Fair.after {e : ε} (h : r.Fair e) : (r.after T hp).Fair e := by
  intro t
  obtain ⟨t', ht, he⟩ := h (T + t)
  refine ⟨t' - T, by omega, ?_⟩
  have htime : T + (t' - T) = t' := by omega
  simp only [InfiniteRun.after, htime]
  exact he

end Rest

/-! ## Runs after a schedule -/

section Schedule

variable (S ok) [∀ s e, Decidable (ok s e)]

/-- The state after an event, if it can happen and meets `ok`. -/
def attempt (s : σ) (e : ε) : Option σ := if ok s e then S.next s e else none

/-- The states when the events of a schedule are tried one after the other. -/
def statesAfter (s₀ : σ) (schedule : ℕ → ε) : ℕ → σ
  | 0 => s₀
  | t + 1 => (attempt S ok (statesAfter s₀ schedule t) (schedule t)).getD
      (statesAfter s₀ schedule t)

variable {S ok} {s₀ : σ}

lemma attempt_eq_some {s s' : σ} {e : ε} :
    attempt S ok s e = some s' ↔ ok s e ∧ S.next s e = some s' := by
  simp [attempt]

/-- The run in which what is scheduled happens whenever it can. -/
def ofSchedule (h₀ : S.init s₀) (schedule : ℕ → ε) : S.InfiniteRun ok where
  state := statesAfter S ok s₀ schedule
  event t := (attempt S ok (statesAfter S ok s₀ schedule t) (schedule t)).map fun _ => schedule t
  starts := h₀
  step t e he := by
    obtain ⟨s', hs', rfl⟩ := Option.map_eq_some_iff.1 he
    rw [statesAfter, hs', Option.getD_some]
    exact (attempt_eq_some.1 hs').2
  meets t e he := by
    obtain ⟨s', hs', rfl⟩ := Option.map_eq_some_iff.1 he
    exact (attempt_eq_some.1 hs').1
  rest t he := by rw [statesAfter, Option.map_eq_none_iff.1 he, Option.getD_none]

/-- What is scheduled happens when it can. -/
lemma ofSchedule_step {h₀ : S.init s₀} {schedule : ℕ → ε} {t : ℕ} {s' : σ}
    (hok : ok ((ofSchedule h₀ schedule : S.InfiniteRun ok).state t) (schedule t))
    (hnext : S.next ((ofSchedule h₀ schedule : S.InfiniteRun ok).state t) (schedule t) = some s') :
    (ofSchedule h₀ schedule : S.InfiniteRun ok).state (t + 1) = s' := by
  have hattempt : attempt S ok (statesAfter S ok s₀ schedule t) (schedule t) = some s' :=
    attempt_eq_some.2 ⟨hok, hnext⟩
  show (attempt S ok (statesAfter S ok s₀ schedule t) (schedule t)).getD _ = s'
  rw [hattempt, Option.getD_some]

/-- A schedule that tries an event again and again is fair to it. -/
lemma ofSchedule_fair {h₀ : S.init s₀} {schedule : ℕ → ε} {e : ε} (hok : ∀ s, ok s e)
    (hagain : ∀ t, ∃ t', t ≤ t' ∧ schedule t' = e) :
    (ofSchedule h₀ schedule : S.InfiniteRun ok).Fair e := by
  intro t
  obtain ⟨t', ht, he⟩ := hagain t
  refine ⟨t', ht, ?_⟩
  by_cases hen : S.Enabled (statesAfter S ok s₀ schedule t') e
  · left
    obtain ⟨s', hs'⟩ := hen
    have hattempt := attempt_eq_some.2 ⟨hok _, hs'⟩
    simp only [ofSchedule, he, hattempt, Option.map_some]
  · exact .inr hen

end Schedule

/-- A run is fair to what never can happen. -/
lemma fair_of_never {r : S.InfiniteRun ok} {e : ε}
    (h : ∀ s, S.ReachableWhen ok s → ¬ S.Enabled s e) : r.Fair e :=
  fun t => ⟨t, Nat.le_refl t, .inr (h _ (r.reachable t))⟩

end InfiniteRun

end Transition.LabelledSystem
