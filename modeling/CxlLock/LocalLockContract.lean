import CxlLock.Lib.Transition
import CxlLock.LocalLock

/-!
# The contract of the local mutexes (`local_lock.cpp`, `local_lock.h`)

Any number of threads of a node make calls on its `LocalLockArray`.  Which thread holds a lock is
told by the results that the calls have returned: it has got the lock by a successful `acquire`
or `try_acquire` and not given it back by a successful `release` since.

`is_held_by_this_thread` probes the mutex with `pthread_mutex_trylock` and takes a failure with
`EDEADLK` or `EPERM` for ownership.  An error-checking mutex that is locked fails with `EBUSY`
whoever asks, so that the answer is never true.  The probe is one step here, the trylock and its
unlock together: no other call meets the mutex while it is probed.  `localLocks_contract_iff`
says that every call of every run keeps the contract but the query of a thread that does hold
the lock.
-/

namespace CxlLock

open Transition

/-! ## Calls and what they tell -/

/-- A call of a thread. -/
inductive LocalCall
  | acquire (l : LockId)
  | tryAcquire (l : LockId)
  | release (l : LockId)
  | isHeldByThisThread (l : LockId)
  deriving DecidableEq

/-- The lock that the call is about. -/
@[simp] def LocalCall.lock : LocalCall → LockId
  | .acquire l | .tryAcquire l | .release l | .isHeldByThisThread l => l

/-- What a call returns. -/
abbrev LocalAnswer := LockResult ⊕ Bool

/-- A call that has returned. -/
structure LocalRecord (T : Type) where
  thread : T
  call : LocalCall
  answer : LocalAnswer

section Runs

variable {T : Type} [DecidableEq T]

/-- A call of thread `t`; `none` when it has to wait. -/
def LocalLockArray.run (a : LocalLockArray T) (t : T) :
    LocalCall → Option (LocalAnswer × LocalLockArray T)
  | .acquire l => (a.acquire t l).map fun r => (.inl r.1, r.2)
  | .tryAcquire l => some (.inl (a.tryAcquire t l).1, (a.tryAcquire t l).2)
  | .release l => some (.inl (a.release t l).1, (a.release t l).2)
  | .isHeldByThisThread l =>
      some (.inr (a.isHeldByThisThread t l).1, (a.isHeldByThisThread t l).2)

/-- Threads that make calls on an array of `lockCount` mutexes. -/
def localSystem (T : Type) [DecidableEq T] (lockCount : UInt32) :
    LabelledSystem (LocalLockArray T) (T × LocalCall) where
  init a := ∃ setup, LocalLockArray.unused.initializeArray lockCount setup = (.success, a)
  next a e := (a.run e.1 e.2).map Prod.snd

/-- Record a call with its answer. -/
def recordAnswer (a : LocalLockArray T) (e : T × LocalCall) (_ : LocalLockArray T)
    (log : List (LocalRecord T)) : List (LocalRecord T) :=
  match a.run e.1 e.2 with
  | some r => log ++ [⟨e.1, e.2, r.1⟩]
  | none => log

/-- The calls with the record of their answers. -/
def loggedLocalSystem (T : Type) [DecidableEq T] (lockCount : UInt32) :
    LabelledSystem (LocalLockArray T × List (LocalRecord T)) (T × LocalCall) :=
  (localSystem T lockCount).withHistory [] recordAnswer

/-- Whether thread `t` holds lock `l` after a call, from whether it held it before. -/
def LocalRecord.holdsAfter (t : T) (l : LockId) (held : Bool) (r : LocalRecord T) : Bool :=
  if r.thread = t ∧ r.call.lock = l ∧ r.answer = .inl .success then
    match r.call with
    | .acquire _ | .tryAcquire _ => true
    | .release _ | .isHeldByThisThread _ => false
  else held

/-- Thread `t` holds lock `l` by what the calls have returned. -/
def Holds (log : List (LocalRecord T)) (t : T) (l : LockId) : Prop :=
  log.foldl (LocalRecord.holdsAfter t l) false = true

instance (log : List (LocalRecord T)) (t : T) (l : LockId) : Decidable (Holds log t l) :=
  inferInstanceAs (Decidable (_ = _))

/-- The contract of one call, made by thread `t` on array `a` after the calls in `log`. -/
def KeepsContract (a : LocalLockArray T) (log : List (LocalRecord T)) (t : T) :
    LocalCall → Prop
  | .acquire l => ∀ rc a', a.acquire t l = some (rc, a') →
      (rc = .success → ∀ u, ¬ Holds log u l) ∧ (rc ≠ .success → a' = a)
  | .tryAcquire l => ((a.tryAcquire t l).1 = .success ↔ ∀ u, ¬ Holds log u l) ∧
      ((a.tryAcquire t l).1 ≠ .success → (a.tryAcquire t l).2 = a)
  | .release l => ((a.release t l).1 = .success ↔ Holds log t l) ∧
      ((a.release t l).1 ≠ .success → (a.release t l).2 = a)
  | .isHeldByThisThread l => ((a.isHeldByThisThread t l).1 = true ↔ Holds log t l) ∧
      (a.isHeldByThisThread t l).2 = a

end Runs

/-! ## The owner of a mutex is the thread that holds the lock -/

section Owner

variable {T : Type} [DecidableEq T] {lockCount : UInt32} {a a' : LocalLockArray T}
  {log : List (LocalRecord T)} {t : T} {call : LocalCall} {answer : LocalAnswer}

/-- What a call can do: lock a free mutex, unlock one of the caller's own, or fail. -/
lemma LocalLockArray.run_cases (h : a.run t call = some (answer, a')) :
    (∃ l, (call = .acquire l ∨ call = .tryAcquire l) ∧ answer = .inl .success ∧
        a.owner l = none ∧ a' = a.setOwner l (some t)) ∨
      (∃ l, call = .release l ∧ answer = .inl .success ∧ a.owner l = some t ∧
        a' = a.setOwner l none) ∨
      answer ≠ .inl .success ∧ a' = a := by
  cases call with
  | acquire l =>
      simp only [run, acquire, Option.map_eq_some_iff, Prod.mk.injEq] at h
      obtain ⟨r, hr, rfl, rfl⟩ := h
      split_ifs at hr with hrange hfree hself <;> cases hr
      · exact .inr (.inr ⟨by simp, rfl⟩)
      · exact .inl ⟨l, .inl rfl, rfl, hfree, rfl⟩
      · exact .inr (.inr ⟨by simp, rfl⟩)
  | tryAcquire l =>
      simp only [run, tryAcquire, Option.some.injEq, Prod.mk.injEq] at h
      obtain ⟨rfl, rfl⟩ := h
      split_ifs with hrange hfree
      · exact .inr (.inr ⟨by simp, rfl⟩)
      · exact .inl ⟨l, .inr rfl, rfl, hfree, rfl⟩
      · exact .inr (.inr ⟨by simp, rfl⟩)
  | release l =>
      simp only [run, release, Option.some.injEq, Prod.mk.injEq] at h
      obtain ⟨rfl, rfl⟩ := h
      split_ifs with hrange hself
      · exact .inr (.inr ⟨by simp, rfl⟩)
      · exact .inr (.inl ⟨l, rfl, rfl, hself, rfl⟩)
      · exact .inr (.inr ⟨by simp, rfl⟩)
  | isHeldByThisThread l =>
      simp only [run, isHeldByThisThread_eq, Option.some.injEq, Prod.mk.injEq] at h
      obtain ⟨rfl, rfl⟩ := h
      exact .inr (.inr ⟨by simp, rfl⟩)

omit [DecidableEq T] in
/-- A new array has free mutexes. -/
lemma LocalLockArray.of_initializeArray {setup : MutexSetup}
    (h : unused.initializeArray lockCount setup = (.success, a)) :
    a.Ready lockCount ∧ a.owner = fun _ => none := by
  unfold initializeArray at h
  split_ifs at h
  · simp at h
  · simp [unused] at *
  · cases setup <;> simp at h
    rw [← h]
    exact ⟨⟨rfl, rfl⟩, rfl⟩

lemma not_holds_nil (t : T) (l : LockId) : ¬ Holds ([] : List (LocalRecord T)) t l :=
  Bool.false_ne_true

lemma holds_concat (log : List (LocalRecord T)) (r : LocalRecord T) (t : T) (l : LockId) :
    Holds (log ++ [r]) t l ↔
      if r.thread = t ∧ r.call.lock = l ∧ r.answer = .inl .success then
        r.call = .acquire l ∨ r.call = .tryAcquire l
      else Holds log t l := by
  rw [Holds, List.foldl_append, List.foldl_cons, List.foldl_nil, LocalRecord.holdsAfter]
  split_ifs with hr
  · obtain ⟨-, rfl, -⟩ := hr
    cases r.call <;> simp
  · rfl

/-- What the calls have returned agrees with the owners of the mutexes. -/
structure OwnersKnown (lockCount : UInt32) (a : LocalLockArray T)
    (log : List (LocalRecord T)) : Prop where
  ready : a.Ready lockCount
  holds : ∀ t l, Holds log t l ↔ a.owner l = some t

/-- One more call. -/
lemma OwnersKnown.step (h : OwnersKnown lockCount a log)
    (hrun : a.run t call = some (answer, a')) :
    OwnersKnown lockCount a' (log ++ [⟨t, call, answer⟩]) := by
  rcases LocalLockArray.run_cases hrun with ⟨l, hcall, rfl, hfree, rfl⟩ |
    ⟨l, rfl, rfl, hown, rfl⟩ | ⟨hfailed, rfl⟩
  · refine ⟨h.ready.setOwner _, fun u j => ?_⟩
    have hlock : call.lock = l := by rcases hcall with rfl | rfl <;> rfl
    rw [holds_concat, h.holds, LocalLockArray.setOwner_owner, hlock]
    by_cases hj : j = l
    · subst hj
      by_cases hu : t = u
      · simp [hu, hcall]
      · simp [hu, hfree]
    · simp [hj, Ne.symm hj]
  · refine ⟨h.ready.setOwner _, fun u j => ?_⟩
    rw [holds_concat, h.holds, LocalLockArray.setOwner_owner]
    by_cases hj : j = l
    · subst hj
      by_cases hu : t = u
      · simp [hu]
      · simp [hu, hown]
    · simp [hj, Ne.symm hj]
  · refine ⟨h.ready, fun u j => ?_⟩
    rw [holds_concat, h.holds, if_neg fun hr => hfailed hr.2.2]

lemma ownersKnown_of_reachable {p : LocalLockArray T × List (LocalRecord T)}
    (hp : (loggedLocalSystem T lockCount).Reachable p) : OwnersKnown lockCount p.1 p.2 := by
  refine LabelledSystem.Reachable.invariant (I := fun p => OwnersKnown lockCount p.1 p.2)
    (fun p hinit => ?_) (fun p e p' h hnext => ?_) hp
  · obtain ⟨⟨setup, hsetup⟩, hlog⟩ := hinit
    obtain ⟨hready, hfree⟩ := LocalLockArray.of_initializeArray hsetup
    refine ⟨hready, fun t l => ?_⟩
    rw [hlog, hfree]
    exact iff_of_false (not_holds_nil t l) (by simp)
  · obtain ⟨a', ha', rfl⟩ := Option.map_eq_some_iff.1 hnext
    obtain ⟨r, hr, rfl⟩ := Option.map_eq_some_iff.1 ha'
    rw [recordAnswer, hr]
    exact h.step hr

end Owner

/-! ## The contract -/

section Contract

variable {T : Type} [DecidableEq T] {lockCount : UInt32} {a : LocalLockArray T}
  {log : List (LocalRecord T)} {t : T} {call : LocalCall}

lemma OwnersKnown.exclusive (h : OwnersKnown lockCount a log) {t u : T} {l : LockId}
    (ht : Holds log t l) (hu : Holds log u l) : t = u :=
  Option.some.inj (((h.holds t l).1 ht).symm.trans ((h.holds u l).1 hu))

/-- Nobody holds a lock whose mutex is free. -/
lemma OwnersKnown.free_iff (h : OwnersKnown lockCount a log) (l : LockId) :
    a.owner l = none ↔ ∀ u, ¬ Holds log u l := by
  simp only [h.holds]
  cases a.owner l with
  | none => simp
  | some u => simp

lemma OwnersKnown.acquire (h : OwnersKnown lockCount a log) {l : LockId} (hl : l < lockCount) :
    KeepsContract a log t (.acquire l) := by
  intro rc a' hrun
  obtain ⟨hfree, rfl, -⟩ | ⟨-, rfl, rfl⟩ := LocalLockArray.acquire_cases h.ready hl hrun
  · exact ⟨fun _ => (h.free_iff l).1 hfree, fun hne => absurd rfl hne⟩
  · exact ⟨LockResult.noConfusion, fun _ => rfl⟩

lemma OwnersKnown.tryAcquire (h : OwnersKnown lockCount a log) {l : LockId}
    (hl : l < lockCount) : KeepsContract a log t (.tryAcquire l) := by
  rw [KeepsContract, ← h.free_iff]
  obtain ⟨hfree, hrun⟩ | ⟨hheld, hrun⟩ := LocalLockArray.tryAcquire_cases (t := t) h.ready hl
  · simp [hrun, hfree]
  · simp [hrun, hheld]

lemma OwnersKnown.release (h : OwnersKnown lockCount a log) {l : LockId} (hl : l < lockCount) :
    KeepsContract a log t (.release l) := by
  rw [KeepsContract, h.holds]
  by_cases hown : a.owner l = some t
  · simp [LocalLockArray.release_of_owner h.ready hl hown, hown]
  · obtain ⟨hrc, hsame⟩ := LocalLockArray.release_of_not_owner hown
    exact ⟨iff_of_false hrc hown, fun _ => hsame⟩

/-- The query answers no: right when the thread does not hold the lock, and only then. -/
lemma keepsContract_isHeld_iff (a : LocalLockArray T) (log : List (LocalRecord T)) (t : T)
    (l : LockId) : KeepsContract a log t (.isHeldByThisThread l) ↔ ¬ Holds log t l := by
  simp [KeepsContract, LocalLockArray.isHeldByThisThread_eq]

/-- In every run of any number of threads on `lockCount` mutexes, each lock is held by at most
one thread, and a call keeps its contract exactly when it is not the question
`is_held_by_this_thread` of a thread that holds the lock. -/
theorem localLocks_contract_iff (lockCount : UInt32) (a : LocalLockArray T)
    (log : List (LocalRecord T))
    (hreach : (loggedLocalSystem T lockCount).Reachable (a, log)) (t : T) (call : LocalCall)
    (hlock : call.lock < lockCount) :
    (∀ u v l, Holds log u l → Holds log v l → u = v) ∧
      (KeepsContract a log t call ↔
        ¬ (call = .isHeldByThisThread call.lock ∧ Holds log t call.lock)) := by
  have h : OwnersKnown lockCount a log := ownersKnown_of_reachable hreach
  refine ⟨fun u v l => h.exclusive, ?_⟩
  cases call with
  | acquire l => exact iff_of_true (h.acquire hlock) (by simp)
  | tryAcquire l => exact iff_of_true (h.tryAcquire hlock) (by simp)
  | release l => exact iff_of_true (h.release hlock) (by simp)
  | isHeldByThisThread l => simp [keepsContract_isHeld_iff]

/-- Two mutexes after they have been initialized. -/
def twoMutexes (T : Type) : LocalLockArray T := ⟨true, 2, fun _ => none⟩

lemma twoMutexes_reachable : (loggedLocalSystem T 2).Reachable (twoMutexes T, []) :=
  .start ⟨⟨.done, rfl⟩, rfl⟩

/-- Thread 0 has acquired lock 1. -/
lemma heldByZero_reachable : (loggedLocalSystem ℕ 2).Reachable
    ((twoMutexes ℕ).setOwner 1 (some 0), [⟨0, .acquire 1, .inl .success⟩]) :=
  twoMutexes_reachable.next (e := (0, .acquire 1)) rfl

theorem localLocks_contract_iff_held :
    (∀ u v l, Holds [⟨0, .acquire 1, .inl .success⟩] u l →
        Holds [⟨0, .acquire 1, .inl .success⟩] v l → u = v) ∧
      (KeepsContract ((twoMutexes ℕ).setOwner 1 (some 0)) [⟨0, .acquire 1, .inl .success⟩] 1
          (.release 1) ↔
        ¬ (LocalCall.release 1 = .isHeldByThisThread 1 ∧
          Holds [⟨0, .acquire 1, .inl .success⟩] 1 1)) :=
  localLocks_contract_iff 2 _ _ heldByZero_reachable 1 (.release 1) (by decide)

/-- Thread 0 acquires lock 1, asks whether it holds it, and is told that it does not. -/
theorem holder_not_recognized :
    ∃ (a : LocalLockArray ℕ) (log : List (LocalRecord ℕ)),
      (loggedLocalSystem ℕ 2).Reachable (a, log) ∧ Holds log 0 1 ∧
        (a.isHeldByThisThread 0 1).1 = false :=
  ⟨_, _, heldByZero_reachable, rfl, rfl⟩

end Contract

end CxlLock
