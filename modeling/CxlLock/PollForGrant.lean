import Mathlib.Data.Nat.Find
import Mathlib.Order.Monotone.Basic
import CxlLock.AccessModel
import CxlLock.TwoTierRelease

/-!
# How long a call polls (`two_tier_lock.cpp`)

`TwoTierLock::acquire` and `try_acquire` share the loop `poll_for_grant`.  It is told one number,
`timeout_ms`, and zero stands for two things: `two_tier_lock.h` promises that `acquire` then has
no timeout, and `try_acquire` passes it to be back soon.  The loop takes the second reading and
gives up after `spin_count` has gone beyond 1000.

What other parties do between two accesses of the loop is in the values that its loads return,
so that a schedule is any sequence of iterations, each with any values; the clock is any steady
clock.  `acquire_waits_iff` says when the call without a timeout keeps its promise, and that the
call with a timeout and `try_acquire` always do.
-/

namespace CxlLock

open AccessProgram

/-! ## The calls -/

/-- `std::chrono::steady_clock` in nanoseconds, which are 64-bit signed numbers. -/
structure SteadyClock where
  reading : Nat → Nat
  monotone : Monotone reading
  lt : ∀ i, reading i < 2 ^ 63

namespace TwoTierLock

section Surroundings

variable (lock : TwoTierLock) (k : LockAlgorithm) (lockId : LockId)

/-- A call of `acquire_lock` with what it has read. -/
structure RequestRun where
  fuel : Nat
  trace : List (Event k.accesses.Word UInt32)
  result : LockResult
  runs : (k.accesses.program lock.stateOffset lock.nodeCount fuel
    (.acquireLock lock.nodeId lockId)).Runs trace (.inl result)

/-- One iteration of `poll_for_grant` with what it has read. -/
structure PollTurn where
  trace : List (Event k.accesses.Word UInt32)
  granted : Bool
  runs : (k.accesses.poll lock.stateOffset lock.nodeCount lock.nodeId lockId).Runs trace granted

/-- What a call meets with: the result of the local mutex, the request, and the iterations and
readings of the clock for as long as it polls. -/
structure Surroundings where
  localLock : LockResult
  request : RequestRun lock k lockId
  turns : Nat → PollTurn lock k lockId
  clock : SteadyClock

end Surroundings

/-- A call that has returned. -/
structure CallEnd where
  result : LockResult
  /-- The number of iterations of `poll_for_grant`. -/
  polls : Nat
  /-- The request has been withdrawn by `release_lock` and the local mutex given back. -/
  withdrawn : Bool
  deriving DecidableEq

variable {lock : TwoTierLock} {k : LockAlgorithm} {lockId : LockId}

/-- The nanoseconds from the begin of `poll_for_grant` to the clock reading of an iteration. -/
def Surroundings.elapsedNs (env : Surroundings lock k lockId) (turn : Nat) : Nat :=
  env.clock.reading (turn + 1) - env.clock.reading 0

/-- `elapsed_ms`. -/
def Surroundings.elapsedMs (env : Surroundings lock k lockId) (turn : Nat) : UInt64 :=
  UInt64.ofNat (env.elapsedNs turn / 1000000)

/-- What `adaptive_backoff` does to the count; the pauses change nothing. -/
def adaptiveBackoff (spinCount : UInt32) : UInt32 := spinCount + 1

/-- The body of the loop: its result when it returns. -/
def pollTurn (env : Surroundings lock k lockId) (timeoutMs : UInt64) (turn : Nat)
    (spinCount : UInt32) : Option LockResult :=
  if (env.turns turn).granted then some .success
  else if timeoutMs > 0 then
    if env.elapsedMs turn ≥ timeoutMs then some .errorTimeout else none
  else if spinCount > 1000 then some .errorBusy
  else none

/-- `poll_for_grant` from an iteration on: its result and the number of iterations.  `none` when
it has not returned within `fuel` iterations. -/
def pollForGrant (env : Surroundings lock k lockId) (timeoutMs : UInt64) :
    (fuel turn : Nat) → (spinCount : UInt32) → Option (LockResult × Nat)
  | 0, _, _ => none
  | fuel + 1, turn, spinCount =>
      match pollTurn env timeoutMs turn spinCount with
      | some rc => some (rc, turn + 1)
      | none => pollForGrant env timeoutMs fuel (turn + 1) (adaptiveBackoff spinCount)

/-- The steps that `acquire` and `try_acquire` share; they pass different timeouts to the loop and
report its failure differently. -/
def callWith (call : Cas.Call) (lock : TwoTierLock) (lockId : LockId)
    (env : Surroundings lock k lockId) (fuel : Nat) : Option CallEnd :=
  if lock.initialized = false then some ⟨.errorLockNotInitialized, 0, false⟩
  else if lockId ≥ lock.maxLocks then some ⟨.errorInvalidParam, 0, false⟩
  else if env.localLock ≠ .success then some ⟨env.localLock, 0, false⟩
  else if env.request.result ≠ .success then some ⟨env.request.result, 0, false⟩
  else
    (pollForGrant env call.timeoutMs fuel 0 0).map fun r =>
      if r.1 ≠ .success then ⟨call.failure r.1, r.2, true⟩ else ⟨.success, r.2, false⟩

/-- `TwoTierLock::acquire`. -/
def acquire (lock : TwoTierLock) (lockId : LockId) (timeoutMs : UInt64)
    (env : Surroundings lock k lockId) (fuel : Nat) : Option CallEnd :=
  callWith (.acquire timeoutMs) lock lockId env fuel

/-- `TwoTierLock::try_acquire`. -/
def tryAcquire (lock : TwoTierLock) (lockId : LockId) (env : Surroundings lock k lockId)
    (fuel : Nat) : Option CallEnd :=
  callWith .tryAcquire lock lockId env fuel

/-! ## The promises -/

/-- A call without a timeout waits for the grant, and returns when it sees it. -/
structure WaitsForGrant (lock : TwoTierLock) (lockId : LockId)
    (env : Surroundings lock k lockId) : Prop where
  only : ∀ fuel e, lock.acquire lockId 0 env fuel = some e →
    e.result = .success ∧ ∃ i < e.polls, (env.turns i).granted = true
  returns : ∀ i, (env.turns i).granted = true → ∃ fuel e, lock.acquire lockId 0 env fuel = some e

/-- A call with a timeout gives up only when the time is over and no poll has seen the grant. -/
def TimesOutLate (lock : TwoTierLock) (lockId : LockId) (timeoutMs : UInt64)
    (env : Surroundings lock k lockId) : Prop :=
  ∀ fuel e, lock.acquire lockId timeoutMs env fuel = some e → e.result = .errorTimeout →
    (∀ i < e.polls, (env.turns i).granted = false) ∧
      ∃ last, e.polls = last + 1 ∧ timeoutMs.toNat * 1000000 ≤ env.elapsedNs last

/-- What `two_tier_lock.h` says about the timeout. -/
def KeepsTimeout (lock : TwoTierLock) (lockId : LockId) (timeoutMs : UInt64)
    (env : Surroundings lock k lockId) : Prop :=
  if timeoutMs = 0 then WaitsForGrant lock lockId env
  else TimesOutLate lock lockId timeoutMs env

/-! ## The loop -/

section Loop

variable {env : Surroundings lock k lockId} {timeoutMs : UInt64} {fuel turn polls : Nat}
  {rc : LockResult}

/-- The body of the loop in its turn; the count is the number of the turn. -/
def turnResult (env : Surroundings lock k lockId) (timeoutMs : UInt64) (turn : Nat) :
    Option LockResult :=
  pollTurn env timeoutMs turn (UInt32.ofNat turn)

lemma adaptiveBackoff_ofNat (turn : Nat) :
    adaptiveBackoff (UInt32.ofNat turn) = UInt32.ofNat (turn + 1) :=
  (UInt32.ofNat_add turn 1).symm

/-- The loop returns in the first turn that has a result. -/
lemma pollForGrant_eq_some_iff :
    pollForGrant env timeoutMs fuel turn (UInt32.ofNat turn) = some (rc, polls) ↔
      ∃ last, polls = last + 1 ∧ turn ≤ last ∧ last < turn + fuel ∧
        turnResult env timeoutMs last = some rc ∧
        ∀ i, turn ≤ i → i < last → turnResult env timeoutMs i = none := by
  induction fuel generalizing turn with
  | zero =>
      simp only [pollForGrant, reduceCtorEq, false_iff]
      rintro ⟨last, -, hle, hlt, -⟩
      omega
  | succ fuel ih =>
      rw [pollForGrant, adaptiveBackoff_ofNat, ← turnResult]
      cases hturn : turnResult env timeoutMs turn with
      | some rc' =>
          simp only [Option.some.injEq, Prod.mk.injEq]
          constructor
          · rintro ⟨rfl, rfl⟩
            exact ⟨turn, rfl, le_rfl, by omega, hturn, fun i hle hlt => by omega⟩
          · rintro ⟨last, rfl, hle, hlt, hlast, hbefore⟩
            rcases hle.eq_or_lt with rfl | hlt'
            · exact ⟨by simpa [hturn] using hlast, rfl⟩
            · rw [hbefore turn le_rfl hlt'] at hturn
              cases hturn
      | none =>
          simp only [ih]
          constructor
          · rintro ⟨last, rfl, hle, hlt, hlast, hbefore⟩
            refine ⟨last, rfl, by omega, by omega, hlast, fun i hi hi' => ?_⟩
            rcases hi.eq_or_lt with rfl | hi
            · exact hturn
            · exact hbefore i hi hi'
          · rintro ⟨last, rfl, hle, hlt, hlast, hbefore⟩
            have hne : turn ≠ last := by
              rintro rfl
              rw [hturn] at hlast
              cases hlast
            exact ⟨last, rfl, by omega, by omega, hlast, fun i hi hi' => hbefore i (by omega) hi'⟩

lemma turnResult_success_iff :
    turnResult env timeoutMs turn = some .success ↔ (env.turns turn).granted = true := by
  unfold turnResult pollTurn
  split_ifs <;> simp_all

lemma granted_eq_false_of_turnResult (h : turnResult env timeoutMs turn ≠ some .success) :
    (env.turns turn).granted = false :=
  Bool.eq_false_iff.2 fun hgranted => h (turnResult_success_iff.2 hgranted)

/-- Without a timeout the loop goes on as long as the count is at most 1000. -/
lemma turnResult_zero_of_le (hturn : turn ≤ 1000) (h : (env.turns turn).granted = false) :
    turnResult env 0 turn = none := by
  have hcount : ¬ UInt32.ofNat turn > 1000 := by
    rw [gt_iff_lt, UInt32.lt_iff_toNat_lt, UInt32.toNat_ofNat_of_lt' (by
      have : UInt32.size = 2 ^ 32 := rfl
      omega)]
    exact not_lt.2 hturn
  simp [turnResult, pollTurn, h, hcount]

lemma turnResult_zero_last (h : (env.turns 1001).granted = false) :
    turnResult env 0 1001 = some .errorBusy := by
  simp [turnResult, pollTurn, h]

lemma turnResult_zero_last_ne_none : turnResult env 0 1001 ≠ none := by
  cases h : (env.turns 1001).granted with
  | false => simp [turnResult_zero_last h]
  | true => simp [turnResult_success_iff.2 h]

/-- A turn times out when the milliseconds have passed, whole ones counted. -/
lemma elapsed_of_turnResult_timeout (h : turnResult env timeoutMs turn = some .errorTimeout) :
    timeoutMs.toNat * 1000000 ≤ env.elapsedNs turn := by
  unfold turnResult pollTurn at h
  split_ifs at h with hgranted htimed hover hcount
  · cases h
  · have hsmall : env.elapsedNs turn / 1000000 < UInt64.size := by
      have hreading := env.clock.lt (turn + 1)
      have hsize : UInt64.size = 2 ^ 64 := rfl
      have hle : env.elapsedNs turn ≤ env.clock.reading (turn + 1) := Nat.sub_le _ _
      omega
    rw [ge_iff_le, UInt64.le_iff_toNat_le, Surroundings.elapsedMs,
      UInt64.toNat_ofNat_of_lt' hsmall] at hover
    exact (Nat.le_div_iff_mul_le (by decide)).1 hover
  · cases h

end Loop

/-! ## The calls that begin to poll -/

section Calls

variable {env : Surroundings lock k lockId} {timeoutMs : UInt64} {fuel : Nat} {e : CallEnd}

/-- The call comes to its poll: the lock is initialized, the local mutex is taken and the request
made. -/
structure Proceeds (lock : TwoTierLock) (lockId : LockId) (env : Surroundings lock k lockId) :
    Prop where
  initialized : lock.initialized = true
  inRange : lockId < lock.maxLocks
  localLock : env.localLock = .success
  request : env.request.result = .success

/-- A call returns what the first turn with a result says. -/
lemma Proceeds.callWith_eq_some_iff (h : Proceeds lock lockId env) (call : Cas.Call) :
    callWith call lock lockId env fuel = some e ↔
      ∃ rc last, last < fuel ∧ turnResult env call.timeoutMs last = some rc ∧
        (∀ i < last, turnResult env call.timeoutMs i = none) ∧
        e = if rc ≠ .success then ⟨call.failure rc, last + 1, true⟩
          else ⟨.success, last + 1, false⟩ := by
  have hcall : callWith call lock lockId env fuel =
      (pollForGrant env call.timeoutMs fuel 0 (UInt32.ofNat 0)).map fun r =>
        if r.1 ≠ .success then ⟨call.failure r.1, r.2, true⟩ else ⟨.success, r.2, false⟩ := by
    simp [callWith, h.initialized, UInt32.not_le.2 h.inRange, h.localLock, h.request]
  rw [hcall, Option.map_eq_some_iff]
  simp only [Prod.exists, pollForGrant_eq_some_iff]
  constructor
  · rintro ⟨rc, polls, ⟨last, rfl, -, hlt, hlast, hbefore⟩, rfl⟩
    exact ⟨rc, last, by omega, hlast, fun i hi => hbefore i (Nat.zero_le i) hi, rfl⟩
  · rintro ⟨rc, last, hlt, hlast, hbefore, rfl⟩
    exact ⟨rc, last + 1, ⟨last, rfl, Nat.zero_le _, by omega, hlast, fun i _ => hbefore i⟩, rfl⟩

/-- `acquire` returns the result of the loop as it is. -/
lemma Proceeds.acquire_eq_some_iff (h : Proceeds lock lockId env) :
    lock.acquire lockId timeoutMs env fuel = some e ↔
      ∃ rc last, last < fuel ∧ turnResult env timeoutMs last = some rc ∧
        (∀ i < last, turnResult env timeoutMs i = none) ∧
        e = ⟨rc, last + 1, decide (rc ≠ .success)⟩ := by
  have hend (rc : LockResult) (last : Nat) :
      (if rc ≠ .success then (⟨rc, last + 1, true⟩ : CallEnd) else ⟨.success, last + 1, false⟩) =
        ⟨rc, last + 1, decide (rc ≠ .success)⟩ := by
    by_cases hrc : rc = .success
    · simp [hrc]
    · simp [hrc]
  simp only [← hend]
  exact h.callWith_eq_some_iff (.acquire timeoutMs)

/-- Some turn without a timeout has a result. -/
lemma exists_first_turn (env : Surroundings lock k lockId) : ∃ rc last, last ≤ 1001 ∧
    turnResult env 0 last = some rc ∧ ∀ i < last, turnResult env 0 i = none := by
  have hexists : ∃ i, turnResult env 0 i ≠ none := ⟨1001, turnResult_zero_last_ne_none⟩
  obtain ⟨rc, hrc⟩ := Option.ne_none_iff_exists'.1 (Nat.find_spec hexists)
  exact ⟨rc, Nat.find hexists, Nat.find_min' hexists turnResult_zero_last_ne_none, hrc,
    fun i hi => not_not.1 (Nat.find_min hexists hi)⟩

/-- A call without a timeout waits for the grant exactly when one of its 1002 polls sees it. -/
lemma Proceeds.waitsForGrant_iff (h : Proceeds lock lockId env) :
    WaitsForGrant lock lockId env ↔ ∃ i < 1002, (env.turns i).granted = true := by
  obtain ⟨rc, last, hle, hlast, hbefore⟩ := exists_first_turn env
  constructor
  · intro hwaits
    obtain ⟨-, i, hi, hgranted⟩ := hwaits.only 1002 _
      (h.acquire_eq_some_iff.2 ⟨rc, last, by omega, hlast, hbefore, rfl⟩)
    exact ⟨i, by dsimp only at hi; omega, hgranted⟩
  · rintro ⟨i, hi, hgranted⟩
    have hsuccess : turnResult env 0 i = some .success := turnResult_success_iff.2 hgranted
    constructor
    · rintro fuel e he
      obtain ⟨rc', last', -, hlast', hbefore', rfl⟩ := h.acquire_eq_some_iff.1 he
      have hle' : last' ≤ i := not_lt.1 fun hlt => by
        rw [hbefore' i hlt] at hsuccess
        cases hsuccess
      have hgranted' : (env.turns last').granted = true := by
        by_contra hnot
        have hlate : ¬ last' ≤ 1000 := fun hearly => by
          rw [turnResult_zero_of_le hearly (Bool.eq_false_iff.2 hnot)] at hlast'
          cases hlast'
        have heq : last' = i := by omega
        exact hnot (heq ▸ hgranted)
      have hrc' : rc' = .success := by
        rw [turnResult_success_iff.2 hgranted', Option.some.injEq] at hlast'
        exact hlast'.symm
      exact ⟨hrc', last', Nat.lt_succ_self _, hgranted'⟩
    · exact fun _ _ => ⟨1002, _, h.acquire_eq_some_iff.2 ⟨rc, last, by omega, hlast, hbefore, rfl⟩⟩

/-- A call with a timeout never gives up early. -/
lemma Proceeds.timesOutLate (h : Proceeds lock lockId env) (timeoutMs : UInt64) :
    TimesOutLate lock lockId timeoutMs env := by
  intro fuel e he htimeout
  obtain ⟨rc, last, -, hlast, hbefore, rfl⟩ := h.acquire_eq_some_iff.1 he
  obtain rfl : rc = .errorTimeout := htimeout
  have hnot : ∀ i < last + 1, turnResult env timeoutMs i ≠ some .success := fun i hi => by
    rcases Nat.lt_succ_iff_lt_or_eq.1 hi with hlt | rfl
    · simp [hbefore i hlt]
    · simp [hlast]
  exact ⟨fun i hi => granted_eq_false_of_turnResult (hnot i hi), last, rfl,
    elapsed_of_turnResult_timeout hlast⟩

/-- `try_acquire` returns after at most 1002 polls. -/
lemma Proceeds.tryAcquire_bounded (h : Proceeds lock lockId env) :
    ∃ e, e.polls ≤ 1002 ∧ ∀ fuel ≥ 1002, lock.tryAcquire lockId env fuel = some e := by
  obtain ⟨rc, last, hle, hlast, hbefore⟩ := exists_first_turn env
  refine ⟨if rc ≠ .success then ⟨.errorBusy, last + 1, true⟩ else ⟨.success, last + 1, false⟩,
    ?_, fun fuel hfuel => ?_⟩
  · split <;> exact Nat.succ_le_succ hle
  · exact (h.callWith_eq_some_iff .tryAcquire).2 ⟨rc, last, by omega, hlast, hbefore, rfl⟩

end Calls

/-- For every algorithm, lock and schedule: `acquire` keeps what is said about its timeout exactly
when there is one or one of the first 1002 polls sees the grant, and `try_acquire` returns after
at most 1002 polls. -/
theorem acquire_waits_iff (lock : TwoTierLock) (k : LockAlgorithm) (lockId : LockId)
    (timeoutMs : UInt64) (env : Surroundings lock k lockId) (h : Proceeds lock lockId env) :
    (KeepsTimeout lock lockId timeoutMs env ↔
        timeoutMs ≠ 0 ∨ ∃ i < 1002, (env.turns i).granted = true) ∧
      ∃ e, e.polls ≤ 1002 ∧ ∀ fuel ≥ 1002, lock.tryAcquire lockId env fuel = some e := by
  refine ⟨?_, h.tryAcquire_bounded⟩
  unfold KeepsTimeout
  split_ifs with hzero
  · simp only [hzero, ne_eq, not_true_eq_false, false_or]
    exact h.waitsForGrant_iff
  · exact iff_of_true (h.timesOutLate timeoutMs) (.inl hzero)

/-! ## A grant that comes too late -/

section LateGrant

open LockSlotState

/-- Node 0 of two, with the slot table at the begin of the region. -/
def slotLock : TwoTierLock := ⟨true, 0, 0, 2, 2⟩

/-- An iteration that finds the given word in the slot of the node. -/
def slotTurn (v : UInt32) : PollTurn slotLock .cas 0 where
  trace := [.load (Cas.getSlotOffset 0 0 2 0) v]
  granted := v == locked.toWord
  runs := Prog.runs_of_exec (m := fun _ => v) rfl

def slotRequest : RequestRun slotLock .cas 0 where
  fuel := 0
  trace := [.store (Cas.getSlotOffset 0 0 2 0) waiting.toWord,
    .flush ⟨Cas.getSlotOffset 0 0 2 0, 4⟩]
  result := .success
  runs := Prog.runs_of_exec (m := fun _ => 0) rfl

/-- The lock is granted to the node before the iteration `n`. -/
def grantedAt (n : Nat) : Surroundings slotLock .cas 0 where
  localLock := .success
  request := slotRequest
  turns i := slotTurn (if i < n then waiting.toWord else locked.toWord)
  clock := ⟨fun _ => 0, fun _ _ _ => le_rfl, fun _ => by decide⟩

lemma grantedAt_proceeds (n : Nat) : Proceeds slotLock 0 (grantedAt n) :=
  ⟨rfl, by decide, rfl, rfl⟩

/-- The grant comes with the sixth poll. -/
theorem acquire_waits_iff_sixth :
    (KeepsTimeout slotLock 0 0 (grantedAt 5) ↔
        (0 : UInt64) ≠ 0 ∨ ∃ i < 1002, ((grantedAt 5).turns i).granted = true) ∧
      ∃ e, e.polls ≤ 1002 ∧ ∀ fuel ≥ 1002, slotLock.tryAcquire 0 (grantedAt 5) fuel = some e :=
  acquire_waits_iff slotLock .cas 0 0 (grantedAt 5) (grantedAt_proceeds 5)

/-- The grant would be seen by the 1003rd poll, and a call without a timeout makes 1002 and
withdraws its request. -/
theorem acquire_gives_up :
    ((grantedAt 1002).turns 1002).granted = true ∧
      slotLock.acquire 0 0 (grantedAt 1002) 2000 = some ⟨.errorBusy, 1002, true⟩ ∧
      ¬ KeepsTimeout slotLock 0 0 (grantedAt 1002) := by
  have hbusy : ∀ i < 1002, ((grantedAt 1002).turns i).granted = false := fun i hi => by
    simp only [grantedAt, slotTurn, hi, if_true]
    decide
  have hgivesUp : slotLock.acquire 0 0 (grantedAt 1002) 2000 = some ⟨.errorBusy, 1002, true⟩ :=
    (grantedAt_proceeds 1002).acquire_eq_some_iff.2 ⟨.errorBusy, 1001, by decide,
      turnResult_zero_last (hbusy 1001 (by decide)),
      fun i hi => turnResult_zero_of_le (by omega) (hbusy i (by omega)), rfl⟩
  refine ⟨by decide, hgivesUp, fun hkeeps => ?_⟩
  have hwaits : WaitsForGrant slotLock 0 (grantedAt 1002) := by
    simpa only [KeepsTimeout, if_true] using hkeeps
  exact LockResult.noConfusion (hwaits.only _ _ hgivesUp).1

end LateGrant

end TwoTierLock

end CxlLock
