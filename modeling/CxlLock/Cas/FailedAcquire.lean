import CxlLock.Cas.Exclusion

/-!
# A failed call leaves no trace in the slot table

When the poll of `acquire` or `try_acquire` has failed, the call stores `IDLE` to its slot, in
whatever state the slot is by then, and gives the local mutex back.  The lock manager may have
chosen the node or granted the lock in the meantime.

`failed_acquire_no_trace`: at the moment the mutex is given back the slot is `IDLE`, the call
has written to no other word, and a grant that the manager has decided on comes too late.
-/

namespace CxlLock.Cas

open Transition LockSlotState

/-- The places of a call that is to take lock `l`; one that has failed has an error to return. -/
def ThreadPc.Takes (l : LockId) : ThreadPc → Prop
  | .lockLocal j _ | .request j _ | .poll j _ _ => j = l
  | .cancel j rc | .abandon j rc => j = l ∧ rc ≠ .success
  | .idle | .releaseGlobal _ | .releaseLocal _ => False

variable {T : Type}

/-- Thread `i` is in a call. -/
def DuringCall (i : NodeId × T) (s : State T) (_ : Turn (NodeId × T) Choice) : Prop :=
  (s.pc i).pc ≠ .idle

instance (i : NodeId × T) (s : State T) (e : Turn (NodeId × T) Choice) :
    Decidable (DuringCall i s e) :=
  inferInstanceAs (Decidable (_ ≠ _))

/-- The event is no request of a thread of node `n` for lock `l`. -/
def NoRequest (n : NodeId) (l : LockId) (s : State T) : Turn (NodeId × T) Choice → Prop
  | .party i _ => i.1 = n → ∀ call, (s.pc i).pc ≠ .request l call
  | .manager => True

section Steps

variable [DecidableEq T] {size : SystemSize} {stateOffset : ShmOffset} {n : NodeId} {t : T}
  {l : LockId} {c : Choice} {m : Memory T} {th : Thread} {r : Memory T × Thread}

/-- What one access of a call does to the shared memory: nothing, or a store to the thread's
slot for the lock of the call, `WAITING` for a request and `IDLE` otherwise. -/
lemma threadStep_shm (hn : n ≠ invalidNodeId)
    (hr : threadStep size stateOffset n t c m th = some r) :
    r.1.shm = m.shm ∨
      ∃ j, th.pc.lock = some j ∧
        ((∃ call, th.pc = .request j call ∧
            r.1.shm = writeSlotState j n size.nodeCount stateOffset waiting m.shm) ∨
          r.1.shm = writeSlotState j n size.nodeCount stateOffset idle m.shm) := by
  unfold threadStep at hr
  cases hpc : th.pc with
  | idle =>
      simp only [hpc] at hr
      cases c <;> simp only [beginCall, Option.ite_none_right_eq_some] at hr
      · split_ifs at hr <;> cases hr <;> exact Or.inl rfl
      · split_ifs at hr <;> cases hr <;> exact Or.inl rfl
      · obtain ⟨-, hr⟩ := hr
        cases hr
        exact Or.inl rfl
      · cases hr
  | lockLocal j call =>
      simp only [hpc, Option.map_eq_some_iff] at hr
      obtain ⟨q, -, rfl⟩ := hr
      exact Or.inl rfl
  | request j call =>
      simp only [hpc, acquireLock, hn, if_false, Option.some.injEq] at hr
      subst hr
      exact Or.inr ⟨j, rfl, Or.inl ⟨call, rfl, rfl⟩⟩
  | poll j call spinCount =>
      cases c <;> simp only [hpc, reduceCtorEq] at hr
      split_ifs at hr <;> cases hr <;> exact Or.inl rfl
  | cancel j rc =>
      simp only [hpc, releaseLock, hn, if_false, Option.some.injEq] at hr
      subst hr
      exact Or.inr ⟨j, rfl, Or.inr rfl⟩
  | abandon j rc =>
      simp only [hpc, Option.some.injEq] at hr
      subst hr
      exact Or.inl rfl
  | releaseGlobal j =>
      simp only [hpc, releaseLock, hn, if_false, Option.some.injEq] at hr
      subst hr
      exact Or.inr ⟨j, rfl, Or.inr rfl⟩
  | releaseLocal j =>
      simp only [hpc, Option.some.injEq] at hr
      subst hr
      exact Or.inl rfl

lemma Call.failure_ne_success {call : Call} {rc : LockResult} (h : rc ≠ .success) :
    call.failure rc ≠ .success := by
  cases call with
  | acquire timeoutMs => exact h
  | tryAcquire => exact LockResult.noConfusion

lemma ThreadPc.takes_pollAgain (l : LockId) (call : Call) (spinCount : UInt32)
    (elapsedMs : UInt64) : (pollAgain l call spinCount elapsedMs).Takes l := by
  unfold pollAgain
  split_ifs
  · exact ⟨rfl, Call.failure_ne_success (by decide)⟩
  · rfl
  · exact ⟨rfl, Call.failure_ne_success (by decide)⟩
  · rfl

/-- A call stays with its lock up to its end.  It ends with an error by its first access, the
local mutex, or by its last one, which gives the mutex back. -/
lemma threadStep_takes (hn : n ≠ invalidNodeId) (h : th.pc.Takes l)
    (hr : threadStep size stateOffset n t c m th = some r) :
    r.2.pc.Takes l ∨ r.2.pc = .idle ∧
      ((∃ call, th.pc = .lockLocal l call) ∨ r.2.result = some .success ∨
        ∃ rc, rc ≠ .success ∧ th.pc = .abandon l rc) := by
  unfold threadStep at hr
  cases hpc : th.pc with
  | idle | releaseGlobal j | releaseLocal j => simp [hpc, ThreadPc.Takes] at h
  | lockLocal j call =>
      obtain rfl : j = l := by simpa [hpc, ThreadPc.Takes] using h
      simp only [hpc, Option.map_eq_some_iff] at hr
      obtain ⟨q, -, rfl⟩ := hr
      dsimp only
      split_ifs
      · exact Or.inl rfl
      · exact Or.inr ⟨rfl, Or.inl ⟨call, rfl⟩⟩
  | request j call =>
      obtain rfl : j = l := by simpa [hpc, ThreadPc.Takes] using h
      simp only [hpc, acquireLock, hn, if_false, if_true, Option.some.injEq] at hr
      subst hr
      exact Or.inl rfl
  | poll j call spinCount =>
      obtain rfl : j = l := by simpa [hpc, ThreadPc.Takes] using h
      cases c <;> simp only [hpc, reduceCtorEq] at hr
      split_ifs at hr <;> cases hr
      · exact Or.inr ⟨rfl, Or.inr (Or.inl rfl)⟩
      · exact Or.inl (ThreadPc.takes_pollAgain j call spinCount _)
  | cancel j rc =>
      rw [hpc] at h
      simp only [hpc, Option.some.injEq] at hr
      subst hr
      exact Or.inl h
  | abandon j rc =>
      rw [hpc] at h
      obtain ⟨rfl, hrc⟩ := h
      simp only [hpc, Option.some.injEq] at hr
      subst hr
      exact Or.inr ⟨rfl, Or.inr (Or.inr ⟨rc, hrc, rfl⟩)⟩

end Steps

/-! ## The whole call -/

/-- What a call of thread `t` of node `n` for lock `l` leaves behind that began in `s₀` and
ends by the access from `s` to `s'`: an `IDLE` slot, no local mutex, no change of any other
word, and no grant. -/
structure NoTrace [DecidableEq T] (size : SystemSize) (stateOffset : ShmOffset) (n : NodeId)
    (t : T) (l : LockId) (s₀ s s' : State T) : Prop where
  slotIdle : slot size stateOffset s l n = idle.toWord
  mutexHeld : (s.mem.localLocks n).owner l = some t
  mutexReleased : (s'.mem.localLocks n).owner l ≠ some t
  otherWords : ∀ s₁ s₂ c,
    ((machine size stateOffset).system.startingAt s₀).ReachableWhen (DuringCall (n, t)) s₁ →
    DuringCall (n, t) s₁ (.party (n, t) c) →
    (machine size stateOffset).system.next s₁ (.party (n, t) c) = some s₂ →
      ∀ addr, addr ≠ getSlotOffset l n size.nodeCount stateOffset →
        s₂.mem.shm addr = s₁.mem.shm addr
  lateGrant : ∀ s₂,
    ((machine size stateOffset).system.startingAt s').ReachableWhen (NoRequest n l) s₂ →
      s₂.mgr = .grant l n →
        grantLock stateOffset size.nodeCount n l s₂.mem.shm = (.errorBusy, s₂.mem.shm)

section Runs

variable [DecidableEq T] {size : SystemSize} {stateOffset : ShmOffset} {n : NodeId} {t : T}
  {l : LockId} {s₀ s s' : State T} {c : Choice}

/-- A step of thread `i` is a step of its program. -/
lemma next_party {i : NodeId × T}
    (h : (machine size stateOffset).system.next s (.party i c) = some s') :
    i.1 < size.nodeCount ∧
      ∃ r, threadStep size stateOffset i.1 i.2 c s.mem (s.pc i) = some r ∧ s' = s.move i r := by
  obtain ⟨r, hr, rfl⟩ := Option.map_eq_some_iff.1 h
  simp only [machine, Option.ite_none_right_eq_some] at hr
  exact ⟨hr.1, r, hr.2, rfl⟩

lemma next_manager (h : (machine (T := T) size stateOffset).system.next s .manager = some s') :
    s' = s.manage ({ s.mem with shm := (managerStep size stateOffset s.mem.shm s.mgr).1 },
      (managerStep size stateOffset s.mem.shm s.mgr).2) :=
  (Option.some.inj h).symm

/-- As long as the call lasts, it is the one for `l`. -/
lemma takes_during_call (hbegin : (s₀.pc (n, t)).pc.Takes l)
    (hs : ((machine size stateOffset).system.startingAt s₀).ReachableWhen
      (DuringCall (n, t)) s) :
    (s.pc (n, t)).pc.Takes l ∨ (s.pc (n, t)).pc = .idle := by
  induction hs with
  | start h =>
      rw [show _ = s₀ from h]
      exact Or.inl hbegin
  | @step s s' e _ hok hnext ih =>
    have htakes := ih.resolve_right hok
    cases e with
    | manager =>
        obtain rfl := next_manager hnext
        exact Or.inl htakes
    | party i c =>
        obtain ⟨hi, r, hr, rfl⟩ := next_party hnext
        rw [Config.move_pc]
        split_ifs with hit
        · subst hit
          rcases threadStep_takes (size.node_ne_invalid hi) htakes hr with h | ⟨h, -⟩
          · exact Or.inl h
          · exact Or.inr h
        · exact Or.inl htakes

/-- The call writes to no other word than its slot. -/
lemma otherWords_of_takes (h : (s.pc (n, t)).pc.Takes l)
    (hnext : (machine size stateOffset).system.next s (.party (n, t) c) = some s')
    {addr : ShmOffset} (haddr : addr ≠ getSlotOffset l n size.nodeCount stateOffset) :
    s'.mem.shm addr = s.mem.shm addr := by
  obtain ⟨hn, r, hr, rfl⟩ := next_party hnext
  have hlock : (s.pc (n, t)).pc.lock = some l := by
    cases hpc : (s.pc (n, t)).pc <;> rw [hpc] at h <;> simp_all [ThreadPc.Takes]
  rw [Config.move_mem]
  rcases threadStep_shm (size.node_ne_invalid hn) hr with hsame | ⟨j, hj, hwrite⟩
  · rw [hsame]
  · obtain rfl : l = j := Option.some.inj (hlock.symm.trans hj)
    rcases hwrite with ⟨-, -, hwrite⟩ | hwrite <;> rw [hwrite] <;>
      exact Function.update_of_ne haddr _ _

/-- A slot that is `IDLE` stays so as long as no thread of its node requests the lock. -/
lemma slot_idle_step (hinv : Inv size stateOffset s) (hl : l < size.maxLocks)
    (hn : n < size.nodeCount) (hidle : slot size stateOffset s l n = idle.toWord)
    {e : Turn (NodeId × T) Choice} (hok : NoRequest n l s e)
    (hnext : (machine size stateOffset).system.next s e = some s') :
    slot size stateOffset s' l n = idle.toWord := by
  cases e with
  | manager =>
      obtain rfl := next_manager hnext
      rcases (managerStep_effect hinv.manager rfl).slots with hsame | ⟨j, k, hg⟩
      · exact (hsame l n).trans hidle
      · by_contra hne
        exact hg.ne_idle hl hn hne hidle
  | party i c =>
      obtain ⟨hi, r, hr, rfl⟩ := next_party hnext
      rcases threadStep_shm (size.node_ne_invalid hi) hr with hsame | ⟨j, hj, hwrite⟩
      · rw [slot, Config.move_mem, hsame]
        exact hidle
      · have hjlt := size.lock_lt ((hinv.thread i).lock_lt j hj)
        rw [slot, Config.move_mem]
        rcases hwrite with ⟨call, hpc, hwrite⟩ | hwrite <;> rw [hwrite,
          readSlotState_write size.nodeCount_le hjlt hi (size.lock_lt hl) hn]
        · -- a request of this node for this lock is excluded
          rw [if_neg]
          · exact hidle
          · rintro ⟨rfl, rfl⟩
            exact hok rfl call hpc
        · split_ifs
          · rfl
          · exact hidle

/-- The slot stays `IDLE` in every run without a request of its node for the lock. -/
lemma slot_idle_run (hreach : (machine size stateOffset).system.Reachable s)
    (hl : l < size.maxLocks) (hn : n < size.nodeCount)
    (hidle : slot size stateOffset s l n = idle.toWord)
    (hs : ((machine size stateOffset).system.startingAt s).ReachableWhen (NoRequest n l) s') :
    slot size stateOffset s' l n = idle.toWord := by
  induction hs with
  | start h =>
      rw [show _ = s from h]
      exact hidle
  | step hs hok hnext ih =>
      have hinv := inv_of_reachable (hreach.trans (hs.mono fun _ _ _ => trivial))
      exact slot_idle_step hinv hl hn ih hok hnext

omit [DecidableEq T] in
/-- A grant for an `IDLE` slot fails and changes nothing. -/
lemma grantLock_idle (hn : n < size.nodeCount)
    (hidle : slot size stateOffset s l n = idle.toWord) :
    grantLock stateOffset size.nodeCount n l s.mem.shm = (.errorBusy, s.mem.shm) := by
  have hne : readSlotState l n size.nodeCount stateOffset s.mem.shm ≠ waiting.toWord := by
    rw [show readSlotState l n size.nodeCount stateOffset s.mem.shm = idle.toWord from hidle]
    decide
  rw [grantLock, if_neg (size.node_ne_invalid hn), if_neg hne]

/-- **A failed call leaves no trace.**  It holds for every call of `acquire` and `try_acquire`
that returns an error after it has got the local mutex, in any interleaving. -/
theorem failed_acquire_no_trace (size : SystemSize) (stateOffset : ShmOffset) (n : NodeId)
    (t : T) (l : LockId) (call : Call) (s₀ s s' : State T) (c : Choice) (rc : LockResult)
    (h₀ : (machine size stateOffset).system.Reachable s₀)
    (hbegin : (s₀.pc (n, t)).pc = .lockLocal l call)
    (hs : ((machine size stateOffset).system.startingAt s₀).ReachableWhen
      (DuringCall (n, t)) s)
    (hduring : DuringCall (n, t) s (.party (n, t) c))
    (htaken : ∀ call', (s.pc (n, t)).pc ≠ .lockLocal l call')
    (hnext : (machine size stateOffset).system.next s (.party (n, t) c) = some s')
    (hreturn : (s'.pc (n, t)).pc = .idle ∧ (s'.pc (n, t)).result = some rc)
    (hrc : rc ≠ .success) : NoTrace size stateOffset n t l s₀ s s' := by
  have hreach : (machine size stateOffset).system.Reachable s :=
    h₀.trans (hs.mono fun _ _ _ => trivial)
  have hreach' : (machine size stateOffset).system.Reachable s' := hreach.next hnext
  have hinv := inv_of_reachable hreach
  have hbegins : (s₀.pc (n, t)).pc.Takes l := by rw [hbegin]; rfl
  have htakes := (takes_during_call hbegins hs).resolve_right hduring
  obtain ⟨hn, r, hr, rfl⟩ := next_party hnext
  rw [Config.move_pc, if_pos rfl] at hreturn
  -- the call ends with an error, so this is the access that gives the mutex back
  obtain ⟨rc', hrc', habandon⟩ : ∃ rc', rc' ≠ .success ∧ (s.pc (n, t)).pc = .abandon l rc' := by
    rcases threadStep_takes (size.node_ne_invalid hn) htakes hr with h | ⟨-, h | h | h⟩
    · rw [hreturn.1] at h
      exact h.elim
    · obtain ⟨call', hcall'⟩ := h
      exact absurd hcall' (htaken call')
    · rw [hreturn.2, Option.some.injEq] at h
      exact absurd h hrc
    · exact h
  have hl : l < size.maxLocks := (hinv.thread (n, t)).lock_lt l (by rw [habandon]; rfl)
  have hapart := (hinv.thread (n, t)).apart l (by rw [habandon]; simp)
  have hstage : (s.pc (n, t)).stage l = .clear := by
    simp [Thread.stage, hapart, habandon]
  have hcell := hinv.cells (n, t) hn l hl
  have hidle : slot size stateOffset s l n = idle.toWord := hcell.clear hstage
  have howner : (s.mem.localLocks n).owner l = some t :=
    hcell.owner (by rw [cell, hstage]; exact Stage.noConfusion)
  simp only [threadStep, habandon, LocalLockArray.release_of_owner (hinv.ready n) hl howner,
    Option.some.injEq] at hr
  subst hr
  refine ⟨hidle, howner, by simp [Memory.setLocal], fun s₁ s₂ c₁ h₁ hd hnext₁ addr haddr => ?_,
    fun s₂ h₂ _ => ?_⟩
  · exact otherWords_of_takes ((takes_during_call hbegins h₁).resolve_right hd) hnext₁ haddr
  · exact grantLock_idle hn (slot_idle_run hreach' hl hn hidle h₂)

end Runs

/-- The manager decides on a grant to node 0 between its last poll and its withdrawal. -/
theorem failed_acquire_run : ∃ s₀ s s' : State Nat,
    NoTrace (.of 1 1) 0 0 7 0 s₀ s s' ∧ s'.mgr = .grant 0 0 := by
  obtain ⟨s₀, h₀, hp⟩ := LabelledSystem.exists_of_exec (fun _ _ => True)
    [.party (0, 7) (.acquire 0 5)]
    (fun s₀ : State Nat => decide ((s₀.pc (0, 7)).pc = .lockLocal 0 (.acquire 5)) &&
      (((machine (.of 1 1) 0).system.startingAt s₀).exec (DuringCall (0, 7)) s₀
        (ticks (0, 7) 2 0 ++ managerTurns 2 ++ ticks (0, 7) 2 9)).any fun s : State Nat =>
          decide ((s.pc (0, 7)).pc = .abandon 0 .errorTimeout) &&
            ((machine (.of 1 1) 0).system.next s (.party (0, 7) (.clock 0))).any
              fun s' : State Nat =>
              decide ((s'.pc (0, 7)).pc = .idle ∧
                (s'.pc (0, 7)).result = some .errorTimeout ∧ s'.mgr = .grant 0 0))
    (zeroedStart_init Nat (.of 1 1) 0) (by decide +kernel)
  simp only [Bool.and_eq_true, decide_eq_true_eq, Option.any_eq_true] at hp
  obtain ⟨hbegin, s, hs, hpc, s', hnext, hidle, hresult, hmgr⟩ := hp
  refine ⟨s₀, s, s', failed_acquire_no_trace (.of 1 1) 0 0 7 0 (.acquire 5) s₀ s s' (.clock 0)
    .errorTimeout h₀ hbegin ((LabelledSystem.ReachableWhen.start rfl).exec hs) ?_ ?_ hnext
    ⟨hidle, hresult⟩ (by decide), hmgr⟩
  · rw [DuringCall, hpc]
    exact ThreadPc.noConfusion
  · rw [hpc]
    exact fun _ => ThreadPc.noConfusion

end CxlLock.Cas
