import Mathlib.Data.Finset.Card
import CxlLock.Cas.Scan
import CxlLock.Cas.SeveralLocks
import CxlLock.Lib.FairRun

/-!
# Whom does the slot table let in, and whom does it starve?

`check_grant` of the slot table grants a free lock to the waiting node with the smallest id, so
there is no order of arrival.  In infinite runs of whole calls that are fair to the manager's
turns on a lock, to the polls of its waiting nodes and to the releases of the nodes inside:

* a waiting node is let in, unless nodes with smaller ids keep requesting the lock for ever
  (`cas_lets_in`);
* as long as somebody waits, somebody is let in (`cas_lets_in`);
* two nodes are enough for a run in which the node with the larger id waits for ever
  (`cas_starves`).

The slot of a node says what has become of its request (`SlotsFit`).  Between two entries the
lock goes through three phases: a node is inside, no slot is `LOCKED`, or the slot of a node is
`LOCKED` that has not noticed yet.  The rank of a waiting node is the number of smaller ids that
have requested the lock and not released it.
-/

namespace CxlLock.Cas

open Transition LockSlotState

/-! ## What a slot says -/

/-- The slot of a node says what has become of its request. -/
def SlotFits (size : SystemSize) (stateOffset : ShmOffset) (s : CallState ShmWords) (n : NodeId)
    (l : LockId) : Prop :=
  slotRow stateOffset size.nodeCount s.shm l n = idle.toWord ∧ ¬ s.Engaged n l ∨
    slotRow stateOffset size.nodeCount s.shm l n = waiting.toWord ∧ s.waitingFor n = some l ∨
    slotRow stateOffset size.nodeCount s.shm l n = locked.toWord ∧ s.Engaged n l

/-- Every slot of the system does. -/
def SlotsFit (size : SystemSize) (stateOffset : ShmOffset) (s : CallState ShmWords) : Prop :=
  ∀ n < size.nodeCount, ∀ l < size.maxLocks, SlotFits size stateOffset s n l

/-- The request of a node for a lock is as it was. -/
def SameRequest (s s' : CallState ShmWords) (n : NodeId) (l : LockId) : Prop :=
  (s'.waitingFor n = some l ↔ s.waitingFor n = some l) ∧ s'.holds n l = s.holds n l

/-- What a step can do to the slot and the request of a node. -/
inductive SlotStep (size : SystemSize) (stateOffset : ShmOffset) (s s' : CallState ShmWords)
    (n : NodeId) (l : LockId) : CallEvent → Prop
  | same (e : CallEvent) : SameRequest s s' n l →
      slotRow stateOffset size.nodeCount s'.shm l n =
        slotRow stateOffset size.nodeCount s.shm l n → SlotStep size stateOffset s s' n l e
  | request : ¬ s.Engaged n l → s'.waitingFor n = some l →
      slotRow stateOffset size.nodeCount s'.shm l n = waiting.toWord →
      SlotStep size stateOffset s s' n l (.acquire n l)
  | enter : s.waitingFor n = some l → s'.holds n l = true →
      slotRow stateOffset size.nodeCount s.shm l n = locked.toWord →
      slotRow stateOffset size.nodeCount s'.shm l n = locked.toWord →
      SlotStep size stateOffset s s' n l (.poll n)
  | withdraw : s.waitingFor n = some l → ¬ s'.Engaged n l →
      slotRow stateOffset size.nodeCount s'.shm l n = idle.toWord →
      SlotStep size stateOffset s s' n l (.cancel n)
  | giveBack : s.holds n l = true → ¬ s'.Engaged n l →
      slotRow stateOffset size.nodeCount s'.shm l n = idle.toWord →
      SlotStep size stateOffset s s' n l (.release n l)
  | grant : SameRequest s s' n l →
      slotRow stateOffset size.nodeCount s'.shm l n = locked.toWord →
      Due size.nodeCount (slotRow stateOffset size.nodeCount s.shm l) →
      IsFirstWaiting size.nodeCount (slotRow stateOffset size.nodeCount s.shm l) n →
      SlotStep size stateOffset s s' n l (.scan l)

section Slots

variable {size : SystemSize} {stateOffset : ShmOffset} {s s' : CallState ShmWords}
  {e : CallEvent} {n : NodeId} {l : LockId}

variable (stateOffset) in
/-- A store to one slot, seen from another. -/
lemma slotRow_write (hn : n < size.nodeCount) (hl : l < size.maxLocks) {k : NodeId} {j : LockId}
    (hk : k < size.nodeCount) (hj : j < size.maxLocks) (state : LockSlotState) (shm : ShmWords) :
    slotRow stateOffset size.nodeCount
        (writeSlotState j k size.nodeCount stateOffset state shm) l n =
      if l = j ∧ n = k then state.toWord else slotRow stateOffset size.nodeCount shm l n :=
  readSlotState_write size.nodeCount_le (size.lock_lt hj) hk (size.lock_lt hl) hn stateOffset
    state shm

theorem slotStep_of_callStep (hv : s.Valid size)
    (hs : CallStep (algorithm stateOffset) size s e s') (hn : n < size.nodeCount)
    (hl : l < size.maxLocks) : SlotStep size stateOffset s s' n l e := by
  cases hs with
  | @acquire k j shm hk hj hw hh hr =>
      simp only [algorithm, acquireLock, size.node_ne_invalid hk, if_false, Prod.mk.injEq,
        true_and] at hr
      have hslot := slotRow_write stateOffset hn hl hk hj waiting s.shm
      rw [hr] at hslot
      by_cases hsame : l = j ∧ n = k
      · obtain ⟨rfl, rfl⟩ := hsame
        have hout : ¬ s.Engaged n l := by simp [CallState.Engaged, hw, hh]
        exact .request hout (by simp) (hslot.trans (if_pos ⟨rfl, rfl⟩))
      · refine .same _ ⟨?_, rfl⟩ (hslot.trans (if_neg hsame))
        rw [CallState.await_waitingFor]
        split_ifs with hnk
        · rw [hnk, hw, Option.some.injEq]
          exact ⟨fun h => absurd ⟨h.symm, hnk⟩ hsame, by rintro ⟨⟩⟩
        · rfl
  | @refused k j rc shm hk hj hr hrc =>
      simp only [algorithm, acquireLock, size.node_ne_invalid hk, if_false, Prod.mk.injEq] at hr
      exact absurd hr.1.symm hrc
  | @granted k j hw hg =>
      have hlocked : slotRow stateOffset size.nodeCount s.shm j k = locked.toWord := by
        simpa [algorithm, pollGranted, slotRow] using hg
      by_cases hsame : n = k ∧ l = j
      · obtain ⟨rfl, rfl⟩ := hsame
        exact .enter hw ((CallState.enter_holds s n n l l).2 (.inl ⟨rfl, rfl⟩)) hlocked hlocked
      · refine .same _ ⟨?_, ?_⟩ rfl
        · rw [CallState.enter_waitingFor]
          split_ifs with hnk
          · rw [hnk, hw, Option.some.injEq]
            exact ⟨by rintro ⟨⟩, fun h => absurd ⟨hnk, h.symm⟩ hsame⟩
          · rfl
        · rw [Bool.eq_iff_iff, CallState.enter_holds]
          exact or_iff_right hsame
  | notGranted => exact .same _ ⟨Iff.rfl, rfl⟩ rfl
  | @cancel k j rc shm hw hr =>
      obtain ⟨hk, hj⟩ := hv.waiting_lt k j hw
      simp only [algorithm, releaseLock, size.node_ne_invalid hk, if_false, Option.some.injEq,
        Prod.mk.injEq] at hr
      have hslot := slotRow_write stateOffset hn hl hk hj idle s.shm
      rw [hr.2] at hslot
      by_cases hsame : l = j ∧ n = k
      · obtain ⟨rfl, rfl⟩ := hsame
        refine .withdraw hw ?_ (hslot.trans (if_pos ⟨rfl, rfl⟩))
        rw [CallState.await_none_engaged hw (hv.waiting_not_holds n l hw)]
        exact fun h => h.1 ⟨rfl, rfl⟩
      · refine .same _ ⟨?_, rfl⟩ (hslot.trans (if_neg hsame))
        rw [CallState.await_waitingFor]
        split_ifs with hnk
        · rw [hnk, hw, Option.some.injEq]
          exact ⟨by rintro ⟨⟩, fun h => absurd ⟨h.symm, hnk⟩ hsame⟩
        · rfl
  | @release k j rc shm hh hr =>
      obtain ⟨hk, hj⟩ := hv.holds_lt k j hh
      simp only [algorithm, releaseLock, size.node_ne_invalid hk, if_false, Option.some.injEq,
        Prod.mk.injEq] at hr
      have hslot := slotRow_write stateOffset hn hl hk hj idle s.shm
      rw [hr.2] at hslot
      by_cases hsame : l = j ∧ n = k
      · obtain ⟨rfl, rfl⟩ := hsame
        refine .giveBack hh ?_ (hslot.trans (if_pos ⟨rfl, rfl⟩))
        rw [CallState.leave_engaged fun hw => hv.waiting_not_holds n l hw hh]
        exact fun h => h.1 ⟨rfl, rfl⟩
      · refine .same _ ⟨Iff.rfl, ?_⟩ (hslot.trans (if_neg hsame))
        rw [Bool.eq_iff_iff, CallState.leave_holds]
        exact and_iff_right fun h => hsame h.symm
  | @scan j hj =>
      rcases scanLock_due_cases stateOffset size.nodeCount_le s.shm j with
        ⟨k, hdue, hfirst, hgrant⟩ | ⟨-, hgrant⟩
      · have hslot := slotRow_write stateOffset hn hl hfirst.1 hj locked s.shm
        have hshm : ((algorithm stateOffset).scanLock size.nodeCount j s.shm).2 =
            writeSlotState j k size.nodeCount stateOffset locked s.shm := by rw [hgrant]
        rw [← hshm] at hslot
        by_cases hsame : l = j ∧ n = k
        · obtain ⟨rfl, rfl⟩ := hsame
          exact .grant ⟨Iff.rfl, rfl⟩ (hslot.trans (if_pos ⟨rfl, rfl⟩)) hdue hfirst
        · exact .same _ ⟨Iff.rfl, rfl⟩ (hslot.trans (if_neg hsame))
      · exact .same _ ⟨Iff.rfl, rfl⟩ (by rw [hgrant])

namespace SlotStep

/-- A node stops waiting when a poll lets it in, or when it withdraws its request. -/
lemma waiting_kept (h : SlotStep size stateOffset s s' n l e) (hv : s.Valid size)
    (hw : s.waitingFor n = some l) :
    s'.waitingFor n = some l ∨ e = .poll n ∧ s'.holds n l = true ∨ e = .cancel n := by
  cases h with
  | same _ hreq => exact .inl (hreq.1.2 hw)
  | request _ hw' => exact .inl hw'
  | enter _ hh => exact .inr (.inl ⟨rfl, hh⟩)
  | withdraw => exact .inr (.inr rfl)
  | giveBack hh => exact absurd hh (hv.waiting_not_holds n l hw)
  | grant hreq => exact .inl (hreq.1.2 hw)

/-- A node stays inside until it gives the lock back. -/
lemma holds_kept (h : SlotStep size stateOffset s s' n l e) (hv : s.Valid size)
    (hh : s.holds n l = true) : s'.holds n l = true ∨ e = .release n l ∧ ¬ s'.Engaged n l := by
  cases h with
  | same _ hreq => exact .inl (hreq.2.trans hh)
  | request hout => exact absurd (.inr hh) hout
  | enter _ hh' => exact .inl hh'
  | withdraw hw => exact absurd hh (hv.waiting_not_holds n l hw)
  | giveBack _ hout => exact .inr ⟨rfl, hout⟩
  | grant hreq => exact .inl (hreq.2.trans hh)

/-- A request is new only by `acquire_lock`. -/
lemma engaged_from (h : SlotStep size stateOffset s s' n l e) (he : s'.Engaged n l) :
    s.Engaged n l ∨ e = .acquire n l := by
  cases h with
  | same _ hreq => exact .inl (he.imp hreq.1.1 hreq.2.symm.trans)
  | request => exact .inr rfl
  | enter hw => exact .inl (.inl hw)
  | withdraw _ hout => exact absurd he hout
  | giveBack _ hout => exact absurd he hout
  | grant hreq => exact .inl (he.imp hreq.1.1 hreq.2.symm.trans)

/-- A slot that is not `LOCKED` becomes so by a grant to the first waiting node. -/
lemma locked_from (h : SlotStep size stateOffset s s' n l e)
    (hlocked : slotRow stateOffset size.nodeCount s'.shm l n = locked.toWord) :
    slotRow stateOffset size.nodeCount s.shm l n = locked.toWord ∨ e = .scan l ∧
      Due size.nodeCount (slotRow stateOffset size.nodeCount s.shm l) ∧
      IsFirstWaiting size.nodeCount (slotRow stateOffset size.nodeCount s.shm l) n := by
  cases h with
  | same _ _ hslot => exact .inl (hslot.symm.trans hlocked)
  | enter _ _ hslot => exact .inl hslot
  | grant _ _ hdue hfirst => exact .inr ⟨rfl, hdue, hfirst⟩
  | request _ _ hslot => exact absurd (toWord_inj.1 (hslot.symm.trans hlocked)) (by decide)
  | withdraw _ _ hslot => exact absurd (toWord_inj.1 (hslot.symm.trans hlocked)) (by decide)
  | giveBack _ _ hslot => exact absurd (toWord_inj.1 (hslot.symm.trans hlocked)) (by decide)

/-- A `LOCKED` slot stays so until its node withdraws or gives the lock back. -/
lemma locked_kept (h : SlotStep size stateOffset s s' n l e)
    (hlocked : slotRow stateOffset size.nodeCount s.shm l n = locked.toWord)
    (he : s.Engaged n l) (he' : s'.Engaged n l) :
    slotRow stateOffset size.nodeCount s'.shm l n = locked.toWord := by
  cases h with
  | same _ _ hslot => exact hslot.trans hlocked
  | request hout => exact absurd he hout
  | enter _ _ _ hslot => exact hslot
  | withdraw _ hout => exact absurd he' hout
  | giveBack _ hout => exact absurd he' hout
  | grant _ hslot => exact hslot

lemma fits (h : SlotStep size stateOffset s s' n l e) (hfit : SlotFits size stateOffset s n l) :
    SlotFits size stateOffset s' n l := by
  cases h with
  | same _ hreq hslot =>
      have heng : s'.Engaged n l ↔ s.Engaged n l := by
        rw [CallState.Engaged, CallState.Engaged, hreq.1, hreq.2]
      rw [SlotFits, hslot, heng, hreq.1]
      exact hfit
  | request _ hw hslot => exact .inr (.inl ⟨hslot, hw⟩)
  | enter _ hh _ hslot => exact .inr (.inr ⟨hslot, .inr hh⟩)
  | withdraw _ hout hslot => exact .inl ⟨hslot, hout⟩
  | giveBack _ hout hslot => exact .inl ⟨hslot, hout⟩
  | grant hreq hslot hdue hfirst =>
      have hwaits : s.waitingFor n = some l := by
        rcases hfit with ⟨hword, -⟩ | ⟨-, hw⟩ | ⟨hword, -⟩
        · exact absurd (toWord_inj.1 (hword.symm.trans hfirst.2.1)) (by decide)
        · exact hw
        · exact absurd (toWord_inj.1 (hword.symm.trans hfirst.2.1)) (by decide)
      exact .inr (.inr ⟨hslot, .inl (hreq.1.2 hwaits)⟩)

end SlotStep

/-- The runs of whole calls keep the slots right. -/
theorem slotsFit_of_reachable (hs : (callSystem (algorithm stateOffset) size).Reachable s) :
    s.Valid size ∧ SlotsKnown size stateOffset s ∧ SlotsFit size stateOffset s := by
  obtain ⟨hv, hknown⟩ := (callInvariant size stateOffset).reachable hs
  have hfits : s.Valid size ∧ SlotsFit size stateOffset s := by
    refine hs.invariant (I := fun s => s.Valid size ∧ SlotsFit size stateOffset s)
      (fun s hi => ?_) fun s e s' h hnext => ?_
    · obtain ⟨⟨shm, hshm⟩, hw, hh⟩ := hi
      refine ⟨.of_idle hw hh, fun n hn l hl => .inl ⟨?_, ?_⟩⟩
      · rw [hshm]
        exact readSlotState_initialize size.nodeCount_le (size.lock_lt hl) hn stateOffset shm
      · simp [CallState.Engaged, hw, hh]
    · have hstep := CallStep.of_next hnext
      exact ⟨h.1.step hstep, fun n hn l hl =>
        (slotStep_of_callStep h.1 hstep hn hl).fits (h.2 n hn l hl)⟩
  exact ⟨hv, hknown, hfits.2⟩

end Slots

/-! ## The phases between two entries -/

/-- The smaller ids that have requested the lock and not released it. -/
def ahead (n : NodeId) (l : LockId) (s : CallState ShmWords) : Finset NodeId :=
  (idsBelow n).toFinset.filter fun m => s.waitingFor m = some l ∨ s.holds m l = true

lemma mem_ahead {n m : NodeId} {l : LockId} {s : CallState ShmWords} :
    m ∈ ahead n l s ↔ m < n ∧ s.Engaged m l := by
  rw [ahead, Finset.mem_filter, List.mem_toFinset, mem_idsBelow, CallState.Engaged]

/-- The node waits, behind at most `k` smaller ids. -/
def LinedUp (n : NodeId) (l : LockId) (k : ℕ) (s : CallState ShmWords) : Prop :=
  s.waitingFor n = some l ∧ (ahead n l s).card ≤ k

/-- The node is let in, or has come closer. -/
def Closer (n : NodeId) (l : LockId) (k : ℕ) (s : CallState ShmWords) : Prop :=
  s.holds n l = true ∨ s.waitingFor n = some l ∧ (ahead n l s).card < k

/-- `m` is inside. -/
def HeldBy (n : NodeId) (l : LockId) (k : ℕ) (m : NodeId) (s : CallState ShmWords) : Prop :=
  LinedUp n l k s ∧ s.holds m l = true

/-- The lock is granted to `m`, which has not noticed. -/
def GrantedTo (size : SystemSize) (stateOffset : ShmOffset) (n : NodeId) (l : LockId) (k : ℕ)
    (m : NodeId) (s : CallState ShmWords) : Prop :=
  LinedUp n l k s ∧ s.waitingFor m = some l ∧
    slotRow stateOffset size.nodeCount s.shm l m = locked.toWord

/-- No slot of the lock is `LOCKED`. -/
def NoneLocked (size : SystemSize) (stateOffset : ShmOffset) (n : NodeId) (l : LockId) (k : ℕ)
    (s : CallState ShmWords) : Prop :=
  LinedUp n l k s ∧
    ∀ m < size.nodeCount, slotRow stateOffset size.nodeCount s.shm l m ≠ locked.toWord

/-- No node below `n` requests the lock. -/
def NoSmallerRequest (n : NodeId) (l : LockId) (e : CallEvent) : Prop :=
  ∀ m < n, e ≠ .acquire m l

section Phases

variable {size : SystemSize} {stateOffset : ShmOffset} {s s' : CallState ShmWords}
  {e : CallEvent} {n m : NodeId} {l : LockId} {k : ℕ}

/-- The step relates all slots of the lock. -/
lemma slotStep_of_next (hv : s.Valid size)
    (hnext : callNext (algorithm stateOffset) size s e = some s') (hn : n < size.nodeCount)
    (hl : l < size.maxLocks) : SlotStep size stateOffset s s' n l e :=
  slotStep_of_callStep hv (CallStep.of_next hnext) hn hl

/-- A node waits once it has called `acquire_lock`. -/
lemma waits_after_acquire
    (hnext : (callSystem (algorithm stateOffset) size).next s (.acquire n l) = some s') :
    s'.waitingFor n = some l := by
  replace hnext : callNext (algorithm stateOffset) size s (.acquire n l) = some s' := hnext
  cases CallStep.of_next hnext with
  | acquire => simp
  | refused hn _ hr hrc =>
      simp only [algorithm, acquireLock, size.node_ne_invalid hn, if_false, Prod.mk.injEq] at hr
      exact absurd hr.1.symm hrc

/-- Without new requests of smaller ids, nobody else gets ahead. -/
lemma ahead_subset (hv : s.Valid size) (hn : n < size.nodeCount) (hl : l < size.maxLocks)
    (hsmall : NoSmallerRequest n l e)
    (hnext : callNext (algorithm stateOffset) size s e = some s') :
    ahead n l s' ⊆ ahead n l s := by
  intro m hm
  obtain ⟨hmn, heng⟩ := mem_ahead.1 hm
  rcases (slotStep_of_next hv hnext (UInt32.lt_trans hmn hn) hl).engaged_from heng with
    heng | he
  · exact mem_ahead.2 ⟨hmn, heng⟩
  · exact absurd he (hsmall m hmn)

lemma LinedUp.step (h : LinedUp n l k s) (hv : s.Valid size) (hok : NoTimeout s e)
    (hsmall : NoSmallerRequest n l e)
    (hnext : callNext (algorithm stateOffset) size s e = some s') :
    Closer n l k s' ∨ LinedUp n l k s' := by
  obtain ⟨hn, hl⟩ := hv.waiting_lt n l h.1
  have hcard := Finset.card_le_card (ahead_subset hv hn hl hsmall hnext)
  rcases (slotStep_of_next hv hnext hn hl).waiting_kept hv h.1 with hw | ⟨-, hh⟩ | rfl
  · exact .inr ⟨hw, Nat.le_trans hcard h.2⟩
  · exact .inl (.inl hh)
  · exact absurd hok id

/-- A node that is inside stays there until it gives the lock back; then the lock is free, and
one fewer is ahead if it was a smaller id. -/
lemma HeldBy.step (h : HeldBy n l k m s)
    (hs : (callSystem (algorithm stateOffset) size).Reachable s) (hok : NoTimeout s e)
    (hsmall : NoSmallerRequest n l e)
    (hnext : callNext (algorithm stateOffset) size s e = some s') :
    HeldBy n l k m s' ∨ Closer n l k s' ∨ n < m ∧ NoneLocked size stateOffset n l k s' := by
  obtain ⟨hv, hknown, hfit⟩ := slotsFit_of_reachable hs
  obtain ⟨hlined, hh⟩ := h
  obtain ⟨hn, hl⟩ := hv.waiting_lt n l hlined.1
  obtain ⟨hm, -⟩ := hv.holds_lt m l hh
  rcases hlined.step hv hok hsmall hnext with hcloser | hlined'
  · exact .inr (.inl hcloser)
  have hmstep := slotStep_of_next hv hnext hm hl
  rcases hmstep.holds_kept hv hh with hh' | ⟨rfl, hout⟩
  · exact .inl ⟨hlined', hh'⟩
  right
  by_cases hlt : m < n
  · -- `m` was ahead and no longer is
    refine .inl (.inr ⟨hlined'.1, Nat.lt_of_lt_of_le (Finset.card_lt_card ?_) hlined.2⟩)
    refine Finset.ssubset_iff_of_subset (ahead_subset hv hn hl hsmall hnext) |>.2 ⟨m, ?_, ?_⟩
    · exact mem_ahead.2 ⟨hlt, .inr hh⟩
    · exact fun hmem => hout (mem_ahead.1 hmem).2
  · have hne : n ≠ m := by
      rintro rfl
      exact hv.waiting_not_holds n l hlined.1 hh
    refine .inr ⟨UInt32.lt_of_le_of_ne (UInt32.not_lt.1 hlt) hne, hlined', fun j hj hlocked => ?_⟩
    rcases (slotStep_of_next hv hnext hj hl).locked_from hlocked with hlocked' | ⟨he, -⟩
    · -- the only `LOCKED` slot was that of `m`
      obtain rfl := hknown.one l hl j hj m hm hlocked' (hknown.holds_locked m l hh)
      rcases hmstep.fits (hfit j hj l hl) with ⟨hidle, -⟩ | ⟨hwait, -⟩ | ⟨-, heng⟩
      · exact absurd (toWord_inj.1 (hidle.symm.trans hlocked)) (by decide)
      · exact absurd (toWord_inj.1 (hwait.symm.trans hlocked)) (by decide)
      · exact hout heng
    · cases he

/-- A granted lock stays granted until its node notices. -/
lemma GrantedTo.step (h : GrantedTo size stateOffset n l k m s) (hv : s.Valid size)
    (hok : NoTimeout s e) (hsmall : NoSmallerRequest n l e)
    (hnext : callNext (algorithm stateOffset) size s e = some s') :
    GrantedTo size stateOffset n l k m s' ∨ Closer n l k s' ∨ HeldBy n l k m s' := by
  obtain ⟨hlined, hw, hlocked⟩ := h
  obtain ⟨hm, hl⟩ := hv.waiting_lt m l hw
  rcases hlined.step hv hok hsmall hnext with hcloser | hlined'
  · exact .inr (.inl hcloser)
  have hmstep := slotStep_of_next hv hnext hm hl
  rcases hmstep.waiting_kept hv hw with hw' | ⟨-, hh⟩ | rfl
  · exact .inl ⟨hlined', hw', hmstep.locked_kept hlocked (.inl hw) (.inl hw')⟩
  · exact .inr (.inr ⟨hlined', hh⟩)
  · exact absurd hok id

/-- The manager's next turn on a lock without a `LOCKED` slot grants it to a node that is not
behind. -/
lemma NoneLocked.step (h : NoneLocked size stateOffset n l k s)
    (hs : (callSystem (algorithm stateOffset) size).Reachable s) (hok : NoTimeout s e)
    (hsmall : NoSmallerRequest n l e)
    (hnext : callNext (algorithm stateOffset) size s e = some s') :
    NoneLocked size stateOffset n l k s' ∧ e ≠ .scan l ∨ Closer n l k s' ∨
      ∃ m, ¬ n < m ∧ GrantedTo size stateOffset n l k m s' := by
  obtain ⟨hv, -, hfit⟩ := slotsFit_of_reachable hs
  obtain ⟨hlined, hfree⟩ := h
  obtain ⟨hn, hl⟩ := hv.waiting_lt n l hlined.1
  have hwaiting : slotRow stateOffset size.nodeCount s.shm l n = waiting.toWord := by
    rcases hfit n hn l hl with ⟨-, hout⟩ | ⟨hword, -⟩ | ⟨hlocked, -⟩
    · exact absurd (.inl hlined.1) hout
    · exact hword
    · exact absurd hlocked (hfree n hn)
  rcases hlined.step hv hok hsmall hnext with hcloser | hlined'
  · exact .inr (.inl hcloser)
  by_cases hfree' : ∀ m < size.nodeCount,
      slotRow stateOffset size.nodeCount s'.shm l m ≠ locked.toWord
  · refine .inl ⟨⟨hlined', hfree'⟩, ?_⟩
    rintro rfl
    cases CallStep.of_next hnext with
    | scan =>
        rcases scanLock_due_cases stateOffset size.nodeCount_le s.shm l with
          ⟨j, -, hfirst, hgrant⟩ | ⟨hnot, -⟩
        · refine hfree' j hfirst.1 ?_
          have hslot := slotRow_write stateOffset hfirst.1 hl hfirst.1 hl locked s.shm
          simpa [hgrant] using hslot
        · exact hnot ⟨hfree, n, hn, hwaiting⟩
  · obtain ⟨m, hm⟩ := not_forall.1 hfree'
    obtain ⟨hm, hlocked⟩ := not_forall.1 hm
    rw [not_not] at hlocked
    have hmstep := slotStep_of_next hv hnext hm hl
    rcases hmstep.locked_from hlocked with hlocked' | ⟨rfl, -, hfirst⟩
    · exact absurd hlocked' (hfree m hm)
    refine .inr (.inr ⟨m, fun hnm => hfirst.2.2 n hnm hwaiting, hlined', ?_, hlocked⟩)
    have hw : s.waitingFor m = some l := by
      rcases hfit m hm l hl with ⟨hword, -⟩ | ⟨-, hw⟩ | ⟨hword, -⟩
      · exact absurd (toWord_inj.1 (hword.symm.trans hfirst.2.1)) (by decide)
      · exact hw
      · exact absurd hword (hfree m hm)
    rcases hmstep.waiting_kept hv hw with hw' | ⟨he, -⟩ | he
    · exact hw'
    · cases he
    · cases he

end Phases

/-! ## Nobody is starved by larger ids -/

section Service

open LabelledSystem InfiniteRun

variable {size : SystemSize} {stateOffset : ShmOffset} {n : NodeId} {l : LockId}

section Rest

variable {s₀ : CallState ShmWords}
  {r : ((callSystem (algorithm stateOffset) size).startingAt s₀).InfiniteRun
    fun s e => NoTimeout s e ∧ NoSmallerRequest n l e}

/-- Without requests of smaller ids, a waiting node comes closer. -/
lemma comes_closer (h₀ : (callSystem (algorithm stateOffset) size).ReachableWhen NoTimeout s₀)
    (hpoll : ∀ m, r.Fair (.poll m)) (hrelease : ∀ m, r.Fair (.release m l))
    (hscan : r.Fair (.scan l)) (k : ℕ) : r.LeadsTo (LinedUp n l k) (Closer n l k) := by
  have hreach : ∀ s, ((callSystem (algorithm stateOffset) size).startingAt s₀).ReachableWhen
      (fun s e => NoTimeout s e ∧ NoSmallerRequest n l e) s →
        (callSystem (algorithm stateOffset) size).Reachable s :=
    fun s hs => (h₀.trans (hs.mono fun _ _ h => h.1)).reachable
  have hheld : ∀ m, r.LeadsTo (HeldBy n l k m)
      fun s => Closer n l k s ∨ n < m ∧ NoneLocked size stateOffset n l k s := by
    intro m
    refine LeadsTo.of_fair (hrelease m) (fun s e s' hs hk hok hnext => ?_)
      (fun s s' hs hk hok hnext => ?_) fun s hs hk => ?_
    · exact hk.step (hreach s hs) hok.1 hok.2 hnext
    · rcases hk.step (hreach s hs) hok.1 hok.2 hnext with hk' | hdone
      · replace hnext : callNext (algorithm stateOffset) size s (.release m l) = some s' := hnext
        cases CallStep.of_next hnext with
        | release => exact absurd hk'.2 (by simp)
      · exact hdone
    · refine Option.isSome_iff_exists.1 ?_
      simp [startingAt, callSystem, callNext, hk.2, algorithm]
  have hgranted : ∀ m, r.LeadsTo (GrantedTo size stateOffset n l k m)
      fun s => Closer n l k s ∨ HeldBy n l k m s := by
    intro m
    refine LeadsTo.of_fair (hpoll m) (fun s e s' hs hk hok hnext => ?_)
      (fun s s' hs hk hok hnext => ?_) fun s hs hk => ?_
    · exact hk.step (slotsFit_of_reachable (hreach s hs)).1 hok.1 hok.2 hnext
    · rcases hk.step (slotsFit_of_reachable (hreach s hs)).1 hok.1 hok.2 hnext with hk' | hdone
      · have hgrant : pollGranted stateOffset size.nodeCount m l s.shm = true :=
          beq_iff_eq.2 hk.2.2
        replace hnext : callNext (algorithm stateOffset) size s (.poll m) = some s' := hnext
        simp only [callNext, hk.2.1, algorithm, hgrant, if_true, Option.some.injEq] at hnext
        have hw := hk'.2.1
        rw [← hnext, CallState.enter_waitingFor, if_pos rfl] at hw
        cases hw
      · exact hdone
    · refine Option.isSome_iff_exists.1 ?_
      simp only [startingAt, callSystem, callNext, hk.2.1]
      split <;> rfl
  have hfree : r.LeadsTo (NoneLocked size stateOffset n l k) fun s => Closer n l k s ∨
      ∃ m, ¬ n < m ∧ GrantedTo size stateOffset n l k m s := by
    refine LeadsTo.of_fair hscan (fun s e s' hs hk hok hnext => ?_)
      (fun s s' hs hk hok hnext => ?_) fun s hs hk => ?_
    · exact (hk.step (hreach s hs) hok.1 hok.2 hnext).imp_left And.left
    · exact (hk.step (hreach s hs) hok.1 hok.2 hnext).resolve_left fun h => h.2 rfl
    · have hl := ((slotsFit_of_reachable (hreach s hs)).1.waiting_lt n l hk.1.1).2
      exact Option.isSome_iff_exists.1 (by simp [startingAt, callSystem, callNext, hl])
  have hdone : r.LeadsTo (Closer n l k) (Closer n l k) := LeadsTo.of_imp fun _ _ h => h
  -- a node that is not behind is let in and leaves
  have hsmall : ∀ m, r.LeadsTo (fun s => ¬ n < m ∧ GrantedTo size stateOffset n l k m s)
      (Closer n l k) := by
    rintro m t ⟨hm, hk⟩
    have hleft : r.LeadsTo (HeldBy n l k m) (Closer n l k) :=
      (hheld m).mono (fun _ _ h => h) fun _ _ h => h.resolve_right fun h => hm h.1
    exact (hgranted m).trans (hdone.cases hleft) t hk
  have hfree' : r.LeadsTo (NoneLocked size stateOffset n l k) (Closer n l k) :=
    hfree.trans (hdone.cases (LeadsTo.exists_left hsmall))
  have hheld' : ∀ m, r.LeadsTo (HeldBy n l k m) (Closer n l k) := fun m =>
    (hheld m).trans (hdone.cases (hfree'.mono (fun _ _ h => h.2) fun _ _ h => h))
  have hgranted' : ∀ m, r.LeadsTo (GrantedTo size stateOffset n l k m) (Closer n l k) := fun m =>
    (hgranted m).trans (hdone.cases (hheld' m))
  refine ((LeadsTo.exists_left hheld').cases
    ((LeadsTo.exists_left hgranted').cases hfree')).mono (fun s hs hk => ?_) fun _ _ h => h
  obtain ⟨hv, -, hfit⟩ := slotsFit_of_reachable (hreach s hs)
  have hl := (hv.waiting_lt n l hk.1).2
  by_cases hlocked : ∃ m < size.nodeCount,
      slotRow stateOffset size.nodeCount s.shm l m = locked.toWord
  · obtain ⟨m, hm, hlocked⟩ := hlocked
    rcases hfit m hm l hl with ⟨hidle, -⟩ | ⟨hwait, -⟩ | ⟨-, hw | hh⟩
    · exact absurd (toWord_inj.1 (hidle.symm.trans hlocked)) (by decide)
    · exact absurd (toWord_inj.1 (hwait.symm.trans hlocked)) (by decide)
    · exact .inr (.inl ⟨m, hk, hw, hlocked⟩)
    · exact .inl ⟨m, hk, hh⟩
  · exact .inr (.inr ⟨hk, fun m hm hm' => hlocked ⟨m, hm, hm'⟩⟩)

end Rest

variable {r : (callSystem (algorithm stateOffset) size).InfiniteRun NoTimeout}

/-- Only smaller ids starve a waiting node. -/
lemma let_in_or_smaller_again (hpoll : ∀ m, r.Fair (.poll m))
    (hrelease : ∀ m, r.Fair (.release m l)) (hscan : r.Fair (.scan l)) {t : ℕ}
    (hw : (r.state t).waitingFor n = some l) :
    (∃ t', t ≤ t' ∧ (r.state t').holds n l = true) ∨
      ∀ T, ∃ t', T ≤ t' ∧ ∃ m < n, r.event t' = some (.acquire m l) := by
  by_cases hagain : ∀ T, ∃ t', T ≤ t' ∧ ∃ m < n, r.event t' = some (.acquire m l)
  · exact .inr hagain
  left
  by_contra hnever
  obtain ⟨T, hT⟩ := not_forall.1 hagain
  have hstays : (r.state (t + T)).waitingFor n = some l := by
    have hall : ∀ d, (r.state (t + d)).waitingFor n = some l := by
      intro d
      induction d with
      | zero => exact hw
      | succ d ih =>
          cases he : r.event (t + d) with
          | none => rw [← Nat.add_assoc, r.rest _ he, ih]
          | some e =>
              obtain ⟨hv, -⟩ := slotsFit_of_reachable (r.reachable (t + d)).reachable
              obtain ⟨hn, hl⟩ := hv.waiting_lt n l ih
              have hok := r.meets _ e he
              rcases (slotStep_of_next hv (r.step _ e he) hn hl).waiting_kept hv ih with
                hw' | ⟨-, hh⟩ | rfl
              · exact hw'
              · exact absurd ⟨_, by omega, hh⟩ hnever
              · exact absurd hok id
    exact hall T
  have hsmall : ∀ t' e, t + T ≤ t' → r.event t' = some e → NoSmallerRequest n l e := by
    rintro t' e ht he m hm rfl
    exact hT ⟨t', by omega, m, hm, he⟩
  have hserved : (r.after (t + T) hsmall).LeadsTo (fun s => s.waitingFor n = some l)
      fun s => s.holds n l = true := by
    refine LeadsTo.rank (fun s => (ahead n l s).card) fun k => ?_
    refine (comes_closer (r.reachable (t + T)) (fun m => (hpoll m).after)
      (fun m => (hrelease m).after) hscan.after k).mono (fun s _ h => ?_) fun s _ h => h
    exact ⟨h.1, Nat.le_of_eq h.2⟩
  obtain ⟨t', -, hh⟩ := hserved 0 hstays
  exact hnever ⟨t + T + t', by omega, hh⟩

/-- A node that comes inside does so at some time. -/
lemma exists_entry {t t' : ℕ} (ht : t ≤ t') (hout : (r.state t).holds n l = false)
    (hin : (r.state t').holds n l = true) :
    ∃ d, t ≤ d ∧ (r.state d).holds n l = false ∧ (r.state (d + 1)).holds n l = true := by
  induction t', ht using Nat.le_induction with
  | base =>
      rw [hout] at hin
      cases hin
  | succ d hd ih =>
      by_cases hh : (r.state d).holds n l = true
      · exact ih hh
      · exact ⟨d, hd, Bool.eq_false_iff.2 hh, hin⟩

/-- Whenever somebody waits, somebody is let in later: by induction on the id that waits. -/
lemma somebody_let_in (hpoll : ∀ m, r.Fair (.poll m)) (hrelease : ∀ m, r.Fair (.release m l))
    (hscan : r.Fair (.scan l)) :
    ∀ i (m : NodeId), m.toNat = i → ∀ t, (r.state t).waitingFor m = some l →
      ∃ d, t ≤ d ∧ ∃ k, (r.state d).holds k l = false ∧ (r.state (d + 1)).holds k l = true := by
  intro i
  induction i using Nat.strong_induction_on with
  | _ i ih =>
      intro m hm t hw
      obtain ⟨hv, -⟩ := slotsFit_of_reachable (r.reachable t).reachable
      rcases let_in_or_smaller_again hpoll hrelease hscan hw with ⟨t', ht, hh⟩ | hagain
      · have hout := Bool.eq_false_iff.2 (hv.waiting_not_holds m l hw)
        obtain ⟨d, hd, hentry⟩ := exists_entry ht hout hh
        exact ⟨d, hd, m, hentry⟩
      · -- a smaller id requests the lock, and it waits then
        obtain ⟨t', ht, j, hj, he⟩ := hagain t
        have hw' := waits_after_acquire (r.step t' _ he)
        obtain ⟨d, hd, hentry⟩ := ih j.toNat (hm ▸ UInt32.lt_iff_toNat_lt.1 hj) j rfl (t' + 1) hw'
        exact ⟨d, by omega, hentry⟩

end Service

/-! ## A run in which the larger id waits for ever -/

section Starvation

open LabelledSystem InfiniteRun

variable {size : SystemSize} {stateOffset : ShmOffset} {i j : NodeId} {l : LockId}
  {s s' : CallState ShmWords}

/-- One round: `i` asks for the lock, is let in and gives it back.  Both nodes poll. -/
def overtakingRound (i j : NodeId) (l : LockId) : ℕ → CallEvent
  | 0 => .acquire i l
  | 1 => .scan l
  | 2 => .poll i
  | 3 => .poll j
  | _ => .release i l

/-- The node `j` asks for the lock once, and then `i` goes through its rounds. -/
def overtaking (i j : NodeId) (l : LockId) : ℕ → CallEvent
  | 0 => .acquire j l
  | t + 1 => overtakingRound i j l (t % 5)

/-- The node `j` waits, the slot of `i` is `state`, and nobody else takes part. -/
structure Overtaken (size : SystemSize) (stateOffset : ShmOffset) (i j : NodeId) (l : LockId)
    (waits inside : Bool) (state : LockSlotState) (s : CallState ShmWords) : Prop where
  waits : ∀ n, s.waitingFor n = if n = j ∨ n = i ∧ waits then some l else none
  holds : ∀ n k, s.holds n k = true ↔ n = i ∧ k = l ∧ inside
  slots : ∀ n < size.nodeCount, slotRow stateOffset size.nodeCount s.shm l n =
    if n = j then waiting.toWord else if n = i then state.toWord else idle.toWord

/-- The part of its round that `i` is in after `t` steps of it. -/
def OvertakenAt (size : SystemSize) (stateOffset : ShmOffset) (i j : NodeId) (l : LockId) :
    ℕ → CallState ShmWords → Prop
  | 0 => Overtaken size stateOffset i j l false false idle
  | 1 => Overtaken size stateOffset i j l true false waiting
  | 2 => Overtaken size stateOffset i j l true false locked
  | _ => Overtaken size stateOffset i j l false true locked

namespace Overtaken

lemma acquire (h : Overtaken size stateOffset i j l false false idle s) (hij : i ≠ j)
    (hi : i < size.nodeCount) (hl : l < size.maxLocks) :
    ∃ s', callNext (algorithm stateOffset) size s (.acquire i l) = some s' ∧
      Overtaken size stateOffset i j l true false waiting s' := by
  have hw : s.waitingFor i = none := by simp [h.waits i, hij]
  have hh : s.holds i l = false := by
    rw [← Bool.not_eq_true, h.holds]
    simp
  refine ⟨s.await (writeSlotState l i size.nodeCount stateOffset waiting s.shm) i (some l),
    by simp [callNext, hi, hl, hw, hh, algorithm, acquireLock, size.node_ne_invalid hi],
    fun n => ?_, fun n k => ?_, fun n hn => ?_⟩
  · rw [CallState.await_waitingFor, h.waits n]
    by_cases hni : n = i
    · simp [hni]
    · simp [hni]
  · rw [CallState.await_holds, h.holds]
  · rw [CallState.await_shm, slotRow_write stateOffset hn hl hi hl, h.slots n hn]
    by_cases hni : n = i
    · subst hni
      simp [hij]
    · simp [hni]

lemma scan (h : Overtaken size stateOffset i j l true false waiting s) (hij : i < j)
    (hj : j < size.nodeCount) (hl : l < size.maxLocks) :
    ∃ s', callNext (algorithm stateOffset) size s (.scan l) = some s' ∧
      Overtaken size stateOffset i j l true false locked s' := by
  have hi := UInt32.lt_trans hij hj
  have hne : i ≠ j := UInt32.ne_of_lt hij
  have hfirst : IsFirstWaiting size.nodeCount (slotRow stateOffset size.nodeCount s.shm l) i := by
    refine ⟨hi, by simp [h.slots i hi, hne], fun k hk => ?_⟩
    have hkj : k ≠ j := UInt32.ne_of_lt (UInt32.lt_trans hk hij)
    have hki : k ≠ i := UInt32.ne_of_lt hk
    rw [h.slots k (UInt32.lt_trans hk hi), if_neg hkj, if_neg hki]
    decide
  have hdue : Due size.nodeCount (slotRow stateOffset size.nodeCount s.shm l) := by
    refine ⟨fun n hn => ?_, i, hi, hfirst.2.1⟩
    rw [h.slots n hn]
    split_ifs <;> decide
  rcases scanLock_due_cases stateOffset size.nodeCount_le s.shm l with
    ⟨k, -, hk, hgrant⟩ | ⟨hnot, -⟩
  · obtain rfl := hk.unique hfirst
    refine ⟨{ s with shm := writeSlotState l k size.nodeCount stateOffset locked s.shm },
      by simp [callNext, hl, hgrant], h.waits, h.holds, fun n hn => ?_⟩
    rw [slotRow_write stateOffset hn hl hi hl, h.slots n hn]
    by_cases hni : n = k
    · simp [hni, hne]
    · simp [hni]
  · exact absurd hdue hnot

lemma poll (h : Overtaken size stateOffset i j l true false locked s) (hij : i ≠ j)
    (hi : i < size.nodeCount) :
    ∃ s', callNext (algorithm stateOffset) size s (.poll i) = some s' ∧
      Overtaken size stateOffset i j l false true locked s' := by
  have hw : s.waitingFor i = some l := by simp [h.waits i]
  have hslot : slotRow stateOffset size.nodeCount s.shm l i = locked.toWord := by
    simp [h.slots i hi, hij]
  have hgrant : pollGranted stateOffset size.nodeCount i l s.shm = true := beq_iff_eq.2 hslot
  refine ⟨s.enter i l, by simp [callNext, hw, algorithm, hgrant], fun n => ?_, fun n k => ?_,
    h.slots⟩
  · rw [CallState.enter_waitingFor, h.waits n]
    by_cases hni : n = i
    · simp [hni, hij]
    · simp [hni]
  · rw [CallState.enter_holds, h.holds]
    simp

lemma poll_in_vain {waits inside : Bool} {state : LockSlotState}
    (h : Overtaken size stateOffset i j l waits inside state s) (hj : j < size.nodeCount) :
    callNext (algorithm stateOffset) size s (.poll j) = some s := by
  have hw : s.waitingFor j = some l := by simp [h.waits j]
  have hslot : slotRow stateOffset size.nodeCount s.shm l j = waiting.toWord := by
    simp [h.slots j hj]
  have hgrant : pollGranted stateOffset size.nodeCount j l s.shm = false := by
    refine beq_eq_false_iff_ne.2 fun hlocked => ?_
    exact absurd (toWord_inj.1 (hslot.symm.trans hlocked)) (by decide)
  simp [callNext, hw, algorithm, hgrant]

lemma release (h : Overtaken size stateOffset i j l false true locked s) (hij : i ≠ j)
    (hi : i < size.nodeCount) (hl : l < size.maxLocks) :
    ∃ s', callNext (algorithm stateOffset) size s (.release i l) = some s' ∧
      Overtaken size stateOffset i j l false false idle s' := by
  have hh : s.holds i l = true := (h.holds i l).2 ⟨rfl, rfl, rfl⟩
  refine ⟨s.leave (writeSlotState l i size.nodeCount stateOffset idle s.shm) i l,
    by simp [callNext, hh, algorithm, releaseLock, size.node_ne_invalid hi],
    h.waits, fun n k => ?_, fun n hn => ?_⟩
  · rw [CallState.leave_holds, h.holds]
    simp
  · rw [CallState.leave_shm, slotRow_write stateOffset hn hl hi hl, h.slots n hn]
    by_cases hni : n = i
    · simp [hni, hij]
    · simp [hni]

end Overtaken

/-- Right after `initialize` of a memory that was cleared. -/
def clearedStart (size : SystemSize) (stateOffset : ShmOffset) : CallState ShmWords where
  shm := (initializeShm stateOffset size.nodeCount fun _ => 0).2
  waitingFor _ := none
  holds _ _ := false

/-- The run in which `i` overtakes `j` for ever. -/
def overtakingRun (size : SystemSize) (stateOffset : ShmOffset) (i j : NodeId) (l : LockId) :
    (callSystem (algorithm stateOffset) size).InfiniteRun NoTimeout :=
  .ofSchedule (show (callSystem (algorithm stateOffset) size).init (clearedStart size stateOffset)
    from ⟨⟨_, rfl⟩, fun _ => rfl, fun _ _ => rfl⟩) (overtaking i j l)

/-- What is scheduled next happens. -/
lemma overtakingRun_step {t : ℕ} {e : CallEvent} (he : overtaking i j l t = e)
    (hnext : callNext (algorithm stateOffset) size
      ((overtakingRun size stateOffset i j l).state t) e = some s') :
    (overtakingRun size stateOffset i j l).state (t + 1) = s' := by
  subst he
  refine ofSchedule_step ?_ hnext
  cases t with
  | zero => trivial
  | succ t =>
      rw [overtaking]
      unfold overtakingRound
      split <;> trivial

variable (stateOffset) in
/-- After the request of `j` the run goes through the rounds of `i`. -/
lemma overtakingRun_at (hij : i < j) (hj : j < size.nodeCount) (hl : l < size.maxLocks) (t : ℕ) :
    OvertakenAt size stateOffset i j l (t % 5)
      ((overtakingRun size stateOffset i j l).state (t + 1)) := by
  have hi := UInt32.lt_trans hij hj
  have hne : i ≠ j := UInt32.ne_of_lt hij
  induction t with
  | zero =>
      have hidle : ∀ n < size.nodeCount, slotRow stateOffset size.nodeCount
          (initializeShm stateOffset size.nodeCount fun _ => 0).2 l n = idle.toWord := fun n hn =>
        readSlotState_initialize size.nodeCount_le (size.lock_lt hl) hn stateOffset _
      have hnext : callNext (algorithm stateOffset) size (clearedStart size stateOffset)
          (.acquire j l) = some ((clearedStart size stateOffset).await
            (writeSlotState l j size.nodeCount stateOffset waiting
              (clearedStart size stateOffset).shm) j (some l)) := by
        simp [callNext, hj, hl, clearedStart, algorithm, acquireLock, size.node_ne_invalid hj]
      rw [overtakingRun_step rfl hnext]
      refine ⟨fun n => ?_, fun n k => ?_, fun n hn => ?_⟩
      · simp [clearedStart]
      · simp [clearedStart]
      · rw [CallState.await_shm, slotRow_write stateOffset hn hl hj hl, clearedStart, hidle n hn]
        simp
  | succ t ih =>
      have hround : t % 5 < 5 := Nat.mod_lt t (by decide)
      have hevent : overtaking i j l (t + 1) = overtakingRound i j l (t % 5) := rfl
      have hnextRound : (t + 1) % 5 = if t % 5 = 4 then 0 else t % 5 + 1 := by
        split <;> omega
      rw [hnextRound]
      generalize t % 5 = c at ih hround hevent
      obtain - | - | - | - | - | c := c
      · obtain ⟨s', hs', hstage⟩ := Overtaken.acquire ih hne hi hl
        rw [overtakingRun_step hevent hs']
        exact hstage
      · obtain ⟨s', hs', hstage⟩ := Overtaken.scan ih hij hj hl
        rw [overtakingRun_step hevent hs']
        exact hstage
      · obtain ⟨s', hs', hstage⟩ := Overtaken.poll ih hne hi
        rw [overtakingRun_step hevent hs']
        exact hstage
      · rw [overtakingRun_step hevent (Overtaken.poll_in_vain ih hj)]
        exact ih
      · obtain ⟨s', hs', hstage⟩ := Overtaken.release ih hne hi hl
        rw [overtakingRun_step hevent hs']
        exact hstage
      · omega

/-- In every round `j` waits. -/
lemma OvertakenAt.waits {c : ℕ} (h : OvertakenAt size stateOffset i j l c s) :
    s.waitingFor j = some l := by
  unfold OvertakenAt at h
  split at h <;> exact (h.waits j).trans (if_pos (.inl rfl))

lemma overtaking_again (c t : ℕ) (hc : c < 5) :
    ∃ t', t ≤ t' ∧ overtaking i j l t' = overtaking i j l (c + 1) := by
  refine ⟨5 * t + c + 1, by omega, ?_⟩
  have hmod : (5 * t + c) % 5 = c % 5 := by omega
  rw [overtaking, overtaking, hmod]

variable (stateOffset) in
/-- The run is fair to everybody who polls, to everybody inside and to the manager. -/
lemma overtakingRun_fair (hij : i < j) (hj : j < size.nodeCount) (hl : l < size.maxLocks) :
    (∀ m, (overtakingRun size stateOffset i j l).Fair (.poll m)) ∧
      (∀ m k, (overtakingRun size stateOffset i j l).Fair (.release m k)) ∧
      (overtakingRun size stateOffset i j l).Fair (.scan l) := by
  have hstart : ∀ t, ∃ t', t ≤ t' ∧ Overtaken size stateOffset i j l false false idle
      ((overtakingRun size stateOffset i j l).state t') := by
    intro t
    have hat := overtakingRun_at stateOffset hij hj hl (5 * t)
    rw [Nat.mul_mod_right] at hat
    exact ⟨5 * t + 1, by omega, hat⟩
  refine ⟨fun m => ?_, fun m k t => ?_, ?_⟩
  · by_cases hmi : m = i
    · subst hmi
      exact ofSchedule_fair (fun _ => trivial) fun t => overtaking_again 2 t (by decide)
    by_cases hmj : m = j
    · subst hmj
      exact ofSchedule_fair (fun _ => trivial) fun t => overtaking_again 3 t (by decide)
    intro t
    obtain ⟨t', ht, h⟩ := hstart t
    refine ⟨t', ht, .inr ?_⟩
    rintro ⟨s', hs'⟩
    have hw := h.waits m
    rw [if_neg (by simp [hmj])] at hw
    simp [callSystem, callNext, hw] at hs'
  · obtain ⟨t', ht, h⟩ := hstart t
    refine ⟨t', ht, .inr ?_⟩
    rintro ⟨s', hs'⟩
    have hh : ¬ ((overtakingRun size stateOffset i j l).state t').holds m k = true := by
      rw [h.holds m k]
      simp
    simp [callSystem, callNext, hh] at hs'
  · exact ofSchedule_fair (fun _ => trivial) fun t => overtaking_again 1 t (by decide)

/-- **Two nodes are enough for starvation.**  For any two node ids and any lock there is an
infinite run, fair to all polls, to all releases and to the manager's turns on the lock, in which
the node with the larger id waits for ever, while the other one is let in again and again. -/
theorem cas_starves (size : SystemSize) (stateOffset : ShmOffset) {i j : NodeId} {l : LockId}
    (hij : i < j) (hj : j < size.nodeCount) (hl : l < size.maxLocks) :
    ∃ r : (callSystem (algorithm stateOffset) size).InfiniteRun NoTimeout,
      (∀ m, r.Fair (.poll m)) ∧ (∀ m k, r.Fair (.release m k)) ∧ r.Fair (.scan l) ∧
      (∀ t, 1 ≤ t → (r.state t).waitingFor j = some l) ∧
      ∀ T, ∃ t, T ≤ t ∧ (r.state t).holds i l = false ∧ (r.state (t + 1)).holds i l = true := by
  obtain ⟨hpoll, hrelease, hscan⟩ := overtakingRun_fair stateOffset hij hj hl
  refine ⟨overtakingRun size stateOffset i j l, hpoll, hrelease, hscan, fun t ht => ?_,
    fun T => ⟨5 * T + 3, by omega, ?_, ?_⟩⟩
  · obtain ⟨t, rfl⟩ := Nat.exists_eq_add_of_le' ht
    exact (overtakingRun_at stateOffset hij hj hl t).waits
  · have hat := overtakingRun_at stateOffset hij hj hl (5 * T + 2)
    rw [Nat.mul_add_mod] at hat
    rw [← Bool.not_eq_true, Overtaken.holds hat]
    simp
  · have hat := overtakingRun_at stateOffset hij hj hl (5 * T + 3)
    rw [Nat.mul_add_mod] at hat
    exact (Overtaken.holds hat i l).2 ⟨rfl, rfl, rfl⟩

theorem cas_starves_one : ∃ r : (callSystem (algorithm 0) (.of 2 1)).InfiniteRun NoTimeout,
    ∀ t, 1 ≤ t → (r.state t).waitingFor 1 = some 0 := by
  obtain ⟨r, -, -, -, hw, -⟩ :=
    cas_starves (.of 2 1) 0 (i := 0) (j := 1) (l := 0) (by decide) (by decide) (by decide)
  exact ⟨r, hw⟩

/-- **Whom the slot table lets in.**  In an infinite run of whole calls in which no request is
withdrawn, and that is fair to the polls, the releases and the manager's turns on the lock, let
a node wait for the lock.  Some node is let in later on; and it is the waiting node itself some
time, unless nodes with smaller ids request the lock again and again. -/
theorem cas_lets_in {r : (callSystem (algorithm stateOffset) size).InfiniteRun NoTimeout}
    {n : NodeId} (hpoll : ∀ m, r.Fair (.poll m)) (hrelease : ∀ m, r.Fair (.release m l))
    (hscan : r.Fair (.scan l)) {t : ℕ} (hw : (r.state t).waitingFor n = some l) :
    (∃ d, t ≤ d ∧ ∃ k, (r.state d).holds k l = false ∧ (r.state (d + 1)).holds k l = true) ∧
      ((∃ t', t ≤ t' ∧ (r.state t').holds n l = true) ∨
        ∀ T, ∃ t', T ≤ t' ∧ ∃ m < n, r.event t' = some (.acquire m l)) :=
  ⟨somebody_let_in hpoll hrelease hscan n.toNat n rfl t hw,
    let_in_or_smaller_again hpoll hrelease hscan hw⟩

/-- Somebody is let in while node 1 waits for ever. -/
theorem cas_lets_in_two : ∃ d, 1 ≤ d ∧ ∃ k,
    ((overtakingRun (.of 2 1) 0 0 1 0).state d).holds k 0 = false ∧
      ((overtakingRun (.of 2 1) 0 0 1 0).state (d + 1)).holds k 0 = true := by
  obtain ⟨hpoll, hrelease, hscan⟩ := @overtakingRun_fair (.of 2 1) 0 0 1 0 (by decide)
    (by decide) (by decide)
  exact (cas_lets_in (n := 1) hpoll (fun m => hrelease m 0) hscan
    (overtakingRun_at 0 (by decide) (by decide) (by decide) 0).waits).1

end Starvation

end CxlLock.Cas
