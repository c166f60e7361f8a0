import CxlLock.CallRuns
import CxlLock.Cas.GlobalLock

/-!
# The slot table with several locks

Every lock has slots of its own, so the locks do not meet in a shared record, and exclusion
over whole calls needs no condition: the node inside the critical section of a lock has the
only `LOCKED` slot of it.
-/

namespace CxlLock.Cas

open Transition LockSlotState

variable {size : SystemSize} {stateOffset : ShmOffset} {s s' : CallState ShmWords}

/-- The manager's turn on a lock changes nothing, or makes a `WAITING` slot `LOCKED` when no
slot of the lock is. -/
lemma scanLock_cases (size : SystemSize) (stateOffset : ShmOffset) (l : LockId)
    (shm : ShmWords) :
    ((algorithm stateOffset).scanLock size.nodeCount l shm).2 = shm ∨
      ∃ n, n < size.nodeCount ∧ (∀ m, m < size.nodeCount →
          readSlotState l m size.nodeCount stateOffset shm ≠ locked.toWord) ∧
        ((algorithm stateOffset).scanLock size.nodeCount l shm).2 =
          writeSlotState l n size.nodeCount stateOffset locked shm := by
  by_cases hinv : checkGrant stateOffset size.nodeCount l shm = invalidNodeId
  · exact .inl (by simp [GlobalLockAlgorithm.scanLock, algorithm, hinv])
  · have hscan : ((algorithm stateOffset).scanLock size.nodeCount l shm).2 =
        (grantLock stateOffset size.nodeCount
          (checkGrant stateOffset size.nodeCount l shm) l shm).2 := by
      simp [GlobalLockAlgorithm.scanLock, algorithm, hinv]
    rw [hscan]
    unfold checkGrant at hinv ⊢
    simp only [size.nodeCount_ne_zero, if_false] at hinv ⊢
    split_ifs at hinv ⊢ with hlocked
    · exact absurd rfl hinv
    cases hfind : (idsBelow size.nodeCount).find? fun nid =>
        readSlotState l nid size.nodeCount stateOffset shm == waiting.toWord with
    | none => simp [hfind] at hinv
    | some n =>
        have hn : n < size.nodeCount := mem_idsBelow.1 (List.mem_of_find?_eq_some hfind)
        have hwaiting : readSlotState l n size.nodeCount stateOffset shm = waiting.toWord := by
          simpa using List.find?_some hfind
        refine .inr ⟨n, hn, fun m hm hm' => hlocked ?_, ?_⟩
        · exact List.any_eq_true.2 ⟨m, mem_idsBelow.2 hm, beq_iff_eq.2 hm'⟩
        · simp only [Option.getD_some, grantLock, size.node_ne_invalid hn, if_false, hwaiting,
            if_true]

/-- A node inside the critical section of a lock has its slot `LOCKED`, and no lock has two
`LOCKED` slots. -/
structure SlotsKnown (size : SystemSize) (stateOffset : ShmOffset) (s : CallState ShmWords) :
    Prop where
  holds_locked : ∀ n l, s.holds n l = true →
    readSlotState l n size.nodeCount stateOffset s.shm = locked.toWord
  one : ∀ l, l < size.maxLocks → ∀ n, n < size.nodeCount → ∀ m, m < size.nodeCount →
    readSlotState l n size.nodeCount stateOffset s.shm = locked.toWord →
      readSlotState l m size.nodeCount stateOffset s.shm = locked.toWord → n = m

namespace SlotsKnown

lemma exclusive (hv : s.Valid size) (h : SlotsKnown size stateOffset s) : s.Exclusive :=
  fun l n m hn hm =>
    h.one l (hv.holds_lt n l hn).2 n (hv.holds_lt n l hn).1 m (hv.holds_lt m l hm).1
      (h.holds_locked n l hn) (h.holds_locked m l hm)

lemma init (h : (callSystem (algorithm stateOffset) size).init s) :
    SlotsKnown size stateOffset s := by
  obtain ⟨⟨shm, hshm⟩, -, hholds⟩ := h
  refine ⟨fun n l hn => by simp [hholds n l] at hn, fun l hl n hn m _ hlocked => ?_⟩
  rw [hshm] at hlocked
  have hidle := readSlotState_initialize size.nodeCount_le (size.lock_lt hl) hn stateOffset shm
  exact absurd (hidle.symm.trans hlocked) (by decide)

/-- The records are right again when only the slot of a node that is not inside is stored. -/
lemma write (h : SlotsKnown size stateOffset s) (hv : s.Valid size) {n : NodeId} {l : LockId}
    (hn : n < size.nodeCount) (hl : l < size.maxLocks) (state : LockSlotState)
    (hstate : state ≠ locked) (hshm : s'.shm =
      writeSlotState l n size.nodeCount stateOffset state s.shm)
    (hholds : ∀ k j, s'.holds k j = true → s.holds k j = true ∧ ¬ (k = n ∧ j = l)) :
    SlotsKnown size stateOffset s' := by
  have hslot : ∀ j, j < size.maxLocks → ∀ k, k < size.nodeCount →
      readSlotState j k size.nodeCount stateOffset s'.shm = if j = l ∧ k = n then state.toWord
        else readSlotState j k size.nodeCount stateOffset s.shm := fun j hj k hk => by
    rw [hshm]
    exact readSlotState_write size.nodeCount_le (size.lock_lt hl) hn (size.lock_lt hj) hk
      stateOffset state s.shm
  have hlocked : ∀ j, j < size.maxLocks → ∀ k, k < size.nodeCount →
      readSlotState j k size.nodeCount stateOffset s'.shm = locked.toWord →
        readSlotState j k size.nodeCount stateOffset s.shm = locked.toWord := by
    intro j hj k hk hw
    rw [hslot j hj k hk] at hw
    split_ifs at hw
    · exact absurd (LockSlotState.toWord_inj.1 hw) hstate
    · exact hw
  refine ⟨fun k j hk => ?_, fun j hj k hk m hm hkw hmw => ?_⟩
  · obtain ⟨hk, hne⟩ := hholds k j hk
    have hlt := hv.holds_lt k j hk
    rw [hslot j hlt.2 k hlt.1, if_neg fun h => hne h.symm]
    exact h.holds_locked k j hk
  · exact h.one j hj k hk m hm (hlocked j hj k hk hkw) (hlocked j hj m hm hmw)

lemma step (h : SlotsKnown size stateOffset s) (hv : s.Valid size) {e : CallEvent}
    (hs : CallStep (algorithm stateOffset) size s e s') : SlotsKnown size stateOffset s' := by
  cases hs with
  | @acquire n l shm hn hl hw hh hr =>
      have hni := size.node_ne_invalid hn
      simp only [algorithm, acquireLock, hni, if_false, Prod.mk.injEq, true_and] at hr
      refine h.write hv hn hl waiting (by decide) hr.symm fun k j hk => ⟨hk, ?_⟩
      rintro ⟨rfl, rfl⟩
      exact Bool.eq_false_iff.1 hh hk
  | @refused n l rc shm hn hl hr hrc =>
      have hni := size.node_ne_invalid hn
      simp only [algorithm, acquireLock, hni, if_false, Prod.mk.injEq] at hr
      exact absurd hr.1.symm hrc
  | @granted n l hw hg =>
      have hlocked : readSlotState l n size.nodeCount stateOffset s.shm = locked.toWord := by
        simpa [algorithm, pollGranted] using hg
      refine ⟨fun k j hk => ?_, h.one⟩
      rcases (CallState.enter_holds s n k l j).1 hk with ⟨rfl, rfl⟩ | hk
      · exact hlocked
      · exact h.holds_locked k j hk
  | notGranted => exact h
  | @cancel n l rc shm hw hr =>
      obtain ⟨hn, hl⟩ := hv.waiting_lt n l hw
      simp only [algorithm, releaseLock, size.node_ne_invalid hn, if_false, Option.some.injEq,
        Prod.mk.injEq] at hr
      refine h.write hv hn hl idle (by decide) hr.2.symm fun k j hk => ⟨hk, ?_⟩
      rintro ⟨rfl, rfl⟩
      exact hv.waiting_not_holds k j hw hk
  | @release n l rc shm hh hr =>
      obtain ⟨hn, hl⟩ := hv.holds_lt n l hh
      simp only [algorithm, releaseLock, size.node_ne_invalid hn, if_false, Option.some.injEq,
        Prod.mk.injEq] at hr
      refine h.write hv hn hl idle (by decide) hr.2.symm fun k j hk => ?_
      exact ((CallState.leave_holds s shm n k l j).1 hk).symm
  | @scan l hl =>
      rcases scanLock_cases size stateOffset l s.shm with
        hsame | ⟨n, hn, hfree, hgrant⟩
      · rw [hsame]
        exact h
      · -- the lock had no `LOCKED` slot, so nobody was inside
        have hslot : ∀ j, j < size.maxLocks → ∀ k, k < size.nodeCount →
            readSlotState j k size.nodeCount stateOffset
                ((algorithm stateOffset).scanLock size.nodeCount l s.shm).2 =
              if j = l ∧ k = n then locked.toWord
              else readSlotState j k size.nodeCount stateOffset s.shm := fun j hj k hk => by
          rw [hgrant]
          exact readSlotState_write size.nodeCount_le (size.lock_lt hl) hn (size.lock_lt hj) hk
            stateOffset locked s.shm
        refine ⟨fun k j hk => ?_, fun j hj k hk m hm hkw hmw => ?_⟩
        · obtain ⟨hkn, hjl⟩ := hv.holds_lt k j hk
          rw [hslot j hjl k hkn]
          split_ifs
          · rfl
          · exact h.holds_locked k j hk
        · rw [hslot j hj k hk] at hkw
          rw [hslot j hj m hm] at hmw
          split_ifs at hkw hmw with hkn hmn hmn
          · exact hkn.2.trans hmn.2.symm
          · exact absurd (hkn.1 ▸ hmw) (hfree m hm)
          · exact absurd (hmn.1 ▸ hkw) (hfree k hk)
          · exact h.one j hj k hk m hm hkw hmw

end SlotsKnown

/-- The slots as the exclusion argument over whole calls. -/
def callInvariant (size : SystemSize) (stateOffset : ShmOffset) :
    CallInvariant (algorithm stateOffset) size where
  ok _ _ := True
  inv := SlotsKnown size stateOffset
  inv_init _ := SlotsKnown.init
  inv_step _ _ _ hv h _ hs := h.step hv hs
  exclusive _ := SlotsKnown.exclusive

end CxlLock.Cas
