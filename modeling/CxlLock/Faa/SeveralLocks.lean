import CxlLock.CallRuns
import CxlLock.Faa.GlobalLock

/-!
# The ticket lock with several locks

Over whole calls there is no drawn ticket that is not published, but the ticket of a node may
belong to another lock, and the poll lets in everybody up to `now_serving`.  `GrantServesOne`
is the condition on the manager under which exclusion holds: it grants a lock to a node that
waits for it, when nobody but this node is served by the new `now_serving`.
-/

namespace CxlLock.Faa

open Transition

/-- The node is inside the critical section of `l`, or waits for `l` and is let in when
`now_serving` is `t`. -/
def Served (s : CallState FaaShm) (l : LockId) (t : UInt32) (n : NodeId) : Prop :=
  s.holds n l = true ∨
    s.waitingFor n = some l ∧ (s.shm.ticket n).active ≠ 0 ∧ (s.shm.ticket n).ticket ≤ t

/-- The condition on a step: a ticket counter is not about to wrap around when a ticket is
drawn, and a grant goes to a node that waits for the lock and is the only one it serves. -/
def GrantServesOne (size : SystemSize) (s : CallState FaaShm) : CallEvent → Prop
  | .acquire _ l => (s.shm.entry l).nextTicket.toNat + 1 < 2 ^ 32 - 1
  | .scan l => ∀ m, checkGrant size.nodeCount l s.shm = m → m ≠ invalidNodeId →
      s.waitingFor m = some l ∧ ∀ n k, Served s l (s.shm.ticket m).ticket n →
        Served s l (s.shm.ticket m).ticket k → n = k
  | _ => True

variable {size : SystemSize} {s s' : CallState FaaShm}

/-- The manager's turn on a lock changes nothing, or serves the ticket of an active node. -/
lemma scanLock_cases (size : SystemSize) (l : LockId) (shm : FaaShm) :
    (algorithm.scanLock size.nodeCount l shm).2 = shm ∨
      ∃ m, checkGrant size.nodeCount l shm = m ∧ m ≠ invalidNodeId ∧
        (shm.ticket m).active ≠ 0 ∧
        (algorithm.scanLock size.nodeCount l shm).2 =
          (shm.storeOwner l m).storeServing l (shm.ticket m).ticket := by
  by_cases hinv : checkGrant size.nodeCount l shm = invalidNodeId
  · exact .inl (by simp [GlobalLockAlgorithm.scanLock, algorithm, hinv])
  · obtain ⟨-, -, hcand, -⟩ := (checkGrant_eq_iff hinv).1 rfl
    refine .inr ⟨_, rfl, hinv, hcand.1, ?_⟩
    simp [GlobalLockAlgorithm.scanLock, algorithm, hinv, grantLock]

/-- The tickets in use have been drawn, and at most one node is served. -/
structure TicketsKnown (size : SystemSize) (s : CallState FaaShm) : Prop where
  serving : ∀ l, l < size.maxLocks → (s.shm.entry l).nowServing < (s.shm.entry l).nextTicket ∨
    (s.shm.entry l).nowServing = 0
  waiting : ∀ n l, s.waitingFor n = some l → (s.shm.ticket n).active ≠ 0 →
    (s.shm.ticket n).ticket < (s.shm.entry l).nextTicket
  holder : ∀ n l, s.holds n l = true → 0 < (s.shm.entry l).nextTicket
  one : ∀ l n m, Served s l (s.shm.entry l).nowServing n →
    Served s l (s.shm.entry l).nowServing m → n = m

namespace TicketsKnown

lemma exclusive (h : TicketsKnown size s) : s.Exclusive := fun l n m hn hm =>
  h.one l n m (.inl hn) (.inl hm)

lemma init (h : (callSystem algorithm size).init s) : TicketsKnown size s := by
  obtain ⟨⟨shm, hshm⟩, hwaiting, hholds⟩ := h
  have hnone : ∀ l t n, ¬ Served s l t n := fun l t n hn => by
    simp [Served, hwaiting, hholds] at hn
  refine ⟨fun l hl => .inr ?_, fun n l hn => ?_, fun n l hn => ?_, fun l n m hn =>
    absurd hn (hnone _ _ _)⟩
  · rw [hshm]
    simp [algorithm, initializeShm, size.nodeCount_valid, size.lock_lt hl]
  · simp [hwaiting] at hn
  · simp [hholds] at hn

/-- A node that is served has drawn a ticket. -/
lemma drawn_of_served (h : TicketsKnown size s) {l : LockId} {t : UInt32} {n : NodeId}
    (hn : Served s l t n) : 0 < (s.shm.entry l).nextTicket := by
  rcases hn with hn | ⟨hw, hactive, -⟩
  · exact h.holder n l hn
  · exact UInt32.lt_of_le_of_lt UInt32.zero_le (h.waiting n l hw hactive)

/-- A new ticket is served at once only if it is the first one, and then it is the only one. -/
lemma acquire (h : TicketsKnown size s) {n : NodeId} {l : LockId} (hn : n < size.nodeCount)
    (hl : l < size.maxLocks) (hh : s.holds n l = false)
    (hwrap : (s.shm.entry l).nextTicket.toNat + 1 < 2 ^ 32 - 1) :
    TicketsKnown size (s.await (acquireLock n l s.shm).2 n (some l)) := by
  obtain ⟨-, hnext, hnow, hticket, hactive⟩ :=
    acquireLock_spec l s.shm (size.node_ne_invalid hn)
  have hdrawn : (s.shm.entry l).nextTicket < (s.shm.entry l).nextTicket + 1 := by
    rw [UInt32.lt_iff_toNat_lt, UInt32.toNat_add, UInt32.toNat_one, Nat.mod_eq_of_lt (by omega)]
    omega
  have hmore : ∀ j, (s.shm.entry j).nextTicket ≤
      ((acquireLock n l s.shm).2.entry j).nextTicket := by
    intro j
    rw [hnext]
    split_ifs with hjl
    · rw [hjl]
      exact UInt32.le_of_lt hdrawn
    · exact UInt32.le_refl _
  -- the nodes served afterwards: those served before, and the caller if its ticket is the first
  have hserved : ∀ j k, Served (s.await (acquireLock n l s.shm).2 n (some l)) j
      ((acquireLock n l s.shm).2.entry j).nowServing k →
        Served s j (s.shm.entry j).nowServing k ∨
          k = n ∧ j = l ∧ (s.shm.entry l).nextTicket = 0 := by
    intro j k hk
    rcases hk with hk | ⟨hw, hact, hle⟩
    · exact .inl (.inl hk)
    · rw [CallState.await_waitingFor] at hw
      rw [CallState.await_shm, hactive] at hact
      rw [CallState.await_shm, hticket, hnow] at hle
      split_ifs at hw hact hle with hkn
      · obtain rfl := Option.some.inj hw
        refine .inr ⟨hkn, rfl, ?_⟩
        rcases h.serving l hl with hlt | hzero
        · exact absurd hlt (UInt32.not_lt.2 hle)
        · exact UInt32.le_zero_iff.1 (hzero ▸ hle)
      · exact .inl (.inr ⟨hw, hact, hle⟩)
  have hfirst : (s.shm.entry l).nextTicket = 0 → ∀ k, ¬ Served s l (s.shm.entry l).nowServing k :=
    fun hzero k hk => absurd (h.drawn_of_served hk) (by simp [hzero])
  constructor
  · intro j hj
    rw [CallState.await_shm, hnow]
    exact (h.serving j hj).imp_left fun hlt => UInt32.lt_of_lt_of_le hlt (hmore j)
  · intro k j hw hact
    rw [CallState.await_waitingFor] at hw
    rw [CallState.await_shm, hactive] at hact
    rw [CallState.await_shm, hticket]
    split_ifs at hw hact ⊢ with hkn
    · obtain rfl := Option.some.inj hw
      rw [hnext, if_pos rfl]
      exact hdrawn
    · exact UInt32.lt_of_lt_of_le (h.waiting k j hw hact) (hmore j)
  · intro k j hk
    exact UInt32.lt_of_lt_of_le (h.holder k j hk) (hmore j)
  · intro j k i hk hi
    rcases hserved j k hk with hkold | ⟨rfl, rfl, hzero⟩ <;>
      rcases hserved j i hi with hiold | ⟨rfl, hjl, hzero'⟩
    · exact h.one j k i hkold hiold
    · subst hjl
      exact absurd hkold (hfirst hzero' k)
    · exact absurd hiold (hfirst hzero i)
    · rfl

/-- A node that enters was served before. -/
lemma enter (h : TicketsKnown size s) {n : NodeId} {l : LockId} (hw : s.waitingFor n = some l)
    (hg : pollGranted n l s.shm = true) : TicketsKnown size (s.enter n l) := by
  have hpoll : (s.shm.ticket n).active ≠ 0 ∧
      (s.shm.ticket n).ticket ≤ (s.shm.entry l).nowServing := by
    simpa [pollGranted, and_comm] using hg
  have hserved : ∀ j k, Served (s.enter n l) j (s.shm.entry j).nowServing k →
      Served s j (s.shm.entry j).nowServing k := by
    intro j k hk
    rcases hk with hk | ⟨hwk, hk⟩
    · rcases (CallState.enter_holds s n k l j).1 hk with ⟨rfl, rfl⟩ | hk
      · exact .inr ⟨hw, hpoll⟩
      · exact .inl hk
    · rw [CallState.enter_waitingFor] at hwk
      split_ifs at hwk
      exact .inr ⟨hwk, hk⟩
  refine ⟨h.serving, fun k j hk => ?_, fun k j hk => ?_,
    fun j k m hk hm => h.one j k m (hserved j k hk) (hserved j m hm)⟩
  · rw [CallState.enter_waitingFor] at hk
    split_ifs at hk
    exact h.waiting k j hk
  · exact h.drawn_of_served (hserved j k (.inl hk))

/-- A `release_lock` of a node that holds the lock or waits for it leaves nobody else served
who was not. -/
lemma after_release (h : TicketsKnown size s) {n : NodeId} {l : LockId}
    (hn : n ≠ invalidNodeId) (hshm : s'.shm = (releaseLock n l s.shm).2)
    (hholds : ∀ k j, s'.holds k j = true → s.holds k j = true)
    (hwaiting : ∀ k j, s'.waitingFor k = some j → s.waitingFor k = some j) :
    TicketsKnown size s' := by
  obtain ⟨hnext, hnow, hticket, hactive⟩ := releaseLock_spec l s.shm hn
  simp only [← hshm] at hnext hnow hticket hactive
  -- the caller is not active any more, and the other records are as they were
  have hkept : ∀ k, (s'.shm.ticket k).active ≠ 0 → (s'.shm.ticket k).ticket =
      (s.shm.ticket k).ticket ∧ (s.shm.ticket k).active ≠ 0 := by
    intro k hk
    rw [hactive] at hk
    split_ifs at hk with hkn
    · exact absurd rfl hk
    · exact ⟨by rw [hticket, if_neg hkn], hk⟩
  have hserved : ∀ j k, Served s' j (s'.shm.entry j).nowServing k →
      Served s j (s.shm.entry j).nowServing k := by
    rintro j k (hk | ⟨hw, hact, hle⟩)
    · exact .inl (hholds k j hk)
    · obtain ⟨hsame, hact⟩ := hkept k hact
      exact .inr ⟨hwaiting k j hw, hact, by rwa [hsame, hnow] at hle⟩
  refine ⟨fun j hj => ?_, fun k j hk hact => ?_, fun k j hk => ?_,
    fun j k m hk hm => h.one j k m (hserved j k hk) (hserved j m hm)⟩
  · rw [hnow, hnext]
    exact h.serving j hj
  · obtain ⟨hsame, hact⟩ := hkept k hact
    rw [hsame, hnext]
    exact h.waiting k j (hwaiting k j hk) hact
  · rw [hnext]
    exact h.holder k j (hholds k j hk)

/-- A grant serves a ticket that has been drawn. -/
lemma grant (h : TicketsKnown size s) {m : NodeId} {l : LockId} (hw : s.waitingFor m = some l)
    (hactive : (s.shm.ticket m).active ≠ 0)
    (honly : ∀ n k, Served s l (s.shm.ticket m).ticket n →
      Served s l (s.shm.ticket m).ticket k → n = k) :
    TicketsKnown size { s with
      shm := (s.shm.storeOwner l m).storeServing l (s.shm.ticket m).ticket } := by
  constructor
  · intro j hj
    by_cases hjl : j = l
    · subst hjl
      simpa using .inl (h.waiting m j hw hactive)
    · simpa [hjl] using h.serving j hj
  · intro k j hk
    simpa using h.waiting k j hk
  · intro k j hk
    simpa using h.holder k j hk
  · intro j k i hk hi
    by_cases hjl : j = l
    · subst hjl
      exact honly k i (by simpa [Served] using hk) (by simpa [Served] using hi)
    · exact h.one j k i (by simpa [Served, hjl] using hk) (by simpa [Served, hjl] using hi)

lemma step (h : TicketsKnown size s) (hv : s.Valid size) {e : CallEvent}
    (hok : GrantServesOne size s e) (hs : CallStep algorithm size s e s') :
    TicketsKnown size s' := by
  cases hs with
  | @acquire n l shm hn hl hw hh hr =>
      obtain rfl : (acquireLock n l s.shm).2 = shm := congrArg Prod.snd hr
      exact h.acquire hn hl hh hok
  | @refused n l rc shm hn hl hr hrc =>
      simp only [algorithm, acquireLock, size.node_ne_invalid hn, if_false, Prod.mk.injEq] at hr
      exact absurd hr.1.symm hrc
  | granted hw hg => exact h.enter hw hg
  | notGranted => exact h
  | @cancel n l rc shm hw hr =>
      have hn := size.node_ne_invalid (hv.waiting_lt n l hw).1
      refine h.after_release hn (congrArg Prod.snd (Option.some.inj hr)).symm
        (fun k j hk => hk) fun k j hk => ?_
      rw [CallState.await_waitingFor] at hk
      split_ifs at hk
      exact hk
  | @release n l rc shm hh hr =>
      have hn := size.node_ne_invalid (hv.holds_lt n l hh).1
      exact h.after_release hn (congrArg Prod.snd (Option.some.inj hr)).symm
        (fun k j hk => ((CallState.leave_holds s shm n k l j).1 hk).2) fun k j hk => hk
  | @scan l hl =>
      rcases scanLock_cases size l s.shm with hsame | ⟨m, hm, hmi, hactive, hgrant⟩
      · rw [hsame]
        exact h
      · obtain ⟨hmw, honly⟩ := hok m hm hmi
        rw [hgrant]
        exact h.grant hmw hactive honly

end TicketsKnown

/-- The served tickets as the exclusion argument over whole calls. -/
def callInvariant (size : SystemSize) : CallInvariant algorithm size where
  ok := GrantServesOne size
  inv := TicketsKnown size
  inv_init _ := TicketsKnown.init
  inv_step _ _ _ hv h hok hs := h.step hv hok hs
  exclusive _ _ := TicketsKnown.exclusive

end CxlLock.Faa
