import CxlLock.Faa.SeveralLocks

/-!
# The ticket lock serves in ticket order

On one lock, without timeouts and with whole calls as steps, the nodes whose poll succeeds are
the callers of `acquire_lock` in the order of their calls.  `drawn` and `served` record both
orders together with the tickets, and `InOrder` says how the records of the lock stand to
them: the calls still waiting are the rest `q` of `drawn` behind `served`, with consecutive
tickets from the number of served calls on, and `now_serving` is the last ticket served or,
right after a grant, the next one.

The first ticket is let in by the poll alone, before any grant, as `now_serving` starts at 0;
until the manager has come by, that node is inside without being the owner (`InOrder.owned`).
-/

namespace CxlLock.Faa

open Transition

/-- A run of whole calls with the order of its requests and of its successful polls. -/
structure TicketState where
  calls : CallState FaaShm
  /-- The callers of `acquire_lock` with the tickets they have drawn. -/
  drawn : List (NodeId × UInt32)
  /-- The nodes whose poll succeeded with the tickets in their records. -/
  served : List (NodeId × UInt32)

/-- A step on lock `l` that is not a timeout. -/
def OnLock (l : LockId) : CallEvent → Prop
  | .acquire _ j | .release _ j | .scan j => j = l
  | .poll _ => True
  | .cancel _ => False

instance (l : LockId) : ∀ e, Decidable (OnLock l e)
  | .acquire _ _ | .release _ _ | .scan _ => inferInstanceAs (Decidable (_ = _))
  | .poll _ => .isTrue trivial
  | .cancel _ => .isFalse id

/-- The ticket that a step draws, with the caller. -/
def drawnBy (s : CallState FaaShm) : CallEvent → List (NodeId × UInt32)
  | .acquire n l => [(n, (s.shm.entry l).nextTicket)]
  | _ => []

/-- The ticket with which a poll succeeds, with the caller. -/
def servedBy (s : CallState FaaShm) : CallEvent → List (NodeId × UInt32)
  | .poll n =>
      if (s.waitingFor n).any fun l => pollGranted n l s.shm then
        [(n, (s.shm.ticket n).ticket)]
      else []
  | _ => []

def ticketNext (size : SystemSize) (l : LockId) (s : TicketState) (e : CallEvent) :
    Option TicketState :=
  if OnLock l e then
    (callNext algorithm size s.calls e).map fun calls =>
      { calls := calls
        drawn := s.drawn ++ drawnBy s.calls e
        served := s.served ++ servedBy s.calls e }
  else none

/-- The system of whole calls on lock `l`, started right after `initialize`. -/
def ticketSystem (size : SystemSize) (l : LockId) : LabelledSystem TicketState CallEvent where
  init s := (callSystem algorithm size).init s.calls ∧ s.drawn = [] ∧ s.served = []
  next := ticketNext size l

/-! ## The records and the two orders -/

/-- The calls `q` are the requests that wait, and the records agree with the order. -/
structure InOrder (size : SystemSize) (l : LockId) (s : TicketState)
    (q : List (NodeId × UInt32)) : Prop where
  next : (s.calls.shm.entry l).nextTicket.toNat = s.drawn.length
  drawn : s.drawn = s.served ++ q
  tickets : ∀ (k : ℕ) (p : NodeId × UInt32), s.drawn[k]? = some p → p.2.toNat = k
  only : ∀ n j, s.calls.waitingFor n = some j → j = l
  waiting : ∀ n t, (n, t) ∈ q ↔
    s.calls.waitingFor n = some l ∧ (s.calls.shm.ticket n).ticket = t
  active : ∀ n, n < size.nodeCount → ((s.calls.shm.ticket n).active ≠ 0 ↔
    s.calls.waitingFor n = some l ∨ s.calls.holds n l = true)
  held : ∀ n, s.calls.holds n l = true →
    (s.calls.shm.ticket n).ticket.toNat + 1 = s.served.length
  one : ∀ n m, s.calls.holds n l = true → s.calls.holds m l = true → n = m
  owned : ∀ n, s.calls.holds n l = true → (s.calls.shm.entry l).ownerNode = n ∨
    (s.calls.shm.entry l).ownerNode = invalidNodeId ∧ s.served.length = 1
  serving :
    (s.calls.shm.entry l).nowServing.toNat = s.served.length - 1 ∧
        ((s.calls.shm.entry l).ownerNode = invalidNodeId ∨
          s.calls.holds (s.calls.shm.entry l).ownerNode l = true) ∨
      (s.calls.shm.entry l).nowServing.toNat = s.served.length ∧
        (∀ n, ¬ s.calls.holds n l = true) ∧
        s.calls.waitingFor (s.calls.shm.entry l).ownerNode = some l ∧
        (s.calls.shm.ticket (s.calls.shm.entry l).ownerNode).ticket =
          (s.calls.shm.entry l).nowServing

namespace InOrder

variable {size : SystemSize} {l : LockId} {s s' : TicketState} {q : List (NodeId × UInt32)}

lemma ticket_getElem (h : InOrder size l s q) {i : ℕ} {n : NodeId} {t : UInt32}
    (hp : q[i]? = some (n, t)) : t.toNat = s.served.length + i := by
  apply h.tickets _ (n, t)
  rw [h.drawn, List.getElem?_append_right (Nat.le_add_right _ _), Nat.add_sub_cancel_left]
  exact hp

lemma ticket_head (h : InOrder size l s q) {n : NodeId} {t : UInt32}
    (hp : q.head? = some (n, t)) : t.toNat = s.served.length := by
  rw [List.head?_eq_getElem?] at hp
  rw [h.ticket_getElem hp, Nat.add_zero]

/-- A waiting request has a ticket that has been drawn and not been served. -/
lemma ticket_waiting (h : InOrder size l s q) {n : NodeId}
    (hn : s.calls.waitingFor n = some l) :
    s.served.length ≤ (s.calls.shm.ticket n).ticket.toNat ∧
      (s.calls.shm.ticket n).ticket.toNat < s.drawn.length := by
  obtain ⟨i, hi⟩ := List.mem_iff_getElem?.1 ((h.waiting n _).2 ⟨hn, rfl⟩)
  have hlt := (List.getElem?_eq_some_iff.1 hi).1
  rw [h.ticket_getElem hi, h.drawn, List.length_append]
  omega

/-- The waiting request with the next ticket is the first one. -/
lemma eq_cons (h : InOrder size l s q) {n : NodeId} (hn : s.calls.waitingFor n = some l)
    (hticket : (s.calls.shm.ticket n).ticket.toNat = s.served.length) :
    q = (n, (s.calls.shm.ticket n).ticket) :: q.tail := by
  obtain ⟨i, hi⟩ := List.mem_iff_getElem?.1 ((h.waiting n _).2 ⟨hn, rfl⟩)
  obtain rfl : i = 0 := by
    have := h.ticket_getElem hi
    omega
  cases q with
  | nil => simp at hi
  | cons p q => simpa using hi

/-- Two requests that wait have different tickets. -/
lemma waiting_inj (h : InOrder size l s q) {n m : NodeId}
    (hn : s.calls.waitingFor n = some l) (hm : s.calls.waitingFor m = some l)
    (hticket : (s.calls.shm.ticket n).ticket = (s.calls.shm.ticket m).ticket) : n = m := by
  obtain ⟨i, hi⟩ := List.mem_iff_getElem?.1 ((h.waiting n _).2 ⟨hn, rfl⟩)
  obtain ⟨j, hj⟩ := List.mem_iff_getElem?.1 ((h.waiting m _).2 ⟨hm, rfl⟩)
  have hij : i = j := by
    have hi' := h.ticket_getElem hi
    have hj' := h.ticket_getElem hj
    rw [hticket] at hi'
    omega
  rw [hij, hj] at hi
  exact (congrArg Prod.fst (Option.some.inj hi)).symm

lemma init (hl : l < size.maxLocks) (hs : (ticketSystem size l).init s) :
    InOrder size l s [] := by
  obtain ⟨⟨⟨shm, hshm⟩, hwaiting, hholds⟩, hdrawn, hserved⟩ := hs
  have hentry : s.calls.shm.entry l = ⟨0, 0, invalidNodeId⟩ := by
    rw [hshm]
    simp [algorithm, initializeShm, size.nodeCount_valid, size.lock_lt hl]
  constructor
  · simp [hentry, hdrawn]
  · simp [hdrawn, hserved]
  · simp [hdrawn]
  · simp [hwaiting]
  · simp [hwaiting]
  · intro n hn
    rw [hshm]
    simp [algorithm, initializeShm, size.nodeCount_valid, hn, hwaiting, hholds]
  · simp [hholds]
  · simp [hholds]
  · simp [hholds]
  · simp [hentry, hserved]

/-- A request is the last one in the order. -/
lemma acquire (h : InOrder size l s q) {n : NodeId}
    (hcount : s.drawn.length + 1 ≤ 2 ^ 32 - 1) (hn : n < size.nodeCount)
    (hw : s.calls.waitingFor n = none) (hh : s.calls.holds n l = false)
    (hs' : s' = { calls := s.calls.await (acquireLock n l s.calls.shm).2 n (some l)
                  drawn := s.drawn ++ [(n, (s.calls.shm.entry l).nextTicket)]
                  served := s.served }) :
    InOrder size l s' (q ++ [(n, (s.calls.shm.entry l).nextTicket)]) := by
  subst hs'
  obtain ⟨-, hnext, hnow, hticket, hactive⟩ :=
    acquireLock_spec l s.calls.shm (size.node_ne_invalid hn)
  have howner : ((acquireLock n l s.calls.shm).2.entry l).ownerNode =
      (s.calls.shm.entry l).ownerNode := by
    simp [acquireLock, size.node_ne_invalid hn]
  have hne : ∀ k, s.calls.waitingFor k = some l ∨ s.calls.holds k l = true → k ≠ n := by
    rintro k hk rfl
    simp [hw, hh] at hk
  constructor
  · simp only [CallState.await_shm, hnext, if_true, List.length_append, List.length_singleton]
    rw [UInt32.toNat_add, UInt32.toNat_one, h.next, Nat.mod_eq_of_lt (by omega)]
  · simp [h.drawn]
  · intro k p hp
    rcases Nat.lt_or_ge k s.drawn.length with hk | hk
    · rw [List.getElem?_append_left hk] at hp
      exact h.tickets k p hp
    · rw [List.getElem?_append_right hk, List.getElem?_singleton] at hp
      obtain ⟨hk', hp⟩ := Option.ite_none_right_eq_some.1 hp
      rw [← Option.some.inj hp, h.next]
      omega
  · intro k j hk
    rw [CallState.await_waitingFor] at hk
    split_ifs at hk
    · exact (Option.some.inj hk).symm
    · exact h.only k j hk
  · intro k t
    simp only [CallState.await_shm, CallState.await_waitingFor, hticket, List.mem_append,
      List.mem_singleton, Prod.mk.injEq]
    by_cases hk : k = n
    · subst hk
      have hq : ¬ (k, t) ∈ q := fun hmem => by
        have hwait := ((h.waiting k t).1 hmem).1
        simp [hw] at hwait
      simp [hq, eq_comm]
    · simp [hk, h.waiting k t]
  · intro k hk
    simp only [CallState.await_shm, CallState.await_waitingFor, CallState.await_holds, hactive]
    by_cases hkn : k = n
    · simp [hkn]
    · simpa [hkn] using h.active k hk
  · intro k hk
    simp only [CallState.await_shm, hticket, if_neg (hne k (.inr hk))]
    exact h.held k hk
  · exact h.one
  · intro k hk
    simpa only [CallState.await_shm, howner] using h.owned k hk
  · have hserving := h.serving
    simp only [CallState.await_shm, CallState.await_waitingFor, CallState.await_holds, hnow,
      hticket, howner]
    rcases hserving with hserving | ⟨hserving, hfree, hwait, hgranted⟩
    · exact .inl hserving
    · rw [if_neg (hne _ (.inl hwait)), if_neg (hne _ (.inl hwait))]
      exact .inr ⟨hserving, hfree, hwait, hgranted⟩

/-- A poll succeeds only when nobody is inside, and with the next ticket. -/
lemma next_of_granted (h : InOrder size l s q) {n : NodeId}
    (hw : s.calls.waitingFor n = some l) (hg : pollGranted n l s.calls.shm = true) :
    (∀ k, ¬ s.calls.holds k l = true) ∧
      (s.calls.shm.ticket n).ticket.toNat = s.served.length ∧
      (s.calls.shm.entry l).nowServing.toNat = s.served.length ∧
      ((s.calls.shm.entry l).ownerNode = n ∨
        (s.calls.shm.entry l).ownerNode = invalidNodeId ∧ s.served.length = 0) := by
  have hle : (s.calls.shm.ticket n).ticket.toNat ≤ (s.calls.shm.entry l).nowServing.toNat := by
    simp only [pollGranted, Bool.and_eq_true, decide_eq_true_eq] at hg
    exact UInt32.le_iff_toNat_le.1 hg.1
  obtain ⟨hge, -⟩ := h.ticket_waiting hw
  rcases h.serving with ⟨hserving, howner⟩ | ⟨hserving, hfree, hwait, hgranted⟩
  · -- only the first ticket of all is served without a grant
    have hfree : ∀ k, ¬ s.calls.holds k l = true := by
      intro k hk
      have hheld := h.held k hk
      omega
    exact ⟨hfree, by omega, by omega, .inr ⟨howner.resolve_right (hfree _), by omega⟩⟩
  · refine ⟨hfree, by omega, hserving, .inl (h.waiting_inj hwait hw ?_)⟩
    rw [hgranted, ← UInt32.toNat_inj]
    omega

/-- A poll that succeeds is the one of the first request in the order. -/
lemma enter (h : InOrder size l s q) {n : NodeId}
    (hw : s.calls.waitingFor n = some l) (hg : pollGranted n l s.calls.shm = true)
    (hs' : s' = { calls := s.calls.enter n l
                  drawn := s.drawn
                  served := s.served ++ [(n, (s.calls.shm.ticket n).ticket)] }) :
    InOrder size l s' q.tail := by
  subst hs'
  obtain ⟨hfree, hticket, hserving, howner⟩ := h.next_of_granted hw hg
  have hq := h.eq_cons hw hticket
  have hholds : ∀ k, (s.calls.enter n l).holds k l = true ↔ k = n := by
    intro k
    rw [CallState.enter_holds]
    simp [hfree k]
  constructor
  · exact h.next
  · rw [List.append_assoc, List.singleton_append, ← hq]
    exact h.drawn
  · exact h.tickets
  · intro k j hk
    rw [CallState.enter_waitingFor] at hk
    split_ifs at hk
    exact h.only k j hk
  · intro k t
    have hmem := h.waiting k t
    rw [hq, List.mem_cons] at hmem
    rw [CallState.enter_waitingFor]
    by_cases hk : k = n
    · subst hk
      refine ⟨fun ht => ?_, fun ht => by simp at ht⟩
      -- a second entry of the same node would have the same ticket
      obtain ⟨-, hkt⟩ := hmem.1 (.inr ht)
      obtain ⟨i, hi⟩ := List.mem_iff_getElem?.1 ht
      have hi' : q[i + 1]? = some (k, t) := by
        rw [hq]
        exact hi
      have := h.ticket_getElem hi'
      rw [hkt] at hticket
      omega
    · simpa [hk] using hmem
  · intro k hk
    rw [hholds, CallState.enter_waitingFor]
    by_cases hkn : k = n
    · subst hkn
      simpa using (h.active k hk).2 (.inl hw)
    · have hactive := h.active k hk
      simpa [hkn, hfree k] using hactive
  · intro k hk
    obtain rfl := (hholds k).1 hk
    rw [List.length_append, List.length_singleton]
    exact congrArg (· + 1) hticket
  · intro k m hk hm
    rw [(hholds k).1 hk, (hholds m).1 hm]
  · intro k hk
    obtain rfl := (hholds k).1 hk
    rw [List.length_append, List.length_singleton]
    refine howner.imp_right fun hfirst => ⟨hfirst.1, ?_⟩
    rw [hfirst.2]
  · left
    rw [hholds, List.length_append, List.length_singleton]
    exact ⟨hserving, howner.symm.imp_left And.left⟩

/-- A release leaves the order as it is, and nobody inside. -/
lemma release (h : InOrder size l s q) (hv : s.calls.Valid size) {n : NodeId}
    (hh : s.calls.holds n l = true)
    (hs' : s' = { calls := s.calls.leave (releaseLock n l s.calls.shm).2 n l
                  drawn := s.drawn
                  served := s.served }) :
    InOrder size l s' q := by
  subst hs'
  have hn := (hv.holds_lt n l hh).1
  obtain ⟨hnext, hnow, hticket, hactive⟩ :=
    releaseLock_spec l s.calls.shm (size.node_ne_invalid hn)
  have howner : ((releaseLock n l s.calls.shm).2.entry l).ownerNode = invalidNodeId := by
    simp [releaseLock, size.node_ne_invalid hn]
  have hne : ∀ k, s.calls.waitingFor k = some l → k ≠ n := by
    rintro k hk rfl
    exact hv.waiting_not_holds k l hk hh
  have hfree : ∀ k, ¬ (s.calls.leave (releaseLock n l s.calls.shm).2 n l).holds k l = true := by
    intro k hk
    obtain ⟨hkn, hk⟩ := (CallState.leave_holds s.calls _ n k l l).1 hk
    exact hkn ⟨h.one k n hk hh, rfl⟩
  constructor
  · exact (congrArg UInt32.toNat (hnext l)).trans h.next
  · exact h.drawn
  · exact h.tickets
  · exact h.only
  · intro k t
    rw [CallState.leave_shm, CallState.leave_waitingFor, hticket, h.waiting k t]
    refine and_congr_right fun hk => ?_
    rw [if_neg (hne k hk)]
  · intro k hk
    simp only [CallState.leave_shm, CallState.leave_waitingFor, hactive, hfree k]
    by_cases hkn : k = n
    · subst hkn
      have hwait : ¬ s.calls.waitingFor k = some l := fun hwait => hne k hwait rfl
      simp [hwait]
    · have hholds : ¬ s.calls.holds k l = true := fun hk' => hkn (h.one k n hk' hh)
      simpa [hkn, hholds] using h.active k hk
  · exact fun k hk => absurd hk (hfree k)
  · exact fun k m hk => absurd hk (hfree k)
  · exact fun k hk => absurd hk (hfree k)
  · left
    refine ⟨?_, .inl howner⟩
    rw [CallState.leave_shm, hnow]
    rcases h.serving with ⟨hserving, -⟩ | ⟨-, hnone, -⟩
    · exact hserving
    · exact absurd hh (hnone n)

/-- A grant to the only node inside, or, with nobody inside, to the first request. -/
lemma grant (h : InOrder size l s q) {m : NodeId}
    (hinside : ∀ n, s.calls.holds n l = true → n = m)
    (hserving : (s.calls.shm.ticket m).ticket.toNat = s.served.length - 1 ∧
        s.calls.holds m l = true ∨
      (s.calls.shm.ticket m).ticket.toNat = s.served.length ∧
        (∀ n, ¬ s.calls.holds n l = true) ∧ s.calls.waitingFor m = some l)
    (hs' : s' = { s with calls :=
      { s.calls with
        shm := (s.calls.shm.storeOwner l m).storeServing l (s.calls.shm.ticket m).ticket } }) :
    InOrder size l s' q := by
  subst hs'
  constructor
  · simpa using h.next
  · exact h.drawn
  · exact h.tickets
  · exact h.only
  · exact h.waiting
  · exact h.active
  · exact h.held
  · exact h.one
  · intro n hn
    simp [hinside n hn]
  · simpa using hserving.imp_left fun h => ⟨h.1, .inr h.2⟩

/-- `check_grant` returns the smallest ticket of all requests and holds. -/
lemma checkGrant_least (h : InOrder size l s q) (hv : s.calls.Valid size) {m : NodeId}
    (hm : checkGrant size.nodeCount l s.calls.shm = m) (hmi : m ≠ invalidNodeId) {k : NodeId}
    (hk : s.calls.Engaged k l) (hkt : (s.calls.shm.ticket k).ticket < maxTicket) :
    (s.calls.shm.ticket m).ticket.toNat ≤ (s.calls.shm.ticket k).ticket.toNat := by
  obtain ⟨-, -, -, hfirst⟩ := (checkGrant_eq_iff hmi).1 hm
  have hlt := (hv.engaged_lt hk).1
  by_cases hkm : k = m
  · exact Nat.le_of_eq (by rw [hkm])
  · exact UInt32.le_iff_toNat_le.1
      (hfirst k hlt ⟨(h.active k hlt).2 hk, hkt⟩ hkm).ticket_le

/-- When `check_grant` returns a node that waits, nobody is inside and the node has the next
ticket. -/
lemma next_of_checkGrant (h : InOrder size l s q) (hv : s.calls.Valid size) {m : NodeId}
    (hm : checkGrant size.nodeCount l s.calls.shm = m) (hmi : m ≠ invalidNodeId)
    (hwait : s.calls.waitingFor m = some l) :
    (∀ k, ¬ s.calls.holds k l = true) ∧
      (s.calls.shm.ticket m).ticket.toNat = s.served.length := by
  obtain ⟨howner, -, hcand, -⟩ := (checkGrant_eq_iff hmi).1 hm
  obtain ⟨hge, -⟩ := h.ticket_waiting hwait
  constructor
  · intro k hk
    rcases h.owned k hk with hkinv | ⟨-, hlen⟩
    · exact size.node_ne_invalid (hv.holds_lt k l hk).1 (hkinv.symm.trans howner)
    · -- the node that entered with ticket 0 would have been preferred
      have hheld := h.held k hk
      have hkt : (s.calls.shm.ticket k).ticket < maxTicket := by
        rw [UInt32.lt_iff_toNat_lt, show maxTicket.toNat = 2 ^ 32 - 1 from rfl]
        omega
      have := h.checkGrant_least hv hm hmi (.inr hk) hkt
      omega
  · -- the first request in the order is a candidate too
    have hmem := (h.waiting m _).2 ⟨hwait, rfl⟩
    obtain ⟨⟨k, t⟩, hk⟩ : ∃ p, q.head? = some p := by
      cases q with
      | nil => cases hmem
      | cons p q => exact ⟨p, rfl⟩
    obtain ⟨hkw, rfl⟩ := (h.waiting k t).1 (List.mem_of_mem_head? hk)
    have hkt := h.ticket_head hk
    have hlt := UInt32.lt_iff_toNat_lt.1 hcand.2
    have := h.checkGrant_least hv hm hmi (.inl hkw) (UInt32.lt_iff_toNat_lt.2 (by omega))
    omega

/-- The manager's turn serves the node inside or the first request in the order. -/
lemma scan (h : InOrder size l s q) (hv : s.calls.Valid size)
    (hs' : s' = { s with calls :=
      { s.calls with shm := (algorithm.scanLock size.nodeCount l s.calls.shm).2 } }) :
    InOrder size l s' q ∧
      (s.calls.shm.entry l).nowServing ≤ (s'.calls.shm.entry l).nowServing := by
  rcases scanLock_cases size l s.calls.shm with hsame | ⟨m, hm, hmi, -, hgrant⟩
  · rw [hsame] at hs'
    subst hs'
    exact ⟨h, UInt32.le_refl _⟩
  obtain ⟨howner, hmlt, hcand, -⟩ := (checkGrant_eq_iff hmi).1 hm
  -- the lock had no owner, so `now_serving` is the last ticket served
  have hserving : (s.calls.shm.entry l).nowServing.toNat = s.served.length - 1 := by
    rcases h.serving with ⟨hserving, -⟩ | ⟨-, -, hwait, -⟩
    · exact hserving
    · rw [howner] at hwait
      exact absurd rfl (size.node_ne_invalid (hv.waiting_lt _ _ hwait).1)
  have hnow : (s'.calls.shm.entry l).nowServing = (s.calls.shm.ticket m).ticket := by
    rw [hs', hgrant]
    simp
  rw [hnow, UInt32.le_iff_toNat_le]
  rw [hgrant] at hs'
  rcases (h.active m hmlt).1 hcand.1 with hwait | hholds
  · obtain ⟨hfree, hticket⟩ := h.next_of_checkGrant hv hm hmi hwait
    exact ⟨h.grant (fun n hn => absurd hn (hfree n)) (.inr ⟨hticket, hfree, hwait⟩) hs',
      by omega⟩
  · have hheld := h.held m hholds
    exact ⟨h.grant (fun n hn => h.one n m hn hholds) (.inl ⟨by omega, hholds⟩) hs', by omega⟩

/-- A step keeps the order, and does not decrease `now_serving`. -/
lemma step (h : InOrder size l s q) (hv : s.calls.Valid size) {e : CallEvent}
    (hnext : ticketNext size l s e = some s') (hcount : s'.drawn.length ≤ 2 ^ 32 - 1) :
    (∃ q', InOrder size l s' q') ∧
      (s.calls.shm.entry l).nowServing ≤ (s'.calls.shm.entry l).nowServing := by
  obtain ⟨hlock, hnext⟩ := Option.ite_none_right_eq_some.1 hnext
  obtain ⟨calls, hcalls, rfl⟩ := Option.map_eq_some_iff.1 hnext
  cases CallStep.of_next hcalls with
  | @acquire n j shm hn hj hw hh hr =>
      obtain rfl : j = l := hlock
      obtain rfl : (acquireLock n j s.calls.shm).2 = shm := congrArg Prod.snd hr
      have hcount' : s.drawn.length + 1 ≤ 2 ^ 32 - 1 := by simpa [drawnBy] using hcount
      refine ⟨⟨_, h.acquire hcount' hn hw hh (by simp [drawnBy, servedBy])⟩,
        UInt32.le_of_eq ?_⟩
      exact ((acquireLock_spec j s.calls.shm (size.node_ne_invalid hn)).2.2.1 j).symm
  | @refused n j rc shm hn hj hr hrc =>
      simp only [algorithm, acquireLock, size.node_ne_invalid hn, if_false, Prod.mk.injEq] at hr
      exact absurd hr.1.symm hrc
  | @granted n j hw hg =>
      obtain rfl := h.only n j hw
      have hg' : pollGranted n j s.calls.shm = true := hg
      exact ⟨⟨_, h.enter hw hg (by simp [drawnBy, servedBy, hw, hg'])⟩, UInt32.le_refl _⟩
  | @notGranted n j hw hg =>
      have hg' : pollGranted n j s.calls.shm = false := hg
      refine ⟨⟨q, ?_⟩, UInt32.le_refl _⟩
      simpa [drawnBy, servedBy, hw, hg'] using h
  | cancel => exact absurd hlock id
  | @release n j rc shm hh hr =>
      obtain rfl : j = l := hlock
      obtain rfl : (releaseLock n j s.calls.shm).2 = shm := congrArg Prod.snd (Option.some.inj hr)
      refine ⟨⟨q, h.release hv hh (by simp [drawnBy, servedBy])⟩, UInt32.le_of_eq ?_⟩
      have hn := (hv.holds_lt n j hh).1
      exact ((releaseLock_spec j s.calls.shm (size.node_ne_invalid hn)).2.1 j).symm
  | @scan j hj =>
      obtain rfl : j = l := hlock
      obtain ⟨hscan, hle⟩ := h.scan hv rfl
      refine ⟨⟨q, ?_⟩, hle⟩
      simpa [drawnBy, servedBy] using hscan

end InOrder

section
variable {size : SystemSize} {l : LockId} {s : TicketState}

lemma valid_and_inOrder_of_reachable (hl : l < size.maxLocks)
    (hs : (ticketSystem size l).Reachable s) :
    s.calls.Valid size ∧ (s.drawn.length ≤ 2 ^ 32 - 1 → ∃ q, InOrder size l s q) := by
  refine LabelledSystem.Reachable.invariant
    (I := fun s => s.calls.Valid size ∧ (s.drawn.length ≤ 2 ^ 32 - 1 → ∃ q, InOrder size l s q))
    (fun s hi => ⟨.of_idle hi.1.2.1 hi.1.2.2, fun _ => ⟨[], .init hl hi⟩⟩) ?_ hs
  rintro s e s' ⟨hv, h⟩ hnext
  obtain ⟨-, hmap⟩ := Option.ite_none_right_eq_some.1 hnext
  obtain ⟨calls, hcalls, rfl⟩ := Option.map_eq_some_iff.1 hmap
  refine ⟨hv.step (CallStep.of_next hcalls), fun hcount => ?_⟩
  rw [List.length_append] at hcount
  obtain ⟨q, hq⟩ := h (by omega)
  exact (hq.step hv hnext (by rwa [List.length_append])).1

/-- **Ticket order.**  As long as no ticket counter has wrapped around, the `k`-th call of
`acquire_lock` draws ticket `k`, the successful polls are those of the first callers in the
same order, at most one node is inside, and `now_serving` does not decrease. -/
theorem faa_serves_in_ticket_order (hl : l < size.maxLocks)
    (hs : (ticketSystem size l).Reachable s) (hcount : s.drawn.length ≤ 2 ^ 32 - 1) :
    (∀ (k : ℕ) (p : NodeId × UInt32), s.drawn[k]? = some p → p.2.toNat = k) ∧
      s.served <+: s.drawn ∧
      (∀ n m, s.calls.holds n l = true → s.calls.holds m l = true → n = m) ∧
      ∀ e s', (ticketSystem size l).next s e = some s' → s'.drawn.length ≤ 2 ^ 32 - 1 →
        (s.calls.shm.entry l).nowServing ≤ (s'.calls.shm.entry l).nowServing := by
  obtain ⟨hv, h⟩ := valid_and_inOrder_of_reachable hl hs
  obtain ⟨q, h⟩ := h hcount
  refine ⟨h.tickets, ⟨q, h.drawn.symm⟩, h.one, fun e s' hnext hcount' => ?_⟩
  exact (h.step hv hnext hcount').2

end

/-- The state right after `initialize`, over zeroed memory. -/
def ticketStart (size : SystemSize) : TicketState where
  calls :=
    { shm := (initializeShm size.nodeCount ⟨fun _ => ⟨0, 0, 0⟩, fun _ => ⟨0, 0⟩⟩).2
      waitingFor := fun _ => none
      holds := fun _ _ => false }
  drawn := []
  served := []

lemma ticketStart_init (size : SystemSize) (l : LockId) :
    (ticketSystem size l).init (ticketStart size) :=
  ⟨⟨⟨_, rfl⟩, fun _ => rfl, fun _ _ => rfl⟩, rfl, rfl⟩

/-- Node 1 enters with ticket 0 before any scan; node 0 is granted ticket 1 while node 2
already waits with ticket 2. -/
theorem faa_ticket_order_run : ∃ s : TicketState,
    s.served = [(1, 0), (0, 1)] ∧ s.drawn = [(1, 0), (0, 1), (2, 2)] ∧ s.served <+: s.drawn := by
  obtain ⟨s, hs, hp⟩ := LabelledSystem.exists_of_exec (fun _ _ => True)
    ([.acquire 1 0, .acquire 0 0, .poll 1, .poll 0, .scan 0, .release 1 0, .acquire 2 0,
      .scan 0, .poll 2, .poll 0])
    (fun s => s.served == [(1, 0), (0, 1)] && s.drawn == [(1, 0), (0, 1), (2, 2)])
    (ticketStart_init (.of 3 1) 0) (by decide +kernel)
  rw [Bool.and_eq_true, beq_iff_eq, beq_iff_eq] at hp
  have hcount : s.drawn.length ≤ 2 ^ 32 - 1 := by
    rw [hp.2]
    decide
  exact ⟨s, hp.1, hp.2, (faa_serves_in_ticket_order (l := 0) (by decide) hs hcount).2.1⟩

end CxlLock.Faa
