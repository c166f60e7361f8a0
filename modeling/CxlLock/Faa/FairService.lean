import CxlLock.Faa.Requests
import CxlLock.Faa.TicketOrder
import CxlLock.Lib.FairRun

/-!
# Does every ticket get its turn?

`Faa.TicketOrder` says in which order the ticket lock lets its callers in; here is that it does.
In an infinite run of whole calls on one lock every waiting node goes on polling, every node
inside gives the lock back some time, and the manager goes on scanning.  Then each ticket that is
drawn is served (`faa_serves_every_ticket`), as long as the ticket counter has not wrapped around.

Between two successful polls there is a node inside, or nobody is inside and the next ticket is
not announced yet, or `now_serving` has reached the next ticket.
-/

namespace CxlLock.Faa

open Transition

/-- The ticket counter does not wrap around. -/
def TicketsLeft (s : TicketState) : CallEvent → Prop
  | .acquire _ _ => s.drawn.length + 1 ≤ 2 ^ 32 - 1
  | .poll _ | .cancel _ | .release _ _ | .scan _ => True

instance (s : TicketState) : ∀ e, Decidable (TicketsLeft s e)
  | .acquire _ _ => inferInstanceAs (Decidable (_ ≤ _))
  | .poll _ | .cancel _ | .release _ _ | .scan _ => .isTrue trivial

section Phases

variable {size : SystemSize} {l : LockId} {s s' : TicketState} {q : List (NodeId × UInt32)}
  {e : CallEvent} {k : ℕ}

/-- `k` tickets have been served, and more are drawn. -/
def Unserved (k : ℕ) (s : TicketState) : Prop := s.served.length = k ∧ k < s.drawn.length

/-- A node is inside. -/
def Occupied (l : LockId) (k : ℕ) (o : NodeId) (s : TicketState) : Prop :=
  Unserved k s ∧ s.calls.holds o l = true

/-- Nobody is inside. -/
def Vacant (l : LockId) (k : ℕ) (s : TicketState) : Prop :=
  Unserved k s ∧ ∀ n, ¬ s.calls.holds n l = true

/-- The next ticket belongs to `n`, and `now_serving` has reached it. -/
def Announced (l : LockId) (k : ℕ) (n : NodeId) (s : TicketState) : Prop :=
  Unserved k s ∧ k ≤ (s.calls.shm.entry l).nowServing.toNat ∧ ∃ t, s.drawn[k]? = some (n, t)

/-- What a step does to the two orders. -/
lemma ticketNext_orders (hnext : ticketNext size l s e = some s') :
    s'.drawn = s.drawn ++ drawnBy s.calls e ∧ s'.served = s.served ++ servedBy s.calls e := by
  obtain ⟨-, hnext⟩ := Option.ite_none_right_eq_some.1 hnext
  obtain ⟨calls, -, rfl⟩ := Option.map_eq_some_iff.1 hnext
  exact ⟨rfl, rfl⟩

/-- Each step is one of a run of whole calls. -/
lemma ticketSystem_calls (hnext : (ticketSystem size l).next s e = some s') :
    ∃ calls, callNext algorithm size s.calls e = some calls := by
  obtain ⟨-, hnext⟩ := Option.ite_none_right_eq_some.1 hnext
  obtain ⟨calls, hcalls, -⟩ := Option.map_eq_some_iff.1 hnext
  exact ⟨calls, hcalls⟩

/-- In the runs without a wrap the records agree with the order. -/
lemma inOrder_of_ticketsLeft (hl : l < size.maxLocks)
    (hs : (ticketSystem size l).ReachableWhen TicketsLeft s) :
    s.calls.Valid size ∧ s.drawn.length ≤ 2 ^ 32 - 1 ∧ ∃ q, InOrder size l s q := by
  have hcount : s.drawn.length ≤ 2 ^ 32 - 1 := by
    refine hs.invariant (I := fun s => s.drawn.length ≤ 2 ^ 32 - 1) (fun s hi => ?_)
      fun s e s' hcount hok hnext => ?_
    · rw [hi.2.1]
      exact Nat.zero_le _
    · rw [(ticketNext_orders hnext).1, List.length_append]
      cases e with
      | acquire n j => exact hok
      | poll n | cancel n | release n j | scan j =>
          rw [drawnBy, List.length_nil, Nat.add_zero]
          · exact hcount
          · rintro n j ⟨⟩
  obtain ⟨hv, h⟩ := valid_and_inOrder_of_reachable hl hs.reachable
  exact ⟨hv, hcount, h hcount⟩

/-- A step serves one more ticket, or as many are unserved as before. -/
lemma Unserved.step (h : Unserved k s) (hnext : ticketNext size l s e = some s') :
    Unserved k s' ∨ k < s'.served.length := by
  obtain ⟨hdrawn, hserved⟩ := ticketNext_orders hnext
  rw [Unserved, hdrawn, hserved, List.length_append, List.length_append]
  obtain ⟨hk, hlt⟩ := h
  omega

/-- A node comes inside by a poll that serves its ticket, and leaves by its release. -/
lemma ticketNext_holds (h : Unserved k s) (hnext : ticketNext size l s e = some s') :
    k < s'.served.length ∨
      ∀ n, s'.calls.holds n l = true ↔ s.calls.holds n l = true ∧ e ≠ .release n l := by
  obtain ⟨-, hserved⟩ := ticketNext_orders hnext
  obtain ⟨hlock, hnext⟩ := Option.ite_none_right_eq_some.1 hnext
  obtain ⟨calls, hcalls, rfl⟩ := Option.map_eq_some_iff.1 hnext
  cases CallStep.of_next hcalls with
  | @granted n j hw hg =>
      left
      have hg' : pollGranted n j s.calls.shm = true := hg
      rw [hserved, servedBy, hw, Option.any_some, if_pos hg', List.length_append, h.1]
      exact Nat.lt_succ_self k
  | @release n j rc shm hh hr =>
      obtain rfl : j = l := hlock
      right
      intro m
      rw [CallState.leave_holds, ne_eq, CallEvent.release.injEq]
      constructor
      · rintro ⟨hm, hheld⟩
        exact ⟨hheld, fun h => hm ⟨h.1.symm, rfl⟩⟩
      · rintro ⟨hheld, hm⟩
        exact ⟨fun h => hm ⟨h.1.symm, rfl⟩, hheld⟩
  | _ => right; simp

/-- The owner of a ticket that is not served yet waits with it. -/
lemma InOrder.waits_with (h : InOrder size l s q) (hk : Unserved k s) {n : NodeId} {t : UInt32}
    (hn : s.drawn[k]? = some (n, t)) :
    s.calls.waitingFor n = some l ∧ (s.calls.shm.ticket n).ticket = t ∧ t.toNat = k := by
  have hq : q[0]? = some (n, t) := by
    rw [← hn, h.drawn, ← hk.1, List.getElem?_append_right (Nat.le_refl _), Nat.sub_self]
  obtain ⟨hw, ht⟩ := (h.waiting n t).1 (List.mem_of_getElem? hq)
  exact ⟨hw, ht, h.tickets k (n, t) hn⟩

/-- The poll of the next ticket succeeds once `now_serving` has reached it. -/
lemma Announced.poll (h : InOrder size l s q) (hv : s.calls.Valid size) {n : NodeId}
    (hk : Announced l k n s) : pollGranted n l s.calls.shm = true := by
  obtain ⟨hun, hserving, t, ht⟩ := hk
  obtain ⟨hw, hticket, htk⟩ := h.waits_with hun ht
  have hactive := (h.active n (hv.waiting_lt n l hw).1).2 (.inl hw)
  have hle : (s.calls.shm.ticket n).ticket ≤ (s.calls.shm.entry l).nowServing := by
    rw [UInt32.le_iff_toNat_le, hticket, htk]
    exact hserving
  simpa [pollGranted, hle] using hactive

/-- With nobody inside and the next ticket not announced, the manager's next turn announces it. -/
lemma Vacant.scan (h : InOrder size l s q) (hv : s.calls.Valid size)
    (hcount : s.drawn.length ≤ 2 ^ 32 - 1) (hk : Vacant l k s)
    (hserving : (s.calls.shm.entry l).nowServing.toNat < k) :
    ((algorithm.scanLock size.nodeCount l s.calls.shm).2.entry l).nowServing.toNat = k := by
  obtain ⟨hun, hfree⟩ := hk
  have howner : (s.calls.shm.entry l).ownerNode = invalidNodeId := by
    rcases h.serving with ⟨-, howner⟩ | ⟨hlast, -⟩
    · exact howner.resolve_right (hfree _)
    · have := hun.1
      omega
  obtain ⟨⟨n, t⟩, ht⟩ : ∃ p, s.drawn[k]? = some p := ⟨_, List.getElem?_eq_getElem hun.2⟩
  obtain ⟨hw, hticket, htk⟩ := h.waits_with hun ht
  have hlt := (hv.waiting_lt n l hw).1
  have hcand : Candidate s.calls.shm n := by
    refine ⟨(h.active n hlt).2 (.inl hw), ?_⟩
    rw [UInt32.lt_iff_toNat_lt, hticket, htk, show maxTicket.toNat = 2 ^ 32 - 1 from rfl]
    have := hun.2
    omega
  obtain ⟨m, hm, hcheck⟩ := exists_checkGrant size howner hlt hcand
  have hminv := size.node_ne_invalid hm
  obtain ⟨-, -, hmcand, -⟩ := (checkGrant_eq_iff hminv).1 hcheck
  have hmw := ((h.active m hm).1 hmcand.1).resolve_right (hfree m)
  obtain ⟨-, hnext⟩ := h.next_of_checkGrant hv hcheck hminv hmw
  simp [GlobalLockAlgorithm.scanLock, algorithm, hcheck, hminv, grantLock, hnext, hun.1]

/-- The release of the node inside leaves nobody inside. -/
lemma Occupied.release (h : InOrder size l s q) {o : NodeId} (hk : Occupied l k o s)
    (hnext : ticketNext size l s (.release o l) = some s') :
    Vacant l k s' ∨ k < s'.served.length := by
  rcases hk.1.step hnext with hun' | hserved
  · rcases ticketNext_holds hk.1 hnext with hserved | hholds
    · exact .inr hserved
    · refine .inl ⟨hun', fun n hn => ?_⟩
      obtain ⟨hheld, hne⟩ := (hholds n).1 hn
      obtain rfl := h.one n o hheld hk.2
      exact hne rfl
  · exact .inr hserved

end Phases

section Service

variable {size : SystemSize} {l : LockId} {r : (ticketSystem size l).InfiniteRun TicketsLeft}

open LabelledSystem InfiniteRun

/-- An announced ticket is served. -/
lemma announced_leadsTo (hl : l < size.maxLocks) {n : NodeId} (hpoll : r.Fair (.poll n)) (k : ℕ) :
    r.LeadsTo (Announced l k n) fun s => k < s.served.length := by
  refine LeadsTo.of_fair hpoll (fun s e s' hs hk hok hnext => ?_)
    (fun s s' hs hk _ hnext => ?_) fun s hs hk => ?_
  all_goals obtain ⟨hv, hcount, q, h⟩ := inOrder_of_ticketsLeft hl hs
  · obtain ⟨hun, hserving, t, ht⟩ := hk
    rcases hun.step hnext with hun' | hserved
    · left
      obtain ⟨-, hcount', -⟩ := inOrder_of_ticketsLeft hl (hs.step hok hnext)
      have hmono := UInt32.le_iff_toNat_le.1 (h.step hv hnext hcount').2
      refine ⟨hun', Nat.le_trans hserving hmono, t, ?_⟩
      rw [(ticketNext_orders hnext).1, List.getElem?_append_left hun.2]
      exact ht
    · exact .inr hserved
  · replace hnext : ticketNext size l s (.poll n) = some s' := hnext
    have hgranted := hk.poll h hv
    obtain ⟨hun, -, t, ht⟩ := hk
    obtain ⟨hw, -, -⟩ := h.waits_with hun ht
    rw [(ticketNext_orders hnext).2, servedBy, hw, Option.any_some, if_pos hgranted,
      List.length_append, hun.1]
    exact Nat.lt_succ_self k
  · have hgranted := hk.poll h hv
    obtain ⟨hun, -, t, ht⟩ := hk
    obtain ⟨hw, -, -⟩ := h.waits_with hun ht
    refine Option.isSome_iff_exists.1 ?_
    simp [ticketSystem, ticketNext, OnLock, callNext, hw, algorithm, hgranted]

/-- With nobody inside, the next ticket is announced. -/
lemma vacant_leadsTo (hl : l < size.maxLocks) (hscan : r.Fair (.scan l)) (k : ℕ) :
    r.LeadsTo (Vacant l k) fun s => (∃ n, Announced l k n s) ∨ k < s.served.length := by
  have hannounced {s : TicketState} (hun : Unserved k s)
      (hserving : k ≤ (s.calls.shm.entry l).nowServing.toNat) : ∃ n, Announced l k n s :=
    ⟨_, hun, hserving, _, List.getElem?_eq_getElem hun.2⟩
  refine LeadsTo.of_fair hscan (fun s e s' hs hk _ hnext => ?_)
    (fun s s' hs hk _ hnext => ?_) fun s hs hk => ?_
  · rcases hk.1.step hnext with hun' | hserved
    · rcases ticketNext_holds hk.1 hnext with hserved | hholds
      · exact .inr (.inr hserved)
      · exact .inl ⟨hun', fun n hn => hk.2 n ((hholds n).1 hn).1⟩
    · exact .inr (.inr hserved)
  · obtain ⟨hv, hcount, q, h⟩ := inOrder_of_ticketsLeft hl hs
    replace hnext : ticketNext size l s (.scan l) = some s' := hnext
    rcases hk.1.step hnext with hun' | hserved
    · refine .inl (hannounced hun' ?_)
      by_cases hserving : k ≤ (s.calls.shm.entry l).nowServing.toNat
      · have hmono := (h.step hv hnext (by
          rw [(ticketNext_orders hnext).1, List.length_append]
          exact hcount)).2
        exact Nat.le_trans hserving (UInt32.le_iff_toNat_le.1 hmono)
      · have hscanned := hk.scan h hv hcount (Nat.lt_of_not_le hserving)
        simp only [ticketNext, OnLock, if_true, callNext, hl, Option.map_some,
          Option.some.injEq] at hnext
        rw [← hnext]
        exact Nat.le_of_eq hscanned.symm
    · exact .inr hserved
  · refine Option.isSome_iff_exists.1 ?_
    simp [ticketSystem, ticketNext, OnLock, callNext, hl]

/-- A node that is inside leaves. -/
lemma occupied_leadsTo (hl : l < size.maxLocks) {o : NodeId} (hrelease : r.Fair (.release o l))
    (k : ℕ) : r.LeadsTo (Occupied l k o) fun s => Vacant l k s ∨ k < s.served.length := by
  refine LeadsTo.of_fair hrelease (fun s e s' hs hk _ hnext => ?_)
    (fun s s' hs hk _ hnext => ?_) fun s hs hk => ?_
  · rcases hk.1.step hnext with hun' | hserved
    · rcases ticketNext_holds hk.1 hnext with hserved | hholds
      · exact .inr (.inr hserved)
      · by_cases he : e = .release o l
        · subst he
          obtain ⟨-, -, q, h⟩ := inOrder_of_ticketsLeft hl hs
          exact .inr (hk.release h hnext)
        · exact .inl ⟨hun', (hholds o).2 ⟨hk.2, he⟩⟩
    · exact .inr (.inr hserved)
  · obtain ⟨-, -, q, h⟩ := inOrder_of_ticketsLeft hl hs
    exact hk.release h hnext
  · refine Option.isSome_iff_exists.1 ?_
    simp [ticketSystem, ticketNext, OnLock, callNext, hk.2, algorithm]

/-- While tickets are unserved, one more is served some time. -/
lemma serves_one_more (hl : l < size.maxLocks) (hpoll : ∀ n, r.Fair (.poll n))
    (hrelease : ∀ n, r.Fair (.release n l)) (hscan : r.Fair (.scan l)) (k : ℕ) :
    r.LeadsTo (Unserved k) fun s => k < s.served.length := by
  have hdone : r.LeadsTo (fun s => k < s.served.length) fun s => k < s.served.length :=
    LeadsTo.of_imp fun _ _ h => h
  have hvacant : r.LeadsTo (Vacant l k) fun s => k < s.served.length :=
    (vacant_leadsTo hl hscan k).trans
      ((LeadsTo.exists_left fun n => announced_leadsTo hl (hpoll n) k).cases hdone)
  have hoccupied : ∀ o, r.LeadsTo (Occupied l k o) fun s => k < s.served.length := fun o =>
    (occupied_leadsTo hl (hrelease o) k).trans (hvacant.cases hdone)
  refine ((LeadsTo.exists_left hoccupied).cases hvacant).mono (fun s _ hk => ?_) fun _ _ h => h
  by_cases hheld : ∃ o, s.calls.holds o l = true
  · obtain ⟨o, ho⟩ := hheld
    exact .inl ⟨o, hk, ho⟩
  · exact .inr ⟨hk, not_exists.1 hheld⟩

end Service

/-- Two nodes ask for the lock in turn, and the manager scans. -/
def twoCallers (t : ℕ) : CallEvent :=
  match t % 7 with
  | 0 => .acquire 0 0
  | 1 => .acquire 1 0
  | 2 => .scan 0
  | 3 => .poll 0
  | 4 => .poll 1
  | 5 => .release 0 0
  | _ => .release 1 0

lemma twoCallers_again (c t : ℕ) (hc : c < 7) :
    ∃ t', t ≤ t' ∧ twoCallers t' = twoCallers c := by
  refine ⟨7 * t + c, by omega, ?_⟩
  have hmod : (7 * t + c) % 7 = c % 7 := by omega
  rw [twoCallers, twoCallers, hmod]

/-- A run of two nodes that is fair. -/
def twoCallersRun (size : SystemSize) : (ticketSystem size 0).InfiniteRun TicketsLeft :=
  .ofSchedule (ticketStart_init size 0) twoCallers

open LabelledSystem InfiniteRun in
lemma twoCallersRun_fair (n : NodeId) :
    (twoCallersRun (.of 2 1)).Fair (.poll n) ∧ (twoCallersRun (.of 2 1)).Fair (.release n 0) := by
  by_cases h0 : n = 0
  · subst h0
    exact ⟨ofSchedule_fair (fun _ => trivial) fun t => twoCallers_again 3 t (by decide),
      ofSchedule_fair (fun _ => trivial) fun t => twoCallers_again 5 t (by decide)⟩
  by_cases h1 : n = 1
  · subst h1
    exact ⟨ofSchedule_fair (fun _ => trivial) fun t => twoCallers_again 4 t (by decide),
      ofSchedule_fair (fun _ => trivial) fun t => twoCallers_again 6 t (by decide)⟩
  have hn : ¬ n < 2 := by
    rw [UInt32.lt_iff_toNat_lt]
    rw [← UInt32.toNat_inj] at h0 h1
    simp only [UInt32.reduceToNat] at h0 h1 ⊢
    omega
  -- a node that does not take part neither waits nor holds
  constructor
  · refine fair_of_never fun s hs hen => ?_
    obtain ⟨s', hs'⟩ := hen
    obtain ⟨hv, -, -⟩ := inOrder_of_ticketsLeft (l := 0) (by decide) hs
    obtain ⟨calls, hcalls⟩ := ticketSystem_calls hs'
    cases CallStep.of_next hcalls with
    | granted hw => exact hn (hv.waiting_lt _ _ hw).1
    | notGranted hw => exact hn (hv.waiting_lt _ _ hw).1
  · refine fair_of_never fun s hs hen => ?_
    obtain ⟨s', hs'⟩ := hen
    obtain ⟨hv, -, -⟩ := inOrder_of_ticketsLeft (l := 0) (by decide) hs
    obtain ⟨calls, hcalls⟩ := ticketSystem_calls hs'
    cases CallStep.of_next hcalls with
    | release hh => exact hn (hv.holds_lt _ _ hh).1

end CxlLock.Faa
