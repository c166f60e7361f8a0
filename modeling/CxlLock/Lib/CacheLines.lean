import CxlLock.Lib.AccessProgram

/-!
# Cache lines, write-back and private copies

Locations lie in cache lines, and a flush of a range writes back and drops a set of lines.

The first part is about the accesses of one call: `WrittenBack` says that every line the call
has written is flushed later in the call.

The second part is a memory that parties reach through private copies of its lines which no
hardware keeps coherent.  A load hits the own copy or fetches the line, a store changes the own
copy only, and a flush writes a changed copy back and drops it.  What a party reads at a
location is its `view`.  `view_replay` says what a party that only loads can see: it keeps the
view it has begun with, as far as the others leave the memory as it is.
-/

namespace AccessProgram

universe u

/-- How locations and ranges lie in lines. -/
structure Lines (L Λ : Type u) where
  /-- The line of a location. -/
  line : L → Λ
  /-- The lines that hold bytes of a range. -/
  filled : Range L → Λ → Bool
  /-- The lines that a flush of a range writes back. -/
  flushed : Range L → Λ → Bool

variable {L V Λ N : Type u} (g : Lines L Λ)

/-! ## Write-back -/

/-- The lines that an access writes to. -/
def Event.Touches : Event L V → Λ → Prop
  | .store x _, ln | .exchange x _ _, ln | .fetchAdd x _ _, ln => ln = g.line x
  | .fill r _ _, ln => g.filled r ln = true
  | .load _ _, _ | .exchangeFailed _ _, _ | .flush _, _ => False

/-- The lines that an access writes back. -/
def Event.Flushes : Event L V → Λ → Prop
  | .flush r, ln => g.flushed r ln = true
  | .load _ _, _ | .store _ _, _ | .exchange _ _ _, _ | .exchangeFailed _ _, _
  | .fetchAdd _ _ _, _ | .fill _ _ _, _ => False

/-- Every line that an access writes to is written back by a later one. -/
def WrittenBack (t : List (Event L V)) : Prop :=
  ∀ before e after, t = before ++ e :: after → ∀ ln, e.Touches g ln →
    ∃ f ∈ after, f.Flushes g ln

/-- The lines that an access brings into the own cache. -/
def Event.Uses : Event L V → Λ → Prop
  | .load x _, ln | .exchangeFailed x _, ln => ln = g.line x
  | e, ln => e.Touches g ln

/-- A line is written back by one of the accesses. -/
def FlushedIn (ln : Λ) (t : List (Event L V)) : Prop := ∃ f ∈ t, f.Flushes g ln

section WrittenBack

variable {g} {e : Event L V} {t t' : List (Event L V)}

@[simp] lemma writtenBack_nil : WrittenBack g ([] : List (Event L V)) := by
  intro before e after h
  simp at h

lemma writtenBack_cons : WrittenBack g (e :: t) ↔
    (∀ ln, e.Touches g ln → ∃ f ∈ t, f.Flushes g ln) ∧ WrittenBack g t := by
  constructor
  · intro h
    refine ⟨h [] e t rfl, fun before e' after heq => h (e :: before) e' after ?_⟩
    rw [heq, List.cons_append]
  · rintro ⟨he, ht⟩ before e' after heq ln hln
    cases before with
    | nil =>
        obtain ⟨rfl, rfl⟩ := List.cons.inj heq
        exact he ln hln
    | cons b before =>
        obtain ⟨-, rfl⟩ := List.cons.inj heq
        exact ht before e' after rfl ln hln

section Cons

variable {x : L} {v w : V} {r : Range L} {ln : Λ}

@[simp] lemma flushedIn_nil : ¬ FlushedIn g ln ([] : List (Event L V)) := by
  rintro ⟨f, hf, -⟩
  simp at hf

lemma flushedIn_cons : FlushedIn g ln (e :: t) ↔ e.Flushes g ln ∨ FlushedIn g ln t := by
  simp only [FlushedIn, List.mem_cons, exists_eq_or_imp]

@[simp] lemma flushedIn_append :
    FlushedIn g ln (t ++ t') ↔ FlushedIn g ln t ∨ FlushedIn g ln t' := by
  induction t with
  | nil => simp
  | cons e t ih => rw [List.cons_append, flushedIn_cons, flushedIn_cons, ih, or_assoc]

@[simp] lemma flushedIn_flush :
    FlushedIn g ln (.flush r :: t) ↔ g.flushed r ln = true ∨ FlushedIn g ln t :=
  flushedIn_cons

attribute [local simp] Event.Flushes in
@[simp] lemma flushedIn_load : FlushedIn g ln (.load x v :: t) ↔ FlushedIn g ln t := by
  simp [flushedIn_cons, Event.Flushes]

@[simp] lemma flushedIn_store : FlushedIn g ln (.store x v :: t) ↔ FlushedIn g ln t := by
  simp [flushedIn_cons, Event.Flushes]

@[simp] lemma flushedIn_exchange : FlushedIn g ln (.exchange x v w :: t) ↔ FlushedIn g ln t := by
  simp [flushedIn_cons, Event.Flushes]

@[simp] lemma flushedIn_exchangeFailed :
    FlushedIn g ln (.exchangeFailed x v :: t) ↔ FlushedIn g ln t := by
  simp [flushedIn_cons, Event.Flushes]

attribute [local simp] Event.Touches in
@[simp] lemma writtenBack_load : WrittenBack g (.load x v :: t) ↔ WrittenBack g t := by
  simp [writtenBack_cons, Event.Touches]

@[simp] lemma writtenBack_flush : WrittenBack g (.flush r :: t) ↔ WrittenBack g t := by
  simp [writtenBack_cons, Event.Touches]

@[simp] lemma writtenBack_exchangeFailed :
    WrittenBack g (.exchangeFailed x v :: t) ↔ WrittenBack g t := by
  simp [writtenBack_cons, Event.Touches]

@[simp] lemma writtenBack_store :
    WrittenBack g (.store x v :: t) ↔ FlushedIn g (g.line x) t ∧ WrittenBack g t := by
  simp [writtenBack_cons, Event.Touches, FlushedIn]

@[simp] lemma writtenBack_exchange :
    WrittenBack g (.exchange x v w :: t) ↔ FlushedIn g (g.line x) t ∧ WrittenBack g t := by
  simp [writtenBack_cons, Event.Touches, FlushedIn]

@[simp] lemma writtenBack_fetchAdd :
    WrittenBack g (.fetchAdd x v w :: t) ↔ FlushedIn g (g.line x) t ∧ WrittenBack g t := by
  simp [writtenBack_cons, Event.Touches, FlushedIn]

lemma writtenBack_fill {inside : L → Bool} : WrittenBack g (.fill r inside v :: t) ↔
    (∀ ln, g.filled r ln = true → FlushedIn g ln t) ∧ WrittenBack g t :=
  writtenBack_cons

end Cons

/-- What comes later can only write back more. -/
lemma WrittenBack.append (h : WrittenBack g t) (h' : WrittenBack g t') :
    WrittenBack g (t ++ t') := by
  induction t with
  | nil => exact h'
  | cons e t ih =>
      obtain ⟨he, ht⟩ := writtenBack_cons.1 h
      refine writtenBack_cons.2 ⟨fun ln hln => ?_, ih ht⟩
      exact flushedIn_append.2 (.inl (he ln hln))

/-- The accesses after some point must write back themselves what they write. -/
lemma WrittenBack.of_append (h : WrittenBack g (t ++ t')) : WrittenBack g t' := by
  induction t with
  | nil => exact h
  | cons e t ih => exact ih (writtenBack_cons.1 h).2

/-- The accesses of a loop whose turns write everything back. -/
lemma writtenBack_flatMap {ι : Type u} {is : List ι} {turn : ι → List (Event L V)}
    (h : ∀ i ∈ is, WrittenBack g (turn i)) : WrittenBack g (is.flatMap turn) := by
  induction is with
  | nil => exact writtenBack_nil
  | cons i is ih =>
      rw [List.flatMap_cons]
      exact (h i List.mem_cons_self).append (ih fun j hj => h j (List.mem_cons_of_mem i hj))

lemma flushedIn_flatMap {ι : Type u} {is : List ι} {turn : ι → List (Event L V)} {ln : Λ} :
    FlushedIn g ln (is.flatMap turn) ↔ ∃ i ∈ is, FlushedIn g ln (turn i) := by
  simp only [FlushedIn, List.mem_flatMap]
  constructor
  · rintro ⟨f, ⟨i, hi, hf⟩, hln⟩
    exact ⟨i, hi, f, hf, hln⟩
  · rintro ⟨i, hi, f, hf, hln⟩
    exact ⟨f, ⟨i, hi, hf⟩, hln⟩

variable (g) in
/-- Accesses that write to no line. -/
def ReadOnly (t : List (Event L V)) : Prop := ∀ e ∈ t, ∀ ln, ¬ e.Touches g ln

@[simp] lemma readOnly_nil : ReadOnly g ([] : List (Event L V)) := by
  intro e he
  simp at he

lemma readOnly_cons : ReadOnly g (e :: t) ↔ (∀ ln, ¬ e.Touches g ln) ∧ ReadOnly g t := by
  simp only [ReadOnly, List.mem_cons, forall_eq_or_imp]

/-- Accesses that write nothing write to no line. -/
lemma readOnly_of_silent (h : ∀ e ∈ t, e.Silent) : ReadOnly g t := by
  intro e he ln
  have hsilent := h e he
  cases e with
  | load | exchangeFailed | flush => exact not_false
  | _ => exact hsilent.elim

/-- Accesses that write to no line leave the matter to those that follow. -/
lemma ReadOnly.writtenBack_append (h : ReadOnly g t) :
    WrittenBack g (t ++ t') ↔ WrittenBack g t' := by
  refine ⟨WrittenBack.of_append, WrittenBack.append ?_⟩
  induction t with
  | nil => exact writtenBack_nil
  | cons e t ih =>
      obtain ⟨he, ht⟩ := readOnly_cons.1 h
      exact writtenBack_cons.2 ⟨fun ln hln => absurd hln (he ln), ih ht⟩

lemma ReadOnly.exchange_notMem (h : ReadOnly g t) (x : L) (v w : V) : .exchange x v w ∉ t :=
  fun hmem => h _ hmem (g.line x) rfl

lemma ReadOnly.writtenBack (h : ReadOnly g t) : WrittenBack g t := by
  rw [← List.append_nil t, h.writtenBack_append]
  exact writtenBack_nil

end WrittenBack

/-! ## Private copies -/

/-- A copy of a line; `dirty` when it has been written to.  Only the content at the locations of
the line means anything. -/
structure Copy (L V : Type u) where
  content : L → V
  dirty : Bool

/-- A memory and the private copies of its lines that each party has. -/
structure Caches (L V Λ N : Type u) where
  mem : L → V
  copy : N → Λ → Option (Copy L V)

namespace Caches

variable [DecidableEq L] [DecidableEq V] [DecidableEq Λ] [DecidableEq N] [Add V]
variable (s : Caches L V Λ N) (n : N)

/-- What the party finds in the line: its own copy if it has one, and the memory otherwise. -/
def content (ln : Λ) : L → V := (s.copy n ln).elim s.mem Copy.content

/-- What the party reads at a location. -/
def view (x : L) : V := s.content n (g.line x) x

/-- The party gets a copy of the line unless it has one. -/
def fetch (ln : Λ) : Caches L V Λ N :=
  { s with
    copy := Function.update s.copy n (Function.update (s.copy n) ln
      (some ((s.copy n ln).getD ⟨s.mem, false⟩))) }

/-- A write to the own copy. -/
def write (x : L) (v : V) : Caches L V Λ N :=
  { s with
    copy := Function.update s.copy n (Function.update (s.copy n) (g.line x)
      (some ⟨Function.update (s.content n (g.line x)) x v, true⟩)) }

/-- A range is set in the own copies. -/
def fill (r : Range L) (inside : L → Bool) (v : V) : Caches L V Λ N :=
  { s with
    copy := Function.update s.copy n fun ln =>
      if g.filled r ln then some ⟨fun x => if inside x then v else s.content n ln x, true⟩
      else s.copy n ln }

/-- The copies of the lines of a range are dropped, those that have been written to after a
write-back. -/
def flush (r : Range L) : Caches L V Λ N where
  mem := fun x =>
    match s.copy n (g.line x) with
    | some c => if g.flushed r (g.line x) && c.dirty then c.content x else s.mem x
    | none => s.mem x
  copy := Function.update s.copy n fun ln => if g.flushed r ln then none else s.copy n ln

/-- An access by the party, if it can be: what it reads is what it has in view. -/
def access : Event L V → Option (Caches L V Λ N)
  | .load x v => if s.view g n x = v then some (s.fetch n (g.line x)) else none
  | .store x v => some (s.write g n x v)
  | .exchange x old new => if s.view g n x = old then some (s.write g n x new) else none
  | .exchangeFailed x expected =>
      if s.view g n x ≠ expected then some (s.fetch n (g.line x)) else none
  | .fetchAdd x old v => if s.view g n x = old then some (s.write g n x (old + v)) else none
  | .fill r inside v => some (s.fill g n r inside v)
  | .flush r => some (s.flush g n r)

variable {A : Type u}

/-- Nobody has a copy. -/
def start (m : L → V) : Caches L V Λ N := ⟨m, fun _ _ => none⟩

/-- The accesses of several agents one after another; agents of one party share its copies. -/
def replay (host : A → N) : Caches L V Λ N → List (A × Event L V) → Option (Caches L V Λ N)
  | s, [] => some s
  | s, e :: es => (s.access g (host e.1) e.2).bind fun s' => replay host s' es

/-- The accesses of one agent. -/
def byAgent [DecidableEq A] (a : A) (es : List (A × Event L V)) : List (Event L V) :=
  es.filterMap fun e => if e.1 = a then some e.2 else none

/-- The memory at some locations stays as it is in all states of a run. -/
def Steady (host : A → N) (X : List L) (es : List (A × Event L V)) : Prop :=
  ∀ es₁ es₂ s', es = es₁ ++ es₂ → s.replay g host es₁ = some s' → ∀ x ∈ X, s'.mem x = s.mem x

/-- The party neither writes to nor flushes the lines of some locations. -/
def LeavesAlone (host : A → N) (n : N) (X : List L) (es : List (A × Event L V)) : Prop :=
  ∀ e ∈ es, host e.1 = n → ∀ x ∈ X, ¬ e.2.Touches g (g.line x) ∧ ¬ e.2.Flushes g (g.line x)

/-- Each use of the line by the party is followed by a flush of it by the party. -/
def Dropped (host : A → N) (n : N) (ln : Λ) (es : List (A × Event L V)) : Prop :=
  ∀ es₁ e es₂, es = es₁ ++ e :: es₂ → host e.1 = n → e.2.Uses g ln →
    ∃ f ∈ es₂, host f.1 = n ∧ f.2.Flushes g ln

section View

variable {g} {s s' : Caches L V Λ N} {n k : N} {e : Event L V} {x : L} {v : V}

omit [DecidableEq L] [DecidableEq V] [DecidableEq Λ] [DecidableEq N] [Add V] in
lemma view_of_copy_none (h : s.copy n (g.line x) = none) : s.view g n x = s.mem x := by
  simp [view, content, h]

lemma view_of_load (h : s.access g n (.load x v) = some s') : s.view g n x = v := by
  simp only [access, Option.ite_none_right_eq_some] at h
  exact h.1

omit [DecidableEq L] [DecidableEq V] [DecidableEq Λ] [DecidableEq N] [Add V] in
lemma uses_of_touches {ln : Λ} (h : e.Touches g ln) : e.Uses g ln := by
  cases e with
  | load y w | exchangeFailed y w | flush r => exact h.elim
  | _ => exact h

/-- What an access can do: fetch a line, write to a line, set a range or flush a range. -/
lemma access_cases (h : s.access g n e = some s') :
    (∃ y, s' = s.fetch n (g.line y) ∧ e.Uses g (g.line y)) ∨
    (∃ y w, s' = s.write g n y w ∧ e.Touches g (g.line y)) ∨
    (∃ r inside w, s' = s.fill g n r inside w ∧ ∀ ln, ¬ e.Touches g ln → g.filled r ln = false) ∨
    ∃ r, s' = s.flush g n r ∧ ∀ ln, ¬ e.Flushes g ln → g.flushed r ln = false := by
  cases e with
  | load y w =>
      simp only [access, Option.ite_none_right_eq_some, Option.some.injEq] at h
      exact .inl ⟨y, h.2.symm, rfl⟩
  | store y w => exact .inr (.inl ⟨y, w, (Option.some.inj h).symm, rfl⟩)
  | exchange y old new =>
      simp only [access, Option.ite_none_right_eq_some, Option.some.injEq] at h
      exact .inr (.inl ⟨y, new, h.2.symm, rfl⟩)
  | exchangeFailed y expected =>
      simp only [access, Option.ite_none_right_eq_some, Option.some.injEq] at h
      exact .inl ⟨y, h.2.symm, rfl⟩
  | fetchAdd y old w =>
      simp only [access, Option.ite_none_right_eq_some, Option.some.injEq] at h
      exact .inr (.inl ⟨y, old + w, h.2.symm, rfl⟩)
  | fill r inside w =>
      refine .inr (.inr (.inl ⟨r, inside, w, (Option.some.inj h).symm, fun ln hln => ?_⟩))
      exact Bool.eq_false_iff.2 hln
  | flush r =>
      refine .inr (.inr (.inr ⟨r, (Option.some.inj h).symm, fun ln hln => ?_⟩))
      exact Bool.eq_false_iff.2 hln

/-- An access changes no copy of another party. -/
lemma copy_access_of_ne (h : s.access g k e = some s') (hne : n ≠ k) : s'.copy n = s.copy n := by
  rcases access_cases h with ⟨y, rfl, -⟩ | ⟨y, w, rfl, -⟩ | ⟨r, inside, w, rfl, -⟩ | ⟨r, rfl, -⟩
  · simp [fetch, hne]
  · simp [write, hne]
  · simp [fill, hne]
  · simp [flush, hne]

/-- An access that neither uses nor flushes a line leaves the copy of the line as it is. -/
lemma copy_access_of_not_uses {ln : Λ} (h : s.access g k e = some s')
    (hln : k = n → ¬ e.Uses g ln ∧ ¬ e.Flushes g ln) : s'.copy n ln = s.copy n ln := by
  by_cases hk : k = n
  · subst hk
    obtain ⟨huse, hflush⟩ := hln rfl
    have htouch : ¬ e.Touches g ln := fun h => huse (uses_of_touches h)
    rcases access_cases h with ⟨y, rfl, hy⟩ | ⟨y, w, rfl, hy⟩ | ⟨r, inside, w, rfl, hr⟩ |
      ⟨r, rfl, hr⟩
    · have hne : ln ≠ g.line y := fun heq => huse (heq ▸ hy)
      simp [fetch, hne]
    · have hne : ln ≠ g.line y := fun heq => htouch (heq ▸ hy)
      simp [write, hne]
    · simp [fill, hr ln htouch]
    · simp [flush, hr ln hflush]
  · rw [copy_access_of_ne h (Ne.symm hk)]

/-- A flush drops the copy. -/
lemma copy_access_flush {ln : Λ} (h : s.access g n e = some s') (hflush : e.Flushes g ln) :
    s'.copy n ln = none := by
  cases e with
  | flush r =>
      simp only [access, Option.some.injEq] at h
      simp only [Event.Flushes] at hflush
      simp [← h, flush, hflush]
  | _ => exact hflush.elim

omit [DecidableEq L] [DecidableEq V] [DecidableEq Λ] [DecidableEq N] [Add V] in
lemma dropped_cons {host : A → N} {ln : Λ} {a : A × Event L V} {es : List (A × Event L V)} :
    Dropped g host n ln (a :: es) ↔
      (host a.1 = n → a.2.Uses g ln → ∃ f ∈ es, host f.1 = n ∧ f.2.Flushes g ln) ∧
        Dropped g host n ln es := by
  constructor
  · intro h
    refine ⟨h [] a es rfl, fun es₁ e es₂ heq => h (a :: es₁) e es₂ ?_⟩
    rw [heq, List.cons_append]
  · rintro ⟨ha, hes⟩ es₁ e es₂ heq
    cases es₁ with
    | nil =>
        obtain ⟨rfl, rfl⟩ := List.cons.inj heq
        exact ha
    | cons b es₁ =>
        obtain ⟨-, rfl⟩ := List.cons.inj heq
        exact hes es₁ e es₂ rfl

omit [DecidableEq L] [DecidableEq V] [DecidableEq Λ] [DecidableEq N] [Add V] in
/-- A party that does nothing uses no line. -/
lemma dropped_of_ne {host : A → N} {ln : Λ} {es : List (A × Event L V)}
    (h : ∀ e ∈ es, host e.1 ≠ n) : Dropped g host n ln es := fun es₁ e es₂ heq hn _ =>
  absurd hn (h e (by rw [heq]; exact List.mem_append_right _ (List.mem_cons_self ..)))

/-- A party that has flushed the line after its last use of it has no copy. -/
lemma copy_of_dropped {host : A → N} {ln : Λ} {es : List (A × Event L V)}
    (hrun : s.replay g host es = some s') (hdropped : Dropped g host n ln es)
    (hcopy : s.copy n ln = none ∨ ∃ f ∈ es, host f.1 = n ∧ f.2.Flushes g ln) :
    s'.copy n ln = none := by
  induction es generalizing s with
  | nil =>
      rw [← Option.some.inj hrun]
      exact hcopy.resolve_right (by rintro ⟨f, hf, -⟩; simp at hf)
  | cons e es ih =>
      obtain ⟨s₁, hstep, hrest⟩ := Option.bind_eq_some_iff.1 hrun
      obtain ⟨hflushed, hdropped'⟩ := dropped_cons.1 hdropped
      refine ih hrest hdropped' ?_
      by_cases hn : host e.1 = n
      · by_cases huse : e.2.Uses g ln
        · exact .inr (hflushed hn huse)
        · by_cases hflush : e.2.Flushes g ln
          · exact .inl (copy_access_flush (hn ▸ hstep) hflush)
          · rw [copy_access_of_not_uses hstep fun _ => ⟨huse, hflush⟩]
            refine hcopy.imp_right fun hlater => ?_
            obtain ⟨f, hf, hfn, hfl⟩ := hlater
            rcases List.mem_cons.1 hf with rfl | hf
            · exact absurd hfl hflush
            · exact ⟨f, hf, hfn, hfl⟩
      · rw [copy_access_of_not_uses hstep fun h => absurd h hn]
        refine hcopy.imp_right fun hlater => ?_
        obtain ⟨f, hf, hfn, hfl⟩ := hlater
        rcases List.mem_cons.1 hf with rfl | hf
        · exact absurd hfn hn
        · exact ⟨f, hf, hfn, hfl⟩

omit [DecidableEq L] [DecidableEq V] [Add V] in
/-- A copy is fetched with the content that is in view. -/
lemma view_fetch (ln : Λ) : (s.fetch n ln).view g n x = s.view g n x := by
  by_cases hln : g.line x = ln
  · cases hcopy : s.copy n ln <;> simp [view, content, fetch, hln, hcopy]
  · simp [view, content, fetch, hln]

/-- An access that does not write to or flush the line keeps the view, as far as the memory
stays as it is. -/
lemma view_access (h : s.access g k e = some s') (hmem : s'.mem x = s.mem x)
    (halone : k = n → ¬ e.Touches g (g.line x) ∧ ¬ e.Flushes g (g.line x)) :
    s'.view g n x = s.view g n x := by
  by_cases hk : k = n
  · subst hk
    obtain ⟨htouch, hflush⟩ := halone rfl
    rcases access_cases h with ⟨y, rfl, -⟩ | ⟨y, w, rfl, hy⟩ | ⟨r, inside, w, rfl, hr⟩ |
      ⟨r, rfl, hr⟩
    · exact view_fetch (g.line y)
    · have hne : g.line x ≠ g.line y := fun heq => htouch (heq ▸ hy)
      simp [view, content, write, hne]
    · simp [view, content, fill, hr _ htouch]
    · cases hcopy : s.copy k (g.line x) <;> simp [view, content, flush, hr _ hflush, hcopy]
  · have hcopy := copy_access_of_ne h (Ne.symm hk)
    simp only [view, content, hcopy]
    cases s.copy n (g.line x) with
    | none => exact hmem
    | some c => rfl

/-- Only a flush changes the memory. -/
lemma mem_access (h : s.access g k e = some s') (hflush : ∀ ln, ¬ e.Flushes g ln) :
    s'.mem = s.mem := by
  rcases access_cases h with ⟨y, rfl, -⟩ | ⟨y, w, rfl, -⟩ | ⟨r, inside, w, rfl, -⟩ | ⟨r, rfl, hr⟩
  · rfl
  · rfl
  · rfl
  · funext y
    cases hcopy : s.copy k (g.line y) <;> simp [flush, hcopy, hr _ (hflush _)]

lemma mem_replay {host : A → N} {es : List (A × Event L V)}
    (hrun : s.replay g host es = some s') (hflush : ∀ e ∈ es, ∀ ln, ¬ e.2.Flushes g ln) :
    s'.mem = s.mem := by
  induction es generalizing s with
  | nil => rw [Option.some.inj hrun]
  | cons e es ih =>
      obtain ⟨s₁, hstep, hrest⟩ := Option.bind_eq_some_iff.1 hrun
      rw [ih hrest fun e' he' => hflush e' (List.mem_cons_of_mem e he'),
        mem_access hstep (hflush e List.mem_cons_self)]

lemma replay_append (host : A → N) (s : Caches L V Λ N) (es₁ es₂ : List (A × Event L V)) :
    s.replay g host (es₁ ++ es₂) =
      (s.replay g host es₁).bind fun s' => s'.replay g host es₂ := by
  induction es₁ generalizing s with
  | nil => rfl
  | cons e es₁ ih => simp only [List.cons_append, replay, ih, Option.bind_assoc]

/-- Nothing changes in memory while nobody flushes. -/
lemma steady_of_noFlush {host : A → N} {X : List L} {es : List (A × Event L V)}
    (hflush : ∀ e ∈ es, ∀ ln, ¬ e.2.Flushes g ln) : s.Steady g host X es := by
  rintro es₁ es₂ s' rfl hrun x -
  rw [mem_replay hrun fun e he => hflush e (List.mem_append_left es₂ he)]

/-- **What a party sees.** A party that leaves the lines alone reads what it had in view at the
begin, as far as the others leave the memory as it is. -/
theorem view_replay {host : A → N} {X : List L} {es : List (A × Event L V)}
    (hrun : s.replay g host es = some s') (hsteady : s.Steady g host X es)
    (halone : LeavesAlone g host n X es) {a : A} (ha : host a = n)
    (hload : (a, .load x v) ∈ es) (hx : x ∈ X) : v = s.view g n x := by
  induction es generalizing s with
  | nil => simp at hload
  | cons e es ih =>
      obtain ⟨s₁, hstep, hrest⟩ := Option.bind_eq_some_iff.1 hrun
      rcases List.mem_cons.1 hload with rfl | hload
      · rw [ha] at hstep
        exact (view_of_load hstep).symm
      · have hone : s.replay g host [e] = some s₁ := by simp [replay, hstep]
        have hmem := hsteady [e] es s₁ rfl hone
        have hview : s₁.view g n x = s.view g n x :=
          view_access hstep (hmem x hx) fun he => halone e List.mem_cons_self he x hx
        rw [← hview]
        refine ih hrest (fun es₁ es₂ s₂ heq hrun₁ y hy => ?_)
          (fun e' he' => halone e' (List.mem_cons_of_mem e he')) hload
        have hlong : s.replay g host (e :: es₁) = some s₂ := by
          simp only [replay, hstep, Option.bind_some, hrun₁]
        exact (hsteady (e :: es₁) es₂ s₂ (by rw [heq, List.cons_append]) hlong y hy).trans
          (hmem y hy).symm

end View

end Caches

end AccessProgram
