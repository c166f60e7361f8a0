import CxlLock.DistributedLock
import CxlLock.Lib.SortedMap
import CxlLock.Lib.StandardText
import Mathlib.Data.List.Lex
import Mathlib.Order.Fin.Basic

/-!
# The registry of lock algorithms (`lock_interface.cpp`)

`REGISTER_LOCK_ALGORITHM` registers a factory while the static variables of the program are
initialized, in an order that the language leaves open between source files; `create` and
`list_algorithms` look the factories up afterwards.  Every function holds the mutex of the registry
from the lookup on, so the calls of all threads come one after another.

The map is the list of its entries in the order of the names, and carries the proof of that order.
A factory that has been registered stays, whatever is registered later
(`registration_first_wins`), and the order of the registrations does not matter as long as the
names differ (`registration_order_free`).
-/

namespace CxlLock

open StandardText

/-- The bytes of a C string before the terminating zero. -/
structure CString where
  bytes : List UInt8
  nonzero : 0 ∉ bytes

namespace CString

@[ext] lemma ext {s t : CString} (h : s.bytes = t.bytes) : s = t := by
  obtain ⟨bytes, hs⟩ := s
  obtain ⟨bytes', ht⟩ := t
  dsimp only at h
  subst h
  rfl

/-- `std::string` compares bytes as numbers from 0 to 255. -/
def key (s : CString) : List (Fin 256) := s.bytes.map UInt8.toFin

lemma key_injective : Function.Injective key := by
  intro s t h
  exact ext (List.map_injective_iff.2 (fun _ _ => UInt8.toFin_inj.1) h)

instance : LinearOrder CString := LinearOrder.lift' key key_injective

end CString

/-- `LockRegistryData`: the map `factories`. -/
@[ext]
structure LockRegistryData (Factory : Type) where
  factories : List (CString × Factory)
  sorted : SortedMap.Sorted factories

namespace LockRegistryData

variable {Factory Instance : Type}

/-- The registry at the start of the program. -/
def empty : LockRegistryData Factory := ⟨[], .nil⟩

/-- `LockAlgorithmRegistry::register_algorithm`; null pointers are `none`. -/
def registerAlgorithm (name : Option CString) (factory : Option Factory)
    (data : LockRegistryData Factory) : Bool × LockRegistryData Factory :=
  match name, factory with
  | some key, some factory =>
      if key.bytes = [] then (false, data)
      else if (data.factories.lookup key).isSome then (false, data)
      else (true, ⟨SortedMap.insert key factory data.factories, data.sorted.insert⟩)
  | _, _ => (false, data)

/-- `LockAlgorithmRegistry::create`; `make` runs a factory, which may return null. -/
def create (make : Factory → Option Instance) (name : Option CString)
    (data : LockRegistryData Factory) : Option Instance :=
  match name with
  | none => none
  | some name =>
      if name.bytes = [] then none
      else
        match data.factories.lookup name with
        | none => none
        | some factory => make factory

/-- The line of `list_algorithms` for one entry, with the instance that the factory has made. -/
def listLine (getName : Instance → List UInt8) (name : CString) (algo : Option Instance) :
    List UInt8 :=
  ascii "  - " ++ name.bytes ++
    match algo with
    | some algo => ascii " (" ++ getName algo ++ ascii ")"
    | none => ascii " (factory returned null)"

/-- `LockAlgorithmRegistry::list_algorithms`: the lines it prints. -/
def listAlgorithms (make : Factory → Option Instance) (getName : Instance → List UInt8)
    (data : LockRegistryData Factory) : List (List UInt8) :=
  ascii "Registered lock algorithms:" ::
    if data.factories = [] then [ascii "  (none)"]
    else data.factories.map fun (name, factory) => listLine getName name (make factory)

/-! ## Registrations one after another -/

/-- The arguments of a call of `register_algorithm`. -/
abbrev Registration (Factory : Type) := Option CString × Option Factory

/-- A list of calls of `register_algorithm`. -/
def registerAll (calls : List (Registration Factory)) (data : LockRegistryData Factory) :
    LockRegistryData Factory :=
  calls.foldl (fun data call => (data.registerAlgorithm call.1 call.2).2) data

/-- The factory that a call offers for a name. -/
def offered (name : CString) (call : Registration Factory) : Option Factory :=
  if call.1 = some name ∧ name.bytes ≠ [] then call.2 else none

/-- The first factory that is offered for a name. -/
def firstFactory (name : CString) (calls : List (Registration Factory)) : Option Factory :=
  calls.findSome? (offered name)

variable {data data' : LockRegistryData Factory} {calls calls' : List (Registration Factory)}
  {name : CString} {factory : Factory}

lemma firstFactory_cons (call : Registration Factory) :
    firstFactory name (call :: calls) = (offered name call).or (firstFactory name calls) := by
  show List.findSome? _ _ = _
  rw [List.findSome?_cons]
  cases offered name call <;> rfl

/-- A call of `register_algorithm` keeps what is registered. -/
lemma lookup_registerAlgorithm (call : Registration Factory) :
    (data.registerAlgorithm call.1 call.2).2.factories.lookup name =
      (data.factories.lookup name).or (offered name call) := by
  obtain ⟨key, factory⟩ := call
  cases key with
  | none => simp [registerAlgorithm, offered]
  | some key =>
      cases factory with
      | none => simp [registerAlgorithm, offered]
      | some factory =>
          simp only [registerAlgorithm, offered, Option.some.injEq]
          by_cases hempty : key.bytes = []
          · have hno : ¬ (key = name ∧ name.bytes ≠ []) := fun h => h.2 (h.1 ▸ hempty)
            rw [if_pos hempty, if_neg hno, Option.or_none]
          rw [if_neg hempty]
          by_cases hkey : name = key
          · subst hkey
            cases hold : data.factories.lookup name with
            | some old => simp [hold]
            | none => simp [hempty, SortedMap.lookup_insert]
          · have hno : ¬ (key = name ∧ name.bytes ≠ []) := fun h => hkey h.1.symm
            rw [if_neg hno, Option.or_none]
            split_ifs
            · rfl
            · rw [SortedMap.lookup_insert, if_neg hkey]

lemma lookup_registerAll : (registerAll calls data).factories.lookup name =
    (data.factories.lookup name).or (firstFactory name calls) := by
  induction calls generalizing data with
  | nil => simp [registerAll, firstFactory]
  | cons call rest ih =>
      show (registerAll rest _).factories.lookup name = _
      rw [ih, lookup_registerAlgorithm, Option.or_assoc, firstFactory_cons]

lemma lookup_registerAll_empty :
    (registerAll calls empty).factories.lookup name = firstFactory name calls := by
  rw [lookup_registerAll]
  rfl

/-- No factory is offered for the empty name. -/
lemma firstFactory_of_empty (hempty : name.bytes = []) : firstFactory name calls = none := by
  refine List.findSome?_eq_none_iff.2 fun call _ => ?_
  exact if_neg fun h => h.2 hempty

/-- **The first registration counts.**  After any registrations `create` runs the first factory
that was offered for the name, a further registration succeeds exactly for a name that has none,
and `list_algorithms` prints the names that have one, each once and in their order. -/
theorem registration_first_wins (make : Factory → Option Instance)
    (getName : Instance → List UInt8) (calls : List (Registration Factory)) :
    (∀ name, (registerAll calls empty).create make (some name) =
      (firstFactory name calls).bind make) ∧
    (∀ name factory, ((registerAll calls empty).registerAlgorithm (some name) (some factory)).1 =
      true ↔ name.bytes ≠ [] ∧ firstFactory name calls = none) ∧
    ∃ names : List CString, names.Pairwise (· < ·) ∧
      (∀ name, name ∈ names ↔ firstFactory name calls ≠ none) ∧
      (registerAll calls empty).listAlgorithms make getName =
        ascii "Registered lock algorithms:" ::
          if names = [] then [ascii "  (none)"]
          else names.map fun name =>
            listLine getName name ((firstFactory name calls).bind make) := by
  refine ⟨fun name => ?_, fun name factory => ?_, ?_⟩
  · unfold create
    by_cases hempty : name.bytes = []
    · simp only [if_pos hempty, firstFactory_of_empty hempty, Option.bind_none]
    · simp only [if_neg hempty, lookup_registerAll_empty]
      cases firstFactory name calls <;> rfl
  · simp only [registerAlgorithm, lookup_registerAll_empty]
    split_ifs with hempty hold
    · simp [hempty]
    · simp [Option.isSome_iff_ne_none.1 hold]
    · simp [hempty, Option.not_isSome_iff_eq_none.1 hold]
  · have hsorted := (registerAll calls empty).sorted
    refine ⟨(registerAll calls empty).factories.map Prod.fst, ?_, fun name => ?_, ?_⟩
    · exact List.pairwise_map.2 hsorted
    · rw [← lookup_registerAll_empty, Option.ne_none_iff_exists', List.mem_map]
      constructor
      · rintro ⟨⟨_, factory⟩, hmem, rfl⟩
        exact ⟨factory, hsorted.lookup_eq_some.2 hmem⟩
      · rintro ⟨factory, hlookup⟩
        exact ⟨(name, factory), hsorted.lookup_eq_some.1 hlookup, rfl⟩
    · simp only [listAlgorithms, List.map_eq_nil_iff, List.map_map]
      congr 2
      apply List.map_congr_left
      rintro ⟨name, factory⟩ hmem
      have hfirst : firstFactory name calls = some factory := by
        rw [← lookup_registerAll_empty]
        exact hsorted.lookup_eq_some.2 hmem
      show listLine getName name (make factory) = listLine getName name _
      rw [hfirst, Option.bind_some]

lemma name_of_offered {call : Registration Factory} (h : offered name call = some factory) :
    call.1 = some name := by
  unfold offered at h
  split_ifs at h with hname
  exact hname.1

/-- A call that offers a factory for the name is the only one with the name. -/
lemma firstFactory_eq_some (hnames : (calls.filterMap Prod.fst).Nodup) :
    firstFactory name calls = some factory ↔ ∃ call ∈ calls, offered name call = some factory := by
  refine ⟨List.exists_of_findSome?_eq_some, ?_⟩
  rintro ⟨call, hcall, hoffered⟩
  induction calls with
  | nil => cases hcall
  | cons first rest ih =>
      rw [firstFactory_cons]
      rcases List.mem_cons.1 hcall with rfl | hcall
      · rw [hoffered, Option.some_or]
      have hrest : (rest.filterMap Prod.fst).Nodup :=
        hnames.sublist ((List.sublist_cons_self first rest).filterMap _)
      cases hfirst : offered name first with
      | none =>
          rw [Option.none_or]
          exact ih hrest hcall
      | some other =>
          have hname := name_of_offered hfirst
          rw [List.filterMap_cons_some hname] at hnames
          refine absurd ?_ (List.nodup_cons.1 hnames).1
          exact List.mem_filterMap.2 ⟨call, hcall, name_of_offered hoffered⟩

/-- **The order of the registrations does not matter**, as long as no two of them have the same
name. -/
theorem registration_order_free (hnames : (calls.filterMap Prod.fst).Nodup)
    (hperm : calls.Perm calls') : registerAll calls empty = registerAll calls' empty := by
  have hnames' : (calls'.filterMap Prod.fst).Nodup := (hperm.filterMap _).nodup_iff.1 hnames
  have hlookup : ∀ name, (registerAll calls empty).factories.lookup name =
      (registerAll calls' empty).factories.lookup name := by
    intro name
    rw [lookup_registerAll_empty, lookup_registerAll_empty]
    ext factory
    rw [firstFactory_eq_some hnames, firstFactory_eq_some hnames']
    simp only [hperm.mem_iff]
  exact LockRegistryData.ext
    ((registerAll calls empty).sorted.ext (registerAll calls' empty).sorted hlookup)

/-- The two algorithms that register themselves, in either order. -/
theorem registration_order_free_two :
    registerAll [(some ⟨ascii "mcs", by decide⟩, some LockAlgorithm.mcs),
        (some ⟨ascii "qspinlock", by decide⟩, some LockAlgorithm.qspinlock)] empty =
      registerAll [(some ⟨ascii "qspinlock", by decide⟩, some LockAlgorithm.qspinlock),
        (some ⟨ascii "mcs", by decide⟩, some LockAlgorithm.mcs)] empty :=
  registration_order_free (by decide) (.swap ..)

end LockRegistryData

end CxlLock
