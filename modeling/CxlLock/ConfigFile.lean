import CxlLock.Lib.StandardText
import CxlLock.NodeQueries

/-!
# The configuration file of a node (`node_registry.cpp`)

`load_local_config` goes through a file line by line.  Each line with a key and a value is an
entry, which sets one field of the stored configuration; the call returns at the first number
that `std::stoul` does not take.  `parseEntries_eq` says what a whole file comes to: the fields
are those of the last entries before the first such number.

The numbers of a file are not always those that it says: `std::stoul` takes signs and does not
look behind the digits, and the cast to 32 bits drops the rest (`numbersAsWritten_iff`).  The
configuration is overwritten in place and `has_local_config` is not reset, so that a load that
fails in the middle of a file leaves the registry with a configuration that nobody has written
(`failedLoad_iff`).
-/

namespace CxlLock

open StandardText ByteMemory

/-! ## The parser -/

namespace NodeRegistry

/-- `Impl::trim`. -/
def trim (s : List UInt8) : List UInt8 := strip isSpace s

/-- The end of `Impl::extract_json_value`: remove the quotes around a string. -/
def unquote (value : List UInt8) : List UInt8 :=
  if 2 ≤ value.length ∧ value.head? = some 34 ∧ value.getLast? = some 34 then
    (value.drop 1).take (value.length - 2)
  else value

/-- `Impl::extract_json_value`. -/
def extractJsonValue (line : List UInt8) : List UInt8 :=
  match line.dropWhile (· ≠ 58) with
  | [] => []
  | _ :: rest =>
      let value := trim rest
      unquote (if value.getLast? = some 44 then trim value.dropLast else value)

/-- `Impl::extract_json_key`. -/
def extractJsonKey (line : List UInt8) : List UInt8 :=
  match line.dropWhile (· ≠ 34) with
  | [] => []
  | _ :: rest => if 34 ∈ rest then rest.takeWhile (· ≠ 34) else []

/-- A key and its value. -/
abbrev ConfigEntry := List UInt8 × List UInt8

/-- The entry of a line; braces, empty lines and malformed lines have none. -/
def parseLine (line : List UInt8) : Option ConfigEntry :=
  let line := trim line
  if line = [] ∨ line = ascii "\x7b" ∨ line = ascii "\x7d" then none
  else
    let key := extractJsonKey line
    let value := extractJsonValue line
    if key = [] ∨ value = [] then none else some (key, value)

/-- Set the field of an entry; `none` when `std::stoul` throws. -/
def setField (config : NodeConfig) (key value : List UInt8) : Option NodeConfig :=
  if key = ascii "node_id" then
    (stoul value).map fun n => { config with nodeId := n.toUInt32 }
  else if key = ascii "node_name" then some { config with nodeName := value }
  else if key = ascii "ip_address" then some { config with ipAddress := value }
  else if key = ascii "num_compute_threads" then
    (stoul value).map fun n => { config with numComputeThreads := n.toUInt32 }
  else if key = ascii "is_lock_manager" then
    some { config with isLockManager := decide (value = ascii "true") }
  else some config

/-- The loop over the lines, with the configuration that it leaves. -/
def parseLines (config : NodeConfig) : List (List UInt8) → LockResult × NodeConfig
  | [] => (.success, config)
  | line :: lines =>
      match parseLine line with
      | none => parseLines config lines
      | some entry =>
          match setField config entry.1 entry.2 with
          | none => (.errorUnknown, config)
          | some config => parseLines config lines

/-- The defaults that the fields are set to before the file is read. -/
def defaultConfig : NodeConfig := ⟨invalidNodeId, [], [], 0, false⟩

/-- `NodeRegistry::load_local_config`; `files` are the contents of the files that can be
opened. -/
def loadLocalConfig (registry : NodeRegistry) (files : List UInt8 → Option (List UInt8))
    (configPath : List UInt8) : LockResult × NodeRegistry :=
  if configPath = [] then (.errorInvalidParam, registry)
  else
    match files configPath with
    | none => (.errorShmFailure, registry)
    | some text =>
        let parsed := parseLines defaultConfig (lines text)
        let registry := { registry with localConfig := parsed.2 }
        if parsed.1 ≠ .success then (parsed.1, registry)
        else if registry.localConfig.nodeId = invalidNodeId then (.errorUnknown, registry)
        else (.success, { registry with hasLocalConfig := true })

/-- `NodeRegistry::get_local_config`. -/
def getLocalConfig (registry : NodeRegistry) : NodeConfig := registry.localConfig

end NodeRegistry

/-! ## What a file comes to -/

namespace ConfigFile

open NodeRegistry

/-- The entries of a file. -/
def entries (text : List UInt8) : List ConfigEntry := (lines text).filterMap parseLine

/-- The values that are given for a key, in their order. -/
def valuesOf (key : List UInt8) (es : List ConfigEntry) : List (List UInt8) :=
  (es.filter fun e => e.1 = key).map Prod.snd

/-- The value has to be a number. -/
def IsNumber (e : ConfigEntry) : Prop :=
  e.1 = ascii "node_id" ∨ e.1 = ascii "num_compute_threads"

instance : DecidablePred IsNumber := fun _ => inferInstanceAs (Decidable (_ ∨ _))

/-- `std::stoul` does not throw. -/
def Readable (e : ConfigEntry) : Prop := IsNumber e → stoul e.2 ≠ none

instance : DecidablePred Readable := fun _ => inferInstanceAs (Decidable (_ → _))

/-- The number that a value is stored as. -/
def storedNumber (value : List UInt8) : Option UInt32 := (stoul value).map UInt64.toUInt32

/-- The configuration that entries spell out: for each field the last value, or its default. -/
def spelledOut (es : List ConfigEntry) : NodeConfig where
  nodeId := ((valuesOf (ascii "node_id") es).getLast?.bind storedNumber).getD
    defaultConfig.nodeId
  nodeName := (valuesOf (ascii "node_name") es).getLast?.getD defaultConfig.nodeName
  ipAddress := (valuesOf (ascii "ip_address") es).getLast?.getD defaultConfig.ipAddress
  numComputeThreads := ((valuesOf (ascii "num_compute_threads") es).getLast?.bind
    storedNumber).getD defaultConfig.numComputeThreads
  isLockManager := ((valuesOf (ascii "is_lock_manager") es).getLast?.map fun value =>
    decide (value = ascii "true")).getD defaultConfig.isLockManager

/-- The entries before the first number that is not read. -/
def readEntries (es : List ConfigEntry) : List ConfigEntry := es.takeWhile fun e => Readable e

/-- The file is accepted: all numbers can be read, and there is a node id. -/
def Accepted (es : List ConfigEntry) : Prop :=
  (∀ e ∈ es, Readable e) ∧ (spelledOut es).nodeId ≠ invalidNodeId

instance (es : List ConfigEntry) : Decidable (Accepted es) :=
  inferInstanceAs (Decidable (_ ∧ _))

section Entries

variable {es done : List ConfigEntry} {e : ConfigEntry} {key : List UInt8}

lemma valuesOf_concat : valuesOf key (es ++ [e]) =
    if e.1 = key then valuesOf key es ++ [e.2] else valuesOf key es := by
  unfold valuesOf
  rw [List.filter_append, List.map_append]
  by_cases h : e.1 = key
  · simp [h]
  · simp [h]

/-- An entry that can be read adds itself to what is spelled out, and another one stops the
loop. -/
lemma setField_spelledOut (es : List ConfigEntry) (e : ConfigEntry) :
    setField (spelledOut es) e.1 e.2 =
      if Readable e then some (spelledOut (es ++ [e])) else none := by
  obtain ⟨key, value⟩ := e
  by_cases hid : key = ascii "node_id"
  · subst hid
    cases hread : stoul value with
    | none => simp [setField, Readable, IsNumber, hread]
    | some n =>
        simp [setField, Readable, hread, spelledOut, valuesOf_concat, storedNumber, ascii]
  by_cases hname : key = ascii "node_name"
  · subst hname
    simp [setField, Readable, IsNumber, spelledOut, valuesOf_concat, ascii]
  by_cases haddr : key = ascii "ip_address"
  · subst haddr
    simp [setField, Readable, IsNumber, spelledOut, valuesOf_concat, ascii]
  by_cases hthreads : key = ascii "num_compute_threads"
  · subst hthreads
    cases hread : stoul value with
    | none => simp [setField, Readable, IsNumber, hread, ascii]
    | some n =>
        simp [setField, Readable, hread, spelledOut, valuesOf_concat, storedNumber, ascii]
  have hreadable : Readable (key, value) := fun hnumber =>
    absurd hnumber (not_or.2 ⟨hid, hthreads⟩)
  rw [if_pos hreadable]
  by_cases hmanager : key = ascii "is_lock_manager"
  · subst hmanager
    simp [setField, spelledOut, valuesOf_concat, ascii]
  · simp [setField, spelledOut, valuesOf_concat, hid, hname, haddr, hthreads, hmanager]

/-- The loop over entries. -/
def parseEntries (config : NodeConfig) : List ConfigEntry → LockResult × NodeConfig
  | [] => (.success, config)
  | e :: es =>
      match setField config e.1 e.2 with
      | none => (.errorUnknown, config)
      | some config => parseEntries config es

/-- Lines without an entry are skipped. -/
lemma parseLines_eq (config : NodeConfig) (ls : List (List UInt8)) :
    parseLines config ls = parseEntries config (ls.filterMap parseLine) := by
  induction ls generalizing config with
  | nil => rfl
  | cons l ls ih =>
      rw [parseLines]
      cases hline : parseLine l with
      | none => rw [ih, List.filterMap_cons_none hline]
      | some e =>
          rw [List.filterMap_cons_some hline, parseEntries]
          dsimp only
          cases setField config e.1 e.2 with
          | none => rfl
          | some config => exact ih config

/-- The loop ends at the first number that is not read, with what is spelled out before it. -/
lemma parseEntries_spelledOut (done es : List ConfigEntry) :
    parseEntries (spelledOut done) es =
      (if ∀ e ∈ es, Readable e then .success else .errorUnknown,
        spelledOut (done ++ readEntries es)) := by
  induction es generalizing done with
  | nil => simp [parseEntries, readEntries]
  | cons e es ih =>
      rw [parseEntries, setField_spelledOut]
      by_cases he : Readable e
      · have hall : (∀ e' ∈ e :: es, Readable e') ↔ ∀ e' ∈ es, Readable e' :=
          List.forall_mem_cons.trans (and_iff_right he)
        rw [if_pos he, if_congr hall rfl rfl]
        simp [ih, he, readEntries]
      · rw [if_neg he]
        simp [he, readEntries]

/-- **What a whole file comes to.** -/
theorem parseLines_text (text : List UInt8) :
    parseLines defaultConfig (lines text) =
      (if ∀ e ∈ entries text, Readable e then .success else .errorUnknown,
        spelledOut (readEntries (entries text))) :=
  (parseLines_eq _ _).trans (parseEntries_spelledOut [] (entries text))

lemma readEntries_of_readable (h : ∀ e ∈ es, Readable e) : readEntries es = es :=
  List.takeWhile_eq_self_iff.2 (by simpa using h)

end Entries

section Load

variable {registry : NodeRegistry} {files : List UInt8 → Option (List UInt8)}
  {configPath text : List UInt8}

/-- A file that is not opened leaves the registry as it is. -/
lemma load_of_not_opened (registry : NodeRegistry) (h : configPath = [] ∨ files configPath = none) :
    (registry.loadLocalConfig files configPath).1 ≠ .success ∧
      (registry.loadLocalConfig files configPath).2 = registry := by
  unfold loadLocalConfig
  split_ifs with hpath
  · exact ⟨LockResult.noConfusion, rfl⟩
  · rw [h.resolve_left hpath]
    exact ⟨LockResult.noConfusion, rfl⟩

/-- A file that is opened. -/
lemma load_of_opened (hpath : configPath ≠ []) (hfile : files configPath = some text) :
    registry.loadLocalConfig files configPath =
      if Accepted (entries text) then (.success, ⟨spelledOut (entries text), true⟩)
      else (.errorUnknown,
        { registry with localConfig := spelledOut (readEntries (entries text)) }) := by
  simp only [loadLocalConfig, if_neg hpath, hfile, parseLines_text]
  by_cases hall : ∀ e ∈ entries text, Readable e
  · have haccepted : Accepted (entries text) ↔
        ¬ (spelledOut (entries text)).nodeId = invalidNodeId := and_iff_right hall
    simp only [if_pos hall, readEntries_of_readable hall, ne_eq, not_true_eq_false, if_false]
    by_cases hid : (spelledOut (entries text)).nodeId = invalidNodeId
    · rw [if_pos hid, if_neg fun h => haccepted.1 h hid]
    · rw [if_neg hid, if_pos (haccepted.2 hid)]
  · have hrefused : ¬ Accepted (entries text) := fun h => hall h.1
    rw [if_neg hall, if_neg hrefused]
    rfl

end Load

/-! ## The numbers of a file -/

/-- The texts that have to be numbers. -/
def numberTexts (es : List ConfigEntry) : List (List UInt8) :=
  (es.filter fun e => IsNumber e).map Prod.snd

/-- A decimal numeral that fits into 32 bits. -/
def IsPlain (text : List UInt8) : Prop := IsNumeral text ∧ decimalValue text < 2 ^ 32

/-- A text that is not negative, has nothing behind its digits and fits into 32 bits; white space
and a plus sign may stand before the digits. -/
def IsUnsigned (text : List UInt8) : Prop :=
  let text := text.dropWhile isSpace
  IsPlain (if text.head? = some 43 then text.drop 1 else text)

instance (text : List UInt8) : Decidable (IsPlain text) := inferInstanceAs (Decidable (_ ∧ _))

instance : DecidablePred IsUnsigned := fun _ => inferInstanceAs (Decidable (IsPlain _))

/-- The stored numbers are those that the file says, and a file with a number that is negative,
has something behind its digits or does not fit has been refused. -/
structure NumbersAsWritten (config : NodeConfig) (es : List ConfigEntry) : Prop where
  nodeId : ∃ value, (valuesOf (ascii "node_id") es).getLast? = some value ∧ IsNumeral value ∧
    decimalValue value = config.nodeId.toNat
  numComputeThreads : ∀ value, (valuesOf (ascii "num_compute_threads") es).getLast? = some value →
    IsNumeral value ∧ decimalValue value = config.numComputeThreads.toNat
  refused : ∀ value ∈ numberTexts es, IsUnsigned value

/-- The number texts of a file are unsigned, and the last ones, which are stored, are digits
alone. -/
structure PlainNumbers (es : List ConfigEntry) : Prop where
  unsigned : ∀ value ∈ numberTexts es, IsUnsigned value
  nodeId : ∀ value, (valuesOf (ascii "node_id") es).getLast? = some value → IsNumeral value
  numComputeThreads : ∀ value, (valuesOf (ascii "num_compute_threads") es).getLast? = some value →
    IsNumeral value

section Numbers

variable {es : List ConfigEntry} {e : ConfigEntry} {value : List UInt8}

/-- A plain number is stored as its value. -/
lemma IsPlain.storedNumber (h : IsPlain value) :
    ∃ n, ConfigFile.storedNumber value = some n ∧ n.toNat = decimalValue value := by
  obtain ⟨hnumeral, hlt⟩ := h
  have hfits : decimalValue value < 2 ^ 64 := hlt.trans (by decide)
  refine ⟨(UInt64.ofNat (decimalValue value)).toUInt32, ?_, ?_⟩
  · rw [ConfigFile.storedNumber, stoul_of_isNumeral hnumeral, if_pos hfits, Option.map_some]
  · rw [UInt64.toNat_toUInt32, UInt64.toNat_ofNat_of_lt' hfits, Nat.mod_eq_of_lt hlt]

lemma mem_numberTexts : value ∈ numberTexts es ↔
    value ∈ valuesOf (ascii "node_id") es ∨ value ∈ valuesOf (ascii "num_compute_threads") es := by
  simp only [numberTexts, valuesOf, List.mem_map, List.mem_filter, decide_eq_true_eq]
  constructor
  · rintro ⟨e, ⟨he, hnumber⟩, rfl⟩
    rcases hnumber with hid | hthreads
    · exact .inl ⟨e, ⟨he, hid⟩, rfl⟩
    · exact .inr ⟨e, ⟨he, hthreads⟩, rfl⟩
  · rintro (⟨e, ⟨he, hid⟩, rfl⟩ | ⟨e, ⟨he, hthreads⟩, rfl⟩)
    · exact ⟨e, ⟨he, .inl hid⟩, rfl⟩
    · exact ⟨e, ⟨he, .inr hthreads⟩, rfl⟩

lemma forall_readable_iff :
    (∀ e ∈ es, Readable e) ↔ ∀ value ∈ numberTexts es, stoul value ≠ none := by
  constructor
  · intro h value hvalue
    obtain ⟨e, he, rfl⟩ := List.mem_map.1 hvalue
    obtain ⟨hmem, hnumber⟩ := List.mem_filter.1 he
    exact h e hmem (of_decide_eq_true hnumber)
  · intro h e he hnumber
    exact h e.2 (List.mem_map_of_mem (List.mem_filter.2 ⟨he, decide_eq_true hnumber⟩))

/-- A file is refused when some number is not read, or the last node id is missing or is stored
as the sentinel. -/
lemma not_accepted_iff : ¬ Accepted es ↔ (∃ value ∈ numberTexts es, stoul value = none) ∨
    ∀ value ∈ (valuesOf (ascii "node_id") es).getLast?,
      storedNumber value = some invalidNodeId := by
  rw [Accepted, forall_readable_iff, not_and_or]
  by_cases hread : ∀ value ∈ numberTexts es, stoul value ≠ none
  · have hno : ¬ ∃ value ∈ numberTexts es, stoul value = none := by
      rintro ⟨value, hv, hnone⟩
      exact hread value hv hnone
    rw [or_iff_right (not_not.2 hread), or_iff_right hno, not_not, spelledOut]
    cases hlast : (valuesOf (ascii "node_id") es).getLast? with
    | none => simp [defaultConfig]
    | some value =>
        have hvalue : stoul value ≠ none :=
          hread value (mem_numberTexts.2 (.inl (List.mem_of_getLast? hlast)))
        obtain ⟨n, hn⟩ := Option.ne_none_iff_exists'.1 hvalue
        simp [storedNumber, hn]
  · have hsome : ∃ value ∈ numberTexts es, stoul value = none := by
      simpa using hread
    exact iff_of_true (.inl hread) (.inl hsome)

/-- Digits alone have no sign and no white space before them. -/
lemma IsUnsigned.isPlain (h : IsUnsigned value) (hnumeral : IsNumeral value) : IsPlain value := by
  simp only [IsUnsigned, hnumeral.dropWhile_isSpace] at h
  rwa [if_neg (hnumeral.head?_ne (by decide))] at h

/-- What is accepted with plain numbers only is stored as it is written. -/
lemma PlainNumbers.asWritten (hplain : PlainNumbers es) (haccepted : Accepted es) :
    NumbersAsWritten (spelledOut es) es := by
  refine ⟨?_, fun value hvalue => ?_, hplain.unsigned⟩
  · cases hlast : (valuesOf (ascii "node_id") es).getLast? with
    | none => exact absurd (by simp [spelledOut, hlast, defaultConfig]) haccepted.2
    | some value =>
        have hv : IsPlain value :=
          (hplain.unsigned value (mem_numberTexts.2 (.inl (List.mem_of_getLast? hlast)))).isPlain
            (hplain.nodeId value hlast)
        obtain ⟨n, hn, hval⟩ := hv.storedNumber
        exact ⟨value, rfl, hv.1, by simp [spelledOut, hlast, hn, hval]⟩
  · have hv : IsPlain value :=
      (hplain.unsigned value (mem_numberTexts.2 (.inr (List.mem_of_getLast? hvalue)))).isPlain
        (hplain.numComputeThreads value hvalue)
    obtain ⟨n, hn, hval⟩ := hv.storedNumber
    exact ⟨hv.1, by simp [spelledOut, hvalue, hn, hval]⟩

lemma NumbersAsWritten.plain {config : NodeConfig} (h : NumbersAsWritten config es) :
    PlainNumbers es := by
  refine ⟨h.refused, fun value hvalue => ?_, fun value hvalue =>
    (h.numComputeThreads value hvalue).1⟩
  obtain ⟨value', hlast, hnumeral, -⟩ := h.nodeId
  rw [hvalue] at hlast
  exact Option.some.inj hlast ▸ hnumeral

end Numbers

/-- A file whose numbers are plain, or that is refused: a number has no digits or more than 64
bits, or there is no node id, or the last one is the sentinel modulo `2 ^ 32`. -/
def PlainOrRefused (es : List ConfigEntry) : Prop :=
  PlainNumbers es ∨ (∃ value ∈ numberTexts es, stoul value = none) ∨
    ∀ value ∈ (valuesOf (ascii "node_id") es).getLast?, storedNumber value = some invalidNodeId

/-- A load that succeeds has stored the written numbers, and has seen none that should be refused,
exactly for the files with plain numbers and those that are refused for another reason. -/
theorem numbersAsWritten_iff (registry : NodeRegistry)
    (files : List UInt8 → Option (List UInt8)) (configPath : List UInt8) :
    ((registry.loadLocalConfig files configPath).1 = .success →
        ∀ text, files configPath = some text →
          NumbersAsWritten (registry.loadLocalConfig files configPath).2.getLocalConfig
            (entries text)) ↔
      configPath = [] ∨ ∀ text, files configPath = some text → PlainOrRefused (entries text) := by
  by_cases hpath : configPath = []
  · refine iff_of_true (fun hrc => ?_) (.inl hpath)
    exact absurd hrc (load_of_not_opened registry (.inl hpath)).1
  simp only [hpath, false_or]
  cases hfile : files configPath with
  | none => simp
  | some text =>
      rw [load_of_opened hpath hfile]
      simp only [Option.some.injEq, forall_eq', PlainOrRefused, ← not_accepted_iff]
      by_cases haccepted : Accepted (entries text)
      · rw [if_pos haccepted, or_iff_left (not_not.2 haccepted)]
        exact ⟨fun h => (h rfl).plain, fun h _ => h.asWritten haccepted⟩
      · rw [if_neg haccepted]
        exact iff_of_true LockResult.noConfusion (.inr haccepted)

/-- A file with a node id alone. -/
def nodeIdFile (value : String) : List UInt8 := ascii "\"node_id\": " ++ ascii value

/-- A negative number, characters behind the digits and a number of 33 bits are accepted, and two
nodes whose files say different things have the same id. -/
theorem odd_numbers_accepted :
    nodeZero.loadLocalConfig
          (fun _ => some (nodeIdFile "-5")) [99] =
        (.success, ⟨⟨4294967291, [], [], 0, false⟩, true⟩) ∧
      nodeZero.loadLocalConfig
          (fun _ => some (nodeIdFile "12abc")) [99] =
        (.success, ⟨⟨12, [], [], 0, false⟩, true⟩) ∧
      nodeZero.loadLocalConfig
          (fun _ => some (nodeIdFile "4294967308")) [99] =
        (.success, ⟨⟨12, [], [], 0, false⟩, true⟩) ∧
      ∀ config, ¬ NumbersAsWritten config (entries (nodeIdFile "-5")) ∧
        ¬ NumbersAsWritten config (entries (nodeIdFile "12abc")) ∧
        ¬ NumbersAsWritten config (entries (nodeIdFile "4294967308")) := by
  refine ⟨by decide +kernel, by decide +kernel, by decide +kernel, fun config =>
    ⟨fun h => ?_, fun h => ?_, fun h => ?_⟩⟩
  · exact absurd (h.refused (ascii "-5") (by decide +kernel)) (by decide +kernel)
  · exact absurd (h.refused (ascii "12abc") (by decide +kernel)) (by decide +kernel)
  · exact absurd (h.refused (ascii "4294967308") (by decide +kernel)) (by decide +kernel)

/-! ## A load that fails -/

/-- The registry answers and acts as before. -/
structure ChangesNothing (registry registry' : NodeRegistry) : Prop where
  config : registry'.getLocalConfig = registry.getLocalConfig
  calls : ∀ (shm : SharedMemoryRegion) (registryOffset : ShmOffset) (now : UInt64) (mem : Memory),
    registry'.registerInSharedMemory shm registryOffset now mem =
        registry.registerInSharedMemory shm registryOffset now mem ∧
      registry'.unregister shm registryOffset mem = registry.unregister shm registryOffset mem ∧
      registry'.updateHeartbeat shm registryOffset now mem =
        registry.updateHeartbeat shm registryOffset now mem

/-- A load that fails changes nothing exactly when the file is not opened or what it spells out
before the failure was stored already. -/
theorem failedLoad_iff (registry : NodeRegistry) (files : List UInt8 → Option (List UInt8))
    (configPath : List UInt8) :
    ((registry.loadLocalConfig files configPath).1 ≠ .success →
        ChangesNothing registry (registry.loadLocalConfig files configPath).2) ↔
      configPath = [] ∨ ∀ text, files configPath = some text → Accepted (entries text) ∨
        registry.localConfig = spelledOut (readEntries (entries text)) := by
  have hsame : ChangesNothing registry registry := ⟨rfl, fun _ _ _ _ => ⟨rfl, rfl, rfl⟩⟩
  by_cases hpath : configPath = []
  · have hkept : (registry.loadLocalConfig files configPath).2 = registry :=
      (load_of_not_opened registry (.inl hpath)).2
    rw [hkept]
    exact iff_of_true (fun _ => hsame) (.inl hpath)
  cases hfile : files configPath with
  | none =>
      rw [(load_of_not_opened registry (.inr hfile)).2]
      exact iff_of_true (fun _ => hsame) (.inr fun _ h => by cases h)
  | some text =>
      rw [load_of_opened hpath hfile, or_iff_right hpath]
      simp only [Option.some.injEq, forall_eq']
      by_cases haccepted : Accepted (entries text)
      · rw [if_pos haccepted]
        exact iff_of_true (fun h => absurd rfl h) (.inl haccepted)
      · rw [if_neg haccepted, or_iff_right haccepted]
        constructor
        · intro h
          exact (h LockResult.noConfusion).config.symm
        · intro h _
          rw [← h]
          exact hsame

/-- A registry that has been loaded for node 0 reads a file whose second number is no number. -/
def brokenFile : List UInt8 := ascii "\"node_id\": 5,\n\"num_compute_threads\": many\n"

/-- The load fails, and the registry then registers in the slot of node 5. -/
theorem failed_load_overwrites :
    (nodeZero.loadLocalConfig (fun _ => some brokenFile) [99]).1 = .errorUnknown ∧
      (nodeZero.loadLocalConfig (fun _ => some brokenFile) [99]).2.getLocalConfig ≠
        nodeZero.getLocalConfig ∧
      ((nodeZero.loadLocalConfig (fun _ => some brokenFile) [99]).2.registerInSharedMemory
        ⟨true, 10240⟩ 0 7 fun _ => 0).2 800 = 5 ∧
      (nodeZero.registerInSharedMemory ⟨true, 10240⟩ 0 7 fun _ => 0).2 800 = 0 := by
  decide +kernel

end ConfigFile

end CxlLock
