import CxlLock.ConfigFile

/-!
# Configurations that are written and read again (`node_registry.cpp`)

The documented form of a configuration file has one field on each line, with a comma behind all
but the last, between braces on lines of their own.  The fields may come in any order, and there
may be white space at the ends of a line, around the colon and before the comma: this is a
`Layout`.  `config_round_trip` says that the hand-written parser of `load_local_config` reads
every configuration back from every layout, whatever bytes the strings are made of other than
quotes and line breaks.
-/

namespace CxlLock.ConfigFile

open StandardText NodeRegistry

/-! ## Writing a configuration -/

/-- White space without a line break. -/
structure Blank where
  bytes : List UInt8
  isSpace : ∀ b ∈ bytes, isSpace b = true
  noBreak : 10 ∉ bytes

/-- The fields of a configuration file. -/
inductive ConfigField
  | nodeId
  | nodeName
  | ipAddress
  | numComputeThreads
  | isLockManager
  deriving DecidableEq

/-- A string in quotes. -/
def quoted (s : List UInt8) : List UInt8 := 34 :: (s ++ [34])

namespace ConfigField

/-- All fields. -/
def all : List ConfigField := [nodeId, nodeName, ipAddress, numComputeThreads, isLockManager]

def key : ConfigField → List UInt8
  | nodeId => ascii "node_id"
  | nodeName => ascii "node_name"
  | ipAddress => ascii "ip_address"
  | numComputeThreads => ascii "num_compute_threads"
  | isLockManager => ascii "is_lock_manager"

/-- The value of a field, without quotes. -/
def value (config : NodeConfig) : ConfigField → List UInt8
  | nodeId => decimal config.nodeId.toNat
  | nodeName => config.nodeName
  | ipAddress => config.ipAddress
  | numComputeThreads => decimal config.numComputeThreads.toNat
  | isLockManager => if config.isLockManager then ascii "true" else ascii "false"

/-- The text of the value: strings are quoted. -/
def valueText (config : NodeConfig) : ConfigField → List UInt8
  | nodeName => quoted config.nodeName
  | ipAddress => quoted config.ipAddress
  | nodeId => decimal config.nodeId.toNat
  | numComputeThreads => decimal config.numComputeThreads.toNat
  | isLockManager => if config.isLockManager then ascii "true" else ascii "false"

end ConfigField

/-- The white space of a line. -/
structure LineSpace where
  before : Blank
  beforeColon : Blank
  afterColon : Blank
  beforeComma : Blank
  after : Blank

/-- The way in which a configuration is written. -/
structure Layout where
  order : List ConfigField
  complete : order.Perm ConfigField.all
  space : ConfigField → LineSpace
  /-- The white space around the two braces. -/
  opening : Blank × Blank
  closing : Blank × Blank
  /-- There is a line break behind the last line. -/
  finalBreak : Bool

/-- What follows a value. -/
def tail (space : LineSpace) (comma : Bool) : List UInt8 :=
  if comma then space.beforeComma.bytes ++ [44] else []

/-- A line without the white space around it. -/
def bareLine (config : NodeConfig) (space : LineSpace) (comma : Bool) (f : ConfigField) :
    List UInt8 :=
  quoted f.key ++ (space.beforeColon.bytes ++
    58 :: (space.afterColon.bytes ++ (f.valueText config ++ tail space comma)))

def writeLine (config : NodeConfig) (space : LineSpace) (comma : Bool) (f : ConfigField) :
    List UInt8 :=
  space.before.bytes ++ (bareLine config space comma f ++ space.after.bytes)

/-- The lines of the fields, with a comma behind each but the last. -/
def writeFields (config : NodeConfig) (space : ConfigField → LineSpace) :
    List ConfigField → List (List UInt8)
  | [] => []
  | [f] => [writeLine config (space f) false f]
  | f :: g :: fs => writeLine config (space f) true f :: writeFields config space (g :: fs)

/-- The lines of the file. -/
def writeLines (layout : Layout) (config : NodeConfig) : List (List UInt8) :=
  (layout.opening.1.bytes ++ (ascii "\x7b" ++ layout.opening.2.bytes)) ::
    (writeFields config layout.space layout.order ++
      [layout.closing.1.bytes ++ (ascii "\x7d" ++ layout.closing.2.bytes)])

/-- The file. -/
def writeConfig (layout : Layout) (config : NodeConfig) : List UInt8 :=
  unlines layout.finalBreak (writeLines layout config)

/-- The strings have no quotes and no line breaks, and there is a node id. -/
structure Writable (config : NodeConfig) : Prop where
  nodeId : config.nodeId.toNat < 2 ^ 32 - 1
  nodeName : ∀ b ∈ config.nodeName, b ≠ 34 ∧ b ≠ 10
  ipAddress : ∀ b ∈ config.ipAddress, b ≠ 34 ∧ b ≠ 10

/-! ## One line -/

section Line

variable {config : NodeConfig} {space : LineSpace} {comma : Bool} {f : ConfigField}

/-- A text that a value may have: it shows at both ends, and does not end with a comma. -/
structure IsValueText (t : List UInt8) : Prop where
  ne_nil : t ≠ []
  bare : Bare isSpace t
  noComma : t.getLast? ≠ some 44

lemma bare_of_all {t : List UInt8} (h : (t.all fun b => !isSpace b) = true) : Bare isSpace t := by
  have hshown : ∀ b ∈ t, isSpace b = false := by simpa using h
  exact ⟨fun b hb => hshown b (List.mem_of_head? hb), fun b hb =>
    hshown b (List.mem_of_getLast? hb)⟩

lemma getLast?_quoted (s : List UInt8) : (quoted s).getLast? = some 34 := by
  rw [quoted, ← List.cons_append]
  exact List.getLast?_concat

lemma quoted_isValueText (s : List UInt8) : IsValueText (quoted s) where
  ne_nil := List.cons_ne_nil _ _
  bare := by
    constructor
    · simp [quoted, isSpace]
    · simp [getLast?_quoted, isSpace]
  noComma := by simp [getLast?_quoted]

lemma decimal_isValueText (n : Nat) : IsValueText (decimal n) where
  ne_nil := (decimal_isNumeral n).1
  bare := bare_of_all (List.all_eq_true.2 fun b hb => by
    rw [isSpace_eq_false_of_isDigit ((decimal_isNumeral n).2 b hb)]
    rfl)
  noComma h := absurd ((decimal_isNumeral n).2 44 (List.mem_of_getLast? h)) (by decide)

lemma valueText_isValueText (config : NodeConfig) (f : ConfigField) :
    IsValueText (f.valueText config) := by
  cases f with
  | nodeId => exact decimal_isValueText _
  | nodeName => exact quoted_isValueText _
  | ipAddress => exact quoted_isValueText _
  | numComputeThreads => exact decimal_isValueText _
  | isLockManager =>
      rw [ConfigField.valueText]
      split
      · exact ⟨by decide, bare_of_all (by decide), by decide⟩
      · exact ⟨by decide, bare_of_all (by decide), by decide⟩

lemma unquote_quoted (s : List UInt8) : unquote (quoted s) = s := by
  rw [unquote, if_pos ⟨by simp [quoted], rfl, getLast?_quoted s⟩]
  simp [quoted]

lemma unquote_decimal (n : Nat) : unquote (decimal n) = decimal n :=
  if_neg fun h => (decimal_isNumeral n).head?_ne (by decide) h.2.1

/-- The quotes are taken away again. -/
lemma unquote_valueText (config : NodeConfig) (f : ConfigField) :
    unquote (f.valueText config) = f.value config := by
  cases f with
  | nodeId => exact unquote_decimal _
  | nodeName => exact unquote_quoted _
  | ipAddress => exact unquote_quoted _
  | numComputeThreads => exact unquote_decimal _
  | isLockManager =>
      rw [ConfigField.valueText, ConfigField.value]
      split <;> decide

/-- A key has neither quotes nor a colon. -/
lemma key_plain (f : ConfigField) : ∀ b ∈ f.key, b ≠ 34 ∧ b ≠ 58 ∧ b ≠ 10 := by
  have hall : (f.key.all fun b => b ≠ 34 ∧ b ≠ 58 ∧ b ≠ 10) = true := by
    cases f <;> decide
  exact fun b hb => of_decide_eq_true (List.all_eq_true.1 hall b hb)

lemma key_ne_nil (f : ConfigField) : f.key ≠ [] := by
  cases f <;> decide

lemma getLast?_tail (space : LineSpace) : (tail space true).getLast? = some 44 :=
  List.getLast?_concat

/-- A value shows at both ends also with a comma behind it. -/
lemma IsValueText.bare_tail {t : List UInt8} (ht : IsValueText t) (space : LineSpace)
    (comma : Bool) : Bare isSpace (t ++ tail space comma) := by
  constructor
  · rw [List.head?_append_of_ne_nil _ ht.ne_nil]
    exact ht.bare.1
  · cases comma with
    | true =>
        rw [List.getLast?_append, getLast?_tail, Option.some_or]
        intro b hb
        cases hb
        rfl
    | false =>
        rw [tail, if_neg Bool.false_ne_true, List.append_nil]
        exact ht.bare.2

/-- Both ends of a line show. -/
lemma bareLine_bare : Bare isSpace (bareLine config space comma f) := by
  have htext := valueText_isValueText config f
  have hsplit : bareLine config space comma f =
      quoted f.key ++ (space.beforeColon.bytes ++ 58 :: space.afterColon.bytes) ++
        (f.valueText config ++ tail space comma) := by
    simp [bareLine]
  have hne : f.valueText config ++ tail space comma ≠ [] :=
    List.append_ne_nil_of_left_ne_nil htext.ne_nil _
  constructor
  · simp [bareLine, quoted, isSpace]
  · rw [hsplit, List.getLast?_append_of_ne_nil _ hne]
    exact (htext.bare_tail space comma).2

/-- White space around a line is taken away. -/
lemma trim_writeLine : trim (writeLine config space comma f) = bareLine config space comma f :=
  strip_padded space.before.isSpace space.after.isSpace bareLine_bare

lemma extractJsonKey_bareLine : extractJsonKey (bareLine config space comma f) = f.key := by
  have hkey : ∀ b ∈ f.key, decide (b ≠ 34) = true := fun b hb =>
    decide_eq_true (key_plain f b hb).1
  have hquote : bareLine config space comma f = 34 :: (f.key ++ 34 :: (space.beforeColon.bytes ++
      58 :: (space.afterColon.bytes ++ (f.valueText config ++ tail space comma)))) := by
    simp [bareLine, quoted]
  rw [hquote, extractJsonKey, List.dropWhile_cons_of_neg (by decide)]
  dsimp only
  rw [if_pos (by simp), List.takeWhile_append_of_pos hkey]
  simp

/-- What follows the colon is the value, with white space and perhaps a comma around it. -/
lemma extractJsonValue_bareLine :
    extractJsonValue (bareLine config space comma f) = f.value config := by
  have htext := valueText_isValueText config f
  have hpre : ∀ b ∈ quoted f.key ++ space.beforeColon.bytes, decide (b ≠ 58) = true := by
    intro b hb
    refine decide_eq_true ?_
    rcases List.mem_append.1 hb with hb | hb
    · rcases List.mem_cons.1 hb with rfl | hb
      · decide
      · rcases List.mem_append.1 hb with hb | hb
        · exact (key_plain f b hb).2.1
        · rw [List.mem_singleton.1 hb]
          decide
    · rintro rfl
      exact absurd (space.beforeColon.isSpace 58 hb) (by decide)
  have hcolon : (bareLine config space comma f).dropWhile (· ≠ 58) =
      58 :: (space.afterColon.bytes ++ (f.valueText config ++ tail space comma)) := by
    rw [bareLine, ← List.append_assoc, List.dropWhile_append_of_pos hpre]
    simp
  have hnone : ∀ b ∈ ([] : List UInt8), isSpace b = true := fun b hb => by cases hb
  have hvalue : trim (space.afterColon.bytes ++ f.valueText config) = f.valueText config := by
    have h := strip_padded space.afterColon.isSpace hnone htext.bare
    rwa [List.append_nil] at h
  rw [extractJsonValue, hcolon]
  cases comma with
  | false =>
      simp only [tail, Bool.false_eq_true, if_false, List.append_nil, hvalue]
      rw [if_neg htext.noComma, unquote_valueText]
  | true =>
      have hshown : trim (space.afterColon.bytes ++ (f.valueText config ++ tail space true)) =
          f.valueText config ++ tail space true := by
        have h := strip_padded space.afterColon.isSpace hnone (htext.bare_tail space true)
        rwa [List.append_nil] at h
      have hcomma : (f.valueText config ++ tail space true).getLast? = some 44 := by
        rw [List.getLast?_append, getLast?_tail, Option.some_or]
      have hdrop : (f.valueText config ++ tail space true).dropLast =
          f.valueText config ++ space.beforeComma.bytes := by
        rw [tail, if_pos rfl, ← List.append_assoc, List.dropLast_concat]
      have htrim : trim (f.valueText config ++ space.beforeComma.bytes) = f.valueText config :=
        strip_padded hnone space.beforeComma.isSpace htext.bare
      simp only [hshown]
      rw [if_pos hcomma, hdrop, htrim, unquote_valueText]

/-- A line of a field is its entry, and a line with an empty string is skipped. -/
lemma parseLine_writeLine : parseLine (writeLine config space comma f) =
    if f.value config = [] then none else some (f.key, f.value config) := by
  have hhead : (bareLine config space comma f).head? = some 34 := by simp [bareLine, quoted]
  have hnotBrace : ¬ (bareLine config space comma f = [] ∨
      bareLine config space comma f = ascii "\x7b" ∨
        bareLine config space comma f = ascii "\x7d") := by
    rintro (h | h | h) <;> rw [h] at hhead <;> exact absurd hhead (by decide)
  simp only [parseLine, trim_writeLine, if_neg hnotBrace, extractJsonKey_bareLine,
    extractJsonValue_bareLine, key_ne_nil, false_or]

/-- A brace has no entry. -/
lemma parseLine_brace (before after : Blank) {brace : List UInt8}
    (hbrace : brace = ascii "\x7b" ∨ brace = ascii "\x7d") :
    parseLine (before.bytes ++ (brace ++ after.bytes)) = none := by
  have hbare : Bare isSpace brace := by
    rcases hbrace with rfl | rfl <;> exact bare_of_all (by decide)
  have htrim : trim (before.bytes ++ (brace ++ after.bytes)) = brace :=
    strip_padded before.isSpace after.isSpace hbare
  simp only [parseLine, htrim, if_pos (Or.inr hbrace)]

end Line

/-! ## The whole file -/

section File

variable {config : NodeConfig} {layout : Layout} {order : List ConfigField}

/-- The entries of the fields. -/
def entriesOf (config : NodeConfig) (order : List ConfigField) : List ConfigEntry :=
  order.filterMap fun f => if f.value config = [] then none else some (f.key, f.value config)

lemma filterMap_writeFields (config : NodeConfig) (space : ConfigField → LineSpace)
    (order : List ConfigField) :
    (writeFields config space order).filterMap parseLine = entriesOf config order := by
  induction order with
  | nil => rfl
  | cons f order ih =>
      cases order with
      | nil =>
          simp only [writeFields, entriesOf, List.filterMap_cons, parseLine_writeLine]
          rfl
      | cons g order =>
          rw [writeFields, List.filterMap_cons, parseLine_writeLine, ih]
          simp only [entriesOf, List.filterMap_cons]

lemma Writable.value_noBreak (h : Writable config) (f : ConfigField) :
    10 ∉ f.valueText config := by
  have hdecimal : ∀ n, 10 ∉ decimal n := fun n hmem =>
    absurd ((decimal_isNumeral n).2 10 hmem) (by decide)
  have hquoted : ∀ s : List UInt8, (∀ b ∈ s, b ≠ 34 ∧ b ≠ 10) → 10 ∉ quoted s := by
    intro s hs hmem
    rcases List.mem_cons.1 hmem with h10 | hmem
    · exact absurd h10 (by decide)
    · rcases List.mem_append.1 hmem with hmem | hmem
      · exact (hs 10 hmem).2 rfl
      · exact absurd (List.mem_singleton.1 hmem) (by decide)
  cases f with
  | nodeId => exact hdecimal _
  | nodeName => exact hquoted _ h.nodeName
  | ipAddress => exact hquoted _ h.ipAddress
  | numComputeThreads => exact hdecimal _
  | isLockManager =>
      rw [ConfigField.valueText]
      split <;> decide

lemma Writable.writeLine_noBreak (h : Writable config) (space : LineSpace) (comma : Bool)
    (f : ConfigField) : 10 ∉ writeLine config space comma f := by
  have htail : 10 ∉ tail space comma := by
    cases comma with
    | true => simp [tail, space.beforeComma.noBreak]
    | false => simp [tail]
  have hkey : 10 ∉ f.key := fun hmem => (key_plain f 10 hmem).2.2 rfl
  simp [writeLine, bareLine, quoted, hkey, htail, h.value_noBreak f, space.before.noBreak,
    space.beforeColon.noBreak, space.afterColon.noBreak, space.after.noBreak]

lemma Writable.writeFields_noBreak (h : Writable config) (space : ConfigField → LineSpace)
    (order : List ConfigField) : ∀ l ∈ writeFields config space order, 10 ∉ l := by
  induction order with
  | nil => exact fun l hl => by cases hl
  | cons f order ih =>
      cases order with
      | nil =>
          intro l hl
          rw [List.mem_singleton.1 hl]
          exact h.writeLine_noBreak _ _ _
      | cons g order =>
          intro l hl
          rcases List.mem_cons.1 hl with rfl | hl
          · exact h.writeLine_noBreak _ _ _
          · exact ih l hl

lemma Writable.lines_writeConfig (h : Writable config) (layout : Layout) :
    lines (writeConfig layout config) = writeLines layout config := by
  have hbrace : ∀ (before after : Blank) (brace : UInt8), brace ≠ 10 →
      10 ∉ before.bytes ++ ([brace] ++ after.bytes) := fun before after brace hne => by
    simp [before.noBreak, after.noBreak, Ne.symm hne]
  refine lines_unlines _ (fun l hl => ?_) fun l hl => ?_
  · rcases List.mem_cons.1 hl with rfl | hl
    · exact hbrace _ _ 123 (by decide)
    · rcases List.mem_append.1 hl with hl | hl
      · exact h.writeFields_noBreak _ _ l hl
      · rw [List.mem_singleton.1 hl]
        exact hbrace _ _ 125 (by decide)
  · rw [writeLines, List.getLast?_cons_of_ne_nil (by simp), List.getLast?_concat,
      Option.mem_some_iff] at hl
    rw [← hl]
    simp [ascii]

/-- The entries of the file are those of its fields. -/
lemma Writable.entries_writeConfig (h : Writable config) (layout : Layout) :
    entries (writeConfig layout config) = entriesOf config layout.order := by
  rw [entries, h.lines_writeConfig, writeLines, List.filterMap_cons_none
    (parseLine_brace _ _ (.inl rfl)), List.filterMap_append, filterMap_writeFields,
    List.filterMap_cons_none (parseLine_brace _ _ (.inr rfl))]
  simp

/-- Different fields have different keys. -/
lemma key_injective : Function.Injective ConfigField.key := by
  intro f g
  cases f <;> cases g <;> simp [ConfigField.key, ascii]

/-- A field that is written once has one value, or none when it is empty. -/
lemma valuesOf_entriesOf (hnodup : order.Nodup) (f : ConfigField) :
    valuesOf f.key (entriesOf config order) =
      if f ∈ order ∧ f.value config ≠ [] then [f.value config] else [] := by
  induction order with
  | nil => rfl
  | cons g order ih =>
      obtain ⟨hg, hnodup⟩ := List.nodup_cons.1 hnodup
      have hcons : valuesOf f.key (entriesOf config (g :: order)) =
          (if g = f ∧ g.value config ≠ [] then [g.value config] else []) ++
            valuesOf f.key (entriesOf config order) := by
        by_cases hempty : g.value config = []
        · simp [entriesOf, hempty]
        · by_cases hgf : g = f
          · subst hgf
            simp [entriesOf, valuesOf, hempty]
          · simp [entriesOf, valuesOf, hempty, hgf, key_injective.ne hgf]
      rw [hcons, ih hnodup]
      by_cases hgf : g = f
      · subst hgf
        simp [hg]
      · simp [hgf, Ne.symm hgf]

lemma storedNumber_decimal (n : UInt32) : storedNumber (decimal n.toNat) = some n := by
  have hfits : n.toNat < 2 ^ 64 := n.toNat_lt.trans (by decide)
  have hcast : (UInt64.ofNat n.toNat).toUInt32 = n := by
    rw [← UInt32.toNat_inj, UInt64.toNat_toUInt32, UInt64.toNat_ofNat_of_lt' hfits,
      Nat.mod_eq_of_lt n.toNat_lt]
  rw [storedNumber, stoul_decimal hfits, Option.map_some, hcast]

/-- What the fields spell out is the configuration. -/
lemma spelledOut_entriesOf (hnodup : order.Nodup) (hall : ∀ f, f ∈ order) :
    spelledOut (entriesOf config order) = config := by
  have hlast : ∀ f : ConfigField, f.value config ≠ [] →
      (valuesOf f.key (entriesOf config order)).getLast? = some (f.value config) := fun f hf => by
    rw [valuesOf_entriesOf hnodup, if_pos ⟨hall f, hf⟩, List.getLast?_singleton]
  have hnumber : ∀ f : ConfigField, ∀ n : UInt32, f.value config = decimal n.toNat →
      (valuesOf f.key (entriesOf config order)).getLast?.bind storedNumber = some n :=
    fun f n hf => by
      rw [hlast f (hf ▸ (decimal_isNumeral _).1), Option.bind_some, hf, storedNumber_decimal]
  have hstring : ∀ f : ConfigField,
      (valuesOf f.key (entriesOf config order)).getLast?.getD [] = f.value config := fun f => by
    by_cases hf : f.value config = []
    · rw [valuesOf_entriesOf hnodup, if_neg fun h => h.2 hf, hf]
      rfl
    · rw [hlast f hf, Option.getD_some]
  refine NodeConfig.ext ?_ (hstring .nodeName) (hstring .ipAddress) ?_ ?_
  · exact congrArg (Option.getD · _) (hnumber .nodeId _ rfl)
  · exact congrArg (Option.getD · _) (hnumber .numComputeThreads _ rfl)
  · have hvalue : ConfigField.isLockManager.value config ≠ [] := by
      rw [ConfigField.value]
      split <;> decide
    have hmanager := congrArg (fun o => (o.map fun value =>
      decide (value = ascii "true")).getD defaultConfig.isLockManager) (hlast .isLockManager hvalue)
    refine hmanager.trans ?_
    cases hlock : config.isLockManager with
    | true => simp [ConfigField.value, hlock]
    | false => simp [ConfigField.value, hlock, ascii]

/-- The numbers that are written can be read. -/
lemma stoul_ne_none (hnodup : order.Nodup) {f : ConfigField} {n : UInt32} {value : List UInt8}
    (hf : f.value config = decimal n.toNat) (h : value ∈ valuesOf f.key (entriesOf config order)) :
    stoul value ≠ none := by
  rw [valuesOf_entriesOf hnodup] at h
  split_ifs at h
  · rw [List.mem_singleton.1 h, hf, stoul_decimal (n.toNat_lt.trans (by decide))]
    exact Option.some_ne_none _
  · cases h

/-- **Configurations round-trip**: what has been written in any layout is read back, whatever the
registry had stored before. -/
theorem config_round_trip (registry : NodeRegistry) (files : List UInt8 → Option (List UInt8))
    (configPath : List UInt8) (config : NodeConfig) (layout : Layout) (h : Writable config)
    (hpath : configPath ≠ []) (hfile : files configPath = some (writeConfig layout config)) :
    (registry.loadLocalConfig files configPath).1 = .success ∧
      (registry.loadLocalConfig files configPath).2.getLocalConfig = config := by
  have hall : ∀ f, f ∈ layout.order := fun f =>
    layout.complete.mem_iff.2 (by cases f <;> decide)
  have hnodup : layout.order.Nodup := layout.complete.nodup_iff.2 (by decide)
  have hspelled : spelledOut (entries (writeConfig layout config)) = config := by
    rw [h.entries_writeConfig, spelledOut_entriesOf hnodup hall]
  have hid : config.nodeId ≠ invalidNodeId := by
    rintro hinv
    exact absurd (hinv ▸ h.nodeId) (by decide)
  have haccepted : Accepted (entries (writeConfig layout config)) := by
    refine ⟨forall_readable_iff.2 fun value hvalue => ?_, by rwa [hspelled]⟩
    rw [h.entries_writeConfig, mem_numberTexts] at hvalue
    rcases hvalue with hvalue | hvalue
    · exact stoul_ne_none hnodup (f := .nodeId) rfl hvalue
    · exact stoul_ne_none hnodup (f := .numComputeThreads) rfl hvalue
  rw [load_of_opened hpath hfile, if_pos haccepted]
  exact ⟨rfl, hspelled⟩

end File

/-- No white space. -/
def noBlank : Blank := ⟨[], List.all_eq_true.1 rfl, by decide⟩

/-- Two spaces. -/
def twoSpaces : Blank := ⟨[32, 32], List.all_eq_true.1 rfl, by decide⟩

/-- The fields from the last to the first, indented. -/
def reversedLayout : Layout where
  order := ConfigField.all.reverse
  complete := List.reverse_perm _
  space _ := ⟨twoSpaces, noBlank, twoSpaces, noBlank, noBlank⟩
  opening := (noBlank, noBlank)
  closing := (noBlank, noBlank)
  finalBreak := false

/-- A configuration with a colon, a comma and braces in its name, and no address. -/
def oddConfig : NodeConfig := ⟨3, ascii " \x7ba: b,\x7d ,", [], 64, true⟩

lemma oddConfig_writable : Writable oddConfig where
  nodeId := by decide
  nodeName := by simp [oddConfig, ascii]
  ipAddress := by simp [oddConfig]

theorem config_round_trip_reversed :
    (nodeZero.loadLocalConfig (fun _ => some (writeConfig reversedLayout oddConfig)) [99]).1 =
        .success ∧
      (nodeZero.loadLocalConfig (fun _ => some (writeConfig reversedLayout oddConfig))
        [99]).2.getLocalConfig = oddConfig :=
  config_round_trip nodeZero _ [99] oddConfig reversedLayout oddConfig_writable (by decide) rfl

end CxlLock.ConfigFile
