import CodeAtlas.Config.Document
import CodeAtlas.Proofs.Toml.Reader
import Mathlib.Algebra.Group.Nat.Defs

/-! Configurations as documents. The document that is written for a configuration is read back as the
same configuration: what is unset has no line, and what is set has one that gives its value. -/

namespace CodeAtlas.Config

open Toml (Fields IsBareKey IsWritten Reads)

/-! ## Written values -/

theorem isWritten_writeBool (b : Bool) : IsWritten (writeBool b) (.bool b) :=
  Toml.isWritten_bool b

theorem isWritten_writeString (s : String) : IsWritten (writeString s) (.str s) := by
  have h := Toml.isWritten_quote s.toList
  rwa [String.ofList_toList] at h

theorem isWritten_writeList (items : List String) :
    IsWritten (writeList items) (.arr (items.map .str)) := by
  match items with
  | [] =>
    refine ⟨by simp [writeList, Toml.isSpace], fun steps depth rest hsteps => ?_⟩
    obtain ⟨steps, rfl⟩ : ∃ more, steps = more + 2 :=
      ⟨steps - 2, by simp only [writeList, List.map_nil, List.length_cons] at hsteps; omega⟩
    rfl
  | [item] =>
    refine ⟨by simp [writeList, Toml.isSpace], fun steps depth rest hsteps => ?_⟩
    obtain ⟨steps, rfl⟩ : ∃ more, steps = more + 3 :=
      ⟨steps - 3, by simp [writeList] at hsteps; omega⟩
    have htext : writeList [item] ++ '\n' :: rest =
        '[' :: (Toml.quote item.toList ++ ']' :: '\n' :: rest) := by
      simp [writeList]
    rw [htext, Toml.value?_bracket, Toml.items?_quote (Toml.skipLines_quote _ _ _) (by decide)
      (by decide) (by decide), if_neg (by decide), if_pos rfl, String.ofList_toList]
    rfl
  | first :: second :: items =>
    have hlist : writeList (first :: second :: items) =
        '[' :: '\n' :: (Toml.itemLines (first :: second :: items) ++ [']']) := by
      simp [writeList, Toml.itemLines, List.flatMap_map]
    generalize first :: second :: items = items at hlist
    rw [hlist]
    refine ⟨by simp [Toml.isSpace], fun steps depth rest hsteps => ?_⟩
    obtain ⟨steps, rfl⟩ : ∃ more, steps = items.length + more + 2 := by
      have hlength := Toml.length_le_length_itemLines items
      rw [List.length_cons, List.length_cons, List.length_append] at hsteps
      exact ⟨steps - items.length - 2, by omega⟩
    have htext : '[' :: '\n' :: (Toml.itemLines items ++ [']']) ++ '\n' :: rest =
        '[' :: '\n' :: (Toml.itemLines items ++ ']' :: '\n' :: rest) := by
      simp
    rw [htext, Toml.value?_bracket, Toml.items?_itemLines]
    rfl

/-! ## Settings -/

/-- A setting with what is written for its value and that value, unless it is unset. -/
structure Setting where
  key : String
  value : Option (Text × Toml)

/-- A setting of some kind of value. -/
def Setting.of {α : Type} (key : String) (write : α → Text) (form : α → Toml) (value : Option α) :
    Setting :=
  ⟨key, value.map fun a => (write a, form a)⟩

def Setting.line (setting : Setting) : Text :=
  optionalLine setting.key Prod.fst setting.value

theorem Setting.line_of {α : Type} (key : String) (write : α → Text) (form : α → Toml)
    (value : Option α) : (of key write form value).line = optionalLine key write value := by
  cases value <;> rfl

def settingLines (settings : List Setting) : Text :=
  settings.flatMap Setting.line

/-- The table that the lines of settings stand for. -/
def settingFields (settings : List Setting) : Fields :=
  settings.filterMap fun setting => setting.value.map fun value => (setting.key, value.2)

/-- What is written for the setting is read back as its value. -/
def Setting.Faithful (setting : Setting) : Prop :=
  ∀ value ∈ setting.value, IsWritten value.1 value.2

/-- Settings with keys that need no quotes, each once. -/
structure Plain (settings : List Setting) : Prop where
  bare : ∀ key ∈ settings.map Setting.key, IsBareKey key
  nodup : (settings.map Setting.key).Nodup

/-- Settings whose lines are read back as their table. -/
structure Sound (settings : List Setting) : Prop extends Plain settings where
  faithful : ∀ setting ∈ settings, setting.Faithful

theorem Sound.tail {setting : Setting} {settings : List Setting} (h : Sound (setting :: settings)) :
    Sound settings where
  bare := (List.forall_mem_cons.mp h.bare).2
  nodup := (List.nodup_cons.mp h.nodup).2
  faithful := (List.forall_mem_cons.mp h.faithful).2

theorem mem_of_mem_keys_settingFields {settings : List Setting} {key : String}
    (h : key ∈ (settingFields settings).map Prod.fst) : key ∈ settings.map Setting.key := by
  obtain ⟨field, hfield, rfl⟩ := List.mem_map.mp h
  obtain ⟨setting, hm, hvalue⟩ := List.mem_filterMap.mp hfield
  obtain ⟨value, -, rfl⟩ := Option.map_eq_some_iff.mp hvalue
  exact List.mem_map_of_mem hm

/-- The table gives every setting its value. -/
theorem lookup_settingFields {settings : List Setting} (hn : (settings.map Setting.key).Nodup)
    {setting : Setting} (hm : setting ∈ settings) :
    (settingFields settings).lookup setting.key = setting.value.map Prod.snd := by
  induction settings with
  | nil => cases hm
  | cons first settings ih =>
      obtain ⟨hfirst, hn⟩ := List.nodup_cons.mp hn
      have hsplit : settingFields (first :: settings) =
          (settingFields [first]) ++ settingFields settings :=
        List.filterMap_append (l := [first])
      rw [hsplit, List.lookup_append]
      rcases List.mem_cons.mp hm with rfl | hm
      · have hnone : (settingFields settings).lookup setting.key = none :=
          Fields.lookup_of_not_mem fun h => hfirst (mem_of_mem_keys_settingFields h)
        rw [hnone, Option.or_none]
        cases hvalue : setting.value <;> simp [settingFields, hvalue]
      · have hne : setting.key ∉ (settingFields [first]).map Prod.fst := fun h =>
          hfirst (List.mem_singleton.mp (mem_of_mem_keys_settingFields h) ▸ List.mem_map_of_mem hm)
        rw [Fields.lookup_of_not_mem hne, Option.none_or, ih hn hm]

variable {name : String} {front inner fields : Fields} {rest : Text}

theorem reads_settingLines {settings : List Setting} (hsound : Sound settings)
    (hname : name ∉ front.map Prod.fst)
    (hfresh : ∀ setting ∈ settings, setting.key ∉ inner.map Prod.fst)
    (h : Reads (.opened name front (inner ++ settingFields settings)) rest fields) :
    Reads (.opened name front inner) (settingLines settings ++ rest) fields := by
  induction settings generalizing inner with
  | nil => simpa [settingFields, settingLines] using h
  | cons setting settings ih =>
      obtain ⟨hkey, hfresh⟩ := List.forall_mem_cons.mp hfresh
      have hlines : settingLines (setting :: settings) ++ rest =
          setting.line ++ (settingLines settings ++ rest) := by
        simp [settingLines]
      rw [hlines, Setting.line]
      cases hvalue : setting.value with
      | none =>
          refine ih hsound.tail hfresh ?_
          simpa [settingFields, hvalue] using h
      | some value =>
          have hline : optionalLine setting.key Prod.fst (some value) ++
                (settingLines settings ++ rest) =
              setting.key.toList ++ ' ' :: '=' :: ' ' ::
                (value.1 ++ '\n' :: (settingLines settings ++ rest)) := by
            simp [optionalLine, Config.line]
          rw [hline]
          refine Reads.line (hsound.bare _ List.mem_cons_self)
            (hsound.faithful _ List.mem_cons_self value hvalue) hname hkey
            (ih hsound.tail ?_ ?_)
          · intro other hm
            have hne : other.key ≠ setting.key := fun heq =>
              (List.nodup_cons.mp hsound.nodup).1 (heq ▸ List.mem_map_of_mem hm)
            simp [Fields.add, hfresh other hm, hne]
          · simpa [settingFields, hvalue, Fields.add] using h

/-- The header of a table and the lines of its settings. -/
def sectionText (name : String) (settings : List Setting) : Text :=
  '[' :: (name.toList ++ ']' :: '\n' :: settingLines settings)

theorem reads_sectionText {settings : List Setting} (hsound : Sound settings)
    (hbare : IsBareKey name) (hname : name ∉ front.map Prod.fst) {header : List String}
    (h : Reads (.opened name front (settingFields settings)) rest fields) :
    Reads ⟨header, front⟩ (sectionText name settings ++ rest) fields := by
  have htext : sectionText name settings ++ rest =
      '[' :: (name.toList ++ ']' :: '\n' :: (settingLines settings ++ rest)) := by
    simp [sectionText]
  rw [htext]
  refine Reads.header hbare hname (reads_settingLines hsound hname ?_ ?_)
  · simp
  · rwa [List.nil_append]

/-! ## Kinds of settings -/

theorem strings?_strs (items : List String) :
    Toml.strings? (.arr (items.map .str)) = some items := by
  rw [Toml.strings?]
  induction items with
  | nil => rfl
  | cons item items ih => simp [Toml.str?, ih]

def boolSetting (key : String) (value : Option Bool) : Setting :=
  .of key writeBool .bool value

def numberSetting (key : String) (value : Option Nat) : Setting :=
  .of key (Nat.toDigits 10) (fun n => .int n) value

def stringSetting (key : String) (value : Option String) : Setting :=
  .of key writeString .str value

def listSetting (key : String) (items : List String) : Setting :=
  .of key writeList (fun items => .arr (items.map .str)) (some items)

section Kinds

variable {α : Type} {key : String}

theorem faithful_of {write : α → Text} {form : α → Toml} {value : Option α}
    (h : ∀ a ∈ value, IsWritten (write a) (form a)) : (Setting.of key write form value).Faithful := by
  intro written hm
  obtain ⟨a, ha, rfl⟩ := Option.map_eq_some_iff.mp hm
  exact h a ha

theorem faithful_boolSetting (value : Option Bool) : (boolSetting key value).Faithful :=
  faithful_of fun b _ => isWritten_writeBool b

theorem faithful_numberSetting {value : Option Nat} (h : ∀ n ∈ value, n < Json.signedLimit) :
    (numberSetting key value).Faithful :=
  faithful_of fun n hn => Toml.isWritten_toDigits (h n hn)

theorem faithful_stringSetting (value : Option String) : (stringSetting key value).Faithful :=
  faithful_of fun s _ => isWritten_writeString s

theorem faithful_listSetting (items : List String) : (listSetting key items).Faithful :=
  faithful_of fun items _ => isWritten_writeList items

/-- A number that fits has a line like any other setting. -/
theorem numberLine?_of_lt {value : Option Nat} (h : ∀ n ∈ value, n < Json.signedLimit) :
    numberLine? key value = some (optionalLine key (Nat.toDigits 10) value) := by
  cases value with
  | none => rfl
  | some n => simp [numberLine?, writeNat?, h n rfl, optionalLine]

variable {settings : List Setting} (hn : (settings.map Setting.key).Nodup)

include hn

/-- A setting of the table is read back, set or unset. -/
theorem optional?_of_mem {write : α → Text} {form : α → Toml} {value : Option α}
    (hm : Setting.of key write form value ∈ settings) {read : Toml → Option α}
    (hread : ∀ a, read (form a) = some a) :
    optional? read (fun name => (settingFields settings).lookup name) key = some value := by
  have hlookup : (settingFields settings).lookup key = value.map form := by
    have hsetting := lookup_settingFields hn hm
    rwa [Setting.of, Option.map_map] at hsetting
  cases value <;> simp [optional?, hlookup, hread]

theorem optional?_boolSetting (key : String) (value : Option Bool)
    (hm : boolSetting key value ∈ settings) :
    optional? Toml.bool? (fun name => (settingFields settings).lookup name) key = some value :=
  optional?_of_mem hn hm fun _ => rfl

theorem optional?_numberSetting (key : String) (value : Option Nat)
    (hm : numberSetting key value ∈ settings) :
    optional? Toml.nat? (fun name => (settingFields settings).lookup name) key = some value :=
  optional?_of_mem hn hm fun _ => rfl

theorem optional?_stringSetting (key : String) (value : Option String)
    (hm : stringSetting key value ∈ settings) :
    optional? Toml.str? (fun name => (settingFields settings).lookup name) key = some value :=
  optional?_of_mem hn hm fun _ => rfl

theorem list?_listSetting (key : String) (items : List String)
    (hm : listSetting key items ∈ settings) :
    list? (fun name => (settingFields settings).lookup name) key = some items := by
  rw [list?, optional?_of_mem hn hm strings?_strs]
  rfl

end Kinds

/-! ## The three tables -/

namespace Analysis

def settings (a : Analysis) : List Setting :=
  [boolSetting "enabled" a.enabled, listSetting "supported_languages" a.languages,
    listSetting "exclude_patterns" a.exclude, numberSetting "max_file_size" a.maxFileSize,
    numberSetting "threads" a.threads]

theorem keys_settings (a : Analysis) : a.settings.map Setting.key =
    ["enabled", "supported_languages", "exclude_patterns", "max_file_size", "threads"] := rfl

theorem plain_settings (a : Analysis) : Plain a.settings := by
  constructor <;>
  · rw [keys_settings]
    decide

theorem ofToml?_settings (a : Analysis) :
    ofToml? (.table .header (settingFields a.settings)) = some a := by
  have hn := a.plain_settings.nodup
  simp only [ofToml?, Toml.record?, Option.bind_eq_bind, Option.bind_some,
    optional?_boolSetting hn "enabled" a.enabled (by simp [settings]),
    list?_listSetting hn "supported_languages" a.languages
      (by simp [settings]),
    list?_listSetting hn "exclude_patterns" a.exclude (by simp [settings]),
    optional?_numberSetting hn "max_file_size" a.maxFileSize
      (by simp [settings]),
    optional?_numberSetting hn "threads" a.threads (by simp [settings])]
  rfl

variable {a : Analysis} (hsize : ∀ n ∈ a.maxFileSize, n < Json.signedLimit)
  (hthreads : ∀ n ∈ a.threads, n < Json.signedLimit)

include hsize hthreads

theorem sound_settings : Sound a.settings where
  toPlain := a.plain_settings
  faithful := by
    simp only [settings, List.forall_mem_cons]
    exact ⟨faithful_boolSetting _, faithful_listSetting _, faithful_listSetting _,
      faithful_numberSetting hsize, faithful_numberSetting hthreads, by simp⟩

theorem write?_eq : a.write? = some (sectionText "analysis" a.settings) := by
  simp [write?, numberLine?_of_lt hsize, numberLine?_of_lt hthreads, sectionText, settingLines,
    settings, boolSetting, listSetting, numberSetting, Setting.line_of, optionalLine]

end Analysis

namespace Cache

def settings (c : Cache) : List Setting :=
  [boolSetting "enabled" c.enabled, stringSetting "max_age" c.maxAge,
    numberSetting "max_size" c.maxSize, stringSetting "directory" c.directory]

theorem keys_settings (c : Cache) :
    c.settings.map Setting.key = ["enabled", "max_age", "max_size", "directory"] := rfl

theorem plain_settings (c : Cache) : Plain c.settings := by
  constructor <;>
  · rw [keys_settings]
    decide

theorem ofToml?_settings (c : Cache) :
    ofToml? (.table .header (settingFields c.settings)) = some c := by
  have hn := c.plain_settings.nodup
  simp only [ofToml?, Toml.record?, Option.bind_eq_bind, Option.bind_some,
    optional?_boolSetting hn "enabled" c.enabled (by simp [settings]),
    optional?_stringSetting hn "max_age" c.maxAge (by simp [settings]),
    optional?_numberSetting hn "max_size" c.maxSize (by simp [settings]),
    optional?_stringSetting hn "directory" c.directory (by simp [settings])]
  rfl

variable {c : Cache} (hsize : ∀ n ∈ c.maxSize, n < Json.signedLimit)

include hsize

theorem sound_settings : Sound c.settings where
  toPlain := c.plain_settings
  faithful := by
    simp only [settings, List.forall_mem_cons]
    exact ⟨faithful_boolSetting _, faithful_stringSetting _, faithful_numberSetting hsize,
      faithful_stringSetting _, by simp⟩

theorem write?_eq : c.write? = some (sectionText "cache" c.settings) := by
  simp [write?, numberLine?_of_lt hsize, sectionText, settingLines, settings, boolSetting,
    stringSetting, numberSetting, Setting.line_of]

end Cache

namespace Parser

def settings (p : Parser) : List Setting :=
  [numberSetting "primary_timeout_ms" p.primaryTimeout,
    numberSetting "recovery_budget_ms" p.recoveryBudget,
    numberSetting "fallback_budget_ms" p.fallbackBudget]

theorem keys_settings (p : Parser) : p.settings.map Setting.key =
    ["primary_timeout_ms", "recovery_budget_ms", "fallback_budget_ms"] := rfl

theorem plain_settings (p : Parser) : Plain p.settings := by
  constructor <;>
  · rw [keys_settings]
    decide

theorem ofToml?_settings (p : Parser) :
    ofToml? (.table .header (settingFields p.settings)) = some p := by
  have hn := p.plain_settings.nodup
  simp only [ofToml?, Toml.record?, Option.bind_eq_bind, Option.bind_some,
    optional?_numberSetting hn "primary_timeout_ms" p.primaryTimeout
      (by simp [settings]),
    optional?_numberSetting hn "recovery_budget_ms" p.recoveryBudget
      (by simp [settings]),
    optional?_numberSetting hn "fallback_budget_ms" p.fallbackBudget
      (by simp [settings])]
  rfl

variable {p : Parser} (hprimary : ∀ n ∈ p.primaryTimeout, n < Json.signedLimit)
  (hrecovery : ∀ n ∈ p.recoveryBudget, n < Json.signedLimit)
  (hfallback : ∀ n ∈ p.fallbackBudget, n < Json.signedLimit)

include hprimary hrecovery hfallback

theorem sound_settings : Sound p.settings where
  toPlain := p.plain_settings
  faithful := by
    simp only [settings, List.forall_mem_cons]
    exact ⟨faithful_numberSetting hprimary, faithful_numberSetting hrecovery,
      faithful_numberSetting hfallback, by simp⟩

theorem write?_eq : p.write? = some (sectionText "parser" p.settings) := by
  simp [write?, numberLine?_of_lt hprimary, numberLine?_of_lt hrecovery,
    numberLine?_of_lt hfallback, sectionText, settingLines, settings, numberSetting,
    Setting.line_of]

end Parser

/-! ## Documents -/

/-- Every number that is set. -/
def numbers (config : Config) : List Nat :=
  [config.analysis.maxFileSize, config.analysis.threads, config.cache.maxSize,
    config.parser.primaryTimeout, config.parser.recoveryBudget,
    config.parser.fallbackBudget].flatMap Option.toList

theorem forall_mem_numbers_iff {config : Config} : (∀ n ∈ config.numbers, n < 2 ^ 63) ↔
    (∀ n ∈ config.analysis.maxFileSize, n < Json.signedLimit) ∧
      (∀ n ∈ config.analysis.threads, n < Json.signedLimit) ∧
      (∀ n ∈ config.cache.maxSize, n < Json.signedLimit) ∧
      (∀ n ∈ config.parser.primaryTimeout, n < Json.signedLimit) ∧
      (∀ n ∈ config.parser.recoveryBudget, n < Json.signedLimit) ∧
      ∀ n ∈ config.parser.fallbackBudget, n < Json.signedLimit := by
  have hlimit : (2 : Nat) ^ 63 = Json.signedLimit := rfl
  simp only [numbers, List.flatMap_cons, List.flatMap_nil, List.append_nil,
    List.forall_mem_append, Option.mem_toList, Option.mem_def, hlimit]

/-- The table of a configuration. -/
def table (config : Config) : Fields :=
  [("analysis", .table .header (settingFields config.analysis.settings)),
    ("cache", .table .header (settingFields config.cache.settings)),
    ("parser", .table .header (settingFields config.parser.settings))]

theorem ofToml?_table (config : Config) : ofToml? (.table .header config.table) = some config := by
  simp [ofToml?, Toml.record?, optional?, table, List.lookup_cons, Analysis.ofToml?_settings,
    Cache.ofToml?_settings, Parser.ofToml?_settings]

/-- The document of a configuration whose numbers fit. -/
def document (config : Config) : Text :=
  sectionText "analysis" config.analysis.settings ++
    '\n' :: (sectionText "cache" config.cache.settings ++
      '\n' :: sectionText "parser" config.parser.settings)

section Fits

variable {config : Config} (hfits : ∀ n ∈ config.numbers, n < 2 ^ 63)

include hfits

theorem write?_eq_document : config.write? = some config.document := by
  obtain ⟨hsize, hthreads, hcapacity, hprimary, hrecovery, hfallback⟩ :=
    forall_mem_numbers_iff.mp hfits
  simp [write?, document, Analysis.write?_eq hsize hthreads, Cache.write?_eq hcapacity,
    Parser.write?_eq hprimary hrecovery hfallback]

/-- A configuration is read back, whether or not it is valid. -/
theorem read?_document : read? config.document = some config := by
  obtain ⟨hsize, hthreads, hcapacity, hprimary, hrecovery, hfallback⟩ :=
    forall_mem_numbers_iff.mp hfits
  have hreads : Reads ⟨[], []⟩ config.document config.table := by
    refine reads_sectionText (Analysis.sound_settings hsize hthreads) (by decide) (by simp) ?_
    refine Reads.newline (reads_sectionText (Cache.sound_settings hcapacity) (by decide)
      (by simp [Fields.add]) ?_)
    have hlast : Reads ⟨["cache"],
        [("analysis", .table .header (settingFields config.analysis.settings)),
          ("cache", .table .header (settingFields config.cache.settings))]⟩
        (sectionText "parser" config.parser.settings ++ []) config.table :=
      reads_sectionText (Parser.sound_settings hprimary hrecovery hfallback) (by decide) (by simp)
        (Toml.reads_nil _)
    rw [List.append_nil] at hlast
    exact hlast.newline
  rw [read?, Toml.read?_of_reads (by simp [document, sectionText]) hreads]
  exact ofToml?_table config

end Fits

/-- A valid configuration whose numbers have at most 63 bits has a document, and the document gives
the configuration back, with the settings that are unset and the order of its lists. -/
theorem ofDocument_of_write? {config : Config} (hvalid : config.validate = .ok ())
    (hfits : ∀ n ∈ config.numbers, n < 2 ^ 63) :
    ∃ document, config.write? = some document ∧ ofDocument document = .ok config := by
  refine ⟨config.document, write?_eq_document hfits, ?_⟩
  rw [ofDocument, read?_document hfits]
  dsimp only
  rw [hvalid]
  rfl

/-- Lists of no, one and several items, strings in each of the written forms, the largest and the
smallest number, and settings that are unset. -/
def awkwardConfig : Config where
  analysis := ⟨some false, ["it's"],
    ["", "C:\\a", "\"\"\"'''\n\\", "'''\n", "\x00\x7f\t\r\n", "[é] # = \"", "\n\"\"\""], none,
    some 9223372036854775807⟩
  cache := ⟨none, some "1h30m", some 1, some "\"it's\""⟩
  parser := ⟨none, some 0, none⟩

theorem awkwardConfig_read : awkwardConfig.validate = .ok () ∧
    (∀ n ∈ awkwardConfig.numbers, n < 2 ^ 63) ∧
    ∃ document, awkwardConfig.write? = some document ∧ ofDocument document = .ok awkwardConfig :=
  ⟨by rfl, by decide, ofDocument_of_write? (by rfl) (by decide)⟩

end CodeAtlas.Config
