import CodeAtlas.Cache.Memory
import CodeAtlas.Proofs.Json.Record
import CodeAtlas.Proofs.Parse.Facts

/-! What is read from the record of an entry has the key of the entry and the facts of its result. Of
all that is written only the summary and the confidences may change, which hold binary numbers. -/

namespace CodeAtlas

open Json

theorem RecoveryInfo.restores : Restores ofJson? toJson := by
  intro info other h
  simp only [ofJson?, toJson, record?, Option.bind_eq_bind, Option.bind_some,
    Option.bind_eq_some_iff, Option.pure_def, Option.some.injEq] at h
  obtain ⟨category, hcategory, strategy, hstrategy, changes, hchanges, confidence, hconfidence,
    content, hcontent, rfl⟩ := h
  rw [restores_str.get rfl hcategory, restores_str.get rfl hstrategy,
    restores_strings.get rfl hchanges, restores_binary.get rfl hconfidence,
    restores_str.opt (fun _ h => Json.noConfusion h) rfl hcontent]

theorem RecoveryInfo.toJson_ne_null (info : RecoveryInfo) : info.toJson ≠ .null :=
  fun h => Json.noConfusion h

theorem RecoveryInfo.ofJson?_toJson (info : RecoveryInfo) : ofJson? info.toJson = some info := by
  unfold ofJson?
  refine Option.bind_eq_some_iff.mpr ⟨_, rfl, ?_⟩
  refine Option.bind_eq_some_iff.mpr ⟨info.category, rfl, ?_⟩
  refine Option.bind_eq_some_iff.mpr ⟨info.strategy, rfl, ?_⟩
  refine Option.bind_eq_some_iff.mpr ⟨info.changes, strings?_strs info.changes, ?_⟩
  refine Option.bind_eq_some_iff.mpr ⟨info.confidence, rfl, ?_⟩
  exact Option.bind_eq_some_iff.mpr ⟨info.fixedContent, Fields.opt_str rfl, rfl⟩

theorem RecoveryInfo.depth_toJson_le (info : RecoveryInfo) : info.toJson.depth ≤ 2 := by
  apply depth_obj_le_iff.mpr
  simp [depth_strs_le]

-- The fields are read one after the other, and each reading that succeeds is taken off in turn.
theorem ParseResult.facts_of_ofJson? {result other : ParseResult}
    (h : ofJson? result.toRecord = some other) : other.facts = result.facts := by
  simp only [ofJson?, toRecord, record?] at h
  obtain ⟨_, ⟨⟩, h⟩ := Option.bind_eq_some_iff.mp h
  obtain ⟨_, -, h⟩ := Option.bind_eq_some_iff.mp h
  obtain ⟨file, hfile, h⟩ := Option.bind_eq_some_iff.mp h
  obtain ⟨language, hlanguage, h⟩ := Option.bind_eq_some_iff.mp h
  obtain ⟨hash, hhash, h⟩ := Option.bind_eq_some_iff.mp h
  obtain ⟨success, hsuccess, h⟩ := Option.bind_eq_some_iff.mp h
  obtain ⟨_, -, h⟩ := Option.bind_eq_some_iff.mp h
  obtain ⟨functions, hfunctions, h⟩ := Option.bind_eq_some_iff.mp h
  obtain ⟨classes, hclasses, h⟩ := Option.bind_eq_some_iff.mp h
  obtain ⟨imports, himports, h⟩ := Option.bind_eq_some_iff.mp h
  obtain ⟨_, -, h⟩ := Option.bind_eq_some_iff.mp h
  obtain ⟨error, herror, h⟩ := Option.bind_eq_some_iff.mp h
  obtain ⟨_, -, h⟩ := Option.bind_eq_some_iff.mp h
  obtain ⟨_, -, h⟩ := Option.bind_eq_some_iff.mp h
  obtain ⟨_, -, h⟩ := Option.bind_eq_some_iff.mp h
  obtain ⟨_, -, h⟩ := Option.bind_eq_some_iff.mp h
  obtain ⟨recovery, hrecovery, h⟩ := Option.bind_eq_some_iff.mp h
  obtain rfl := Option.some.inj h
  simp only [facts]
  rw [restores_str.get rfl hfile, restores_language.get rfl hlanguage,
    (restores_below _).get rfl hhash, restores_bool.get rfl hsuccess,
    FunctionDecl.restores.list.get rfl hfunctions, ClassDecl.restores.list.get rfl hclasses,
    ImportDecl.restores.list.get rfl himports,
    restores_str.opt (fun _ h => Json.noConfusion h) rfl herror,
    RecoveryInfo.restores.opt RecoveryInfo.toJson_ne_null rfl hrecovery]

theorem CacheEntry.facts_of_ofRecord? {entry other : CacheEntry}
    (h : ofRecord? entry.toRecord = some other) :
    other.key = entry.key ∧ other.result.facts = entry.result.facts := by
  simp only [ofRecord?, toRecord, record?] at h
  obtain ⟨_, ⟨⟩, h⟩ := Option.bind_eq_some_iff.mp h
  obtain ⟨key, hkey, h⟩ := Option.bind_eq_some_iff.mp h
  obtain ⟨_, -, h⟩ := Option.bind_eq_some_iff.mp h
  obtain ⟨_, -, h⟩ := Option.bind_eq_some_iff.mp h
  obtain ⟨_, -, h⟩ := Option.bind_eq_some_iff.mp h
  obtain ⟨_, -, h⟩ := Option.bind_eq_some_iff.mp h
  obtain ⟨_, -, h⟩ := Option.bind_eq_some_iff.mp h
  obtain ⟨_, -, h⟩ := Option.bind_eq_some_iff.mp h
  obtain ⟨result, hresult, h⟩ := Option.bind_eq_some_iff.mp h
  obtain rfl := Option.some.inj h
  exact ⟨restores_str.get rfl hkey, ParseResult.facts_of_ofJson? hresult⟩

/-! ## Records that were stored -/

/-- A repair with its confidence as it is read where it was written. -/
def RecoveryInfo.reread? (info : RecoveryInfo) : Option RecoveryInfo :=
  info.confidence.reread?.map fun confidence => { info with confidence := confidence }

theorem RecoveryInfo.reread?_toJson (info : RecoveryInfo) :
    info.toJson.reread? = info.reread?.map toJson := by
  have hchanges : (strs info.changes).reread? = some (strs info.changes) :=
    unchanged_strs info.changes
  have hcontent : (ofOption str info.fixedContent).reread? =
      some (ofOption str info.fixedContent) :=
    unchanged_ofOption unchanged_str info.fixedContent
  simp only [toJson, Json.reread?, rereadFields?, hchanges, hcontent, reread?]
  cases info.confidence.reread? <;> rfl

theorem RecoveryInfo.reread?_ofOption (recovery : Option RecoveryInfo) :
    (ofOption toJson recovery).reread? =
      (recovery.mapM RecoveryInfo.reread?).map (ofOption toJson) := by
  cases recovery with
  | none => rfl
  | some info =>
      rw [ofOption, info.reread?_toJson]
      cases h : info.reread? <;> simp [h, ofOption]

/-- A repair is read as it was written exactly if its confidence is. -/
theorem RecoveryInfo.mapM_reread?_iff (recovery : Option RecoveryInfo) :
    recovery.mapM RecoveryInfo.reread? = some recovery ↔
      ∀ info ∈ recovery, info.confidence.Unchanged := by
  cases recovery with
  | none => simp
  | some info =>
      simp only [Option.mapM_some, Option.map_eq_map, Option.map_eq_some_iff, Option.some.injEq,
        exists_eq_right, Option.mem_def, forall_eq', Binary.Unchanged, reread?]
      constructor
      · rintro ⟨confidence, hconfidence, hsame⟩
        rw [hconfidence, ← congrArg RecoveryInfo.confidence hsame]
      · intro h
        exact ⟨info.confidence, h, rfl⟩

namespace ParseResult

/-- What the record of a result says of its summary. -/
def shownSummary (r : ParseResult) : Json := r.summary.getD .null

/-- The result with its binary numbers as they are read where they were written. -/
def reread? (r : ParseResult) : Option ParseResult := do
  let summary ← r.shownSummary.reread?
  let confidence ← r.confidence.reread?
  let recovery ← r.recovery.mapM RecoveryInfo.reread?
  return { r with summary := some summary, confidence := confidence, recovery := recovery }

theorem reread?_eq_some {r other : ParseResult} (h : r.reread? = some other) :
    ∃ summary confidence recovery, r.shownSummary.reread? = some summary ∧
      r.confidence.reread? = some confidence ∧
      r.recovery.mapM RecoveryInfo.reread? = some recovery ∧
      other = { r with
        summary := some summary, confidence := confidence, recovery := recovery } := by
  obtain ⟨summary, hsummary, h⟩ := Option.bind_eq_some_iff.mp h
  obtain ⟨confidence, hconfidence, h⟩ := Option.bind_eq_some_iff.mp h
  obtain ⟨recovery, hrecovery, h⟩ := Option.bind_eq_some_iff.mp h
  exact ⟨summary, confidence, recovery, hsummary, hconfidence, hrecovery,
    (Option.some.inj h).symm⟩

theorem reread?_toRecord (r : ParseResult) : r.toRecord.reread? = r.reread?.map toRecord := by
  have hfunctions : (arr (r.functions.map FunctionDecl.toJson)).reread? = some _ :=
    unchanged_list FunctionDecl.unchanged_toJson r.functions
  have hclasses : (arr (r.classes.map ClassDecl.toJson)).reread? = some _ :=
    unchanged_list ClassDecl.unchanged_toJson r.classes
  have himports : (arr (r.imports.map ImportDecl.toJson)).reread? = some _ :=
    unchanged_list ImportDecl.unchanged_toJson r.imports
  have hstring : ∀ x, (ofOption str x).reread? = some (ofOption str x) :=
    unchanged_ofOption unchanged_str
  have hsummary : (r.summary.getD null).reread? = r.shownSummary.reread? := rfl
  have hconfidence : (binary r.confidence).reread? = r.confidence.reread?.map binary := rfl
  simp only [toRecord, members, List.cons_append, List.nil_append, Json.reread?.eq_3,
    rereadFields?, hfunctions, hclasses, himports, hstring, hsummary, hconfidence, reread?,
    RecoveryInfo.reread?_ofOption]
  -- All other fields are read as they were written, so these three decide.
  cases r.shownSummary.reread? with
  | none => rfl
  | some summary =>
      cases r.confidence.reread? with
      | none => rfl
      | some confidence => cases r.recovery.mapM RecoveryInfo.reread? <;> rfl

/-- Where the confidence of the repair is read as it was written, all facts are. -/
theorem facts_of_reread? {r other : ParseResult} (h : r.reread? = some other)
    (hsteady : r.facts.Steady) : other.facts = r.facts := by
  obtain ⟨summary, confidence, recovery, -, -, hrecovery, rfl⟩ := reread?_eq_some h
  have hkept := (RecoveryInfo.mapM_reread?_iff r.recovery).mpr hsteady
  obtain rfl := Option.some.inj (hrecovery.symm.trans hkept)
  rfl

end ParseResult

namespace CacheEntry

/-- The entry with another result. -/
def withResult (e : CacheEntry) (result : ParseResult) : CacheEntry :=
  { e with result := result }

theorem reread?_toRecord (e : CacheEntry) :
    e.toRecord.reread? = e.result.reread?.map fun result => (e.withResult result).toRecord := by
  have hfields : rereadFields? (e.members e.result.toRecord) =
      e.result.toRecord.reread?.map fun result => e.members result := by
    refine rereadFields?_around ((e.members e.result.toRecord).take 7) []
      ?_ ?_ "result" e.result.toRecord
    · simp [members, unchanged_ofOption]
    · simp
  rw [toRecord, Json.reread?, hfields, ParseResult.reread?_toRecord, Option.map_map,
    Option.map_map]
  rfl

/-- A stored record is that of the entry with its result as it is read. -/
theorem exists_of_stored? {e : CacheEntry} {value : Json} (h : e.stored? = some value) :
    ∃ result, e.result.reread? = some result ∧ value = (e.withResult result).toRecord := by
  rw [stored?, restored?] at h
  split at h
  · rw [reread?_toRecord] at h
    obtain ⟨result, hresult, hvalue⟩ := Option.map_eq_some_iff.mp h
    exact ⟨result, hresult, hvalue.symm⟩
  · cases h

theorem of_stored? {entry other : CacheEntry}
    (h : entry.stored?.bind ofRecord? = some other) :
    other.key = entry.key ∧
      (entry.result.facts.Steady → other.result.facts = entry.result.facts) := by
  obtain ⟨value, hvalue, hother⟩ := Option.bind_eq_some_iff.mp h
  obtain ⟨result, hresult, rfl⟩ := exists_of_stored? hvalue
  obtain ⟨hkey, hfacts⟩ := facts_of_ofRecord? hother
  exact ⟨hkey, fun hsteady => hfacts.trans (ParseResult.facts_of_reread? hresult hsteady)⟩

end CacheEntry

/-! ## Entries that are read back -/

namespace ParseResult

/-- The numbers fit into the words that they are read as. -/
structure Fits (r : ParseResult) : Prop where
  contentHash : r.contentHash < UInt64.size
  complexity : r.complexity < UInt32.size
  functions : ∀ f ∈ r.functions, f.Fits
  classes : ∀ c ∈ r.classes, c.line < UInt32.size
  imports : ∀ i ∈ r.imports, i.line < UInt32.size

/-- The result with no summary if that is null. -/
def unlessNull (r : ParseResult) : ParseResult :=
  { r with summary := r.shownSummary.unlessNull }

/-- All fields are read back. A summary that is null is read as none. -/
theorem ofJson?_toRecord {r : ParseResult} (h : r.Fits) :
    ofJson? r.toRecord = some r.unlessNull := by
  have hfunctions := list?_map fun f hf => FunctionDecl.ofJson?_toJson (h.functions f hf)
  have hclasses := list?_map fun c hc => ClassDecl.ofJson?_toJson (h.classes c hc)
  have himports := list?_map fun i hi => ImportDecl.ofJson?_toJson (h.imports i hi)
  unfold ofJson?
  refine Option.bind_eq_some_iff.mpr ⟨_, rfl, ?_⟩
  refine Option.bind_eq_some_iff.mpr ⟨0, rfl, ?_⟩
  refine Option.bind_eq_some_iff.mpr ⟨r.file, rfl, ?_⟩
  refine Option.bind_eq_some_iff.mpr ⟨r.language, language?_ofLanguage r.language, ?_⟩
  refine Option.bind_eq_some_iff.mpr ⟨r.contentHash, below?_ofNat h.contentHash, ?_⟩
  refine Option.bind_eq_some_iff.mpr ⟨r.success, rfl, ?_⟩
  refine Option.bind_eq_some_iff.mpr ⟨r.shownSummary.unlessNull, Fields.opt_some rfl, ?_⟩
  refine Option.bind_eq_some_iff.mpr ⟨r.functions, hfunctions, ?_⟩
  refine Option.bind_eq_some_iff.mpr ⟨r.classes, hclasses, ?_⟩
  refine Option.bind_eq_some_iff.mpr ⟨r.imports, himports, ?_⟩
  refine Option.bind_eq_some_iff.mpr ⟨r.complexity, below?_ofNat h.complexity, ?_⟩
  refine Option.bind_eq_some_iff.mpr ⟨r.error, Fields.opt_str rfl, ?_⟩
  refine Option.bind_eq_some_iff.mpr ⟨r.fromFallback, rfl, ?_⟩
  refine Option.bind_eq_some_iff.mpr ⟨r.strategy, rfl, ?_⟩
  refine Option.bind_eq_some_iff.mpr ⟨r.warning, Fields.opt_str rfl, ?_⟩
  refine Option.bind_eq_some_iff.mpr ⟨r.confidence, rfl, ?_⟩
  exact Option.bind_eq_some_iff.mpr ⟨r.recovery,
    Fields.opt_ofOption RecoveryInfo.toJson_ne_null RecoveryInfo.ofJson?_toJson rfl, rfl⟩

/-- The summary lies one level below the record. Nothing else reaches deep. -/
theorem depth_toRecord_le_iff (r : ParseResult) {n : Nat} (hn : 3 ≤ n) :
    r.toRecord.depth ≤ n + 1 ↔ r.shownSummary.depth ≤ n := by
  have hfunctions := Nat.le_trans (depth_list_le FunctionDecl.depth_toJson_le r.functions) hn
  have hclasses := Nat.le_trans (depth_list_le ClassDecl.depth_toJson_le r.classes) hn
  have himports := Nat.le_trans (depth_list_le ImportDecl.depth_toJson_le r.imports) hn
  have hrecovery := Nat.le_trans (depth_ofOption_le RecoveryInfo.depth_toJson_le r.recovery)
    (Nat.le_of_succ_le hn)
  rw [toRecord, depth_obj_le_iff]
  simp [members, ofLanguage, shownSummary, hfunctions, hclasses, himports, hrecovery]

/-- What is read of a result that was written in the record of an entry, whose summary lies two levels
below. -/
def kept? (r : ParseResult) : Option ParseResult :=
  if r.shownSummary.depth + 2 ≤ maxDepth then r.reread?.map unlessNull else none

theorem Fits.reread? {r other : ParseResult} (h : r.Fits) (hread : r.reread? = some other) :
    other.Fits := by
  obtain ⟨summary, confidence, recovery, -, -, -, rfl⟩ := reread?_eq_some hread
  exact ⟨h.contentHash, h.complexity, h.functions, h.classes, h.imports⟩

theorem Fits.kept? {r other : ParseResult} (h : r.Fits) (hkept : r.kept? = some other) :
    other.Fits := by
  rw [ParseResult.kept?, Option.ite_none_right_eq_some] at hkept
  obtain ⟨result, hresult, rfl⟩ := Option.map_eq_some_iff.mp hkept.2
  have hfits := h.reread? hresult
  exact ⟨hfits.contentHash, hfits.complexity, hfits.functions, hfits.classes, hfits.imports⟩

/-- A result is read as it was written unless its summary is null, or nested too deep, or it holds a
number that is not read as it was written. -/
theorem kept?_eq_some_self_iff (r : ParseResult) :
    r.kept? = some r ↔
      (∀ summary, r.summary = some summary →
        summary ≠ .null ∧ summary.depth + 2 ≤ maxDepth ∧ summary.Unchanged) ∧ r.Steady := by
  rw [kept?, Option.ite_none_right_eq_some, Option.map_eq_some_iff]
  constructor
  · rintro ⟨hdepth, other, hother, hsame⟩
    obtain ⟨summary, confidence, recovery, hsummary, hconfidence, hrecovery, rfl⟩ :=
      reread?_eq_some hother
    have hnull : summary.unlessNull = r.summary := congrArg ParseResult.summary hsame
    obtain rfl : confidence = r.confidence := congrArg ParseResult.confidence hsame
    obtain rfl : recovery = r.recovery := congrArg ParseResult.recovery hsame
    refine ⟨?_, hconfidence, (RecoveryInfo.mapM_reread?_iff _).mp hrecovery⟩
    intro value hvalue
    obtain ⟨rfl, hne⟩ := unlessNull_eq_some_iff.mp (hnull.trans hvalue)
    simp only [shownSummary, hvalue, Option.getD_some] at hdepth hsummary
    exact ⟨hne, hdepth, hsummary⟩
  · rintro ⟨hvalue, hsteady⟩
    have hrecovery := (RecoveryInfo.mapM_reread?_iff r.recovery).mpr hsteady.facts
    have hconfidence : r.confidence.reread? = some r.confidence := hsteady.confidence
    have hshown : r.shownSummary.depth + 2 ≤ maxDepth ∧
        r.shownSummary.reread? = some r.shownSummary ∧ r.shownSummary.unlessNull = r.summary := by
      cases hsummary : r.summary with
      | none => simp [shownSummary, hsummary, depth, maxDepth, Json.reread?, Json.unlessNull]
      | some value =>
          obtain ⟨hne, hdepth, hsame⟩ := hvalue value hsummary
          simp only [shownSummary, hsummary, Option.getD_some]
          exact ⟨hdepth, hsame, unlessNull_eq_some_iff.mpr ⟨rfl, hne⟩⟩
    obtain ⟨hdepth, hreread, hnull⟩ := hshown
    refine ⟨hdepth, { r with summary := some r.shownSummary }, ?_, ?_⟩
    · simp [reread?, hreread, hconfidence, hrecovery]
    · simp only [unlessNull, shownSummary, Option.getD_some] at hnull ⊢
      rw [hnull]

end ParseResult

namespace CacheEntry

/-- The numbers fit into the words that they are read as. -/
structure Fits (e : CacheEntry) : Prop where
  created : e.created < UInt64.size
  lastAccessed : e.lastAccessed < UInt64.size
  result : e.result.Fits

theorem ofRecord?_toRecord {e : CacheEntry} (h : e.Fits) :
    ofRecord? e.toRecord = some (e.withResult e.result.unlessNull) := by
  unfold ofRecord?
  refine Option.bind_eq_some_iff.mpr ⟨_, rfl, ?_⟩
  refine Option.bind_eq_some_iff.mpr ⟨e.key, rfl, ?_⟩
  refine Option.bind_eq_some_iff.mpr ⟨e.file, rfl, ?_⟩
  refine Option.bind_eq_some_iff.mpr ⟨e.root, rfl, ?_⟩
  refine Option.bind_eq_some_iff.mpr ⟨e.branch, rfl, ?_⟩
  refine Option.bind_eq_some_iff.mpr ⟨e.commit, Fields.opt_str rfl, ?_⟩
  refine Option.bind_eq_some_iff.mpr ⟨e.created, below?_ofNat h.created, ?_⟩
  refine Option.bind_eq_some_iff.mpr ⟨e.lastAccessed, below?_ofNat h.lastAccessed, ?_⟩
  exact Option.bind_eq_some_iff.mpr ⟨_, ParseResult.ofJson?_toRecord h.result, rfl⟩

theorem depth_toRecord_le_iff (e : CacheEntry) :
    e.toRecord.depth ≤ maxDepth ↔ e.result.shownSummary.depth + 2 ≤ maxDepth := by
  have hresult : e.result.toRecord.depth ≤ 126 ↔ e.result.shownSummary.depth ≤ 125 :=
    e.result.depth_toRecord_le_iff (by decide)
  rw [toRecord, maxDepth, depth_obj_le_iff]
  simp [members, hresult]

theorem ofRecord?_stored? {e : CacheEntry} (h : e.Fits) :
    e.stored?.bind ofRecord? = e.result.kept?.map e.withResult := by
  simp only [stored?, restored?, ParseResult.kept?, depth_toRecord_le_iff]
  split
  · rw [reread?_toRecord, Option.bind_map, Option.map_map]
    cases hresult : e.result.reread? with
    | none => rfl
    | some result =>
        exact ofRecord?_toRecord ⟨h.created, h.lastAccessed, h.result.reread? hresult⟩
  · rfl

/-- An entry as it is read where its record was written: with the result that is read, and an error
if none can be. -/
def shown (key : String) (e : CacheEntry) : Except CacheError CacheEntry :=
  match e.result.kept? with
  | some result => .ok (e.withResult result)
  | none => .error (.serialization key "malformed record")

theorem decode_stored? {e : CacheEntry} (h : e.Fits) (key : String) :
    decode key e.stored? = e.shown key := by
  rw [decode, ofRecord?_stored? h, shown]
  cases e.result.kept? <;> rfl

theorem shown_eq_ok_self_iff (key : String) (e : CacheEntry) :
    e.shown key = .ok e ↔ e.result.kept? = some e.result := by
  unfold shown
  cases e.result.kept? with
  | none => simp
  | some result =>
      simp only [Except.ok.injEq, Option.some.injEq]
      constructor
      · intro h
        exact congrArg (·.result) h
      · rintro rfl
        rfl

/-- An entry is read as it was written exactly if its result is: the summary is not null and not
nested too deep, and it and the confidences hold no number that is read otherwise. -/
theorem shown_eq_ok_iff (key : String) (e : CacheEntry) :
    e.shown key = .ok e ↔ (∀ summary, e.result.summary = some summary →
      summary ≠ .null ∧ summary.depth + 2 ≤ maxDepth ∧ summary.Unchanged) ∧ e.result.Steady := by
  rw [shown_eq_ok_self_iff, ParseResult.kept?_eq_some_self_iff]

/-- The summary, if there is one, is not null, is not nested too deep and holds no binary number, and
the confidences are read as they were written. -/
structure Plain (e : CacheEntry) : Prop where
  summary : ∀ summary, e.result.summary = some summary →
    summary ≠ .null ∧ summary.depth + 2 ≤ maxDepth ∧ summary.isExact
  steady : e.result.Steady

theorem Plain.shown_eq {e : CacheEntry} (h : e.Plain) (key : String) : e.shown key = .ok e := by
  refine (shown_eq_ok_iff key e).mpr ⟨?_, h.steady⟩
  intro summary hsummary
  obtain ⟨hnull, hdepth, hexact⟩ := h.summary summary hsummary
  exact ⟨hnull, hdepth, unchanged_of_isExact summary hexact⟩

end CacheEntry

end CodeAtlas
