import CodeAtlas.Config.Layers
import Mathlib.Data.List.Basic

/-! What the layers of a configuration come to. Each setting is that of the highest layer that has
it, and only what is settled in this way is validated. -/

namespace CodeAtlas.Config

/-! ## Files -/

/-- The file is a document, but no configuration. -/
def Found.Malformed : Found → Prop
  | document text => read? text = none
  | _ => False

/-- The settings of a file. One that is missing, cannot be read or is no configuration has none. -/
def Found.settings : Found → Config
  | document text => (read? text).getD unset
  | _ => unset

/-- What is found at the path of the user's file. -/
def userFile (around : Surroundings) : Found :=
  match home? around with
  | none => .nothing
  | some home => around.file (pathIn (pathIn home ".polyglot") "config.toml")

/-- What is found at the path of the project's file. -/
def projectFile (around : Surroundings) (root : String) : Found :=
  around.file (pathIn root "polyglot.toml")

theorem userLayer_eq_ok_iff {around : Surroundings} {config : Config} :
    userLayer around = .ok config ↔
      ¬ (userFile around).Malformed ∧ (userFile around).settings = config := by
  unfold userLayer userFile
  cases home? around with
  | none => simp [Found.Malformed, Found.settings]
  | some home =>
      dsimp only
      cases around.file (pathIn (pathIn home ".polyglot") "config.toml") with
      | nothing => simp [Found.Malformed, Found.settings]
      | unreadable => simp [Found.Malformed, Found.settings]
      | document text => cases hread : read? text <;> simp [Found.Malformed, Found.settings, hread]

theorem projectLayer_eq_ok_iff {around : Surroundings} {root : String} {config : Config} :
    projectLayer around root = .ok config ↔
      projectFile around root ≠ .unreadable ∧ ¬ (projectFile around root).Malformed ∧
        (projectFile around root).settings = config := by
  unfold projectLayer projectFile
  dsimp only
  cases around.file (pathIn root "polyglot.toml") with
  | nothing => simp [Found.Malformed, Found.settings]
  | unreadable => simp
  | document text => cases hread : read? text <;> simp [Found.Malformed, Found.settings, hread]

/-! ## Layers -/

/-- The first value that is there. -/
def firstOf {α : Type} (values : List (Option α)) : Option α :=
  values.findSome? id

/-- The first list that is not empty. -/
def firstFull (lists : List (List String)) : List String :=
  (lists.find? fun list => !list.isEmpty).getD []

/-- Each setting has the value of the first layer that has it: the caller's settings, an environment
variable that can be read, the project's file, the user's file. -/
structure Settles (config user project : Config) (env : String → Option String)
    (overrides : Option Overrides) : Prop where
  enabled : config.analysis.enabled =
    firstOf [overrides.bind (·.enabled), (env "POLYGLOT_ANALYSIS_ENABLED").bind readBool?,
      project.analysis.enabled, user.analysis.enabled]
  threads : config.analysis.threads =
    firstOf [overrides.bind (·.threads), (env "POLYGLOT_ANALYSIS_THREADS").bind readNat?,
      project.analysis.threads, user.analysis.threads]
  maxFileSize : config.analysis.maxFileSize =
    firstOf [project.analysis.maxFileSize, user.analysis.maxFileSize]
  languages : config.analysis.languages =
    firstFull [project.analysis.languages, user.analysis.languages]
  exclude : config.analysis.exclude = firstFull [project.analysis.exclude, user.analysis.exclude]
  cacheEnabled : config.cache.enabled =
    firstOf [overrides.bind (·.cacheEnabled), (env "POLYGLOT_CACHE_ENABLED").bind readBool?,
      project.cache.enabled, user.cache.enabled]
  maxAge : config.cache.maxAge =
    firstOf [overrides.bind (·.cacheMaxAge), env "POLYGLOT_CACHE_MAX_AGE", project.cache.maxAge,
      user.cache.maxAge]
  maxSize : config.cache.maxSize =
    firstOf [(env "POLYGLOT_CACHE_MAX_SIZE").bind readNat?, project.cache.maxSize,
      user.cache.maxSize]
  directory : config.cache.directory =
    firstOf [overrides.bind (·.cacheDirectory), env "POLYGLOT_CACHE_DIR", project.cache.directory,
      user.cache.directory]
  primaryTimeout : config.parser.primaryTimeout =
    firstOf [(env "POLYGLOT_PARSER_TIMEOUT_MS").bind readNat?, project.parser.primaryTimeout,
      user.parser.primaryTimeout]
  recoveryBudget : config.parser.recoveryBudget =
    firstOf [project.parser.recoveryBudget, user.parser.recoveryBudget]
  fallbackBudget : config.parser.fallbackBudget =
    firstOf [project.parser.fallbackBudget, user.parser.fallbackBudget]

theorem Settles.unique {config other user project : Config} {env : String → Option String}
    {overrides : Option Overrides} (h : config.Settles user project env overrides)
    (h' : other.Settles user project env overrides) : config = other := by
  obtain ⟨⟨enabled, languages, exclude, maxFileSize, threads⟩,
    ⟨cacheEnabled, maxAge, maxSize, directory⟩, ⟨primary, recovery, fallback⟩⟩ := config
  obtain ⟨⟨enabled', languages', exclude', maxFileSize', threads'⟩,
    ⟨cacheEnabled', maxAge', maxSize', directory'⟩, ⟨primary', recovery', fallback'⟩⟩ := other
  congr
  · exact h.enabled.trans h'.enabled.symm
  · exact h.languages.trans h'.languages.symm
  · exact h.exclude.trans h'.exclude.symm
  · exact h.maxFileSize.trans h'.maxFileSize.symm
  · exact h.threads.trans h'.threads.symm
  · exact h.cacheEnabled.trans h'.cacheEnabled.symm
  · exact h.maxAge.trans h'.maxAge.symm
  · exact h.maxSize.trans h'.maxSize.symm
  · exact h.directory.trans h'.directory.symm
  · exact h.primaryTimeout.trans h'.primaryTimeout.symm
  · exact h.recoveryBudget.trans h'.recoveryBudget.symm
  · exact h.fallbackBudget.trans h'.fallbackBudget.symm

/-- A setting of layers that lie on one another is that of the highest layer that has it. -/
theorem get_foldl_overlay {α : Type} {get : Config → Option α}
    (hget : ∀ lower upper, get (overlay lower upper) = (get upper <|> get lower))
    (layers : List Config) (base : Config) :
    get (layers.foldl overlay base) = firstOf ((layers.reverse ++ [base]).map get) := by
  induction layers generalizing base with
  | nil => simp [firstOf]
  | cons layer layers ih =>
      rw [List.foldl_cons, ih, firstOf, firstOf]
      simp only [List.reverse_cons, List.map_append, List.findSome?_append, List.append_assoc]
      congr 1
      simp [hget]

/-- A list of layers that lie on one another is that of the highest layer with a list that is not
empty. -/
theorem get_foldl_overlay_list {get : Config → List String}
    (hget : ∀ lower upper, get (overlay lower upper) = preferred (get lower) (get upper))
    (layers : List Config) (base : Config) :
    get (layers.foldl overlay base) = firstFull ((layers.reverse ++ [base]).map get) := by
  induction layers generalizing base with
  | nil => cases hbase : get base <;> simp [firstFull, hbase]
  | cons layer layers ih =>
      rw [List.foldl_cons, ih, firstFull, firstFull]
      simp only [List.reverse_cons, List.map_append, List.find?_append, List.append_assoc]
      congr 2
      cases hlayer : get layer <;> cases hbase : get base <;>
        simp [hget, preferred, hlayer, hbase]

/-- All layers on one another, the user's file at the bottom. -/
def merged (user project : Config) (around : Surroundings) (overrides : Option Overrides) :
    Config :=
  [user, project, variableLayer around, (overrides.map Overrides.layer).getD unset].foldl overlay
    unset

theorem firstOf_concat_none {α : Type} (values : List (Option α)) :
    firstOf (values ++ [none]) = firstOf values := by
  simp [firstOf, List.findSome?_append]

theorem firstFull_concat_nil (lists : List (List String)) :
    firstFull (lists ++ [[]]) = firstFull lists := by
  simp [firstFull, List.find?_append]

theorem settles_merged (user project : Config) (around : Surroundings)
    (overrides : Option Overrides) :
    (merged user project around overrides).Settles user project around.env overrides := by
  have hscalar : ∀ {α : Type} (get : Config → Option α),
      (∀ lower upper, get (overlay lower upper) = (get upper <|> get lower)) → get unset = none →
      get (merged user project around overrides) =
        firstOf [overrides.bind fun o => get o.layer, get (variableLayer around), get project,
          get user] := by
    intro α get hget hunset
    have hupper : get ((overrides.map Overrides.layer).getD unset) =
        overrides.bind fun o => get o.layer := by
      cases overrides with
      | none => exact hunset
      | some o => rfl
    rw [← hupper, ← firstOf_concat_none, ← hunset]
    exact get_foldl_overlay hget _ unset
  have hlist : ∀ get : Config → List String,
      (∀ lower upper, get (overlay lower upper) = preferred (get lower) (get upper)) →
      get unset = [] → (∀ o : Overrides, get o.layer = []) → get (variableLayer around) = [] →
      get (merged user project around overrides) = firstFull [get project, get user] := by
    intro get hget hunset hoverrides hvariables
    have hupper : get ((overrides.map Overrides.layer).getD unset) = [] := by
      cases overrides with
      | none => exact hunset
      | some o => exact hoverrides o
    have hall : get (merged user project around overrides) =
        firstFull ([get ((overrides.map Overrides.layer).getD unset), get (variableLayer around),
          get project, get user] ++ [get unset]) :=
      get_foldl_overlay_list hget _ unset
    rw [hall, hunset, firstFull_concat_nil, hupper, hvariables]
    rfl
  -- A layer that never has a setting is passed over.
  have hbelow : ∀ {α : Type} {values : List (Option α)},
      firstOf ((overrides.bind fun _ => none) :: values) = firstOf values := by
    intro α values
    cases overrides <;> rfl
  exact {
    enabled := hscalar (·.analysis.enabled) (fun _ _ => rfl) rfl
    threads := hscalar (·.analysis.threads) (fun _ _ => rfl) rfl
    maxFileSize := (hscalar (·.analysis.maxFileSize) (fun _ _ => rfl) rfl).trans hbelow
    languages := hlist (·.analysis.languages) (fun _ _ => rfl) rfl (fun _ => rfl) rfl
    exclude := hlist (·.analysis.exclude) (fun _ _ => rfl) rfl (fun _ => rfl) rfl
    cacheEnabled := hscalar (·.cache.enabled) (fun _ _ => rfl) rfl
    maxAge := hscalar (·.cache.maxAge) (fun _ _ => rfl) rfl
    maxSize := (hscalar (·.cache.maxSize) (fun _ _ => rfl) rfl).trans hbelow
    directory := hscalar (·.cache.directory) (fun _ _ => rfl) rfl
    primaryTimeout := (hscalar (·.parser.primaryTimeout) (fun _ _ => rfl) rfl).trans hbelow
    recoveryBudget := (hscalar (·.parser.recoveryBudget) (fun _ _ => rfl) rfl).trans hbelow
    fallbackBudget := (hscalar (·.parser.fallbackBudget) (fun _ _ => rfl) rfl).trans hbelow }

/-! ## Validation -/

/-- A setting that cannot be used, and the error that names it. -/
inductive Fault (config : Config) : ConfigError → Prop where
  | maxAge {written : String} {cause : Duration.ReadError}
      (isSet : config.cache.maxAge = some written) (fails : Duration.read written = .error cause) :
      Fault config (.invalidValue "cache.max_age" (cause.message written))
  | maxSize (isZero : config.cache.maxSize = some 0) :
      Fault config (.validationFailed "cache.max_size" "must be greater than 0")
  | maxFileSize (isZero : config.analysis.maxFileSize = some 0) :
      Fault config (.validationFailed "analysis.max_file_size" "must be greater than 0")
  | primaryTimeout (isZero : config.parser.primaryTimeout = some 0) :
      Fault config (.validationFailed "parser.primary_timeout_ms" "must be greater than 0")

/-- Of two steps that fail, the first one fails or the second one does after it. -/
theorem error_of_bind {α β : Type} {x : Except ConfigError α} {f : α → Except ConfigError β}
    {e : ConfigError} (h : x >>= f = .error e) : x = .error e ∨ ∃ a, x = .ok a ∧ f a = .error e := by
  cases x with
  | error cause =>
      have hcause : cause = e := Except.error.inj h
      exact .inl (congrArg _ hcause)
  | ok a => exact .inr ⟨a, rfl, h⟩

theorem fault_of_lifetime {config : Config} {e : ConfigError}
    (h : config.cache.lifetime = .error e) : config.Fault e := by
  unfold Cache.lifetime at h
  cases hset : config.cache.maxAge with
  | none =>
      have hdefault : Duration.read "2h" = .ok (.ofMillis 7200000) := by decide +kernel
      simp [hset, hdefault] at h
  | some written =>
      cases hread : Duration.read written with
      | ok age => simp [hset, hread] at h
      | error cause =>
          simp only [hset, Option.getD_some, hread, Except.error.injEq] at h
          exact h ▸ .maxAge hset hread

theorem positive_eq_error {field : String} {setting : Option Nat} {e : ConfigError}
    (h : positive field setting = .error e) :
    setting = some 0 ∧ e = .validationFailed field "must be greater than 0" := by
  unfold positive at h
  split at h
  · exact ⟨by assumption, (Except.error.inj h).symm⟩
  · cases h

/-- A configuration is refused for a setting that it has, and the error names the setting. -/
theorem fault_of_validate {config : Config} {e : ConfigError} (h : config.validate = .error e) :
    config.Fault e := by
  unfold validate at h
  rcases error_of_bind h with hage | ⟨_, -, h⟩
  · exact fault_of_lifetime hage
  rcases error_of_bind h with hsize | ⟨_, -, h⟩
  · obtain ⟨hzero, rfl⟩ := positive_eq_error hsize
    exact .maxSize hzero
  rcases error_of_bind h with hsize | ⟨_, -, h⟩
  · obtain ⟨hzero, rfl⟩ := positive_eq_error hsize
    exact .maxFileSize hzero
  obtain ⟨hzero, rfl⟩ := positive_eq_error h
  exact .primaryTimeout hzero

/-! ## Loading -/

section Load

variable {around : Surroundings} {root : String} {overrides : Option Overrides}

theorem load_eq {user project : Config} (huser : userLayer around = .ok user)
    (hproject : projectLayer around root = .ok project) :
    load around root overrides =
      (merged user project around overrides).validate.map fun _ =>
        merged user project around overrides := by
  unfold load
  rw [huser, hproject]
  change (merged user project around overrides).validate >>=
    (fun _ => .ok (merged user project around overrides)) = _
  cases (merged user project around overrides).validate <;> rfl

theorem load_eq_ok_iff {config : Config} :
    load around root overrides = .ok config ↔
      ∃ user project, userLayer around = .ok user ∧ projectLayer around root = .ok project ∧
        merged user project around overrides = config ∧ config.validate = .ok () := by
  constructor
  · intro h
    cases huser : userLayer around with
    | error e => simp [load, huser, bind, Except.bind] at h
    | ok user =>
        cases hproject : projectLayer around root with
        | error e => simp [load, huser, hproject, bind, Except.bind] at h
        | ok project =>
            rw [load_eq huser hproject] at h
            cases hvalid : (merged user project around overrides).validate with
            | error e => simp [hvalid, Except.map] at h
            | ok _ =>
                rw [hvalid] at h
                obtain rfl : merged user project around overrides = config := Except.ok.inj h
                exact ⟨user, project, rfl, rfl, rfl, hvalid⟩
  · rintro ⟨user, project, huser, hproject, rfl, hvalid⟩
    rw [load_eq huser hproject, hvalid]
    rfl

end Load

/-- A configuration is loaded if a user's file that can be read is well-formed, a project's file can
be read and is well-formed, and what the layers settle is valid; then each setting is that of the
highest layer that has it. If nothing is wrong with the files, an error comes from a setting as it is
settled, so that none comes from a value that a higher layer hides. -/
theorem load_settles (around : Surroundings) (root : String) (overrides : Option Overrides) :
    (∀ config, load around root overrides = .ok config ↔
      ¬ (userFile around).Malformed ∧ projectFile around root ≠ .unreadable ∧
        ¬ (projectFile around root).Malformed ∧
        config.Settles (userFile around).settings (projectFile around root).settings around.env
          overrides ∧
        config.validate = .ok ()) ∧
    ∀ e, load around root overrides = .error e →
      (userFile around).Malformed ∨ projectFile around root = .unreadable ∨
        (projectFile around root).Malformed ∨
        ∃ config : Config, config.Settles (userFile around).settings
          (projectFile around root).settings around.env overrides ∧ config.Fault e := by
  have hmerged := settles_merged (userFile around).settings (projectFile around root).settings
    around overrides
  constructor
  · intro config
    rw [load_eq_ok_iff]
    constructor
    · rintro ⟨user, project, huser, hproject, rfl, hvalid⟩
      obtain ⟨hwell, rfl⟩ := userLayer_eq_ok_iff.mp huser
      obtain ⟨hreadable, hwell', rfl⟩ := projectLayer_eq_ok_iff.mp hproject
      exact ⟨hwell, hreadable, hwell', hmerged, hvalid⟩
    · rintro ⟨hwell, hreadable, hwell', hsettles, hvalid⟩
      exact ⟨_, _, userLayer_eq_ok_iff.mpr ⟨hwell, rfl⟩,
        projectLayer_eq_ok_iff.mpr ⟨hreadable, hwell', rfl⟩, hmerged.unique hsettles, hvalid⟩
  · intro e h
    by_cases hwell : (userFile around).Malformed
    · exact .inl hwell
    by_cases hreadable : projectFile around root = .unreadable
    · exact .inr (.inl hreadable)
    by_cases hwell' : (projectFile around root).Malformed
    · exact .inr (.inr (.inl hwell'))
    refine .inr (.inr (.inr ⟨_, hmerged, fault_of_validate ?_⟩))
    rw [load_eq (userLayer_eq_ok_iff.mpr ⟨hwell, rfl⟩)
      (projectLayer_eq_ok_iff.mpr ⟨hreadable, hwell', rfl⟩)] at h
    cases hvalid : (merged (userFile around).settings (projectFile around root).settings around
        overrides).validate with
    | error cause =>
        rw [hvalid] at h
        have hcause : cause = e := Except.error.inj h
        exact congrArg _ hcause
    | ok _ =>
        rw [hvalid] at h
        cases h

end CodeAtlas.Config
