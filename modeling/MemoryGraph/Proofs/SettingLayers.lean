-- SUMMARY: Every setting is resolved from its own keys: the file outweighs the environment, and this the default.
import MemoryGraph.Proofs.Numerals
import MemoryGraph.Settings

/-!
# Layers of settings

A layer is what a file or an environment gives for each setting, possibly
nothing, and overriding settings by a layer changes those for which it gives
something. Both layers read a setting from keys of its own. Resolved settings
therefore are, one by one, what the file says, or else what the environment
says, or else the default, and nothing that is said about other settings counts.
-/
namespace MemoryGraph

open Text

/-! ## Settings by name -/

/-- The settings, by name. -/
inductive Setting where
  | dbPath
  | embeddingEndpoint
  | embeddingModel
  | embeddingApiKey
  | embeddingTimeoutSeconds
  | searchLimit
  | importMode
  deriving DecidableEq

namespace Setting

/-- What a setting can be. -/
abbrev Value : Setting → Type
  | .dbPath | .embeddingModel => String
  | .embeddingEndpoint | .embeddingApiKey => Option String
  | .embeddingTimeoutSeconds | .searchLimit => Nat
  | .importMode => ImportMode

/-- All settings, in the order in which a layer overrides them. -/
def all : List Setting :=
  [.dbPath, .embeddingEndpoint, .embeddingModel, .embeddingApiKey, .embeddingTimeoutSeconds,
    .searchLimit, .importMode]

theorem mem_all (setting : Setting) : setting ∈ all := by cases setting <;> decide

theorem nodup_all : all.Nodup := by decide

/-- The key of a setting, both in a file and as a variable. -/
def key : Setting → String
  | .dbPath => dbPathKey
  | .embeddingEndpoint => endpointKey
  | .embeddingModel => modelKey
  | .embeddingApiKey => apiKeyKey
  | .embeddingTimeoutSeconds => timeoutKey
  | .searchLimit => searchLimitKey
  | .importMode => importModeKey

/-- The variables that have a say in a setting. -/
def sources : Setting → List String
  | .embeddingApiKey => [apiKeyKey, fallbackApiKey]
  | setting => [setting.key]

/-- What a setting is when nothing is said about it. -/
def initial : (setting : Setting) → setting.Value
  | .dbPath => "graph-memory.db"
  | .embeddingEndpoint => none
  | .embeddingModel => "text-embedding-3-small"
  | .embeddingApiKey => none
  | .embeddingTimeoutSeconds => (30 : Nat)
  | .searchLimit => (20 : Nat)
  | .importMode => .bestEffort

end Setting

namespace Settings

/-- What a setting is. -/
def value (settings : Settings) : (setting : Setting) → setting.Value
  | .dbPath => settings.dbPath
  | .embeddingEndpoint => settings.embeddingEndpoint
  | .embeddingModel => settings.embeddingModel
  | .embeddingApiKey => settings.embeddingApiKey
  | .embeddingTimeoutSeconds => settings.embeddingTimeoutSeconds
  | .searchLimit => settings.searchLimit
  | .importMode => settings.importMode

/-- Change one setting. -/
def put (settings : Settings) : (setting : Setting) → setting.Value → Settings
  | .dbPath, path => { settings with dbPath := path }
  | .embeddingEndpoint, endpoint => { settings with embeddingEndpoint := endpoint }
  | .embeddingModel, model => { settings with embeddingModel := model }
  | .embeddingApiKey, key => { settings with embeddingApiKey := key }
  | .embeddingTimeoutSeconds, seconds => { settings with embeddingTimeoutSeconds := seconds }
  | .searchLimit, limit => { settings with searchLimit := limit }
  | .importMode, mode => { settings with importMode := mode }

theorem value_put_self (settings : Settings) (setting : Setting) (v : setting.Value) :
    (settings.put setting v).value setting = v := by
  cases setting <;> rfl

theorem value_put_of_ne (settings : Settings) {setting other : Setting} (h : other ≠ setting)
    (v : setting.Value) : (settings.put setting v).value other = settings.value other := by
  cases setting <;> cases other <;> simp_all [value, put]

/-- Change a setting to what a layer gives for it, if anything. -/
def overrideOne (given : (setting : Setting) → Option setting.Value) (settings : Settings)
    (setting : Setting) : Settings :=
  match given setting with
  | some v => settings.put setting v
  | none => settings

/-- Change every setting to what a layer gives for it. -/
def override (settings : Settings) (given : (setting : Setting) → Option setting.Value) :
    Settings :=
  Setting.all.foldl (overrideOne given) settings

theorem value_overrideOne (given : (setting : Setting) → Option setting.Value)
    (settings : Settings) (setting other : Setting) :
    (settings.overrideOne given setting).value other =
      if other = setting then (given other).getD (settings.value other)
      else settings.value other := by
  unfold overrideOne
  by_cases h : other = setting
  · subst h
    rw [if_pos rfl]
    cases given other with
    | none => rfl
    | some v => exact settings.value_put_self other v
  · rw [if_neg h]
    cases given setting with
    | none => rfl
    | some v => exact settings.value_put_of_ne h v

theorem value_foldl_overrideOne (given : (setting : Setting) → Option setting.Value)
    {changed : List Setting} (hnodup : changed.Nodup) (settings : Settings) (setting : Setting) :
    (changed.foldl (overrideOne given) settings).value setting =
      if setting ∈ changed then (given setting).getD (settings.value setting)
      else settings.value setting := by
  induction changed generalizing settings with
  | nil => rfl
  | cons first rest ih =>
    rw [List.nodup_cons] at hnodup
    rw [List.foldl_cons, ih hnodup.2, value_overrideOne]
    by_cases h : setting = first
    · subst h
      simp [hnodup.1]
    · simp [h]

/-- A layer has a say in a setting where it gives something for it. -/
theorem value_override (settings : Settings) (given : (setting : Setting) → Option setting.Value)
    (setting : Setting) :
    (settings.override given).value setting = (given setting).getD (settings.value setting) := by
  rw [override, value_foldl_overrideOne given Setting.nodup_all, if_pos setting.mem_all]

end Settings

/-! ## Layers -/

/-- A text, where a blank one counts as none. -/
def nonBlankText (text : String) : Option String := usable (some text)

/-- The mode that a text names, if any. -/
def mode? (text : String) : Option ImportMode := (ImportMode.parse text).toOption

theorem mode?_eq : mode? = fun text => (ImportMode.parse text).toOption := rfl

/-- A number that a variable gives is the one that its text denotes, blanks around it apart. -/
theorem naturalOfText?_eq_some {text : String} {n : Nat} :
    naturalOfText? text = some n ↔ Numeral .unsigned64 (trimChars text.toList) n := by
  have hread {m : Int} : readNumeral .unsigned64 (trim text) = .ok m ↔
      Numeral .unsigned64 (trimChars text.toList) m := by
    rw [readNumeral, toList_trim, readNumeralChars_eq_ok IntegerRange.unsigned64_aroundZero]
  rw [← hread, naturalOfText?]
  cases h : readNumeral .unsigned64 (trim text) with
  | error _ => simp [Except.toOption]
  | ok m =>
    have hnonneg : 0 ≤ m := (IntegerRange.holds_iff.1 (hread.1 h).holds).1
    simp only [Except.toOption, Option.map_some, Option.some.injEq, Except.ok.injEq]
    omega

/-- What an environment gives for a setting. -/
def Setting.inEnvironment (env : Environment) : (setting : Setting) → Option setting.Value
  | .dbPath => usable (env dbPathKey)
  | .embeddingEndpoint => (env endpointKey).map nonBlankText
  | .embeddingModel => usable (env modelKey)
  | .embeddingApiKey => ((usable (env apiKeyKey)).or (usable (env fallbackApiKey))).map some
  | .embeddingTimeoutSeconds => (env timeoutKey).bind naturalOfText?
  | .searchLimit => (env searchLimitKey).bind naturalOfText?
  | .importMode => (env importModeKey).bind mode?

/-- Variables override the defaults one setting after the other; the stand-in for an API key counts
where no key is given. -/
theorem Settings.withEnvironment_eq (env : Environment) :
    ({} : Settings).withEnvironment env = ({} : Settings).override (Setting.inEnvironment env) := by
  unfold withEnvironment
  extract_lets s₁ s₂ s₃ s₄ s₅ s₆ s₇
  have h₁ : s₁ = overrideOne (Setting.inEnvironment env) {} .dbPath := by
    simp only [s₁, overrideOne, Setting.inEnvironment]
    cases usable (env dbPathKey) <;> rfl
  have h₂ : s₂ = s₁.overrideOne (Setting.inEnvironment env) .embeddingEndpoint := by
    simp only [s₂, overrideOne, Setting.inEnvironment]
    cases env endpointKey <;> rfl
  have h₃ : s₃ = s₂.overrideOne (Setting.inEnvironment env) .embeddingModel := by
    simp only [s₃, overrideOne, Setting.inEnvironment]
    cases usable (env modelKey) <;> rfl
  have hnone : s₃.embeddingApiKey = none := by
    change s₃.value .embeddingApiKey = none
    rw [h₃, value_overrideOne, h₂, value_overrideOne, h₁, value_overrideOne]
    rfl
  have h₅ : s₅ = s₃.overrideOne (Setting.inEnvironment env) .embeddingApiKey := by
    simp only [s₅, s₄, overrideOne, Setting.inEnvironment]
    cases usable (env apiKeyKey) <;> cases usable (env fallbackApiKey) <;> simp [hnone, put]
  have h₆ : s₆ = s₅.overrideOne (Setting.inEnvironment env) .embeddingTimeoutSeconds := by
    simp only [s₆, overrideOne, Setting.inEnvironment]
    cases (env timeoutKey).bind naturalOfText? <;> rfl
  have h₇ : s₇ = s₆.overrideOne (Setting.inEnvironment env) .searchLimit := by
    simp only [s₇, overrideOne, Setting.inEnvironment]
    cases (env searchLimitKey).bind naturalOfText? <;> rfl
  rw [override, Setting.all]
  simp only [List.foldl_cons, List.foldl_nil, ← h₁, ← h₂, ← h₃, ← h₅, ← h₆, ← h₇]
  simp only [overrideOne, Setting.inEnvironment, ← mode?_eq]
  cases (env importModeKey).bind mode? <;> rfl

/-- What the settings of a file give for a setting. -/
def FileSettings.given (file : FileSettings) : (setting : Setting) → Option setting.Value
  | .dbPath => file.dbPath
  | .embeddingEndpoint => file.embeddingEndpoint.map nonBlankText
  | .embeddingModel => file.embeddingModel
  | .embeddingApiKey => file.embeddingApiKey.map nonBlankText
  | .embeddingTimeoutSeconds => file.embeddingTimeoutSeconds
  | .searchLimit => file.searchLimit
  | .importMode => file.importMode.bind mode?

theorem Settings.withFile_eq (settings : Settings) (file : FileSettings) :
    settings.withFile file = settings.override file.given := by
  unfold withFile
  extract_lets s₁ s₂ s₃ s₄ s₅ s₆
  have h₁ : s₁ = settings.overrideOne file.given .dbPath := by
    simp only [s₁, overrideOne, FileSettings.given]
    cases file.dbPath <;> rfl
  have h₂ : s₂ = s₁.overrideOne file.given .embeddingEndpoint := by
    simp only [s₂, overrideOne, FileSettings.given]
    cases file.embeddingEndpoint <;> rfl
  have h₃ : s₃ = s₂.overrideOne file.given .embeddingModel := by
    simp only [s₃, overrideOne, FileSettings.given]
    cases file.embeddingModel <;> rfl
  have h₄ : s₄ = s₃.overrideOne file.given .embeddingApiKey := by
    simp only [s₄, overrideOne, FileSettings.given]
    cases file.embeddingApiKey <;> rfl
  have h₅ : s₅ = s₄.overrideOne file.given .embeddingTimeoutSeconds := by
    simp only [s₅, overrideOne, FileSettings.given]
    cases file.embeddingTimeoutSeconds <;> rfl
  have h₆ : s₆ = s₅.overrideOne file.given .searchLimit := by
    simp only [s₆, overrideOne, FileSettings.given]
    cases file.searchLimit <;> rfl
  rw [override, Setting.all]
  simp only [List.foldl_cons, List.foldl_nil, ← h₁, ← h₂, ← h₃, ← h₄, ← h₅, ← h₆]
  simp only [overrideOne, FileSettings.given, ← mode?_eq]
  cases file.importMode.bind mode? <;> rfl

/-! ## The entries of a file -/

/-- The text of a value that counts as one: a string, or a moment in its usual form. -/
def Toml.text? : Toml → Option String
  | .string text | .moment text => some text
  | _ => none

/-- The natural number that a value is. -/
def Toml.natural? : Toml → Option Nat
  | .integer n => if 0 ≤ n then some n.toNat else none
  | _ => none

/-- What the entries of a file give for a setting: the value of its key, if present. -/
def Setting.inFile (entries : List (String × Toml)) : (setting : Setting) → Option setting.Value
  | .dbPath => (entries.lookup dbPathKey).bind Toml.text?
  | .embeddingEndpoint => ((entries.lookup endpointKey).bind Toml.text?).map nonBlankText
  | .embeddingModel => (entries.lookup modelKey).bind Toml.text?
  | .embeddingApiKey => ((entries.lookup apiKeyKey).bind Toml.text?).map nonBlankText
  | .embeddingTimeoutSeconds => (entries.lookup timeoutKey).bind Toml.natural?
  | .searchLimit => (entries.lookup searchLimitKey).bind Toml.natural?
  | .importMode => ((entries.lookup importModeKey).bind Toml.text?).bind mode?

/-- Whether a value has the type that a setting asks for. -/
def Setting.Fits : Setting → Toml → Prop
  | .embeddingTimeoutSeconds, v | .searchLimit, v => ∃ n : Nat, v = .integer n
  | _, v => ∃ text, v = .string text ∨ v = .moment text

/-- Entries of which every known key has a value of its type. -/
def Fit (entries : List (String × Toml)) : Prop :=
  ∀ setting v, entries.lookup (Setting.key setting) = some v → setting.Fits v

theorem Toml.isSome_text?_iff {v : Toml} :
    v.text?.isSome = true ↔ ∃ text, v = .string text ∨ v = .moment text := by
  cases v <;> simp [text?]

theorem Toml.isSome_natural?_iff {v : Toml} :
    v.natural?.isSome = true ↔ ∃ n : Nat, v = .integer n := by
  cases v with
  | integer n =>
    rw [natural?]
    constructor
    · intro h
      split at h
      · rename_i hn
        exact ⟨n.toNat, by rw [Int.toNat_of_nonneg hn]⟩
      · cases h
    · rintro ⟨m, h⟩
      cases h
      rfl
  | _ => simp [natural?]

theorem Setting.forall_iff {p : Setting → Prop} : (∀ setting, p setting) ↔
    p .dbPath ∧ p .embeddingEndpoint ∧ p .embeddingModel ∧ p .embeddingApiKey ∧
      p .embeddingTimeoutSeconds ∧ p .searchLimit ∧ p .importMode := by
  constructor
  · intro h
    exact ⟨h _, h _, h _, h _, h _, h _, h _⟩
  · rintro ⟨hpath, hendpoint, hmodel, hkey, hseconds, hlimit, hmode⟩ setting
    cases setting <;> assumption

namespace FileSettings

variable {entries : List (String × Toml)} {key : String}

theorem fit_iff : Fit entries ↔
    (∀ v, entries.lookup dbPathKey = some v → v.text?.isSome = true) ∧
    (∀ v, entries.lookup endpointKey = some v → v.text?.isSome = true) ∧
    (∀ v, entries.lookup modelKey = some v → v.text?.isSome = true) ∧
    (∀ v, entries.lookup apiKeyKey = some v → v.text?.isSome = true) ∧
    (∀ v, entries.lookup timeoutKey = some v → v.natural?.isSome = true) ∧
    (∀ v, entries.lookup searchLimitKey = some v → v.natural?.isSome = true) ∧
    ∀ v, entries.lookup importModeKey = some v → v.text?.isSome = true := by
  simp only [Toml.isSome_text?_iff, Toml.isSome_natural?_iff]
  exact Setting.forall_iff

/-- A key that may be absent but must be of a kind is read when its value is of that kind. -/
theorem text?_eq_some {x : Option String} : text? entries key = some x ↔
    (∀ v, entries.lookup key = some v → v.text?.isSome = true) ∧
      (entries.lookup key).bind Toml.text? = x := by
  unfold text?
  cases h : entries.lookup key with
  | none => simp
  | some v => cases v <;> simp [Toml.text?]

theorem natural?_eq_some {x : Option Nat} : natural? entries key = some x ↔
    (∀ v, entries.lookup key = some v → v.natural?.isSome = true) ∧
      (entries.lookup key).bind Toml.natural? = x := by
  unfold natural?
  cases h : entries.lookup key with
  | none => simp
  | some v =>
    cases v with
    | integer n =>
      by_cases hn : 0 ≤ n <;> simp [Toml.natural?, hn]
    | _ => simp [Toml.natural?]

/-- The settings of entries in which every known key has a value of its type. -/
def ofFit (entries : List (String × Toml)) : FileSettings where
  dbPath := (entries.lookup dbPathKey).bind Toml.text?
  embeddingEndpoint := (entries.lookup endpointKey).bind Toml.text?
  embeddingModel := (entries.lookup modelKey).bind Toml.text?
  embeddingApiKey := (entries.lookup apiKeyKey).bind Toml.text?
  embeddingTimeoutSeconds := (entries.lookup timeoutKey).bind Toml.natural?
  searchLimit := (entries.lookup searchLimitKey).bind Toml.natural?
  importMode := (entries.lookup importModeKey).bind Toml.text?

theorem given_ofFit (entries : List (String × Toml)) (setting : Setting) :
    (ofFit entries).given setting = setting.inFile entries := by
  cases setting <;> rfl

theorem ofEntries?_eq_ofFit (h : Fit entries) : ofEntries? entries = some (ofFit entries) := by
  obtain ⟨hpath, hendpoint, hmodel, hkey, hseconds, hlimit, hmode⟩ := fit_iff.1 h
  simp only [ofEntries?, text?_eq_some.2 ⟨hpath, rfl⟩, text?_eq_some.2 ⟨hendpoint, rfl⟩,
    text?_eq_some.2 ⟨hmodel, rfl⟩, text?_eq_some.2 ⟨hkey, rfl⟩, natural?_eq_some.2 ⟨hseconds, rfl⟩,
    natural?_eq_some.2 ⟨hlimit, rfl⟩, text?_eq_some.2 ⟨hmode, rfl⟩, Option.bind_eq_bind,
    Option.bind_some, Option.pure_def]
  rfl

theorem ofEntries?_eq_none (h : ¬ Fit entries) : ofEntries? entries = none := by
  cases hfile : ofEntries? entries with
  | none => rfl
  | some file =>
    simp only [ofEntries?, Option.bind_eq_bind, Option.bind_eq_some_iff, text?_eq_some,
      natural?_eq_some] at hfile
    obtain ⟨_, ⟨hpath, _⟩, _, ⟨hendpoint, _⟩, _, ⟨hmodel, _⟩, _, ⟨hkey, _⟩, _, ⟨hseconds, _⟩, _,
      ⟨hlimit, _⟩, _, ⟨hmode, _⟩, _⟩ := hfile
    exact absurd (fit_iff.2 ⟨hpath, hendpoint, hmodel, hkey, hseconds, hlimit, hmode⟩) h

/-- The settings of a text are those of the entries of a document. -/
theorem ofText?_eq_some {text : String} {file : FileSettings} (h : ofText? text = some file) :
    ∃ entries, allBlank text = false ∧ Toml.read? text = some entries ∧ Fit entries ∧
      ofFit entries = file := by
  unfold ofText? at h
  split at h
  · cases h
  · rename_i hblank
    obtain ⟨entries, hread, hentries⟩ := Option.bind_eq_some_iff.1 h
    have hfit : Fit entries := by
      by_contra hno
      rw [ofEntries?_eq_none hno] at hentries
      cases hentries
    rw [ofEntries?_eq_ofFit hfit] at hentries
    exact ⟨entries, Bool.eq_false_iff.2 hblank, hread, hfit, Option.some.inj hentries⟩

end FileSettings

/-- The entries that the text of a file comes to: its own when it is a document in which every known
key has a value of its type, and otherwise none. -/
inductive ComesTo : String → List (String × Toml) → Prop where
  | document {text : String} {entries : List (String × Toml)} : allBlank text = false →
      Toml.read? text = some entries → Fit entries → ComesTo text entries
  | blank {text : String} : allBlank text = true → ComesTo text []
  | unread {text : String} : Toml.read? text = none → ComesTo text []
  | unfit {text : String} {entries : List (String × Toml)} :
      Toml.read? text = some entries → ¬ Fit entries → ComesTo text []

theorem exists_comesTo (text : String) : ∃ entries, ComesTo text entries := by
  by_cases hblank : allBlank text = true
  · exact ⟨[], .blank hblank⟩
  · cases hread : Toml.read? text with
    | none => exact ⟨[], .unread hread⟩
    | some entries =>
      by_cases hfit : Fit entries
      · exact ⟨entries, .document (by simpa using hblank) hread hfit⟩
      · exact ⟨[], .unfit hread hfit⟩

/-! ## Resolved settings -/

/-- What the first of two layers that has a say gives, or else the default. -/
def layered {α : Type} (file environment : Option α) (default : α) : α :=
  (file.or environment).getD default

namespace Settings

/-- Every setting is what the layers give for it. -/
def Resolved (settings : Settings) (env : Environment) (entries : List (String × Toml)) : Prop :=
  ∀ setting : Setting, settings.value setting =
    layered (setting.inFile entries) (setting.inEnvironment env) setting.initial

variable {settings other : Settings} {env env' : Environment}
  {entries entries' : List (String × Toml)}

theorem value_withEnvironment (env : Environment) (setting : Setting) :
    (({} : Settings).withEnvironment env).value setting =
      (setting.inEnvironment env).getD setting.initial := by
  rw [withEnvironment_eq, value_override]
  cases setting <;> rfl

/-- An environment alone counts like a file without entries. -/
theorem resolved_withEnvironment (env : Environment) :
    (({} : Settings).withEnvironment env).Resolved env [] := by
  intro setting
  have hnone : setting.inFile [] = none := by cases setting <;> rfl
  rw [value_withEnvironment, layered, hnone, Option.none_or]

theorem resolved_withFile (env : Environment) (entries : List (String × Toml)) :
    ((({} : Settings).withEnvironment env).withFile (.ofFit entries)).Resolved env entries := by
  intro setting
  rw [withFile_eq, value_override, FileSettings.given_ofFit, value_withEnvironment, layered]
  cases setting.inFile entries <;> rfl

theorem ofText_eq_of_unfit {text : String} (h : allBlank text = true ∨
    ∀ entries, Toml.read? text = some entries → ¬ Fit entries) :
    ofText env text = ({} : Settings).withEnvironment env := by
  have hnone : FileSettings.ofText? text = none := by
    unfold FileSettings.ofText?
    rcases h with hblank | hunfit
    · rw [if_pos hblank]
    · split
      · rfl
      · cases hread : Toml.read? text with
        | none => rfl
        | some entries => exact FileSettings.ofEntries?_eq_none (hunfit entries hread)
  rw [ofText, hnone]

theorem ofText_eq_of_fit {text : String} (hblank : allBlank text = false)
    (hread : Toml.read? text = some entries) (hfit : Fit entries) :
    ofText env text = (({} : Settings).withEnvironment env).withFile (.ofFit entries) := by
  have hsome : FileSettings.ofText? text = some (.ofFit entries) := by
    rw [FileSettings.ofText?, hblank, hread]
    exact FileSettings.ofEntries?_eq_ofFit hfit
  rw [ofText, hsome]

/-- The settings of a text are those of the entries that it comes to. -/
theorem resolved_ofText {text : String} (h : ComesTo text entries) :
    (ofText env text).Resolved env entries := by
  cases h with
  | document hblank hread hfit =>
    rw [ofText_eq_of_fit hblank hread hfit]
    exact resolved_withFile env entries
  | blank hblank =>
    rw [ofText_eq_of_unfit (.inl hblank)]
    exact resolved_withEnvironment env
  | unread hread =>
    rw [ofText_eq_of_unfit (.inr (by simp [hread]))]
    exact resolved_withEnvironment env
  | unfit hread hfit =>
    rw [ofText_eq_of_unfit (.inr (by simpa [hread] using hfit))]
    exact resolved_withEnvironment env

/-! ## Own keys -/

theorem inEnvironment_congr {setting : Setting}
    (h : ∀ name ∈ setting.sources, env name = env' name) :
    setting.inEnvironment env = setting.inEnvironment env' := by
  cases setting <;> simp_all [Setting.inEnvironment, Setting.sources, Setting.key]

theorem inFile_congr {setting : Setting}
    (h : entries.lookup setting.key = entries'.lookup setting.key) :
    setting.inFile entries = setting.inFile entries' := by
  cases setting <;> simp_all [Setting.inFile, Setting.key]

theorem Resolved.value_congr (h : settings.Resolved env entries)
    (hother : other.Resolved env' entries') {setting : Setting}
    (henv : ∀ name ∈ setting.sources, env name = env' name)
    (hfile : entries.lookup setting.key = entries'.lookup setting.key) :
    settings.value setting = other.value setting := by
  rw [h setting, hother setting, inEnvironment_congr henv, inFile_congr hfile]

/-- Settings that are alike by name are the same. -/
theorem eq_of_value (h : ∀ setting, settings.value setting = other.value setting) :
    settings = other := by
  obtain ⟨hpath, hendpoint, hmodel, hkey, hseconds, hlimit, hmode⟩ := Setting.forall_iff.1 h
  cases settings
  cases other
  simp_all [value]

theorem fit_congr
    (h : ∀ setting : Setting, entries.lookup setting.key = entries'.lookup setting.key) :
    Fit entries ↔ Fit entries' := by
  unfold Fit
  simp only [h]

/-- Two documents that agree on the known keys give the same settings. -/
theorem ofText_congr {text text' : String} (hblank : allBlank text = false)
    (hblank' : allBlank text' = false) (hread : Toml.read? text = some entries)
    (hread' : Toml.read? text' = some entries')
    (h : ∀ setting : Setting, entries.lookup setting.key = entries'.lookup setting.key) :
    ofText env text = ofText env text' := by
  by_cases hfit : Fit entries
  · have hfit' := (fit_congr h).1 hfit
    refine eq_of_value fun setting => ?_
    exact (resolved_ofText (.document hblank hread hfit)).value_congr
      (resolved_ofText (.document hblank' hread' hfit')) (fun _ _ => rfl) (h setting)
  · have hfit' : ¬ Fit entries' := fun hfit' => hfit ((fit_congr h).2 hfit')
    rw [ofText_eq_of_unfit (.inr (by simpa [hread] using hfit)),
      ofText_eq_of_unfit (.inr (by simpa [hread'] using hfit'))]

/-! ## Embedders -/

theorem nonBlankText_eq_some {text kept : String} (h : nonBlankText text = some kept) :
    allBlank kept = false := by
  rw [nonBlankText, usable, Option.filter_eq_some_iff] at h
  simpa using h.2

/-- An endpoint is never blank, whatever layer it comes from. -/
theorem Resolved.endpoint_not_blank (h : settings.Resolved env entries) {endpoint : String}
    (hendpoint : settings.embeddingEndpoint = some endpoint) : allBlank endpoint = false := by
  have hlayers : settings.embeddingEndpoint =
      ((((entries.lookup endpointKey).bind Toml.text?).or (env endpointKey)).map
        nonBlankText).getD none := by
    rw [Option.map_or]
    exact h .embeddingEndpoint
  cases htext : ((entries.lookup endpointKey).bind Toml.text?).or (env endpointKey) with
  | none =>
    rw [hlayers, htext] at hendpoint
    cases hendpoint
  | some text =>
    rw [hlayers, htext] at hendpoint
    exact nonBlankText_eq_some hendpoint

/-- The embedder of resolved settings answers exactly when they ask for one. -/
theorem Resolved.isEnabled_embedder (h : settings.Resolved env entries) (send : Transport) :
    (settings.embedder send).isEnabled = settings.usesEmbeddings := by
  cases hendpoint : settings.embeddingEndpoint with
  | none => simp [embedder, service?, usesEmbeddings, hendpoint, Embedder.isEnabled]
  | some endpoint =>
    have hblank := h.endpoint_not_blank hendpoint
    simp [embedder, service?, usesEmbeddings, hendpoint, EmbeddingService.embedder,
      EmbeddingService.isEnabled, hblank, Embedder.isEnabled]

/-! ## Loading -/

theorem exists_resolved_of_load {path : String} {isExplicit : Bool} {file : FileContent}
    (h : load env path isExplicit file = .ok settings) :
    ∃ entries, settings.Resolved env entries := by
  cases file with
  | absent =>
    rw [load] at h
    split at h
    · cases h
    · cases h
      exact ⟨[], resolved_withEnvironment env⟩
  | unreadable => cases h
  | text content =>
    cases h
    obtain ⟨entries, hentries⟩ := exists_comesTo content
    exact ⟨entries, resolved_ofText hentries⟩

/-- Layers resolve key by key: a file that is a text always gives settings, and each of them is what
the file says under its key, or else what its variables say, or else the default. What the file says
is said by the entries that its text is read into. A file whose text gives nothing counts as none,
and other keys have no say in a setting. Whichever way settings were resolved, their embedder
answers exactly when they say so. -/
theorem settings_resolve_by_key (env : Environment) (path : String) (isExplicit : Bool) :
    (∀ bytes, String.fromUTF8? bytes = none →
      load env path isExplicit (.ofBytes bytes) = .error (.unreadableFile path)) ∧
    (∀ text, ∃ entries, ComesTo text entries) ∧
    (∀ bytes text entries, String.fromUTF8? bytes = some text → ComesTo text entries →
      ∃ settings, load env path isExplicit (.ofBytes bytes) = .ok settings ∧
        settings.Resolved env entries) ∧
    (∀ bytes text, String.fromUTF8? bytes = some text → (allBlank text = true ∨
        ∀ entries, Toml.read? text = some entries → ¬ Fit entries) →
      load env path isExplicit (.ofBytes bytes) = load env path false .absent) ∧
    (∃ settings, load env path false .absent = .ok settings ∧ settings.Resolved env []) ∧
    (∀ (setting : Setting) (env' : Environment) (entries entries' : List (String × Toml))
        (settings other : Settings), settings.Resolved env entries → other.Resolved env' entries' →
      (∀ name ∈ setting.sources, env name = env' name) →
      entries.lookup setting.key = entries'.lookup setting.key →
      settings.value setting = other.value setting) ∧
    (∀ text n, naturalOfText? text = some n ↔ Numeral .unsigned64 (trimChars text.toList) n) ∧
    (∀ (text text' : String) (entries entries' : List (String × Toml)), allBlank text = false →
      allBlank text' = false → Toml.read? text = some entries → Toml.read? text' = some entries' →
      (∀ setting : Setting, entries.lookup setting.key = entries'.lookup setting.key) →
      load env path isExplicit (.text text) = load env path isExplicit (.text text')) ∧
    ∀ file settings, load env path isExplicit file = .ok settings →
      ∀ send, (settings.embedder send).isEnabled = settings.usesEmbeddings := by
  refine ⟨?_, exists_comesTo, ?_, ?_, ⟨_, rfl, resolved_withEnvironment env⟩, ?_,
    fun _ _ => naturalOfText?_eq_some, ?_, ?_⟩
  · intro bytes hbytes
    rw [FileContent.ofBytes, hbytes]
    rfl
  · intro bytes text entries hbytes hentries
    refine ⟨ofText env text, ?_, resolved_ofText hentries⟩
    rw [FileContent.ofBytes, hbytes]
    rfl
  · intro bytes text hbytes hunfit
    rw [FileContent.ofBytes, hbytes]
    exact congrArg Except.ok (ofText_eq_of_unfit hunfit)
  · intro setting env' entries entries' settings other h hother henv hfile
    exact h.value_congr hother henv hfile
  · intro text text' entries entries' hblank hblank' hread hread' hlookup
    exact congrArg Except.ok (ofText_congr hblank hblank' hread hread' hlookup)
  · intro file settings hload
    obtain ⟨entries, h⟩ := exists_resolved_of_load hload
    exact h.isEnabled_embedder

theorem fromUTF8?_toUTF8 (text : String) : String.fromUTF8? text.toUTF8 = some text :=
  dif_pos text.isValidUTF8

/-- A file that takes the endpoint of the environment back, and one that is spoilt by a limit below
zero. -/
theorem settings_of_both_layers :
    let env : Environment := fun name =>
      [(endpointKey, "http://localhost"), (fallbackApiKey, "key"), (searchLimitKey, " +5 "),
        (importModeKey, "Atomic")].lookup name
    (∃ settings,
      load env "graph.toml" true (.ofBytes "GRAPH_MEMORY_EMBEDDING_ENDPOINT=' '".toUTF8) =
        .ok settings ∧
      settings.embeddingEndpoint = none ∧ settings.embeddingApiKey = some "key" ∧
      settings.searchLimit = 5 ∧ settings.importMode = .atomic) ∧
    load env "graph.toml" true (.ofBytes "GRAPH_MEMORY_SEARCH_LIMIT=-7".toUTF8) =
      load env "graph.toml" false .absent := by
  intro env
  obtain ⟨_, _, hload, hunfit, _⟩ := settings_resolve_by_key env "graph.toml" true
  constructor
  · have hfile : FileSettings.ofText? "GRAPH_MEMORY_EMBEDDING_ENDPOINT=' '" =
        some ⟨none, some " ", none, none, none, none, none⟩ := by decide +kernel
    obtain ⟨entries, hblank, hread, hfit, hgiven⟩ := FileSettings.ofText?_eq_some hfile
    obtain ⟨settings, hok, hresolved⟩ :=
      hload _ _ _ (fromUTF8?_toUTF8 _) (.document hblank hread hfit)
    have hvalue (setting : Setting) := hresolved setting
    simp only [← FileSettings.given_ofFit, hgiven] at hvalue
    exact ⟨settings, hok, hvalue .embeddingEndpoint, hvalue .embeddingApiKey, hvalue .searchLimit,
      hvalue .importMode⟩
  · refine hunfit _ _ (fromUTF8?_toUTF8 _) (.inr ?_)
    intro entries hread hfit
    have hnone : FileSettings.ofText? "GRAPH_MEMORY_SEARCH_LIMIT=-7" = none := by decide +kernel
    rw [FileSettings.ofText?, if_neg (by decide), hread, Option.bind_some,
      FileSettings.ofEntries?_eq_ofFit hfit] at hnone
    cases hnone

/-- Bytes that are no text give no settings at all. A date under a key that asks for a text counts
as one, and so does a moment, in its usual form and not as it is written: with a `T` before the
time, a capital `Z`, and no zeros at the end of a fraction. -/
theorem settings_not_of_environment :
    load (fun _ => none) "graph.toml" true (.ofBytes ⟨#[0xff, 0xfe, 0x00]⟩) =
      .error (.unreadableFile "graph.toml") ∧
    load (fun _ => none) "graph.toml" true (.text "GRAPH_MEMORY_DB_PATH=1979-05-27") =
      .ok { dbPath := "1979-05-27" } ∧
    load (fun _ => none) "graph.toml" true
        (.text "GRAPH_MEMORY_DB_PATH=1979-05-27 07:32:00.50z") =
      .ok { dbPath := "1979-05-27T07:32:00.5Z" } ∧
    load (fun _ => none) "graph.toml" false .absent = .ok {} := by
  refine ⟨?_, ?_, ?_, ?_⟩
  · have hbytes : String.fromUTF8? ⟨#[0xff, 0xfe, 0x00]⟩ = none := by decide
    rw [FileContent.ofBytes, hbytes]
    rfl
  · have hfile : FileSettings.ofText? "GRAPH_MEMORY_DB_PATH=1979-05-27" =
        some ⟨some "1979-05-27", none, none, none, none, none, none⟩ := by decide +kernel
    rw [load, ofText, hfile]
    rfl
  · have hfile : FileSettings.ofText? "GRAPH_MEMORY_DB_PATH=1979-05-27 07:32:00.50z" =
        some ⟨some "1979-05-27T07:32:00.5Z", none, none, none, none, none, none⟩ := by
      decide +kernel
    rw [load, ofText, hfile]
    rfl
  · rfl

end Settings

end MemoryGraph
