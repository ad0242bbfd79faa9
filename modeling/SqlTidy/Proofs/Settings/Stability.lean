import SqlTidy.Log
import SqlTidy.Proofs.Settings.Resolution
import SqlTidy.Proofs.Sql.Words
import SqlTidy.Proofs.Text.Lowering

/-! Bringing settings into range once is enough: a second time nothing is changed and nothing is
worth a warning. The name of the log level is trimmed and lowered here, and again by the reader
of levels, but that makes no other level of it. -/
namespace SqlTidy

section Levels

/-- Lowering a row before trimming it takes the same glyphs away. -/
theorem trimRow_lowered (row : List Glyph) : trimRow (row.map Glyph.lowered) = (trimRow row).map Glyph.lowered := by
  have same : Glyph.isBlank ∘ Glyph.lowered = Glyph.isBlank := funext Glyph.isBlank_lowered
  simp only [trimRow,List.dropWhile_map,same,← List.map_reverse]

theorem lower_trim (text : Bytes) : lower (trim text) = trim (lower text) := by
  rw [lower_eq_spell,glyphs_trim,trim,glyphs_lower,trimRow_lowered]

theorem lower_trim_self (text : Bytes) : lower (trim (lower (trim text))) = lower (trim text) := by
  rw [← lower_trim,lower_lower,trim_trim]

end Levels

namespace Settings

theorem tidyLevel_ne_nil (level : Bytes) : tidyLevel level ≠ [] := by
  simp only [tidyLevel]
  split
  next => decide
  next some => simpa using some

theorem lower_trim_tidyLevel (level : Bytes) : lower (trim (tidyLevel level)) = tidyLevel level := by
  simp only [tidyLevel]
  split
  next => decide +kernel
  next => exact lower_trim_self level

theorem tidyLevel_tidyLevel (level : Bytes) : tidyLevel (tidyLevel level) = tidyLevel level := by
  rw [tidyLevel,lower_trim_tidyLevel]
  exact if_neg fun none => tidyLevel_ne_nil level (List.isEmpty_iff.mp none)

/-- The level that an empty name stands for is the one that is put in its place. -/
theorem ofSetting_tidyLevel (level : Bytes) : Log.Level.ofSetting (tidyLevel level) = Log.Level.ofSetting level := by
  rw [Log.Level.ofSetting,lower_trim_tidyLevel,Log.Level.ofSetting,tidyLevel]
  split
  next none =>
    rw [List.isEmpty_iff.mp none]
    decide
  next => rfl

theorem positiveOr_positiveOr (other n : Int) (positive : 0 < other) :
    positiveOr other (positiveOr other n) = positiveOr other n := by
  unfold positiveOr
  split <;> omega

theorem cacheSize_normalized (settings : Settings) : ¬settings.normalized.cacheSize < 0 := by
  simp only [normalized]
  split <;> omega

theorem normalized_normalized (settings : Settings) : settings.normalized.normalized = settings.normalized := by
  have size : (if settings.normalized.cacheSize < 0 then 0 else settings.normalized.cacheSize) =
      settings.normalized.cacheSize := if_neg settings.cacheSize_normalized
  rw [normalized,size]
  simp only [normalized,tidyLevel_tidyLevel,positiveOr_positiveOr 1048576 _ (by decide),
    positiveOr_positiveOr 1 _ (by decide),positiveOr_positiveOr 10 _ (by decide)]

theorem warnings_normalized (settings : Settings) : settings.normalized.warnings = [] :=
  if_neg settings.cacheSize_normalized

/-- Settings that are brought into range twice are those that are brought into range once, with
the same durations, and the second time there is no warning. The level that they name is the one
they named before. So whatever is loaded names the level that the value given for it names. -/
theorem normalized_stable (settings : Settings) :
    settings.normalized.normalized = settings.normalized ∧
    (∀ setting, settings.normalized.normalized.duration? setting = settings.normalized.duration? setting) ∧
    settings.normalized.warnings = [] ∧
    Log.Level.ofSetting settings.normalized.logLevel = Log.Level.ofSetting settings.logLevel ∧
    ∀ environment files loaded, load environment files = .ok loaded →
      ∃ value name, Resolves environment files .logLevel value ∧ textOf value = .ok name ∧
        Log.Level.ofSetting loaded.settings.logLevel = Log.Level.ofSetting name := by
  have twice := settings.normalized_normalized
  refine ⟨twice,fun setting => by rw [twice],settings.warnings_normalized,ofSetting_tidyLevel _,?_⟩
  intro environment files loaded ok
  obtain ⟨field,converted,brought⟩ := load_field Yaml.members? environment files loaded ok .logLevel
  rw [convert,if_pos rfl] at converted
  cases text : textOf (given environment (File.find Yaml.members? files) .logLevel) with
  | error cause => simp [text,Except.map] at converted
  | ok name =>
    rw [text] at converted
    obtain rfl : Field.text name = field := Except.ok.inj converted
    have level : loaded.settings.logLevel = tidyLevel name := Field.text.inj brought
    exact ⟨_,name,resolves_given Yaml.members? environment files .logLevel,text,by rw [level,ofSetting_tidyLevel]⟩

/-- A level between two kinds of white space, in capitals of which one is not ASCII, and a cache
of negative size, for which there is one warning. -/
theorem normalized_stable_capitals :
    let environment : Named := [(utf8 "CACHE_SIZE",utf8 "-5"),(utf8 "LOG_LEVEL",utf8 "\u2003WARN\u0130NG\n")]
    ∃ loaded, load environment [] = .ok loaded ∧ loaded.warnings = [.fileMissing,.negativeCache (-5)] ∧
      loaded.settings.normalized.warnings = [] ∧ Log.Level.ofSetting loaded.settings.logLevel = .warn := by
  intro environment
  have given : (textOf (given environment (File.find Yaml.members? []) .logLevel)).toOption = some (utf8 "\u2003WARN\u0130NG\n") := by
    decide +kernel
  have warned : (load environment []).toOption.map (·.warnings) = some [.fileMissing,.negativeCache (-5)] := by
    decide +kernel
  cases loading : load environment [] with
  | error faults => simp [loading,Except.toOption] at warned
  | ok loaded =>
    obtain ⟨_,_,silent,_,levels⟩ := normalized_stable loaded.settings
    obtain ⟨value,name,resolves,text,level⟩ := levels environment [] loaded loading
    rw [(resolves_iff Yaml.members? environment [] .logLevel value).mp resolves] at text
    obtain rfl : name = utf8 "\u2003WARN\u0130NG\n" := by simpa [text,Except.toOption] using given
    refine ⟨loaded,rfl,?_,silent,?_⟩
    · simpa [loading,Except.toOption] using warned
    · rw [level]
      decide +kernel

end Settings
end SqlTidy
