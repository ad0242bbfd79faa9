import SqlTidy.Proofs.Text.Lowering
import SqlTidy.Proofs.Yaml.Sheet
import SqlTidy.Settings.Load

/-! Each setting is resolved by itself. Its value is that of its variable, else that of its
own key in the one file that counts, else its fallback; the other settings have no part in
this. Loading fails exactly if some value does not convert and then reports every one that
does not. Otherwise each field is the value of its setting, converted and brought into
range. -/
namespace SqlTidy
open Ascii

namespace Bytes

end Bytes

theorem Setting.mem_all (setting : Setting) : setting ∈ all := by cases setting <;> decide

namespace Settings

section Sources

/-- The file that counts is the first one in the first directory that has any. -/
def InUse (files : Named) (text : Bytes) : Prop :=
  ∃ nearer directory further before name after,
    ["","../","config/"] = nearer ++ directory :: further ∧ fileNames = before ++ name :: after ∧
    files.lookup (utf8 directory ++ utf8 name) = some text ∧
    (∀ earlier ∈ nearer, ∀ name ∈ fileNames, files.lookup (utf8 earlier ++ utf8 name) = none) ∧
    ∀ earlier ∈ before, files.lookup (utf8 directory ++ utf8 earlier) = none

/-- The member that counts for a name in lower case: the first one whose key is that name with
capitals, or if there is none, the first one whose key is the name. -/
inductive Counts (members : List (Bytes × Yaml)) (name : Bytes) (value : Yaml) : Prop
  | capitals (before : List (Bytes × Yaml)) (key : Bytes) (after : List (Bytes × Yaml))
    (split : members = before ++ (key,value) :: after) (alike : lower key = name) (other : key ≠ name)
    (first : ∀ member ∈ before, lower member.1 = name → member.1 = name)
  | plain (before after : List (Bytes × Yaml)) (split : members = before ++ (name,value) :: after)
    (only : ∀ member ∈ members, lower member.1 = name → member.1 = name)
    (first : ∀ member ∈ before, member.1 ≠ name)

variable (read : Reader) (environment files : Named) (setting : Setting)

/-- The file that counts can be read and has a value other than null under the name of the
setting, in whatever case. -/
def FileGives (value : Yaml) : Prop :=
  ∃ text members, InUse files text ∧ read text = some members ∧
    Counts members (lower (utf8 setting.name)) value ∧ value ≠ .null

def VariableGives (text : Bytes) : Prop :=
  environment.find? setting.name = some text ∧ text ≠ []

/-- What a setting is before it is converted. -/
inductive ResolvesWith : Yaml → Prop
  | fromVariable (text : Bytes) (given : VariableGives environment setting text) : ResolvesWith (.string text)
  | fromFile (value : Yaml) (unset : ∀ text, ¬VariableGives environment setting text)
    (given : FileGives read files setting value) : ResolvesWith value
  | byDefault (unset : ∀ text, ¬VariableGives environment setting text)
    (absent : ∀ value, ¬FileGives read files setting value) : ResolvesWith setting.fallback

abbrev Resolves : Yaml → Prop := ResolvesWith Yaml.members? environment files setting

theorem fromEnvironment?_eq_some (text : Bytes) :
    fromEnvironment? environment setting = some text ↔ VariableGives environment setting text := by
  simp [fromEnvironment?,VariableGives,Option.filter_eq_some_iff]

theorem findSome?_filePaths : filePaths.findSome? (files.lookup ·) =
    directories.findSome? fun directory => fileNames.findSome? fun name => files.lookup (utf8 directory ++ utf8 name) := by
  unfold filePaths
  induction directories with
  | nil => rfl
  | cons directory directories ih =>
    rw [List.flatMap_cons,List.findSome?_append,ih,List.findSome?_map,List.findSome?_cons]
    cases found : fileNames.findSome? fun name => files.lookup (utf8 directory ++ utf8 name) <;>
      simp [Function.comp_def,found]

theorem inUse_iff (text : Bytes) : filePaths.findSome? (files.lookup ·) = some text ↔ InUse files text := by
  rw [findSome?_filePaths,List.findSome?_eq_some_iff]
  constructor
  · rintro ⟨nearer,directory,further,places,found,nothing⟩
    obtain ⟨before,name,after,names,here,absent⟩ := List.findSome?_eq_some_iff.mp found
    exact ⟨nearer,directory,further,before,name,after,places,names,here,
      fun earlier member => List.findSome?_eq_none_iff.mp (nothing earlier member),absent⟩
  · rintro ⟨nearer,directory,further,before,name,after,places,names,here,nothing,absent⟩
    exact ⟨nearer,directory,further,places,List.findSome?_eq_some_iff.mpr ⟨before,name,after,names,here,absent⟩,
      fun earlier member => List.findSome?_eq_none_iff.mpr (nothing earlier member)⟩

theorem member?_iff (members : List (Bytes × Yaml)) (name : Bytes) (value : Yaml) :
    (File.member? members name).map Prod.snd = some value ↔ Counts members name value := by
  have capitals (member : Bytes × Yaml) :
      members.find? (fun member => lower member.1 == name && member.1 != name) = some member ↔
        (lower member.1 = name ∧ member.1 ≠ name) ∧ ∃ before after, members = before ++ member :: after ∧
          ∀ earlier ∈ before, lower earlier.1 = name → earlier.1 = name := by
    rw [List.find?_eq_some_iff_append]
    simp [imp_iff_not_or]
  have plain (member : Bytes × Yaml) : members.find? (fun member => member.1 == name) = some member ↔
      member.1 = name ∧ ∃ before after, members = before ++ member :: after ∧ ∀ earlier ∈ before, earlier.1 ≠ name := by
    rw [List.find?_eq_some_iff_append]
    simp
  unfold File.member?
  cases found : members.find? fun member => lower member.1 == name && member.1 != name with
  | some member =>
    obtain ⟨⟨alike,other⟩,before,after,split,first⟩ := (capitals member).mp found
    rw [Option.some_or,Option.map_some,Option.some.injEq]
    constructor
    · rintro rfl
      exact .capitals before member.1 after split alike other first
    · intro counts
      cases counts with
      | capitals before' key after' split' alike' other' first' =>
        have same := (capitals (key,value)).mpr ⟨⟨alike',other'⟩,before',after',split',first'⟩
        rw [Option.some.inj (found.symm.trans same)]
      | plain _ _ _ only _ => exact absurd (only member (split ▸ by simp) alike) other
  | none =>
    have only : ∀ member ∈ members, lower member.1 = name → member.1 = name := by simpa using found
    rw [Option.none_or,Option.map_eq_some_iff]
    constructor
    · rintro ⟨member,present,rfl⟩
      obtain ⟨rfl,before,after,split,first⟩ := (plain member).mp present
      exact .plain before after split only first
    · intro counts
      cases counts with
      | capitals _ key _ split alike other _ => exact absurd (only (key,value) (split ▸ by simp) alike) other
      | plain before after split _ first => exact ⟨(name,value),(plain _).mpr ⟨rfl,before,after,split,first⟩,rfl⟩

theorem value?_read (members : List (Bytes × Yaml)) (value : Yaml) :
    (File.read members).value? setting = some value ↔
      Counts members (lower (utf8 setting.name)) value ∧ value ≠ .null := by
  rw [← member?_iff members _ value]
  simp only [File.value?,File.members]
  split
  next key found => simpa [found] using Eq.symm
  next key other solid found =>
    simp only [found,Option.map_some,Option.some.injEq]
    exact ⟨fun same => ⟨same,same ▸ solid⟩,And.left⟩
  next found => simp [found]

theorem value?_find (value : Yaml) :
    (File.find read files).value? setting = some value ↔ FileGives read files setting value := by
  constructor
  · intro gives
    unfold File.find at gives
    split at gives
    next => simp [File.value?,File.members,File.member?] at gives
    next text first =>
      split at gives
      next members readable =>
        exact ⟨text,members,(inUse_iff files text).mp first,readable,(value?_read setting members value).mp gives⟩
      next => simp [File.value?,File.members,File.member?] at gives
  · rintro ⟨text,members,first,readable,counts⟩
    rw [File.find,(inUse_iff files text).mpr first]
    simp only [readable]
    exact (value?_read setting members value).mpr counts

theorem fromEnvironment?_eq_none :
    fromEnvironment? environment setting = none ↔ ∀ text, ¬VariableGives environment setting text := by
  simp [Option.eq_none_iff_forall_ne_some,fromEnvironment?_eq_some]

theorem value?_find_eq_none :
    (File.find read files).value? setting = none ↔ ∀ value, ¬FileGives read files setting value := by
  simp [Option.eq_none_iff_forall_ne_some,value?_find]

theorem resolves_given :
    ResolvesWith read environment files setting (given environment (File.find read files) setting) := by
  unfold given
  cases set : fromEnvironment? environment setting with
  | some text => exact .fromVariable text ((fromEnvironment?_eq_some environment setting text).mp set)
  | none =>
    have unset := (fromEnvironment?_eq_none environment setting).mp set
    cases found : (File.find read files).value? setting with
    | some value => exact .fromFile value unset ((value?_find read files setting value).mp found)
    | none => exact .byDefault unset ((value?_find_eq_none read files setting).mp found)

/-- A setting resolves to one value. -/
theorem resolves_iff (value : Yaml) :
    ResolvesWith read environment files setting value ↔ value = given environment (File.find read files) setting := by
  constructor
  · intro resolves
    cases resolves with
    | fromVariable text set => rw [given,(fromEnvironment?_eq_some environment setting text).mpr set]
    | fromFile _ unset found =>
      rw [given,(fromEnvironment?_eq_none environment setting).mpr unset,(value?_find read files setting value).mpr found]
      rfl
    | byDefault unset absent =>
      rw [given,(fromEnvironment?_eq_none environment setting).mpr unset,
        (value?_find_eq_none read files setting).mpr absent]
      rfl
  · rintro rfl
    exact resolves_given read environment files setting

theorem ResolvesWith.congr {read read' : Reader} {environment files environment' files' : Named} {setting : Setting}
    {value : Yaml}
    (sameVariable : ∀ text, VariableGives environment setting text ↔ VariableGives environment' setting text)
    (sameValue : ∀ given, FileGives read files setting given ↔ FileGives read' files' setting given)
    (resolves : ResolvesWith read environment files setting value) :
    ResolvesWith read' environment' files' setting value := by
  have unset' (unset : ∀ text, ¬VariableGives environment setting text) (text : Bytes) :
      ¬VariableGives environment' setting text := fun set => unset text ((sameVariable text).mpr set)
  cases resolves with
  | fromVariable text set => exact .fromVariable text ((sameVariable text).mp set)
  | fromFile _ unset found => exact .fromFile value (unset' unset) ((sameValue value).mp found)
  | byDefault unset absent =>
    exact .byDefault (unset' unset) fun given found => absent given ((sameValue given).mpr found)

end Sources

/-- The value of a setting once it is converted. -/
inductive Field where
  | text (text : Bytes)
  | number (n : Int)
deriving DecidableEq

/-- The level is a text and all others are integers. -/
def convert (setting : Setting) (value : Yaml) : Except Cause Field :=
  if setting = .logLevel then (textOf value).map .text else (intOf value).map .number

def field (settings : Settings) : Setting → Field
  | .logLevel => .text settings.logLevel
  | .webPort => .number settings.webPort
  | .maxRequestBytes => .number settings.maxRequestBytes
  | .cacheSize => .number settings.cacheSize
  | .requestsPerMinute => .number settings.requestsPerMinute
  | .burstSize => .number settings.burstSize
  | .cleanupMinutes => .number settings.cleanupMinutes
  | .shutdownSeconds => .number settings.shutdownSeconds

/-- What bringing into range makes of the value of a setting. -/
def inRange : Setting → Field → Field
  | .logLevel,.text level => .text (tidyLevel level)
  | .maxRequestBytes,.number n => .number (positiveOr 1048576 n)
  | .cacheSize,.number n => .number (max n 0)
  | .burstSize,.number n => .number (positiveOr 1 n)
  | .cleanupMinutes,.number n => .number (positiveOr 10 n)
  | .shutdownSeconds,.number n => .number (positiveOr 10 n)
  | _,field => field

/-- The duration that is derived from a setting, in nanoseconds. -/
def duration? (settings : Settings) : Setting → Option Int
  | .cleanupMinutes => some settings.cleanupInterval
  | .shutdownSeconds => some settings.shutdownTimeout
  | _ => none

section Fields

theorem fault?_eq_some (setting : Setting) (value : Yaml) (fault : Fault) :
    fault? setting value = some fault ↔ fault.setting = setting ∧ convert setting value = .error fault.cause := by
  obtain ⟨named,cause⟩ := fault
  unfold fault? convert
  by_cases level : setting = .logLevel
  · simp only [level,if_true]
    cases textOf value <;> simp [Except.map,eq_comm]
  · simp only [level,if_false]
    cases intOf value <;> simp [Except.map,eq_comm]

theorem fault?_eq_none (setting : Setting) (value : Yaml) :
    fault? setting value = none ↔ ∃ field, convert setting value = .ok field := by
  unfold fault? convert
  by_cases level : setting = .logLevel
  · simp only [level,if_true]
    cases textOf value <;> simp [Except.map]
  · simp only [level,if_false]
    cases intOf value <;> simp [Except.map]

theorem field_ofValues (value : Setting → Yaml) (setting : Setting) (field : Field)
    (converted : convert setting (value setting) = .ok field) : (ofValues value).field setting = field := by
  by_cases level : setting = .logLevel
  · subst level
    rw [convert,if_pos rfl] at converted
    cases text : textOf (value .logLevel) with
    | error cause => simp [text,Except.map] at converted
    | ok text' =>
      rw [text] at converted
      obtain rfl : Field.text text' = field := Except.ok.inj converted
      simp [Settings.field,ofValues,text,Except.toOption]
  · rw [convert,if_neg level] at converted
    cases int : intOf (value setting) with
    | error cause => simp [int,Except.map] at converted
    | ok n =>
      rw [int] at converted
      obtain rfl : Field.number n = field := Except.ok.inj converted
      cases setting with
      | logLevel => exact absurd rfl level
      | _ => simp [Settings.field,ofValues,int,Except.toOption]

theorem field_normalized (settings : Settings) (setting : Setting) :
    settings.normalized.field setting = inRange setting (settings.field setting) := by
  cases setting with
  | cacheSize =>
    simp only [field,normalized,inRange,Field.number.injEq]
    split <;> omega
  | _ => rfl

end Fields

section Reports

end Reports

section Loading

variable (read : Reader) (environment files : Named)

theorem load_eq_error (faults : List Fault) :
    loadWith read environment files = .error faults ↔ faults ≠ [] ∧
      faults = Setting.all.filterMap fun setting => fault? setting (given environment (File.find read files) setting) := by
  simp only [loadWith]
  split
  next none =>
    rw [List.isEmpty_iff] at none
    simp [none]
  next faulty =>
    rw [List.isEmpty_iff] at faulty
    constructor
    · intro failed
      obtain rfl := Except.error.inj failed
      exact ⟨faulty,rfl⟩
    · rintro ⟨_,rfl⟩
      rfl

theorem load_eq_ok (loaded : Loaded) (ok : loadWith read environment files = .ok loaded) :
    (∀ setting, ∃ field, convert setting (given environment (File.find read files) setting) = .ok field) ∧
      loaded.settings = (ofValues (given environment (File.find read files))).normalized := by
  simp only [loadWith] at ok
  split at ok
  next none =>
    rw [List.isEmpty_iff,List.filterMap_eq_nil_iff] at none
    refine ⟨fun setting => (fault?_eq_none _ _).mp (none setting setting.mem_all),?_⟩
    obtain rfl := Except.ok.inj ok
    rfl
  next => simp at ok

theorem load_field (loaded : Loaded) (ok : loadWith read environment files = .ok loaded) (setting : Setting) :
    ∃ field, convert setting (given environment (File.find read files) setting) = .ok field ∧
      loaded.settings.field setting = inRange setting field := by
  obtain ⟨converts,made⟩ := load_eq_ok read environment files loaded ok
  obtain ⟨field,converted⟩ := converts setting
  refine ⟨field,converted,?_⟩
  rw [made,field_normalized,field_ofValues _ _ _ converted]

theorem mem_faults (faults : List Fault) (failed : loadWith read environment files = .error faults) (setting : Setting)
    (cause : Cause) :
    ⟨setting,cause⟩ ∈ faults ↔ convert setting (given environment (File.find read files) setting) = .error cause := by
  rw [((load_eq_error read environment files faults).mp failed).2,List.mem_filterMap]
  constructor
  · rintro ⟨found,_,faulty⟩
    obtain ⟨rfl,unsuited⟩ := (fault?_eq_some _ _ _).mp faulty
    exact unsuited
  · intro unsuited
    exact ⟨setting,setting.mem_all,(fault?_eq_some _ _ _).mpr ⟨rfl,unsuited⟩⟩

theorem load_fails_iff :
    (∃ faults, loadWith read environment files = .error faults) ↔
      ∃ setting cause, convert setting (given environment (File.find read files) setting) = .error cause := by
  constructor
  · rintro ⟨faults,failed⟩
    obtain ⟨⟨setting,cause⟩,member⟩ := List.exists_mem_of_ne_nil faults ((load_eq_error _ _ _ _).mp failed).1
    exact ⟨setting,cause,(mem_faults read environment files faults failed setting cause).mp member⟩
  · rintro ⟨setting,cause,unsuited⟩
    cases loading : loadWith read environment files with
    | error faults => exact ⟨faults,rfl⟩
    | ok loaded =>
      obtain ⟨field,converted⟩ := (load_eq_ok read environment files loaded loading).1 setting
      simp [converted] at unsuited

end Loading

end Settings
end SqlTidy
