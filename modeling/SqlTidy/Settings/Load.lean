import SqlTidy.Settings.Convert
import SqlTidy.Settings.Source
import SqlTidy.Text.Blank

/-! The settings of the service, as they are loaded: values converted, brought into
range, and durations derived from them. -/
namespace SqlTidy

structure Settings where
  logLevel : Bytes
  webPort : Int
  maxRequestBytes : Int
  cacheSize : Int
  requestsPerMinute : Int
  burstSize : Int
  cleanupMinutes : Int
  shutdownSeconds : Int
deriving Repr, DecidableEq

namespace Settings

structure Fault where
  setting : Setting
  cause : Cause
deriving Repr, DecidableEq

def typeName : Setting → String
  | .logLevel => "string"
  | .maxRequestBytes => "int64"
  | _ => "int"

def Fault.message (fault : Fault) : Bytes :=
  let subject := utf8 "'" ++ utf8 fault.setting.name ++ utf8 "' "
  let type := utf8 "'" ++ utf8 (typeName fault.setting) ++ utf8 "'"
  let unconvertible (found : String) : Bytes :=
    subject ++ utf8 "expected type " ++ type ++ utf8 ", got unconvertible type '" ++ utf8 found ++ utf8 "'"
  match fault.cause with
  | .unreadable reason =>
    subject ++ utf8 "cannot parse value as " ++ type ++ utf8 ": strconv.ParseInt: " ++ reason.message
  | .timestamp => unconvertible "time.Time"
  | .sequence => unconvertible "[]interface \x7b\x7d"
  | .mapping => unconvertible "map[string]interface \x7b\x7d"

def report (faults : List Fault) : Bytes :=
  utf8 "decoding failed due to the following error(s):\n\n" ++
    Bytes.join [Ascii.newline] (faults.map Fault.message)

inductive Warning where
  | fileMissing
  | fileUnreadable
  | negativeCache (size : Int)
deriving Repr, DecidableEq

def Warning.message : Warning → String
  | negativeCache _ => "Negative CACHE_SIZE, disabling result cache"
  | _ => "Could not read config file, using defaults/env vars"

def fault? (setting : Setting) (value : Yaml) : Option Fault :=
  let cause : Option Cause :=
    if setting = .logLevel then
      match textOf value with
      | .ok _ => none
      | .error cause => some cause
    else
      match intOf value with
      | .ok _ => none
      | .error cause => some cause
  cause.map (⟨setting, ·⟩)

def ofValues (value : Setting → Yaml) : Settings :=
  let int (setting : Setting) : Int := (intOf (value setting)).toOption.getD 0
  { logLevel := (textOf (value .logLevel)).toOption.getD []
    webPort := int .webPort
    maxRequestBytes := int .maxRequestBytes
    cacheSize := int .cacheSize
    requestsPerMinute := int .requestsPerMinute
    burstSize := int .burstSize
    cleanupMinutes := int .cleanupMinutes
    shutdownSeconds := int .shutdownSeconds }

def tidyLevel (level : Bytes) : Bytes :=
  let tidy := lower (trim level)
  if tidy.isEmpty then utf8 "info" else tidy

def positiveOr (other n : Int) : Int := if n ≤ 0 then other else n

def normalized (settings : Settings) : Settings :=
  { settings with
    logLevel := tidyLevel settings.logLevel
    maxRequestBytes := positiveOr 1048576 settings.maxRequestBytes
    cacheSize := if settings.cacheSize < 0 then 0 else settings.cacheSize
    burstSize := positiveOr 1 settings.burstSize
    cleanupMinutes := positiveOr 10 settings.cleanupMinutes
    shutdownSeconds := positiveOr 10 settings.shutdownSeconds }

def warnings (settings : Settings) : List Warning :=
  if settings.cacheSize < 0 then [.negativeCache settings.cacheSize] else []

def cleanupInterval (settings : Settings) : Int := wrap64 (settings.cleanupMinutes * 60000000000)

def shutdownTimeout (settings : Settings) : Int := wrap64 (settings.shutdownSeconds * 1000000000)

def File.warnings : File → List Warning
  | missing => [.fileMissing]
  | unreadable => [.fileUnreadable]
  | read _ => []

structure Loaded where
  settings : Settings
  warnings : List Warning

def loadWith (read : Reader) (environment files : Named) : Except (List Fault) Loaded :=
  let file := File.find read files
  let value := given environment file
  let faults := Setting.all.filterMap fun setting => fault? setting (value setting)
  if faults.isEmpty then
    let raw := ofValues value
    .ok ⟨raw.normalized, file.warnings ++ raw.warnings⟩
  else .error faults

def load (environment files : Named) : Except (List Fault) Loaded := loadWith Yaml.members? environment files

end Settings
end SqlTidy
