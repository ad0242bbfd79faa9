import SqlTidy.Text.LowerCase
import SqlTidy.Yaml.Read

/-! The settings and where their values come from: the environment, a file, or a
default. -/
namespace SqlTidy

inductive Setting where
  | logLevel
  | webPort
  | maxRequestBytes
  | cacheSize
  | requestsPerMinute
  | burstSize
  | cleanupMinutes
  | shutdownSeconds
deriving Repr, DecidableEq

namespace Setting

def all : List Setting :=
  [logLevel, webPort, maxRequestBytes, cacheSize, requestsPerMinute, burstSize, cleanupMinutes, shutdownSeconds]

def name : Setting → String
  | logLevel => "LOG_LEVEL"
  | webPort => "WEB_PORT"
  | maxRequestBytes => "MAX_REQUEST_BYTES"
  | cacheSize => "CACHE_SIZE"
  | requestsPerMinute => "RATE_LIMIT_REQUESTS_PER_MIN"
  | burstSize => "RATE_LIMIT_BURST_SIZE"
  | cleanupMinutes => "RATE_LIMIT_CLEANUP_INTERVAL"
  | shutdownSeconds => "SHUTDOWN_TIMEOUT"

def fallback : Setting → Yaml
  | logLevel => .string (utf8 "info")
  | webPort => .int 8090
  | maxRequestBytes => .int 1048576
  | cacheSize => .int 1024
  | requestsPerMinute => .int 600
  | burstSize => .int 60
  | cleanupMinutes => .int 10
  | shutdownSeconds => .int 10

end Setting

namespace Settings

abbrev Named := List (Bytes × Bytes)

def Named.find? (named : Named) (name : String) : Option Bytes := named.lookup (utf8 name)

def directories : List String := ["", "../", "config/"]

def fileNames : List String :=
  ["config.json", "config.toml", "config.yaml", "config.yml", "config.properties", "config.props", "config.prop",
    "config.hcl", "config.tfvars", "config.dotenv", "config.env", "config.ini", "config"]

/-- The paths that are tried, directory by directory; the first that exists counts. -/
def filePaths : List Bytes :=
  directories.flatMap fun directory => fileNames.map fun name => utf8 directory ++ utf8 name

/-- Reads the members of a file, in some order, unless it is no file of settings. -/
abbrev Reader := Bytes → Option (List (Bytes × Yaml))

inductive File where
  | missing
  | unreadable
  | read (members : List (Bytes × Yaml))

namespace File

def find (read : Reader) (files : Named) : File :=
  match filePaths.findSome? (files.lookup ·) with
  | none => missing
  | some text =>
    match read text with
    | some members => .read members
    | none => unreadable

def members : File → List (Bytes × Yaml)
  | read members => members
  | _ => []

/-- The member whose key is a name in lower case, whatever the case of the key. A key with
capitals takes the place of one without. -/
def member? (members : List (Bytes × Yaml)) (name : Bytes) : Option (Bytes × Yaml) :=
  (members.find? fun member => lower member.1 == name && member.1 != name).or
    (members.find? fun member => member.1 == name)

def value? (file : File) (setting : Setting) : Option Yaml :=
  match member? file.members (lower (utf8 setting.name)) with
  | some (_, .null) => none
  | some (_, value) => some value
  | none => none

end File

def fromEnvironment? (environment : Named) (setting : Setting) : Option Bytes :=
  (environment.find? setting.name).filter (!·.isEmpty)

/-- The value given for a setting: a variable comes before the file, and the file before
the fallback. -/
def given (environment : Named) (file : File) (setting : Setting) : Yaml :=
  match fromEnvironment? environment setting with
  | some text => .string text
  | none => (file.value? setting).getD setting.fallback

end Settings
end SqlTidy
