import SqlTidy.Sql.Sanitize

/-! A bounded memory of sanitized statements. A request is looked up by its options
and its text; when the memory is full, the entry unused for longest makes room. -/
namespace SqlTidy

namespace Options

def flag (value : Bool) : Bytes := if value then utf8 "true|" else utf8 "false|"

def key (options : Options) (text : Bytes) : Bytes :=
  flag options.extract ++ flag options.removeLimit ++ flag options.addQuotes ++ text

end Options

structure Entry where
  key : Bytes
  result : Result

/-- The entries, most recently used first, and how often a request was found or not.
A cache without capacity computes every result and counts nothing. -/
structure Cache where
  capacity : Nat
  entries : List Entry := []
  hits : Nat := 0
  misses : Nat := 0

namespace Cache

inductive Error where
  | negativeSize (size : Int)

def Error.message : Error → Bytes
  | .negativeSize size => utf8 "cache size must not be negative, got " ++ Bytes.ofInt size

def ofSize (size : Int) : Except Error Cache :=
  if size < 0 then .error (.negativeSize size) else .ok { capacity := size.toNat }

def disabled : Cache := { capacity := 0 }

def size (cache : Cache) : Nat := cache.entries.length

def find? (cache : Cache) (key : Bytes) : Option Entry := cache.entries.find? (·.key == key)

def promote (cache : Cache) (entry : Entry) : Cache :=
  { cache with
    entries := entry :: cache.entries.filter (·.key != entry.key)
    hits := cache.hits + 1 }

def insert (cache : Cache) (entry : Entry) : Cache :=
  { cache with
    entries := (entry :: cache.entries).take cache.capacity
    misses := cache.misses + 1 }

def sanitize (cache : Cache) (options : Options) (text : Bytes) : Result × Cache :=
  if cache.capacity == 0 then (SqlTidy.sanitize options text, cache)
  else
    let key := options.key text
    match cache.find? key with
    | some entry => (entry.result, cache.promote entry)
    | none =>
      let result := SqlTidy.sanitize options text
      (result, cache.insert ⟨key, result⟩)

end Cache
end SqlTidy
