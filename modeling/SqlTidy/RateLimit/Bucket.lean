import SqlTidy.RateLimit.Tokens

/-! Token buckets. A bucket fills at a steady rate up to its capacity, and every
request that is let through takes one token. Time is in nanoseconds. -/
namespace SqlTidy
open Tokens

structure Bucket (α : Type) where
  capacity : α
  rate : α
  tokens : α
  touched : Nat

namespace Bucket

variable {α : Type} [Tokens α]

def full (capacity rate : α) (now : Nat) : Bucket α := ⟨capacity, rate, capacity, now⟩

def level (bucket : Bucket α) (now : Nat) : α :=
  least bucket.capacity (add bucket.tokens (mul (seconds (now - bucket.touched)) bucket.rate))

/-- Lets a request through if there is a token for it. The bucket is brought up to date
whether there is one or not. -/
def allow (bucket : Bucket α) (now : Nat) : Bool × Bucket α :=
  let level := bucket.level now
  if le one level then (true, { bucket with tokens := sub level one, touched := now })
  else (false, { bucket with tokens := level, touched := now })

def remaining (bucket : Bucket α) (now : Nat) : Int := whole (bucket.level now)

def isIdle (bucket : Bucket α) (interval now : Nat) : Bool := interval ≤ now - bucket.touched

end Bucket
end SqlTidy
