import SqlTidy.Log
import SqlTidy.RateLimit.Bucket

/-! Rate limiting by client: every client has a bucket of its own, made at its first
request. At each multiple of the cleanup interval the buckets that were idle for an
interval are dropped, until the limiter is stopped. -/
namespace SqlTidy
open Tokens

abbrev Client := Bytes

namespace Limiter

structure Settings where
  requestsPerMinute : Int
  burst : Nat
  interval : Nat
  burst_pos : 0 < burst
  interval_pos : 0 < interval

def defaultInterval : Nat := 600000000000

/-- Settings in range: a burst below one counts as one, an interval that is not positive
as ten minutes. -/
def Settings.clamped (requestsPerMinute burst interval : Int) : Settings where
  requestsPerMinute
  burst := if burst ≤ 0 then 1 else burst.toNat
  interval := if interval ≤ 0 then defaultInterval else interval.toNat
  burst_pos := by split <;> omega
  interval_pos := by
    unfold defaultInterval
    split <;> omega

structure Cleanup where
  removed : Nat
  remaining : Nat
deriving Repr, DecidableEq

def Cleanup.entry (cleanup : Cleanup) : Log.Entry where
  level := .debug
  message := "Cleaned up rate limiter buckets"
  fields := [("removed", .int cleanup.removed), ("remaining", .int cleanup.remaining)]

end Limiter

structure Limiter (α : Type) where
  settings : Limiter.Settings
  buckets : List (Client × Bucket α) := []
  now : Nat := 0
  stopped : Bool := false

namespace Limiter

variable {α : Type} [Tokens α]

def bucket? (limiter : Limiter α) (client : Client) : Option (Bucket α) :=
  limiter.buckets.lookup client

def bucketOf (limiter : Limiter α) (client : Client) : Bucket α :=
  (limiter.bucket? client).getD
    (Bucket.full (ofInt limiter.settings.burst) (perMinute limiter.settings.requestsPerMinute) limiter.now)

def put (limiter : Limiter α) (client : Client) (bucket : Bucket α) : Limiter α :=
  { limiter with buckets := (client, bucket) :: limiter.buckets.filter (·.1 != client) }

def allow (limiter : Limiter α) (client : Client) : Bool × Limiter α :=
  let (allowed, bucket) := (limiter.bucketOf client).allow limiter.now
  (allowed, limiter.put client bucket)

/-- How many requests a client has left, and the size of a burst. A client without a
bucket is not given one. -/
def standing (limiter : Limiter α) (client : Client) : Int × Int :=
  let burst : Int := limiter.settings.burst
  match limiter.bucket? client with
  | some bucket => (bucket.remaining limiter.now, burst)
  | none => (burst, burst)

def cleanup (limiter : Limiter α) : List Cleanup × Limiter α :=
  let kept := limiter.buckets.filter fun entry => !entry.2.isIdle limiter.settings.interval limiter.now
  let removed := limiter.buckets.length - kept.length
  (if removed == 0 then [] else [⟨removed, kept.length⟩], { limiter with buckets := kept })

def advance (limiter : Limiter α) (ns : Nat) : Limiter α := { limiter with now := limiter.now + ns }

def stop (limiter : Limiter α) : Limiter α := { limiter with stopped := true }

def nextTick (limiter : Limiter α) : Nat :=
  (limiter.now / limiter.settings.interval + 1) * limiter.settings.interval

/-- Runs the next `count` cleanups, each at its time. Without buckets there is nothing to
clean up. -/
def runTicks : (count : Nat) → Limiter α → List Cleanup × Limiter α
  | 0, limiter => ([], limiter)
  | count + 1, limiter =>
    if limiter.buckets.isEmpty then ([], limiter)
    else
      let (first, limiter) := { limiter with now := limiter.nextTick }.cleanup
      let (more, limiter) := runTicks count limiter
      (first ++ more, limiter)

def ticksDue (limiter : Limiter α) (wake : Nat) : Nat :=
  if limiter.stopped then 0 else wake / limiter.settings.interval - limiter.now / limiter.settings.interval

def sleep (limiter : Limiter α) (ns : Nat) : List Cleanup × Limiter α :=
  let wake := limiter.now + ns
  let (cleanups, limiter) := runTicks (limiter.ticksDue wake) limiter
  (cleanups, { limiter with now := wake })

end Limiter
end SqlTidy
