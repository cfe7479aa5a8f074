import Arcen.Duration
import Arcen.Machine
import Arcen.RecencyTable

/-! Backing off repeated failed sign-ins (`session/auth_throttle.rs`): a few free failures, then an exponentially
growing wait, kept per source address and per account name in one table of bounded size. The table is a hash map, whose
iteration order decides which of several oldest keys is evicted; here that order comes with the call. -/

namespace Arcen

/-- How strict the back-off is. -/
structure AuthThrottlePolicy where
  freeFailures : UInt32 := 3
  baseDelay : Duration := 2 * 1000000000
  maxDelay : Duration := 300 * 1000000000
  forgetAfter : Duration := 15 * 60 * 1000000000
  maxKeys : Nat := 4096

inductive ThrottleKey where
  | source (address : String)
  | account (name : String)
  deriving DecidableEq

structure ThrottleEntry where
  failures : Nat
  lastFailure : Duration
  blockedUntil : Duration

abbrev ThrottleTable := KeyTable ThrottleKey ThrottleEntry

/-- The rank of every key in the iteration order of the table, at each eviction of a call. -/
abbrev IterationOrders := Nat → ThrottleKey → Nat

def u32Max : Nat := 2 ^ 32 - 1

namespace AuthThrottlePolicy

/-- The wait after a number of failures over the free ones. -/
def delay (policy : AuthThrottlePolicy) (excess : Nat) : Duration :=
  min (min (policy.baseDelay * 2 ^ min (excess - 1) 16) durationMax) policy.maxDelay

end AuthThrottlePolicy

/-- One more failure of a key. -/
def ThrottleEntry.fail (policy : AuthThrottlePolicy) (now : Duration) (entry : ThrottleEntry) : ThrottleEntry :=
  let failures := min (entry.failures + 1) u32Max
  let excess := failures - policy.freeFailures.toNat
  { failures
    lastFailure := now
    blockedUntil := if 0 < excess then .saturatingAdd now (policy.delay excess) else entry.blockedUntil }

structure AuthThrottle where
  policy : AuthThrottlePolicy
  entries : ThrottleTable

namespace AuthThrottle

def new (policy : AuthThrottlePolicy) : AuthThrottle := ⟨policy, ∅⟩

/-- How long to wait before any of the keys may try again. -/
def retryAfter (throttle : AuthThrottle) (keys : List ThrottleKey) (now : Duration) : Option Duration :=
  (((keys.filterMap fun key => throttle.entries.lookup key).filter fun entry => now < entry.blockedUntil).map
    fun entry => entry.blockedUntil - now).max?

def isFresh (policy : AuthThrottlePolicy) (now : Duration) (entry : ThrottleEntry) : Bool :=
  now - entry.lastFailure < policy.forgetAfter || now < entry.blockedUntil

def forgetStale (throttle : AuthThrottle) (now : Duration) : AuthThrottle :=
  { throttle with entries := KeyTable.retain (isFresh throttle.policy now) throttle.entries }

/-- A failure of one key: the oldest key makes room for a new one when the table is full. -/
def failKey (policy : AuthThrottlePolicy) (now : Duration) (order : ThrottleKey → Nat) (key : ThrottleKey)
    (entries : ThrottleTable) : ThrottleTable :=
  let room := KeyTable.makeRoom ThrottleEntry.lastFailure order policy.maxKeys key entries
  room.insert key (((room.lookup key).getD ⟨0, now, 0⟩).fail policy now)

def failKeys (policy : AuthThrottlePolicy) (now : Duration) :
    IterationOrders → List ThrottleKey → ThrottleTable → ThrottleTable
  | _, [], entries => entries
  | orders, key :: keys, entries =>
    failKeys policy now (fun turn => orders (turn + 1)) keys (failKey policy now (orders 0) key entries)

variable (throttle : AuthThrottle)

def recordFailure (keys : List ThrottleKey) (now : Duration) (orders : IterationOrders) : AuthThrottle :=
  { throttle with entries := failKeys throttle.policy now orders keys (throttle.forgetStale now).entries }

/-- Clears the history of every key after a successful sign-in. -/
def recordSuccess (keys : List ThrottleKey) : AuthThrottle :=
  { throttle with entries := keys.foldl (fun entries key => entries.erase key) throttle.entries }

end AuthThrottle

inductive ThrottleCall where
  | recordFailure (keys : List ThrottleKey) (now : Duration) (orders : IterationOrders)
  | recordSuccess (keys : List ThrottleKey)

def authThrottle (policy : AuthThrottlePolicy) : Machine AuthThrottle ThrottleCall Unit where
  init := .new policy
  step
    | throttle, .recordFailure keys now orders => (throttle.recordFailure keys now orders, ())
    | throttle, .recordSuccess keys => (throttle.recordSuccess keys, ())

end Arcen
