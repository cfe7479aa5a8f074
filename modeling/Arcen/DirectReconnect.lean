import Arcen.Bytes

/-! The reconnect contract of a direct session (`shared/session/src/direct_reconnect.rs`): the policy, the single
grant slot, and the pure state machine that decides when a lost transport may come back. -/

namespace Arcen

def maxReconnectWindowSeconds : UInt32 := 7200
def defaultReconnectWindowSeconds : UInt32 := 180

/-- A host monotonic timestamp in milliseconds, a `u128`. -/
structure MonotonicMillis where
  value : Nat
  bounded : value < 2 ^ 128
  deriving DecidableEq

namespace MonotonicMillis

instance : LT MonotonicMillis := ⟨fun a b => a.value < b.value⟩
instance : LE MonotonicMillis := ⟨fun a b => a.value ≤ b.value⟩

instance (a b : MonotonicMillis) : Decidable (a < b) := inferInstanceAs (Decidable (a.value < b.value))
instance (a b : MonotonicMillis) : Decidable (a ≤ b) := inferInstanceAs (Decidable (a.value ≤ b.value))

def addSeconds (time : MonotonicMillis) (seconds : UInt32) : MonotonicMillis where
  value := min (time.value + seconds.toNat * 1000) (2 ^ 128 - 1)
  bounded := by omega

end MonotonicMillis

structure ReconnectPolicy where
  windowSecs : UInt32
  bounded : windowSecs ≤ maxReconnectWindowSeconds

namespace ReconnectPolicy

def new (windowSecs : UInt32) : Option ReconnectPolicy :=
  if h : windowSecs ≤ maxReconnectWindowSeconds then some ⟨windowSecs, h⟩ else none

def default : ReconnectPolicy := ⟨defaultReconnectWindowSeconds, by decide⟩

def isDisabled (policy : ReconnectPolicy) : Bool := policy.windowSecs == 0

end ReconnectPolicy

/-! ### The grant slot -/

/-- Current direct-resume grant slot protected by a host synchronization primitive. -/
structure DirectResumeSlot where
  generation : UInt64
  nonce : FixedBytes 32
  active : Bool

inductive DirectResumeSlotResult where
  | rotated (generation : UInt64) (nonce : FixedBytes 32)
  | replayed
  | generationExhausted

def u64CheckedSucc (n : UInt64) : Option UInt64 := if n.toNat + 1 < 2 ^ 64 then some (n + 1) else none

namespace DirectResumeSlot

def new (generation : UInt64) (nonce : FixedBytes 32) : DirectResumeSlot := ⟨generation, nonce, true⟩

variable (slot : DirectResumeSlot)

def current : Option (UInt64 × FixedBytes 32) :=
  if slot.active then some (slot.generation, slot.nonce) else none

def compareAndRotate (expectedGeneration : UInt64) (expectedNonce nextNonce : FixedBytes 32) :
    DirectResumeSlot × DirectResumeSlotResult :=
  if !slot.active ∨ slot.generation ≠ expectedGeneration ∨ slot.nonce ≠ expectedNonce then (slot, .replayed)
  else
    match u64CheckedSucc slot.generation with
    | none => ({ slot with active := false }, .generationExhausted)
    | some nextGeneration =>
      ({ slot with generation := nextGeneration, nonce := nextNonce }, .rotated nextGeneration nextNonce)

def revoke : DirectResumeSlot := { slot with active := false, nonce := ⟨List.replicate 32 0, List.length_replicate⟩ }

end DirectResumeSlot

/-! ### The state machine -/

inductive ReconnectState where
  | disabled
  | attached
  | detached (deadline : MonotonicMillis) (timerGeneration : UInt64)
  | resuming (deadline : MonotonicMillis) (timerGeneration : UInt64)
  | draining
  | closed
  deriving DecidableEq

inductive ReconnectEvent where
  | unexpectedLoss
  | explicitDisconnect
  | beginResume
  | resumeAccepted
  | resumeFailed
  | deadlineReached (timerGeneration : UInt64)
  | nativeSessionEnded
  | ownerCrashed
  | drainComplete
  deriving DecidableEq

inductive ReconnectTimerAction where
  | none
  | arm (deadline : MonotonicMillis) (timerGeneration : UInt64)
  | cancel (timerGeneration : UInt64)

/-- Bounded pure side-effect directives for a reconnect transition. -/
structure ReconnectActions where
  holdRestoreLeases : Bool := false
  restoreLeases : Bool := false
  stopMedia : Bool := false
  startMedia : Bool := false
  resetInput : Bool := false
  rotateGrant : Bool := false
  revokeGrant : Bool := false
  closeTransport : Bool := false
  timer : ReconnectTimerAction := .none

structure DirectReconnect where
  policy : ReconnectPolicy
  state : ReconnectState
  nextTimerGeneration : UInt64

def u64SaturatingSucc (n : UInt64) : UInt64 := (u64CheckedSucc n).getD n

namespace DirectReconnect

def new (policy : ReconnectPolicy) : DirectReconnect where
  policy := policy
  state := if policy.isDisabled then .disabled else .attached
  nextTimerGeneration := 1

variable (model : DirectReconnect)

def activeTimerGeneration : Option UInt64 :=
  match model.state with
  | .detached _ timerGeneration => some timerGeneration
  | .resuming _ timerGeneration => some timerGeneration
  | _ => none

def detach (now : MonotonicMillis) : DirectReconnect × ReconnectActions :=
  let timerGeneration := model.nextTimerGeneration
  let deadline := now.addSeconds model.policy.windowSecs
  ({ model with state := .detached deadline timerGeneration, nextTimerGeneration := u64SaturatingSucc timerGeneration },
    { holdRestoreLeases := true, stopMedia := true, resetInput := true, closeTransport := true,
      timer := .arm deadline timerGeneration })

def beginDrain (timerGeneration : Option UInt64) : DirectReconnect × ReconnectActions :=
  ({ model with state := .draining },
    { restoreLeases := true, stopMedia := true, resetInput := true, revokeGrant := true, closeTransport := true,
      timer := timerGeneration.elim .none .cancel })

/-- Applies one event. The guards of the source, which let a match fall through to a later arm, are the branches of
the arms here. -/
def apply (event : ReconnectEvent) (now : MonotonicMillis) : DirectReconnect × ReconnectActions :=
  match model.state, event with
  | .attached, .unexpectedLoss => model.detach now
  | .disabled, .unexpectedLoss => model.beginDrain none
  | .attached, .explicitDisconnect | .attached, .nativeSessionEnded | .attached, .ownerCrashed
  | .disabled, .explicitDisconnect | .disabled, .nativeSessionEnded | .disabled, .ownerCrashed
  | .detached _ _, .explicitDisconnect | .detached _ _, .nativeSessionEnded | .detached _ _, .ownerCrashed
  | .resuming _ _, .explicitDisconnect | .resuming _ _, .nativeSessionEnded | .resuming _ _, .ownerCrashed =>
    model.beginDrain model.activeTimerGeneration
  | .detached deadline timerGeneration, .beginResume =>
    if now < deadline then ({ model with state := .resuming deadline timerGeneration }, {})
    else model.beginDrain (some timerGeneration)
  | .detached deadline timerGeneration, .resumeAccepted | .detached deadline timerGeneration, .resumeFailed
  | .resuming deadline timerGeneration, .beginResume =>
    if deadline ≤ now then model.beginDrain (some timerGeneration) else (model, {})
  | .resuming deadline timerGeneration, .resumeAccepted =>
    if deadline ≤ now then model.beginDrain (some timerGeneration)
    else
      ({ model with state := .attached },
        { startMedia := true, resetInput := true, rotateGrant := true, timer := .cancel timerGeneration })
  | .resuming deadline timerGeneration, .resumeFailed =>
    if deadline ≤ now then model.beginDrain (some timerGeneration)
    else
      ({ model with state := .detached deadline timerGeneration }, { resetInput := true, closeTransport := true })
  | .detached deadline active, .deadlineReached timerGeneration
  | .resuming deadline active, .deadlineReached timerGeneration =>
    if timerGeneration = active ∧ deadline ≤ now then model.beginDrain (some active) else (model, {})
  | .draining, .drainComplete => ({ model with state := .closed }, {})
  | _, _ => (model, {})

end DirectReconnect
end Arcen
