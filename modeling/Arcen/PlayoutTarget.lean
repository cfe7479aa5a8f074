import Arcen.Machine
import Arcen.Duration

/-! The playout target of a client's audio queue (`shared/media/src/audio/playout.rs`): an underrun raises it at
once, every calm period lowers it by a step. Calm time may be reported in any slices as long as the calm clock does
not saturate. -/

namespace Arcen

/-- The rule, in milliseconds of queued audio. -/
structure PlayoutPolicy where
  minTargetMs : Nat
  maxTargetMs : Nat
  raiseMs : Nat
  lowerMs : Nat
  calmPeriod : Duration
  min_le_max : minTargetMs ≤ maxTargetMs
  max_fits : maxTargetMs < 2 ^ 16
  lower_pos : 0 < lowerMs
  calm_pos : 0 < calmPeriod

structure PlayoutTarget where
  targetMs : Nat
  calmFor : Duration
  deriving DecidableEq

namespace PlayoutTarget

variable (policy : PlayoutPolicy)

def new : PlayoutTarget := ⟨policy.minTargetMs, 0⟩

def recordUnderrun (target : PlayoutTarget) : PlayoutTarget where
  targetMs := min (min (target.targetMs + policy.raiseMs) (2 ^ 16 - 1)) policy.maxTargetMs
  calmFor := 0

/-- The loop of `record_calm`: each round lowers the target, so it ends. -/
def lowered (target : PlayoutTarget) : PlayoutTarget :=
  if policy.calmPeriod ≤ target.calmFor ∧ policy.minTargetMs < target.targetMs then
    lowered
      { calmFor := target.calmFor - policy.calmPeriod
        targetMs := max (target.targetMs - policy.lowerMs) policy.minTargetMs }
  else target
termination_by target.targetMs
decreasing_by
  have := policy.lower_pos
  omega

/-- At the smallest target no more than one calm period is kept. -/
def clipped (target : PlayoutTarget) : PlayoutTarget :=
  if target.targetMs = policy.minTargetMs then { target with calmFor := min target.calmFor policy.calmPeriod }
  else target

def recordCalm (target : PlayoutTarget) (elapsed : Duration) : PlayoutTarget :=
  clipped policy (lowered policy { target with calmFor := target.calmFor.saturatingAdd elapsed })

end PlayoutTarget

inductive PlayoutCall where
  | underrun
  | calm (elapsed : Duration)

def playout (policy : PlayoutPolicy) : Machine PlayoutTarget PlayoutCall Unit where
  init := .new policy
  step target
    | .underrun => (target.recordUnderrun policy, ())
    | .calm elapsed => (target.recordCalm policy elapsed, ())

namespace PlayoutTarget

variable {policy : PlayoutPolicy} {target : PlayoutTarget}

theorem lowered_range (target : PlayoutTarget) (hm : policy.minTargetMs ≤ target.targetMs) :
    policy.minTargetMs ≤ (lowered policy target).targetMs ∧ (lowered policy target).targetMs ≤ target.targetMs ∧
      (lowered policy target).calmFor ≤ target.calmFor := by
  fun_induction lowered policy target with
  | case1 target hgo ih =>
    obtain ⟨hl, hh, hc⟩ := ih (Nat.le_max_right ..)
    exact ⟨hl, hh.trans (max_le (Nat.sub_le ..) hgo.2.le), hc.trans (Nat.sub_le ..)⟩
  | case2 => exact ⟨hm, le_rfl, le_rfl⟩

theorem recordCalm_range (hm : policy.minTargetMs ≤ target.targetMs) (elapsed : Duration) :
    policy.minTargetMs ≤ (target.recordCalm policy elapsed).targetMs ∧
      (target.recordCalm policy elapsed).targetMs ≤ target.targetMs ∧
      (target.recordCalm policy elapsed).calmFor ≤ target.calmFor + elapsed := by
  obtain ⟨hl, hh, hc⟩ := lowered_range { target with calmFor := target.calmFor.saturatingAdd elapsed } hm
  have hc := hc.trans (Nat.min_le_left ..)
  unfold recordCalm clipped
  split_ifs
  · exact ⟨hl, hh, (Nat.min_le_left ..).trans hc⟩
  · exact ⟨hl, hh, hc⟩

/-- More calm time may be added before the loop or behind it. -/
theorem clipped_lowered_add (target : PlayoutTarget) (hm : policy.minTargetMs ≤ target.targetMs) (more : Duration) :
    let calmed := clipped policy (lowered policy target)
    clipped policy (lowered policy { calmed with calmFor := calmed.calmFor + more }) =
      clipped policy (lowered policy { target with calmFor := target.calmFor + more }) := by
  fun_induction lowered policy target with
  | case1 target hgo ih =>
    have hagain : policy.calmPeriod ≤ target.calmFor + more := Nat.le_add_right_of_le hgo.1
    refine (ih (Nat.le_max_right ..)).trans ?_
    rw [lowered.eq_def policy { target with calmFor := target.calmFor + more },
      if_pos ⟨hagain, hgo.2⟩, Nat.sub_add_comm hgo.1]
  | case2 target =>
    by_cases hbott : target.targetMs = policy.minTargetMs
    · -- the loop is over for good; only the clipped clock moves
      have hover (calmFor : Duration) : lowered policy { target with calmFor } = { target with calmFor } := by
        rw [lowered, if_neg fun h => h.2.ne' hbott]
      simp only [clipped, if_pos hbott, hover]
      have hm (calm period more : Nat) : min (min calm period + more) period = min (calm + more) period := by omega
      exact congrArg (PlayoutTarget.mk _) (hm ..)
    · rw [clipped, if_neg hbott]

/-- **Slices of calm.** In every reachable state, calm time reported in two parts is calm time reported at once, unless
the calm clock saturates. The target stays in its range, and an underrun never lowers it. -/
theorem calm_time_sliced (policy : PlayoutPolicy) (calls : List PlayoutCall) :
    let target := (playout policy).exec calls
    (∀ first second, target.calmFor + (first + second) ≤ durationMax →
      (target.recordCalm policy first).recordCalm policy second = target.recordCalm policy (first + second)) ∧
    policy.minTargetMs ≤ target.targetMs ∧ target.targetMs ≤ policy.maxTargetMs ∧
    target.targetMs ≤ (target.recordUnderrun policy).targetMs := by
  intro target
  have hrng : policy.minTargetMs ≤ target.targetMs ∧ target.targetMs ≤ policy.maxTargetMs := by
    refine (playout policy).invariant
      (P := fun target => policy.minTargetMs ≤ target.targetMs ∧ target.targetMs ≤ policy.maxTargetMs)
      ⟨le_rfl, policy.min_le_max⟩ (fun target call h => ?_) calls
    cases call with
    | underrun =>
      have := policy.max_fits
      change _ ≤ min _ _ ∧ min _ _ ≤ _
      omega
    | calm elapsed =>
      obtain ⟨hl, hh, -⟩ := recordCalm_range h.1 elapsed
      exact ⟨hl, hh.trans h.2⟩
  refine ⟨fun first second hfits => ?_, hrng.1, hrng.2, ?_⟩
  · have hexact {calm elapsed : Duration} (h : calm + elapsed ≤ durationMax) :
        calm.saturatingAdd elapsed = calm + elapsed := Nat.min_eq_left h
    have hboth := hexact hfits
    rw [← Nat.add_assoc] at hfits hboth
    have hc := (recordCalm_range hrng.1 first).2.2
    unfold recordCalm at hc ⊢
    rw [hexact ((Nat.add_le_add_right hc _).trans hfits), hboth, hexact ((Nat.le_add_right ..).trans hfits)]
    exact clipped_lowered_add { target with calmFor := target.calmFor + first } hrng.1 second
  · have := policy.max_fits
    change _ ≤ min _ _
    omega

/-- A long calm period, and a clock that runs into `Duration::MAX`. -/
def longCalm : PlayoutPolicy where
  minTargetMs := 0
  maxTargetMs := 9
  raiseMs := 9
  lowerMs := 1
  calmPeriod := durationMax / 4
  min_le_max := by decide
  max_fits := by decide
  lower_pos := by decide
  calm_pos := by decide

theorem saturated_calm_not_sliced : let target := (playout longCalm).exec [.underrun, .calm (durationMax / 4 - 1)]
    (target.recordCalm longCalm 1).recordCalm longCalm (durationMax - 1) ≠ target.recordCalm longCalm durationMax := by
  decide +kernel

end PlayoutTarget
end Arcen
