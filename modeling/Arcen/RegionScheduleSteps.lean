import Arcen.RegionSchedule

/-! What one observation does to a region's schedule, said once: the clocks, the cadence, the keyframe debt, and the
exact condition under which the region is served. -/

namespace Arcen

open IdleCadence

theorem serviceFor_some (mode : EmitMode) (forcedKeyframe : Option ForcedKeyframe) (pendingKeyframe dirty : Bool) :
    (serviceFor (some mode) forcedKeyframe pendingKeyframe dirty).1 = .serve ∧
      (serviceFor (some mode) forcedKeyframe pendingKeyframe dirty).2.isKeyframe = mode.isKeyframe := by
  cases mode <;> cases forcedKeyframe <;> cases pendingKeyframe <;> cases dirty <;> exact ⟨rfl, rfl⟩

namespace RegionActivityScheduler

/-- What one observation does, given the activity of its frame. -/
structure Advances (scheduler : RegionActivityScheduler) (diagnostics : ActivityDiagnostics) (elapsed : Duration)
    (signals : RegionScheduleSignals) (next : RegionActivityScheduler) (decision : RegionServiceDecision) : Prop where
  policy : next.policy = scheduler.policy
  activity : next.activity = scheduler.activity
  lastDecision : next.lastDecision = some decision
  cadence : next.cadence = ⟨scheduler.cadence.keepalive, true, false, false⟩
  sinceService : next.sinceService = if decision.serves then 0 else .saturatingAdd scheduler.sinceService elapsed
  sinceKeyframe : next.sinceKeyframe = if decision.keyframe then 0 else .saturatingAdd scheduler.sinceKeyframe elapsed
  sinceInput : next.sinceInput = inputClock scheduler.sinceInput elapsed signals.inputActivity
  pendingKeyframe : next.pendingKeyframe = if decision.keyframe then false else scheduler.pendingKeyframe
  committed : decision.serves = true → next.committedSinceService = .saturatingAdd scheduler.sinceService elapsed ∧
      next.committedSinceKeyframe = .saturatingAdd scheduler.sinceKeyframe elapsed
  keyframe_serves : decision.keyframe = true → decision.serves = true
  keyframe : decision.keyframe = true ↔ scheduler.cadence.first = true ∨ signals.forcedKeyframe.isSome = true ∨
    scheduler.policy.keyframeInterval ≤ Duration.saturatingAdd scheduler.sinceKeyframe elapsed ∨
    scheduler.pendingKeyframe = true
  serves : decision.serves = true ↔ decision.keyframe = true ∨ scheduler.cadence.dirty = true ∨
    diagnostics.summary.isClean = false ∨ diagnostics.baselineRefresh = true ∨
    (∃ since, next.sinceInput = some since ∧ since ≤ scheduler.policy.inputWakeGrace) ∨
    scheduler.cadence.keepalive ≤ Duration.saturatingAdd scheduler.sinceService elapsed

/-- The clocks have moved on and the frame is announced. -/
structure Ready (scheduler : RegionActivityScheduler) (diagnostics : ActivityDiagnostics) (elapsed : Duration)
    (inputActivity : Bool) (ready : RegionActivityScheduler) : Prop where
  policy : ready.policy = scheduler.policy
  activity : ready.activity = scheduler.activity
  keepalive : ready.cadence.keepalive = scheduler.cadence.keepalive
  first : ready.cadence.first = scheduler.cadence.first
  pendingKeyframe : ready.pendingKeyframe = scheduler.pendingKeyframe
  sinceService : ready.sinceService = .saturatingAdd scheduler.sinceService elapsed
  sinceKeyframe : ready.sinceKeyframe = .saturatingAdd scheduler.sinceKeyframe elapsed
  sinceInput : ready.sinceInput = inputClock scheduler.sinceInput elapsed inputActivity
  hasFrame : ready.cadence.hasFrame = true
  dirty : ready.cadence.dirty = true ↔ scheduler.cadence.dirty = true ∨ diagnostics.summary.isClean = false ∨
    diagnostics.baselineRefresh = true ∨ ∃ since, inputClock scheduler.sinceInput elapsed inputActivity = some since ∧
      since ≤ scheduler.policy.inputWakeGrace

section Advance

variable {sched ready : RegionActivityScheduler} {diag : ActivityDiagnostics} {elapsed : Duration}
  {inputActivity : Bool} {forcedKeyframe : Option ForcedKeyframe}

theorem announces_iff (dirty baselineRefresh : Bool) :
    (dirty || baselineRefresh || sched.inputWakeActive) = true ↔ dirty = true ∨ baselineRefresh = true ∨
      ∃ since, sched.sinceInput = some since ∧ since ≤ sched.policy.inputWakeGrace := by
  unfold inputWakeActive
  cases sched.sinceInput <;> simp [or_assoc]

theorem ready_ready (hfr : sched.cadence.hasFrame = true ∨ diag.baselineRefresh = true) :
    sched.Ready diag elapsed inputActivity (sched.ready diag elapsed inputActivity) := by
  have hanno := (sched.tick diag.activityClass elapsed inputActivity).announces_iff
    (!diag.summary.isClean) diag.baselineRefresh
  rw [Bool.not_eq_true'] at hanno
  unfold RegionActivityScheduler.ready announce
  split_ifs with hnew
  · exact ⟨rfl, rfl, rfl, rfl, rfl, rfl, rfl, rfl, rfl, fun _ => .inr (hanno.mp hnew), fun _ => rfl⟩
  · have hquiet := mt hanno.mpr hnew
    refine ⟨rfl, rfl, rfl, rfl, rfl, rfl, rfl, rfl, ?_, .inl, fun h => h.resolve_right hquiet⟩
    exact hfr.resolve_right fun h => hquiet (.inr (.inl h))

namespace Ready

variable (h : sched.Ready diag elapsed inputActivity ready)

include h

theorem isKeyframe_emitMode : (ready.emitMode forcedKeyframe).any EmitMode.isKeyframe = true ↔
    sched.cadence.first = true ∨ forcedKeyframe.isSome = true ∨
      sched.policy.keyframeInterval ≤ Duration.saturatingAdd sched.sinceKeyframe elapsed ∨
      sched.pendingKeyframe = true := by
  rw [emitMode, decision_isKeyframe h.hasFrame, idrPending, Bool.or_eq_true, Bool.or_eq_true,
    decide_eq_true_iff, or_assoc, h.first, h.policy, h.sinceKeyframe, h.pendingKeyframe]

theorem isSome_emitMode : (ready.emitMode forcedKeyframe).isSome = true ↔
    (ready.emitMode forcedKeyframe).any EmitMode.isKeyframe = true ∨ sched.cadence.dirty = true ∨
      diag.summary.isClean = false ∨ diag.baselineRefresh = true ∨
      (∃ since, inputClock sched.sinceInput elapsed inputActivity = some since ∧
        since ≤ sched.policy.inputWakeGrace) ∨
      sched.cadence.keepalive ≤ Duration.saturatingAdd sched.sinceService elapsed := by
  rw [emitMode, decision_isSome h.hasFrame, decision_isKeyframe h.hasFrame, h.dirty, h.keepalive, h.sinceService]
  simp only [or_assoc]

theorem cadence_onSubmitted : ready.cadence.onSubmitted = ⟨sched.cadence.keepalive, true, false, false⟩ := by
  rw [onSubmitted, h.keepalive, h.hasFrame]

theorem cadence_of_none (hm : ready.emitMode forcedKeyframe = none) :
    ready.cadence = ⟨sched.cadence.keepalive, true, false, false⟩ := by
  obtain ⟨hfst, hdirty⟩ := decision_none h.hasFrame _ _ hm
  have hfr := h.hasFrame
  have hkeep := h.keepalive
  cases hcade : ready.cadence with
  | mk =>
    rw [hcade] at hfst hdirty hfr hkeep
    exact congr (congr (congr (congrArg IdleCadence.mk hkeep) hfr) hdirty) hfst

end Ready

variable {activity : RegionActivityDiagnostics} {signals : RegionScheduleSignals}

section

variable (h : sched.Ready activity.activity elapsed signals.inputActivity ready)
include h

theorem Ready.advances_conclude_none (hm : ready.emitMode signals.forcedKeyframe = none) :
    sched.Advances activity.activity elapsed signals
      (ready.conclude activity (.skip, .staticSuppressed)).1 (ready.conclude activity (.skip, .staticSuppressed)).2 := by
  have hkf : (ready.emitMode signals.forcedKeyframe).any EmitMode.isKeyframe = true ↔ _ := h.isKeyframe_emitMode
  have hs : (ready.emitMode signals.forcedKeyframe).isSome = true ↔ _ := h.isSome_emitMode
  rw [hm] at hkf hs
  rw [← h.sinceInput] at hs
  exact ⟨h.policy, h.activity, rfl, h.cadence_of_none hm, h.sinceService, h.sinceKeyframe, h.sinceInput,
    h.pendingKeyframe, nofun, nofun, hkf, hs⟩

theorem Ready.advances_conclude_some
    (hm : ready.emitMode signals.forcedKeyframe = some mode)
    (hreas : reason.isKeyframe = mode.isKeyframe) : sched.Advances activity.activity elapsed signals
      (ready.conclude activity (.serve, reason)).1 (ready.conclude activity (.serve, reason)).2 := by
  have hkf : (ready.emitMode signals.forcedKeyframe).any EmitMode.isKeyframe = true ↔ _ := h.isKeyframe_emitMode
  have hs : (ready.emitMode signals.forcedKeyframe).isSome = true ↔ _ := h.isSome_emitMode
  rw [hm, Option.any_some, ← hreas] at hkf hs
  rw [← h.sinceInput] at hs
  refine ⟨h.policy, h.activity, rfl, h.cadence_onSubmitted, rfl, ?_, h.sinceInput, ?_,
    fun _ => ⟨h.sinceService, h.sinceKeyframe⟩, fun _ => rfl, hkf, hs⟩
  · rw [← h.sinceKeyframe]
    rfl
  · rw [← h.pendingKeyframe]
    rfl

end

/-- **Observation rule.** -/
theorem advance_advances (hfr : sched.cadence.hasFrame = true ∨ activity.activity.baselineRefresh = true) :
    sched.Advances activity.activity elapsed signals (sched.advance activity elapsed signals).1
      (sched.advance activity elapsed signals).2 := by
  have hready : sched.Ready activity.activity elapsed signals.inputActivity _ := ready_ready hfr
  simp only [advance]
  cases hm : (sched.ready activity.activity elapsed signals.inputActivity).emitMode signals.forcedKeyframe with
  | none => exact hready.advances_conclude_none hm
  | some mode =>
    obtain ⟨hacti, hreas⟩ := serviceFor_some mode signals.forcedKeyframe
      (sched.ready activity.activity elapsed signals.inputActivity).pendingKeyframe
      (!activity.activity.summary.isClean)
    rw [← Prod.eta (serviceFor (some mode) _ _ _), hacti]
    exact hready.advances_conclude_some hm hreas

end Advance

variable (sched : RegionActivityScheduler) (owner : RegionActivityOwner)

/-- An accepted frame is compared with the one before it, and the schedule advances. -/
theorem observe_cases (frame : BgraFrame) (elapsed : Duration) (signals : RegionScheduleSignals)
    (hfr : sched.cadence.hasFrame = true ∨ sched.activity.activity.hasBaseline = false) :
    (∃ error, sched.observe owner frame elapsed signals = (sched, .error error)) ∨
      ∃ next decision activity diag, sched.observe owner frame elapsed signals = (next, .ok decision) ∧
        sched.activity.activity.Accepts frame activity.activity diag ∧
        Advances { sched with activity } diag elapsed signals next decision := by
  unfold observe
  rcases sched.activity.updateWithHint_cases owner frame signals.hint with ⟨_, h⟩ | ⟨_, _, h, hacc⟩
  · rw [h]
    exact .inl ⟨_, rfl⟩
  · rw [h]
    refine .inr ⟨_, _, _, _, rfl, hacc, advance_advances ?_⟩
    refine hfr.imp_right fun hbase => ?_
    rw [hacc.refresh, hbase]
    rfl

theorem rebind_cases : (∃ error, sched.rebind owner = (sched, .error error)) ∨ sched.rebind owner =
        (resetScheduleState { sched with activity := ⟨owner, sched.activity.activity.reset⟩ }, .ok ()) := by
  unfold rebind RegionActivityGrid.rebind
  split_ifs
  · exact .inl ⟨_, rfl⟩
  · exact .inr rfl

end RegionActivityScheduler
end Arcen
