import Arcen.LaneRegistryRuns

/-! Recovery is lane-scoped and bounded. A failure changes its own role's slot or ends the attachment;
a disabled role stays disabled; generations only grow; and a role that keeps failing without a
delivery in between runs out of its budget. -/

namespace Arcen.LaneRegistry

open LaneRecoveryPolicy

open List hiding lt_irrefl

variable {reg : LaneRegistry}

/-! ### Generations -/

variable {slot after : LaneSlot} {opened : List NonZeroU32} {gen : NonZeroU32} {role : LaneRole}
  {before : List Call}

theorem SlotMove.disabled (hm : SlotMove slot opened after) (h : slot.state = .disabled reason) :
    after.state = .disabled reason := by
  cases hm with
  | keep hst => rw [hst, h]
  | opens hdisa => exact absurd h (hdisa reason)
  | heals ho | fails ho => simp [h] at ho

variable {bound : NonZeroU32} {between : List Call} {call : Call} {reply : Reply}

theorem SlotMove.highest_le (hm : SlotMove slot opened after) (h : slot.highest = some bound) :
    ∃ highest, after.highest = some highest ∧ bound ≤ highest := by
  cases hm with
  | keep _ hh | heals _ _ hh | fails _ _ hh => exact ⟨bound, hh.trans h, le_rfl⟩
  | opens _ hnew _ hh => exact ⟨_, hh, (hnew bound h).le⟩

/-- The opened generations grow, and the slot's highest is the last of them. -/
structure OpenedInOrder (opened : List NonZeroU32) (slot : LaneSlot) : Prop where
  increasing : opened.Pairwise (· < ·)
  highest_eq : slot.highest = opened.getLast?
  state_eq : ∀ generation, slot.state = .opened generation → slot.highest = some generation

theorem OpenedInOrder.mem_le (h : OpenedInOrder opened slot) (hmem : gen ∈ opened) :
    ∃ highest, slot.highest = some highest ∧ gen ≤ highest := by
  have hne : opened ≠ [] := ne_nil_of_mem hmem
  obtain ⟨_, hsplit⟩ := getLast?_eq_some_iff.mp (getLast?_eq_some_getLast hne)
  refine ⟨opened.getLast hne, h.highest_eq.trans (getLast?_eq_some_getLast hne), ?_⟩
  have hi := h.increasing
  generalize opened.getLast hne = last at hsplit
  rw [hsplit, pairwise_append] at hi
  rw [hsplit, mem_append, mem_singleton] at hmem
  rcases hmem with hmem | rfl
  · exact (hi.2.2 gen hmem last (mem_singleton_self _)).le
  · exact le_rfl

theorem OpenedInOrder.move
    (h : OpenedInOrder opened slot) (hm : SlotMove slot more after) : OpenedInOrder (opened ++ more) after := by
  have ⟨hi, hlast, hst⟩ := h
  cases hm with
  | keep hsame hh | heals _ hsame hh =>
    rw [append_nil]
    exact ⟨hi, hh.trans hlast, fun gen h => hh.trans (hst gen (hsame ▸ h))⟩
  | fails _ hcl hh =>
    rw [append_nil]
    exact ⟨hi, hh.trans hlast, fun gen h => absurd h (hcl gen)⟩
  | @opens _ _ _ hnew ho hh =>
    refine ⟨?_, ?_, ?_⟩
    · rw [pairwise_append]
      refine ⟨hi, pairwise_singleton _ _, fun earlier hmem later hl => ?_⟩
      obtain ⟨highest, hh, hle⟩ := h.mem_le hmem
      rw [mem_singleton.mp hl]
      exact hle.trans_lt (hnew highest hh)
    · rw [hh, getLast?_append]
      rfl
    · intro other h
      rw [ho] at h
      cases h
      exact hh

/-! ### Runs -/

variable {side : LaneEndpoint}

theorem wellHeld_exec (calls : List Call) : ((laneRegistry side).exec calls).WellHeld :=
  (laneRegistry side).invariant (wellHeld_new side) (fun _ call h => wellHeld_step h call) calls

/-- What every slot move keeps, a run from a well-held registry keeps. -/
theorem slot_preserved {P : LaneSlot → Prop} (role : LaneRole)
    (hm : ∀ slot opened after, SlotMove slot opened after → P slot → P after) {reg : LaneRegistry}
    (hheld : reg.WellHeld) (h : P (reg.lanes role)) (calls : List Call) :
    P (((laneRegistry side).execFrom reg calls).lanes role) := by
  have hb := (laneRegistry side).execFrom_preserves
    (P := fun reg : LaneRegistry => reg.WellHeld ∧ P (reg.lanes role))
    (fun reg call h => ⟨wellHeld_step h.1 call, hm _ _ _ (step_slotMove h.1 call role) h.2⟩) reg ⟨hheld, h⟩ calls
  exact hb.2

theorem highest_execFrom {reg : LaneRegistry} (hheld : reg.WellHeld)
    (hbd : (reg.lanes role).highest = some bound) (calls : List Call) :
    ∃ highest, (((laneRegistry side).execFrom reg calls).lanes role).highest = some highest ∧ bound ≤ highest := by
  refine slot_preserved (P := fun slot => ∃ highest, slot.highest = some highest ∧ bound ≤ highest) role ?_
    hheld ⟨bound, hbd, le_rfl⟩ calls
  rintro _ _ _ hm ⟨_, hh, hle⟩
  obtain ⟨later, hl, hle'⟩ := hm.highest_le hh
  exact ⟨later, hl, hle.trans hle'⟩

theorem openedInOrder_exec (side : LaneEndpoint) (role : LaneRole) (calls : List Call) :
    OpenedInOrder (openedGenerations role ((laneRegistry side).log calls))
      (((laneRegistry side).exec calls).lanes role) := by
  have hb := (laneRegistry side).log_invariant
    (P := fun log reg => reg.WellHeld ∧ OpenedInOrder (openedGenerations role log) (reg.lanes role))
    ⟨wellHeld_new side, .nil, rfl, by simp [laneRegistry, new, LaneSlot.new]⟩
    (fun log reg call h => ⟨wellHeld_step h.1 call, ?_⟩) calls
  · exact hb.2
  · have hm := h.2.move (step_slotMove h.1 call role)
    simpa [openedGenerations] using hm

/-- **Generations.** A role opens lanes of ever newer generations, and one that is open is the last it opened. -/
theorem generations_in_order (side : LaneEndpoint) (role : LaneRole) (calls : List Call) :
    let opened := openedGenerations role ((laneRegistry side).log calls)
    opened.Pairwise (· < ·) ∧ ∀ generation, ((laneRegistry side).exec calls).state role = .opened generation →
      opened.getLast? = some generation := by
  obtain ⟨hi, hlast, hst⟩ := openedInOrder_exec side role calls
  exact ⟨hi, fun generation h => hlast ▸ hst generation h⟩

/-- Over a run a role is only ever open with the same or a newer generation. -/
theorem opened_le (hearly : ((laneRegistry side).exec before).state role = .opened earlier)
    (hl : ((laneRegistry side).exec (before ++ between)).state role = .opened later) : earlier ≤ later := by
  have hh := (openedInOrder_exec side role before).state_eq earlier hearly
  have hhighestLater := (openedInOrder_exec side role (before ++ between)).state_eq later hl
  have hgrows : ∃ highest, (((laneRegistry side).exec (before ++ between)).lanes role).highest = some highest ∧
      earlier ≤ highest := by
    rw [Machine.exec_append]
    exact highest_execFrom (wellHeld_exec before) hh between
  obtain ⟨_, heq, hle⟩ := hgrows
  obtain rfl := Option.some.inj (heq.symm.trans hhighestLater)
  exact hle

theorem SlotMove.opened_eq (hm : SlotMove slot opened after) (hp : slot.state ≠ .opened gen)
    (ha : after.state = .opened gen) : opened = [gen] := by
  cases hm with
  | keep hst | heals _ hst => exact absurd (hst ▸ ha) hp
  | opens _ _ hst =>
    rw [hst] at ha
    cases ha
    rfl
  | fails _ hst => exact absurd ha (hst gen)

/-- A generation that becomes open during a run was opened by one of its calls. -/
theorem mem_openedGenerations_of_state (calls : List Call)
    {reg : LaneRegistry} (h : reg.WellHeld) (hp : reg.state role ≠ .opened gen)
    (ha : ((laneRegistry side).execFrom reg calls).state role = .opened gen) :
    gen ∈ openedGenerations role ((laneRegistry side).logFrom reg calls) := by
  induction calls generalizing reg with
  | nil => exact absurd ha hp
  | cons call calls ih =>
    simp only [openedGenerations, Machine.logFrom_cons, flatMap_cons, mem_append]
    by_cases ho : (reg.step call).1.state role = .opened gen
    · left
      have := (step_slotMove h call role).opened_eq hp ho
      simp [this]
    · exact .inr (ih (wellHeld_step h call) ho ha)

/-- A generation that is no longer open never opens again. -/
theorem not_opened_again {after : List Call} (ho : ((laneRegistry side).exec before).state role = .opened gen)
    (hcl : ((laneRegistry side).exec (before ++ between)).state role ≠ .opened gen) :
    ((laneRegistry side).exec (before ++ between ++ after)).state role ≠ .opened gen := by
  intro hagain
  have horder := (openedInOrder_exec side role (before ++ between ++ after)).increasing
  have hfst : gen ∈ openedGenerations role ((laneRegistry side).log (before ++ between)) := by
    have hp := openedInOrder_exec side role before
    have hlast := hp.highest_eq.symm.trans (hp.state_eq gen ho)
    rw [Machine.log_append, openedGenerations, flatMap_append]
    exact mem_append_left _ (mem_of_getLast? hlast)
  rw [Machine.exec_append] at hagain
  have hsnd := mem_openedGenerations_of_state after (wellHeld_exec (before ++ between)) hcl hagain
  rw [Machine.log_append, openedGenerations, flatMap_append, pairwise_append] at horder
  exact lt_irrefl _ (horder.2.2 _ hfst _ hsnd)

/-! ### The failure budget -/

def Exhausted (reg : LaneRegistry) (role : LaneRole) : Prop :=
  (∃ reason, reg.state role = .disabled reason) ∨ ∃ reason, reg.ended = some reason

def effectiveFailures (role : LaneRole) (log : List (Call × Reply)) : Nat := log.countP fun
    | (.reportFailure failed _ _, .reportFailure action) => failed = role && action ≠ .superseded
    | _ => false

def HealthyWithin (localEndpoint : LaneEndpoint) (reg : LaneRegistry) (role : LaneRole) (calls : List Call) : Prop :=
  ∃ before generation after, calls = before ++ .markHealthy role generation :: after ∧
    ((laneRegistry localEndpoint).execFrom reg before).state role = .opened generation

theorem maxConsecutiveFailures_le (role : LaneRole) : (forRole role).maxConsecutiveFailures ≤ 3 := by
  cases role <;> decide

theorem exhausted_step (h : reg.WellHeld) (hexh : reg.Exhausted role) (call : Call) :
    (reg.step call).1.Exhausted role := by
  rcases hexh with ⟨reason, hst⟩ | ⟨reason, hend⟩
  · exact .inl ⟨reason, (step_slotMove h call role).disabled hst⟩
  · obtain ⟨-, ⟨reason, hph⟩, -⟩ := (step_effect reg call).of_ended (ended_eq_some.mp hend)
    exact .inr ⟨reason, ended_eq_some.mpr hph⟩

theorem exhausted_execFrom (h : reg.WellHeld) (hexh : reg.Exhausted role)
    (calls : List Call) : ((laneRegistry side).execFrom reg calls).Exhausted role := by
  have hb := (laneRegistry side).execFrom_preserves
    (P := fun reg : LaneRegistry => reg.WellHeld ∧ reg.Exhausted role)
    (fun reg call h => ⟨wellHeld_step h.1 call, exhausted_step h.1 h.2 call⟩) reg ⟨h, hexh⟩ calls
  exact hb.2

/-- Only a failure report that names the role counts. -/
theorem effectiveFailures_of_idle (h : reply.Idle) (role : LaneRole) :
    effectiveFailures role [(call, reply)] = 0 := by
  unfold Reply.Idle at h
  split at h
  case h_6 => cases h
  all_goals cases call <;> simp [effectiveFailures]

theorem effectiveFailures_reportFailure (role failed : LaneRole) (gen : NonZeroU32)
    (failure : LaneFailure) (h : action ≠ .superseded) :
    effectiveFailures role [(.reportFailure failed gen failure, .reportFailure action)] =
      if failed = role then 1 else 0 := by
  by_cases hr : failed = role <;> simp [effectiveFailures, h]

theorem consecutiveFailures_openLane (reg : LaneRegistry) (opened role : LaneRole) (gen : NonZeroU32) :
    ((reg.openLane opened gen).lanes role).consecutiveFailures = (reg.lanes role).consecutiveFailures := by
  by_cases h : role = opened
  · subst h
    simp
  · simp [h]

/-- The counter of the role moves by exactly these failures, and a failure leaves it within the budget. -/
def Counts (role : LaneRole) (failures : Nat) (before after : LaneRegistry) : Prop :=
  (after.lanes role).consecutiveFailures = (before.lanes role).consecutiveFailures + failures ∧
    (0 < failures → (after.lanes role).consecutiveFailures ≤ (forRole role).maxConsecutiveFailures)

theorem Counts.none {next : LaneRegistry}
    (h : (next.lanes role).consecutiveFailures = (reg.lanes role).consecutiveFailures) : Counts role 0 reg next :=
  ⟨h, fun hpos => absurd hpos (lt_irrefl 0)⟩

/-- A role that is not exhausted counts its effective failures. -/
theorem Effect.failures {next : LaneRegistry} (role : LaneRole) (h : reg.WellHeld) (heff : Effect reg call next reply)
    (hheal : ∀ gen, call = .markHealthy role gen → reg.state role ≠ .opened gen) :
    next.Exhausted role ∨ Counts role (effectiveFailures role [(call, reply)]) reg next := by
  cases heff with
  | idle hidle =>
    rw [effectiveFailures_of_idle hidle role]
    exact .inr (.none rfl)
  | openedLocal | admitted => exact .inr (.none (consecutiveFailures_openLane _ _ _ _))
  | @held _ preface =>
    refine .inr (.none ?_)
    by_cases hr : role = preface.role
    · subst hr
      simp
    · simp [hr]
  | granted =>
    refine .inr (.none ?_)
    rw [resolvePending_grant h]
    rcases resolve_cases h _ _ role with
      ⟨-, -, hslot⟩ | ⟨held, -, -, ⟨_, -, hslot⟩ | ⟨_, -, hslot, -⟩⟩ <;>
      exact (congrArg LaneSlot.consecutiveFailures hslot).trans rfl
  | @healed healed gen hst =>
    have hr : role ≠ healed := by
      rintro rfl
      exact hheal gen rfl hst
    exact .inr (.none (by simp [hr]))
  | @reopening failed gen failure _ _ _ _ _ _ hbd =>
    rw [effectiveFailures_reportFailure role failed gen failure (by simp)]
    split_ifs with hr
    · subst hr
      have hmax := maxConsecutiveFailures_le failed
      refine .inr ⟨?_, fun _ => by simpa [failedSlot] using hbd⟩
      simp only [lanes_setSlot_same, failedSlot]
      omega
    · exact .inr (.none (by simp [Ne.symm hr]))
  | @disabling failed gen failure =>
    rw [effectiveFailures_reportFailure role failed gen failure (by simp)]
    split_ifs with hr
    · subst hr
      exact .inl (.inl ⟨.recoveryExhausted, by simp [state, failedSlot]⟩)
    · exact .inr (.none (by simp [Ne.symm hr]))
  | exhausting | closing => exact .inl (.inr ⟨_, rfl⟩)

/-- Over a run without a delivery, an unexhausted role counts every effective failure and stays within
the budget. -/
theorem failures_execFrom (role : LaneRole) (calls : List Call) {reg : LaneRegistry} (h : reg.WellHeld)
    (hheal : ¬HealthyWithin side reg role calls) :
    ((laneRegistry side).execFrom reg calls).Exhausted role ∨ Counts role
      (effectiveFailures role ((laneRegistry side).logFrom reg calls)) reg ((laneRegistry side).execFrom reg calls) := by
  induction calls generalizing reg with
  | nil => exact .inr (.none rfl)
  | cons call calls ih =>
    have hfst := (step_effect reg call).failures role h fun gen hcall hst =>
      hheal ⟨[], gen, calls, by rw [hcall]; rfl, hst⟩
    have hrest := ih (wellHeld_step h call) fun ⟨before, gen, after, hcs, hst⟩ =>
      hheal ⟨call :: before, gen, after, by rw [hcs]; rfl, hst⟩
    have hcnt : effectiveFailures role ((laneRegistry side).logFrom reg (call :: calls)) =
        effectiveFailures role [(call, (reg.step call).2)] +
          effectiveFailures role ((laneRegistry side).logFrom (reg.step call).1 calls) := by
      simp only [effectiveFailures, Machine.logFrom_cons, laneRegistry_step, countP_cons, countP_nil]
      omega
    rw [Machine.execFrom_cons, laneRegistry_step]
    rcases hfst with hexh | ⟨hf, hbd⟩
    · exact .inl (exhausted_execFrom (wellHeld_step h call) hexh calls)
    rcases hrest with hexh | ⟨hf', hbd'⟩
    · exact .inl hexh
    · right
      refine ⟨by omega, fun hpos => ?_⟩
      by_cases hl : 0 < effectiveFailures role ((laneRegistry side).logFrom (reg.step call).1 calls)
      · exact hbd' hl
      · have := hbd (by omega)
        omega

theorem exhausted_of_failures (after : List Call)
    (hheal : ¬HealthyWithin side ((laneRegistry side).exec before) role calls)
    (hf : (forRole role).maxConsecutiveFailures <
      effectiveFailures role ((laneRegistry side).logFrom ((laneRegistry side).exec before) calls)) :
    ((laneRegistry side).exec (before ++ calls ++ after)).Exhausted role := by
  have hexh : ((laneRegistry side).exec (before ++ calls)).Exhausted role := by
    rw [Machine.exec_append]
    rcases failures_execFrom role calls (wellHeld_exec before) hheal with hexh | ⟨hcnt, hbd⟩
    · exact hexh
    · have := hbd (by omega)
      omega
  rw [Machine.exec_append]
  exact exhausted_execFrom (wellHeld_exec _) hexh after

/-- **Recovery.** A failure touches its own lane or ends the attachment, a disabled role stays disabled,
generations grow and are never opened twice, and a role that fails more often than its budget without
a delivery in between is disabled or has ended the attachment. -/
theorem recovery_scoped_and_bounded (localEndpoint : LaneEndpoint) (role : LaneRole) :
    (∀ calls generation failure, let reg := (laneRegistry localEndpoint).exec calls
      reg.reportFailure role generation failure = (reg, .superseded) ∨
        (∃ reason, (reg.reportFailure role generation failure).1.ended = some reason) ∨
        ((reg.reportFailure role generation failure).1.phase = reg.phase ∧
          ∀ other, other ≠ role → (reg.reportFailure role generation failure).1.lanes other = reg.lanes other)) ∧
    (∀ calls more reason, ((laneRegistry localEndpoint).exec calls).state role = .disabled reason →
      ((laneRegistry localEndpoint).exec (calls ++ more)).state role = .disabled reason) ∧
    (∀ calls more bound, (((laneRegistry localEndpoint).exec calls).lanes role).highest = some bound →
      ∃ highest, (((laneRegistry localEndpoint).exec (calls ++ more)).lanes role).highest = some highest ∧
        bound ≤ highest) ∧
    (∀ calls generation, (openedGenerations role ((laneRegistry localEndpoint).log calls)).count generation ≤ 1) ∧
    (∀ before between after generation, ((laneRegistry localEndpoint).exec before).state role = .opened generation →
      ((laneRegistry localEndpoint).exec (before ++ between)).state role ≠ .opened generation →
      ((laneRegistry localEndpoint).exec (before ++ between ++ after)).state role ≠ .opened generation) ∧
    (∀ before calls after, ¬HealthyWithin localEndpoint ((laneRegistry localEndpoint).exec before) role calls →
      (forRole role).maxConsecutiveFailures <
        effectiveFailures role ((laneRegistry localEndpoint).logFrom ((laneRegistry localEndpoint).exec before) calls) →
      (∃ reason, ((laneRegistry localEndpoint).exec (before ++ calls ++ after)).state role = .disabled reason) ∨
        ∃ reason, ((laneRegistry localEndpoint).exec (before ++ calls ++ after)).ended = some reason) := by
  refine ⟨?_, ?_, ?_, ?_, ?_, ?_⟩
  · intro calls generation failure
    dsimp only
    generalize (laneRegistry localEndpoint).exec calls = reg
    have heff := effect_reportFailure reg role generation failure
    generalize reg.reportFailure role generation failure = result at heff
    obtain ⟨_, action⟩ := result
    cases heff with
    | idle hidle =>
      left
      cases action <;> first | rfl | cases hidle
    | reopening | disabling => exact .inr (.inr ⟨rfl, fun other hoth => lanes_setSlot_of_ne _ _ hoth⟩)
    | exhausting => exact .inr (.inl ⟨_, rfl⟩)
  · intro calls more reason hdisa
    rw [Machine.exec_append]
    exact slot_preserved (P := fun slot => slot.state = .disabled reason) role
      (fun _ _ _ hm => hm.disabled) (wellHeld_exec calls) hdisa more
  · intro calls more bound hbd
    rw [Machine.exec_append]
    exact highest_execFrom (wellHeld_exec calls) hbd more
  · intro calls generation
    have hnd := (openedInOrder_exec localEndpoint role calls).increasing.imp fun h => ne_of_lt h
    exact nodup_iff_count_le_one.mp hnd generation
  · intro before between after generation
    exact not_opened_again
  · intro before calls after
    exact exhausted_of_failures after

/-- One failure of the control lane uses up its budget. -/
theorem recovery_scoped_and_bounded_control : (forRole .control).maxConsecutiveFailures < effectiveFailures .control
        ((laneRegistry .deck).logFrom ((laneRegistry .deck).exec [.openLocal .control])
          [.reportFailure .control NonZeroU32.minValue .peerReset]) ∧
      ((∃ reason, ((laneRegistry .deck).exec ([.openLocal .control] ++
          [.reportFailure .control NonZeroU32.minValue .peerReset] ++ [])).state .control = .disabled reason) ∨
        ∃ reason, ((laneRegistry .deck).exec ([.openLocal .control] ++
          [.reportFailure .control NonZeroU32.minValue .peerReset] ++ [])).ended = some reason) := by
  have hf : (forRole .control).maxConsecutiveFailures < effectiveFailures .control
      ((laneRegistry .deck).logFrom ((laneRegistry .deck).exec [.openLocal .control])
        [.reportFailure .control NonZeroU32.minValue .peerReset]) := by decide
  refine ⟨hf, (recovery_scoped_and_bounded .deck .control).2.2.2.2.2 _ _ [] ?_ hf⟩
  rintro ⟨_, gen, _, hcs, -⟩
  have hmem : Call.markHealthy .control gen ∈
      [Call.reportFailure .control NonZeroU32.minValue .peerReset] := by simp [hcs]
  simp at hmem

end Arcen.LaneRegistry
