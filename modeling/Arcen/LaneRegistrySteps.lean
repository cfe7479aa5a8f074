import Arcen.LaneRegistry

/-! What one call can do to the registry. `Effect` lists every outcome of every call with the checks
that led to it; the invariants of the later modules are case analyses of it and never unfold a method. -/

namespace Arcen.LaneRegistry

variable {reg : LaneRegistry}

/-! ### Frames -/

@[simp] theorem lanes_setSlot_same (reg : LaneRegistry) (role : LaneRole) (slot : LaneSlot) :
    (reg.setSlot role slot).lanes role = slot := by
  simp [setSlot]

variable {role : LaneRole} {preface : LanePreface} {slot : LaneSlot} {presented : NonZeroU32} {allow : Bool}
  {superseded : Option SupersededLane}

section

variable (reg : LaneRegistry)

@[simp] theorem lanes_setSlot_of_ne (slot : LaneSlot)
    (h : other ≠ role) : (reg.setSlot role slot).lanes other = reg.lanes other := by
  simp [setSlot, h]

@[simp] theorem phase_setSlot (role : LaneRole) (slot : LaneSlot) : (reg.setSlot role slot).phase = reg.phase := rfl

@[simp] theorem lanes_openLane_same (role : LaneRole) (gen : NonZeroU32) : (reg.openLane role gen).lanes role =
      { reg.lanes role with highest := some gen, state := .opened gen } := by
  unfold openLane
  split <;> simp

@[simp] theorem lanes_openLane_of_ne (gen : NonZeroU32)
    (h : other ≠ role) : (reg.openLane role gen).lanes other = reg.lanes other := by
  unfold openLane
  split <;> simp [h]

theorem phase_openLane (role : LaneRole) (gen : NonZeroU32) :
    (reg.openLane role gen).phase = if role.requiresAttachment then reg.phase else .unauthorized := by
  unfold openLane
  split <;> simp_all

@[simp] theorem localEndpoint_openLane (role : LaneRole) (gen : NonZeroU32) :
    (reg.openLane role gen).localEndpoint = reg.localEndpoint := by
  unfold openLane
  split <;> rfl

variable (reason : LaneEndReason)

@[simp] theorem lanes_endAttachment (role : LaneRole) :
    (reg.endAttachment reason).lanes role = { reg.lanes role with pending := none } := rfl

@[simp] theorem phase_endAttachment : (reg.endAttachment reason).phase = .ended reason := rfl

end

theorem ended_eq_none : reg.ended = none ↔ ∀ reason, reg.phase ≠ .ended reason := by
  unfold ended
  cases reg.phase <;> simp

theorem ended_eq_some {reason : LaneEndReason} : reg.ended = some reason ↔ reg.phase = .ended reason := by
  unfold ended
  cases reg.phase <;> simp

/-! ### Registering a lane -/

/-- What the phase must be for a preface to pass `checkAttachment`. -/
inductive PhaseAdmits (phase : Phase) (preface : LanePreface) : Option NonZeroU64 → Prop where
  | control (hrole : preface.role = .control) (hphase : phase = .awaitingControl) : PhaseAdmits phase preface none
  | bound {attachment : LaneAttachment} {roles : LaneRoleSet} (hrole : preface.role ≠ .control)
      (hphase : phase = .authorized attachment roles) (hroles : roles.contains preface.role = true)
      (hattachment : preface.attachment = some attachment) : PhaseAdmits phase preface (some attachment.generation)

variable {gen : Option NonZeroU64} {shape : LaneShape}

theorem PhaseAdmits.control_or_bound {phase : Phase} (h : PhaseAdmits phase preface gen) :
    (preface.role = .control ∧ phase = .awaitingControl) ∨
      ∃ att roles, preface.role ≠ .control ∧ phase = .authorized att roles ∧
        roles.contains preface.role = true ∧ preface.attachment = some att := by
  cases h with
  | control hr hph => exact .inl ⟨hr, hph⟩
  | bound hr hph hrls ha => exact .inr ⟨_, _, hr, hph, hrls, ha⟩

theorem checkAttachment_eq_ok : reg.checkAttachment shape preface = .ok gen ↔
      shape = preface.role.shape ∧ PhaseAdmits reg.phase preface gen := by
  constructor
  · intro h
    simp only [checkAttachment] at h
    split at h
    · cases h
    split at h
    · cases h
    rename_i hshape
    refine ⟨not_not.mp hshape, ?_⟩
    split at h
    · rename_i hr
      split at h
      · rename_i att roles hph
        split at h
        · cases h
        rename_i hrls
        split at h
        · cases h
        rename_i presented hpres
        split at h
        · cases h
        split at h
        · cases h
        cases h
        have hsame : presented = att := by
          obtain ⟨_, binding, _⟩ := presented
          simp_all
        exact .bound (LaneRole.requiresAttachment_iff.mp hr) hph (by simpa using hrls) (by rw [hpres, hsame])
      · cases h
    · rename_i hr
      rw [LaneRole.requiresAttachment_iff, not_not] at hr
      split at h
      · rename_i hph
        cases h
        exact .control hr hph
      · cases h
  · rintro ⟨rfl, hadmi⟩
    cases hadmi with
    | control hr hph => simp [checkAttachment, ended, hph, hr, LaneRole.requiresAttachment]
    | bound hr hph hrls ha =>
      simp [checkAttachment, ended, hph, hr, hrls, ha]

/-- What a slot must be to take a new generation, and the lane that is replaced. -/
inductive SlotAdmits (slot : LaneSlot) (role : LaneRole) (presented : NonZeroU32) (allowSupersede : Bool) :
    Option SupersededLane → Prop where
  | fresh (hstate : slot.state = .absent ∨ ∃ failed failure, slot.state = .recovering failed failure)
      (hnewer : ∀ highest, slot.highest = some highest → highest < presented) :
      SlotAdmits slot role presented allowSupersede none
  | supersede {current : NonZeroU32} (hstate : slot.state = .opened current) (hallow : allowSupersede = true)
      (hne : presented ≠ current) (hnewer : ∀ highest, slot.highest = some highest → highest < presented) :
      SlotAdmits slot role presented allowSupersede (some (.forRole role current))

section

variable (h : SlotAdmits slot role presented allow superseded)
include h

theorem SlotAdmits.newer : ∀ highest, slot.highest = some highest → highest < presented := by
  cases h <;> assumption

theorem SlotAdmits.not_disabled (reason : LaneDisableReason) : slot.state ≠ .disabled reason := by
  intro hdisa
  cases h with
  | fresh hst => rcases hst with h | ⟨_, _, h⟩ <;> simp [hdisa] at h
  | supersede hst => simp [hdisa] at hst

end

theorem checkHighest_eq_ok : slot.checkHighest role presented superseded = .ok result ↔
      superseded = result ∧ ∀ highest, slot.highest = some highest → highest < presented := by
  unfold LaneSlot.checkHighest
  cases slot.highest with
  | none => simp
  | some highest =>
    by_cases hle : presented ≤ highest
    · simp [hle]
    · simp [hle, lt_of_not_ge hle]

theorem checkGeneration_eq_ok : slot.checkGeneration role presented allow = .ok superseded ↔
      SlotAdmits slot role presented allow superseded := by
  unfold LaneSlot.checkGeneration
  constructor
  · intro h
    split at h
    · cases h
    · rename_i current hst
      split at h
      · cases h
      rename_i hallow
      rw [not_or] at hallow
      obtain ⟨rfl, hn⟩ := checkHighest_eq_ok.mp h
      exact .supersede hst (by simpa using hallow.1) hallow.2 hn
    · rename_i hst
      obtain ⟨rfl, hn⟩ := checkHighest_eq_ok.mp h
      exact .fresh (.inl hst) hn
    · rename_i hst
      obtain ⟨rfl, hn⟩ := checkHighest_eq_ok.mp h
      exact .fresh (.inr ⟨_, _, hst⟩) hn
  · intro h
    cases h with
    | fresh hst hn =>
      rcases hst with hst | ⟨_, _, hst⟩ <;> simpa [hst, checkHighest_eq_ok] using hn
    | supersede hst hallow hne hn => simpa [hst, hallow, hne, checkHighest_eq_ok] using hn

/-- A lane `register` lets in. -/
structure Registers (reg : LaneRegistry) (shape : LaneShape) (preface : LanePreface) (allowSupersede : Bool)
    (admission : LaneAdmission) : Prop where
  shape_eq : shape = preface.role.shape
  phase_admits : PhaseAdmits reg.phase preface admission.attachmentGeneration
  slot_admits : SlotAdmits (reg.lanes preface.role) preface.role preface.laneGeneration allowSupersede
    admission.superseded
  role_eq : admission.role = preface.role
  generation_eq : admission.laneGeneration = preface.laneGeneration

/-- `register` either changes nothing or opens the lane. -/
theorem register_cases (reg : LaneRegistry) (shape : LaneShape) (preface : LanePreface) (allow : Bool) :
    (∃ refusal, reg.register shape preface allow = (reg, .error refusal)) ∨ ∃ adm, reg.register shape preface allow =
          (reg.openLane preface.role preface.laneGeneration, .ok adm) ∧ Registers reg shape preface allow adm := by
  cases ha : reg.checkAttachment shape preface with
  | error refusal => exact .inl ⟨refusal, by simp only [register, ha]⟩
  | ok attachmentGeneration =>
    cases hg : (reg.lanes preface.role).checkGeneration preface.role preface.laneGeneration allow with
    | error refusal => exact .inl ⟨refusal, by simp only [register, ha, hg]⟩
    | ok superseded =>
      obtain ⟨hshape, hph⟩ := checkAttachment_eq_ok.mp ha
      have hs := checkGeneration_eq_ok.mp hg
      exact .inr ⟨⟨_, _, attachmentGeneration, superseded⟩,
        by simp only [register, ha, hg], hshape, hph, hs, rfl, rfl⟩

theorem register_of_admits
    (hshape : shape = preface.role.shape) (hph : PhaseAdmits reg.phase preface attachmentGeneration)
    (hs : SlotAdmits (reg.lanes preface.role) preface.role preface.laneGeneration allow superseded) :
    reg.register shape preface allow = (reg.openLane preface.role preface.laneGeneration,
      .ok ⟨preface.role, preface.laneGeneration, attachmentGeneration, superseded⟩) := by
  have ha := checkAttachment_eq_ok.mpr ⟨hshape, hph⟩
  have hg := checkGeneration_eq_ok.mpr hs
  simp only [register, ha, hg]

/-- The outcome depends on the phase and on the role's own slot only. -/
theorem register_congr (left right : LaneRegistry) (shape : LaneShape) (preface : LanePreface)
    (allow : Bool) (hph : left.phase = right.phase)
    (hs : left.lanes preface.role = right.lanes preface.role) :
    (left.register shape preface allow).2 = (right.register shape preface allow).2 ∧
      (left.register shape preface allow).1.lanes preface.role =
        (right.register shape preface allow).1.lanes preface.role := by
  have ha : left.checkAttachment shape preface = right.checkAttachment shape preface := by
    obtain ⟨_, phase, _⟩ := left
    obtain ⟨_, phase', _⟩ := right
    obtain rfl : phase = phase' := hph
    rfl
  simp only [register, ha, hs]
  split
  · exact ⟨rfl, hs⟩
  · split
    · exact ⟨rfl, hs⟩
    · exact ⟨rfl, by simp [hs]⟩

/-! ### Resolving held lanes -/

/-- A lane is held in its own role's slot, for a role the peer opens, and only by a Deck that waits for
the grant. -/
def WellHeld (reg : LaneRegistry) : Prop := ∀ role held, (reg.lanes role).pending = some held →
    held.role = role ∧ role ≠ .control ∧ role.opener = reg.localEndpoint.peer ∧
      reg.localEndpoint = .deck ∧ reg.phase = .unauthorized

def taken (reg : LaneRegistry) (role : LaneRole) : LaneRegistry :=
  reg.setSlot role { reg.lanes role with pending := none }

def resolution (reg : LaneRegistry) (role : LaneRole) : Option PendingResolution :=
  (reg.lanes role).pending.map fun held =>
    ⟨role, held.laneGeneration, ((reg.taken role).register role.shape held true).2⟩

def resolvedSlot (reg : LaneRegistry) (role : LaneRole) : LaneSlot :=
  match (reg.lanes role).pending with
  | none => reg.lanes role
  | some held => ((reg.taken role).register role.shape held true).1.lanes role

theorem resolve_congr {left right : LaneRegistry} (hph : left.phase = right.phase)
    (hs : left.lanes role = right.lanes role)
    (hown : ∀ held, (right.lanes role).pending = some held → held.role = role) :
    left.resolution role = right.resolution role ∧ left.resolvedSlot role = right.resolvedSlot role := by
  unfold resolution resolvedSlot
  rw [hs]
  cases hh : (right.lanes role).pending with
  | none => exact ⟨rfl, rfl⟩
  | some held =>
    obtain rfl := hown held hh
    obtain ⟨hout, hls⟩ := register_congr (left.taken held.role) (right.taken held.role)
      held.role.shape held true hph (by simp [taken, hs])
    exact ⟨by simp [hout], hls⟩

theorem pending_register (reg : LaneRegistry) (shape : LaneShape) (preface : LanePreface)
    (allow : Bool) (role : LaneRole) :
    ((reg.register shape preface allow).1.lanes role).pending = (reg.lanes role).pending := by
  rcases reg.register_cases shape preface allow with ⟨refusal, heq⟩ | ⟨adm, heq, -⟩
  · rw [heq]
  · rw [heq]
    by_cases h : role = preface.role
    · simp [h]
    · simp [h]

theorem pending_resolvedSlot (reg : LaneRegistry) (role : LaneRole) : (reg.resolvedSlot role).pending = none := by
  unfold resolvedSlot
  split
  · assumption
  · simp [pending_register, taken]

theorem register_taken_fst
    (hh : (reg.lanes role).pending = some held) (hr : held.role = role) (hctl : role ≠ .control) :
    ((reg.taken role).register role.shape held true).1 = reg.setSlot role (reg.resolvedSlot role) := by
  subst hr
  rcases (reg.taken held.role).register_cases held.role.shape held true with ⟨refusal, heq⟩ | ⟨adm, heq, -⟩
  · simp only [resolvedSlot, hh, heq]
    simp [taken, setSlot]
  · simp only [resolvedSlot, hh, heq, openLane, LaneRole.requiresAttachment_iff.mpr hctl]
    simp [taken, setSlot]

/-- The loop resolves every held lane against the registry the loop started from: one role's outcome
does not depend on another's. -/
theorem resolvePending_eq (reg : LaneRegistry) (hnd : roles.Nodup)
    (hown : ∀ role held, (reg.lanes role).pending = some held → held.role = role ∧ role ≠ .control) :
    reg.resolvePending roles =
      ({ reg with lanes := fun role => if role ∈ roles then reg.resolvedSlot role else reg.lanes role },
        roles.filterMap reg.resolution) := by
  induction roles generalizing reg with
  | nil => simp [resolvePending]
  | cons role roles ih =>
    obtain ⟨hnotMem, hnd⟩ := List.nodup_cons.mp hnd
    have hownNext (other : LaneRole) (lane : LanePreface)
        (hl : ((reg.setSlot role (reg.resolvedSlot role)).lanes other).pending = some lane) :
        lane.role = other ∧ other ≠ .control := by
      by_cases hoth : other = role
      · subst hoth
        simp [pending_resolvedSlot] at hl
      · rw [lanes_setSlot_of_ne _ _ hoth] at hl
        exact hown other lane hl
    have hcongr (other : LaneRole) (hoth : other ∈ roles) :=
      resolve_congr (phase_setSlot reg role (reg.resolvedSlot role))
        (lanes_setSlot_of_ne reg (reg.resolvedSlot role) (ne_of_mem_of_not_mem hoth hnotMem))
        fun lane hl => (hown other lane hl).1
    -- one turn of the loop; without a held lane it leaves the registry
    have hstep : reg.resolvePending (role :: roles) =
        (((reg.setSlot role (reg.resolvedSlot role)).resolvePending roles).1,
          (reg.resolution role).toList ++ ((reg.setSlot role (reg.resolvedSlot role)).resolvePending roles).2) := by
      cases hh : (reg.lanes role).pending with
      | none => simp [resolvePending, resolution, resolvedSlot, hh, setSlot]
      | some held =>
        obtain ⟨hr, hctl⟩ := hown role held hh
        rw [← register_taken_fst hh hr hctl]
        simp [resolvePending, resolution, hh, taken]
    have hrest : roles.filterMap (reg.setSlot role (reg.resolvedSlot role)).resolution =
        roles.filterMap reg.resolution := List.filterMap_congr fun other hoth => (hcongr other hoth).1
    rw [hstep, ih _ hnd hownNext, hrest]
    refine Prod.ext (congrArg (LaneRegistry.mk _ _) (funext fun other => ?_)) (by cases h : reg.resolution role <;> simp [h])
    by_cases hoth : other = role
    · subst hoth
      simp [hnotMem]
    · by_cases hmem : other ∈ roles
      · simp [hmem, (hcongr other hmem).2]
      · simp [hmem, hoth]

/-! ### What a call can do -/

/-- A reply that announces no change. -/
def Reply.Idle : Reply → Prop
  | .openLocal (.error _) | .admitPeer (.error _) | .authorize (.error _) | .markHealthy
  | .reportFailure .superseded => True
  | _ => False

def grant (reg : LaneRegistry) (attachment : LaneAttachment) (roles : LaneRoleSet) : LaneRegistry :=
  { reg with phase := .authorized attachment (roles.withRole .control) }

def failedSlot (slot : LaneSlot) (state : LaneState) : LaneSlot :=
  { slot with consecutiveFailures := min (slot.consecutiveFailures + 1) 255, state := state }

inductive Effect (reg : LaneRegistry) : Call → LaneRegistry → Reply → Prop where
  | idle {call : Call} {reply : Reply} (hidle : reply.Idle) : Effect reg call reg reply
  | openedLocal {role : LaneRole} {preface : LanePreface} {admission : LaneAdmission}
      (hopener : role.opener = reg.localEndpoint) (hrole : preface.role = role)
      (hregisters : Registers reg role.shape preface false admission) :
      Effect reg (.openLocal role) (reg.openLane preface.role preface.laneGeneration) (.openLocal (.ok preface))
  | admitted {shape : LaneShape} {preface : LanePreface} {admission : LaneAdmission}
      (hopener : preface.role.opener = reg.localEndpoint.peer)
      (hregisters : Registers reg shape preface true admission) :
      Effect reg (.admitPeer shape preface) (reg.openLane preface.role preface.laneGeneration)
        (.admitPeer (.ok (.admitted admission)))
  | held {shape : LaneShape} {preface : LanePreface} {superseded : Option SupersededLane}
      (hopener : preface.role.opener = reg.localEndpoint.peer) (hphase : reg.phase = .unauthorized)
      (hdeck : reg.localEndpoint = .deck) (hrole : preface.role ≠ .control)
      (hshape : shape = preface.role.shape) : Effect reg (.admitPeer shape preface)
        (reg.setSlot preface.role { reg.lanes preface.role with pending := some preface })
        (.admitPeer (.ok (.pendingAuthorization preface.role preface.laneGeneration superseded)))
  | granted {attachment : LaneAttachment} {roles : LaneRoleSet} (hphase : reg.phase = .unauthorized) :
      Effect reg (.authorize attachment roles) ((reg.grant attachment roles).resolvePending LaneRole.all).1
        (.authorize (.ok ((reg.grant attachment roles).resolvePending LaneRole.all).2))
  | healed {role : LaneRole} {generation : NonZeroU32} (hstate : reg.state role = .opened generation) :
      Effect reg (.markHealthy role generation)
        (reg.setSlot role { reg.lanes role with consecutiveFailures := 0 }) .markHealthy
  | reopening {role : LaneRole} {generation : NonZeroU32} {failure : LaneFailure} {reopenedBy : LaneEndpoint}
      {resetStream requestKeyframe releaseHeldInput : Bool} (hstate : reg.state role = .opened generation)
      (hended : reg.ended = none)
      (hbound : min ((reg.lanes role).consecutiveFailures + 1) 255 ≤
        (LaneRecoveryPolicy.forRole role).maxConsecutiveFailures) :
      Effect reg (.reportFailure role generation failure)
        (reg.setSlot role (failedSlot (reg.lanes role) (.recovering generation failure)))
        (.reportFailure (.reopen role generation reopenedBy resetStream requestKeyframe releaseHeldInput))
  | disabling {role : LaneRole} {generation : NonZeroU32} {failure : LaneFailure} {resetStream : Bool}
      (hstate : reg.state role = .opened generation) (hended : reg.ended = none) :
      Effect reg (.reportFailure role generation failure)
        (reg.setSlot role (failedSlot (reg.lanes role) (.disabled .recoveryExhausted)))
        (.reportFailure (.disable role resetStream))
  | exhausting {role : LaneRole} {generation : NonZeroU32} {failure : LaneFailure} {resetStream : Bool}
      {reason : LaneEndReason} (hstate : reg.state role = .opened generation) (hended : reg.ended = none) :
      Effect reg (.reportFailure role generation failure)
        ((reg.setSlot role (failedSlot (reg.lanes role) (.recovering generation failure))).endAttachment reason)
        (.reportFailure (.endAttachment role resetStream reason))
  | closing {reason : LaneEndReason} : Effect reg (.endAttachment reason) (reg.endAttachment reason) .endAttachment

section

variable (reg : LaneRegistry)

theorem effect_openLocal (role : LaneRole) :
    Effect reg (.openLocal role) (reg.openLocal role).1 (.openLocal (reg.openLocal role).2) := by
  unfold openLocal
  split
  · exact .idle trivial
  rename_i ho
  rw [not_not] at ho
  split
  · rename_i hr
    split
    · rename_i attachment _ _
      cases hb : LanePreface.bound role attachment (reg.nextGeneration role) with
      | error =>
        simp only [hb]
        exact .idle trivial
      | ok preface =>
        have hrole : preface.role = role := by
          rw [LanePreface.bound, dif_pos hr] at hb
          cases hb
          rfl
        rcases reg.register_cases role.shape preface false with ⟨refusal, heq⟩ | ⟨adm, heq, hregs⟩
        · simp only [hb, heq]
          exact .idle trivial
        · simp only [hb, heq]
          exact .openedLocal ho hrole hregs
    · exact .idle trivial
  · rename_i hr
    rw [LaneRole.requiresAttachment_iff, not_not] at hr
    rcases reg.register_cases role.shape (.control (reg.nextGeneration role)) false with
      ⟨refusal, heq⟩ | ⟨adm, heq, hregs⟩
    · simp only [heq]
      exact .idle trivial
    · simp only [heq]
      exact .openedLocal ho hr.symm hregs

theorem effect_admitPeer (shape : LaneShape) (preface : LanePreface) :
    Effect reg (.admitPeer shape preface) (reg.admitPeer shape preface).1
      (.admitPeer (reg.admitPeer shape preface).2) := by
  unfold admitPeer
  dsimp only
  split
  · exact .idle trivial
  rename_i ho
  rw [not_not] at ho
  split
  · rename_i hhold
    obtain ⟨hph, hdeck, hr⟩ := hhold
    have hr := LaneRole.requiresAttachment_iff.mp hr
    unfold holdPending
    dsimp only
    split
    · exact .idle trivial
    rename_i hshape
    rw [not_not] at hshape
    split
    · split
      · exact .idle trivial
      · exact .held ho hph hdeck hr hshape
    · exact .held ho hph hdeck hr hshape
  · rcases reg.register_cases shape preface true with ⟨refusal, heq⟩ | ⟨adm, heq, hregs⟩
    · simp only [heq]
      exact .idle trivial
    · simp only [heq]
      exact .admitted ho hregs

theorem effect_reportFailure (role : LaneRole) (gen : NonZeroU32) (failure : LaneFailure) :
    Effect reg (.reportFailure role gen failure) (reg.reportFailure role gen failure).1
      (.reportFailure (reg.reportFailure role gen failure).2) := by
  unfold reportFailure
  dsimp only
  split
  · exact .idle trivial
  rename_i hend
  rw [Option.not_isSome_iff_eq_none] at hend
  split
  · exact .idle trivial
  rename_i hst
  rw [not_not] at hst
  split
  · exact .exhausting hst hend
  split
  · split
    · exact .disabling hst hend
    · exact .exhausting hst hend
  · rename_i hbd
    exact .reopening hst hend (not_lt.mp hbd)

/-- **One step.** -/
theorem step_effect (call : Call) : Effect reg call (reg.step call).1 (reg.step call).2 := by
  cases call with
  | openLocal role => exact effect_openLocal reg role
  | admitPeer shape preface => exact effect_admitPeer reg shape preface
  | authorize att roles =>
    simp only [step, authorize]
    split
    · exact .idle trivial
    · exact .idle trivial
    · exact .idle trivial
    · rename_i hph
      exact .granted hph
  | markHealthy role gen =>
    simp only [step, markHealthy]
    split
    · rename_i hst
      exact .healed hst
    · exact .idle trivial
  | reportFailure role gen failure => exact effect_reportFailure reg role gen failure
  | endAttachment => exact .closing

end

end Arcen.LaneRegistry
