import Arcen.LaneRegistrySteps

/-! Runs of the registry. Lanes are held only by a Deck that waits for the grant, so the grant resolves
each role on its own; and what a call does to one slot is one of four moves, of which only one opens a
lane. -/

namespace Arcen.LaneRegistry

open List

variable {reg : LaneRegistry}

/-! ### Held lanes -/

theorem wellHeld_new (localEndpoint : LaneEndpoint) : (new localEndpoint).WellHeld := by
  intro role held h
  cases h

theorem wellHeld_of_pending_eq_none (h : ∀ role, (reg.lanes role).pending = none) : reg.WellHeld := by
  intro role held hh
  rw [h] at hh
  cases hh

theorem resolvePending_grant (h : reg.WellHeld) (att : LaneAttachment) (roles : LaneRoleSet) :
    (reg.grant att roles).resolvePending LaneRole.all =
      ({ reg.grant att roles with lanes := (reg.grant att roles).resolvedSlot },
        LaneRole.all.filterMap (reg.grant att roles).resolution) := by
  rw [resolvePending_eq (reg.grant att roles) LaneRole.nodup_all
    fun role held hh => ⟨(h role held hh).1, (h role held hh).2.1⟩]
  simp [LaneRole.mem_all]

theorem wellHeld_openLane (h : reg.WellHeld) (role : LaneRole) (gen : NonZeroU32) :
    (reg.openLane role gen).WellHeld := by
  intro other held hh
  have hpend : (reg.lanes other).pending = some held := by
    by_cases ho : other = role
    · subst ho
      simpa using hh
    · simpa [ho] using hh
  obtain ⟨hown, hctl, hopens, hd, hunau⟩ := h other held hpend
  refine ⟨hown, hctl, by simpa using hopens, by simpa using hd, ?_⟩
  rw [phase_openLane]
  split
  · exact hunau
  · rfl

variable {slot : LaneSlot} {preface : LanePreface} {call : Call} {next : LaneRegistry} {reply : Reply}

section

variable (h : reg.WellHeld)
include h

theorem wellHeld_setSlot {role : LaneRole}
    (hpend : slot.pending = (reg.lanes role).pending) : (reg.setSlot role slot).WellHeld := by
  intro other held hh
  apply h other held
  by_cases ho : other = role
  · subst ho
    simpa [hpend] using hh
  · simpa [ho] using hh

theorem wellHeld_hold (hopens : preface.role.opener = reg.localEndpoint.peer) (hph : reg.phase = .unauthorized)
    (hd : reg.localEndpoint = .deck) (hr : preface.role ≠ .control) :
    (reg.setSlot preface.role { reg.lanes preface.role with pending := some preface }).WellHeld := by
  intro other lane hlane
  by_cases ho : other = preface.role
  · subst ho
    simp only [lanes_setSlot_same, Option.some.injEq] at hlane
    subst hlane
    exact ⟨rfl, hr, hopens, hd, hph⟩
  · rw [lanes_setSlot_of_ne _ _ ho] at hlane
    exact h other lane hlane

theorem Effect.wellHeld (heff : Effect reg call next reply) : next.WellHeld := by
  cases heff with
  | idle => exact h
  | openedLocal | admitted => exact wellHeld_openLane h _ _
  | held hopens hph hd hr => exact wellHeld_hold h hopens hph hd hr
  | granted =>
    rw [resolvePending_grant h]
    exact wellHeld_of_pending_eq_none fun role => pending_resolvedSlot _ role
  | healed | reopening | disabling => exact wellHeld_setSlot h rfl
  | exhausting | closing => exact wellHeld_of_pending_eq_none fun _ => rfl

theorem wellHeld_step (call : Call) : (reg.step call).1.WellHeld := (step_effect reg call).wellHeld h

theorem resolve_cases (att : LaneAttachment) (roles : LaneRoleSet) (role : LaneRole) :
    ((reg.lanes role).pending = none ∧ (reg.grant att roles).resolution role = none ∧
        (reg.grant att roles).resolvedSlot role = reg.lanes role) ∨
      ∃ held, (reg.lanes role).pending = some held ∧ held.role = role ∧ ((∃ refusal,
            (reg.grant att roles).resolution role = some ⟨role, held.laneGeneration, .error refusal⟩ ∧
            (reg.grant att roles).resolvedSlot role = { reg.lanes role with pending := none }) ∨
          ∃ adm, (reg.grant att roles).resolution role = some ⟨role, held.laneGeneration, .ok adm⟩ ∧
            (reg.grant att roles).resolvedSlot role =
              ⟨.opened held.laneGeneration, some held.laneGeneration, (reg.lanes role).consecutiveFailures, none⟩ ∧
            Registers ((reg.grant att roles).taken role) role.shape held true adm) := by
  have hls : (reg.grant att roles).lanes role = reg.lanes role := rfl
  cases hh : (reg.lanes role).pending with
  | none => exact .inl ⟨rfl, by simp [resolution, hls, hh], by simp [resolvedSlot, hls, hh]⟩
  | some held =>
    have hr := (h role held hh).1
    refine .inr ⟨held, rfl, hr, ?_⟩
    rcases ((reg.grant att roles).taken role).register_cases role.shape held true with
      ⟨refusal, heq⟩ | ⟨adm, heq, hregs⟩
    · refine .inl ⟨refusal, ?_, ?_⟩
      · simp [resolution, hls, hh, heq]
      · simp only [resolvedSlot, hls, hh, heq]
        simp [taken, hls]
    · refine .inr ⟨adm, ?_, ?_, hregs⟩
      · simp [resolution, hls, hh, heq]
      · simp only [resolvedSlot, hls, hh, heq]
        simp [taken, hls, hr]

end

/-! ### Lanes opened -/

def Reply.opened : Reply → List (LaneRole × NonZeroU32)
  | .openLocal (.ok preface) => [(preface.role, preface.laneGeneration)]
  | .admitPeer (.ok (.admitted admission)) => [(admission.role, admission.laneGeneration)]
  | .authorize (.ok resolutions) => resolutions.filterMap fun resolution =>
    match resolution.outcome with
    | .ok admission => some (admission.role, admission.laneGeneration)
    | .error _ => none
  | _ => []

variable (role : LaneRole)

def Reply.openedOf (reply : Reply) : List NonZeroU32 :=
  reply.opened.filterMap fun opened => if opened.1 = role then some opened.2 else none

/-- The generations a role was open with over a run, oldest first. -/
def openedGenerations (log : List (Call × Reply)) : List NonZeroU32 := log.flatMap fun entry => entry.2.openedOf role

/-- What a call may do to one slot, its held lane apart, with the generations it opens. -/
inductive SlotMove (slot : LaneSlot) : List NonZeroU32 → LaneSlot → Prop where
  | keep {after : LaneSlot} (hstate : after.state = slot.state) (hhighest : after.highest = slot.highest)
      (hfailures : after.consecutiveFailures = slot.consecutiveFailures) : SlotMove slot [] after
  | opens {after : LaneSlot} {generation : NonZeroU32} (hdisabled : ∀ reason, slot.state ≠ .disabled reason)
      (hnewer : ∀ highest, slot.highest = some highest → highest < generation)
      (hstate : after.state = .opened generation) (hhighest : after.highest = some generation)
      (hfailures : after.consecutiveFailures = slot.consecutiveFailures) : SlotMove slot [generation] after
  | heals {after : LaneSlot} {generation : NonZeroU32} (hopen : slot.state = .opened generation)
      (hstate : after.state = slot.state) (hhighest : after.highest = slot.highest) : SlotMove slot [] after
  | fails {after : LaneSlot} {generation : NonZeroU32} (hopen : slot.state = .opened generation)
      (hstate : ∀ generation, after.state ≠ .opened generation)
      (hhighest : after.highest = slot.highest) : SlotMove slot [] after

theorem Reply.openedOf_of_idle (h : reply.Idle) (role : LaneRole) : reply.openedOf role = [] := by
  unfold Reply.Idle at h
  split at h <;> first | rfl | cases h

theorem Reply.openedOf_authorize (resolutions : List PendingResolution) :
    (Reply.authorize (.ok resolutions)).openedOf role = resolutions.filterMap fun res =>
      match res.outcome with
      | .ok adm => if adm.role = role then some adm.laneGeneration else none
      | .error _ => none := by
  simp only [openedOf, opened, filterMap_filterMap]
  refine filterMap_congr fun res _ => ?_
  cases res.outcome <;> rfl

theorem filterMap_eq_toList {f : α → Option β} {a : α} {l : List α} (hnd : l.Nodup)
    (hmem : a ∈ l) (h : ∀ b ∈ l, b ≠ a → f b = none) : l.filterMap f = (f a).toList := by
  obtain ⟨before, after, rfl⟩ := append_of_mem hmem
  have hdisj := nodup_append.mp hnd
  have hpre : before.filterMap f = [] := by
    rw [filterMap_eq_nil_iff]
    intro b hb
    exact h b (mem_append_left _ hb) (hdisj.2.2 b hb a mem_cons_self)
  have haft : after.filterMap f = [] := by
    rw [filterMap_eq_nil_iff]
    intro b hb
    refine h b (mem_append_right _ (mem_cons_of_mem _ hb)) ?_
    rintro rfl
    exact (nodup_cons.mp hdisj.2.1).1 hb
  rw [filterMap_append, filterMap_cons, hpre, haft]
  cases f a <;> rfl

/-- Of all roles, a role's own resolution is the only one that can open its lane. -/
theorem openedOf_grant (h : reg.WellHeld) (att : LaneAttachment) (roles : LaneRoleSet) (role : LaneRole) :
    (Reply.authorize (.ok (LaneRole.all.filterMap (reg.grant att roles).resolution))).openedOf role =
      (Reply.authorize (.ok ((reg.grant att roles).resolution role).toList)).openedOf role := by
  rw [Reply.openedOf_authorize, Reply.openedOf_authorize, filterMap_filterMap,
    filterMap_eq_toList LaneRole.nodup_all (LaneRole.mem_all role)]
  · cases (reg.grant att roles).resolution role with
    | none => rfl
    | some res =>
      obtain ⟨_, _, outcome⟩ := res
      cases outcome with
      | error => rfl
      | ok adm => by_cases hr : adm.role = role <;> simp [hr]
  · intro other _ ho
    rcases resolve_cases h att roles other with
      ⟨-, hn, -⟩ | ⟨held, -, hr, ⟨refusal, hsome, -⟩ | ⟨adm, hsome, -, hregs⟩⟩
    · simp [hn]
    · simp [hsome]
    · simp [hsome, hregs.role_eq, hr, ho]

theorem slotMove_openLane (hregs : Registers reg shape preface allowSupersede adm) (role : LaneRole) :
    SlotMove (reg.lanes role) (if preface.role = role then [preface.laneGeneration] else [])
      ((reg.openLane preface.role preface.laneGeneration).lanes role) := by
  by_cases hr : preface.role = role
  · subst hr
    rw [if_pos rfl, lanes_openLane_same]
    exact .opens hregs.slot_admits.not_disabled hregs.slot_admits.newer rfl rfl rfl
  · rw [if_neg hr, lanes_openLane_of_ne _ _ (Ne.symm hr)]
    exact .keep rfl rfl rfl

theorem slotMove_setSlot (hmove : SlotMove (reg.lanes written) [] slot)
    (role : LaneRole) : SlotMove (reg.lanes role) [] ((reg.setSlot written slot).lanes role) := by
  by_cases hr : role = written
  · subst hr
    rwa [lanes_setSlot_same]
  · rw [lanes_setSlot_of_ne _ _ hr]
    exact .keep rfl rfl rfl

theorem slotMove_endAttachment {after : LaneSlot} (hmove : SlotMove slot [] after) :
    SlotMove slot [] { after with pending := none } := by
  cases hmove with
  | keep hst hhigh hfail => exact .keep hst hhigh hfail
  | heals hopen hst hhigh => exact .heals hopen hst hhigh
  | fails hopen hst hhigh => exact .fails hopen hst hhigh

/-- **One slot, one step.** -/
theorem Effect.slotMove (h : reg.WellHeld) (heff : Effect reg call next reply) (role : LaneRole) :
    SlotMove (reg.lanes role) (reply.openedOf role) (next.lanes role) := by
  have hfls {failed : LaneRole} {gen : NonZeroU32} {state : LaneState}
      (hopen : reg.state failed = .opened gen) (hst : ∀ gen, state ≠ .opened gen) :
      SlotMove (reg.lanes failed) [] (failedSlot (reg.lanes failed) state) := .fails hopen hst rfl
  cases heff with
  | idle hidle =>
    rw [Reply.openedOf_of_idle hidle]
    exact .keep rfl rfl rfl
  | openedLocal _ _ hregs =>
    convert slotMove_openLane hregs role using 1
    simp only [Reply.openedOf, Reply.opened, filterMap_cons]
    split_ifs <;> rfl
  | admitted _ hregs =>
    convert slotMove_openLane hregs role using 1
    simp only [Reply.openedOf, Reply.opened, filterMap_cons, hregs.role_eq, hregs.generation_eq]
    split_ifs <;> rfl
  | held =>
    refine slotMove_setSlot ?_ role
    exact .keep rfl rfl rfl
  | granted =>
    simp only [resolvePending_grant h]
    rw [openedOf_grant h, Reply.openedOf_authorize]
    rcases resolve_cases h _ _ role with
      ⟨-, hn, hs⟩ | ⟨held, -, hr, ⟨refusal, hsome, hs⟩ | ⟨adm, hsome, hs, hregs⟩⟩
    · rw [hn, hs]
      exact .keep rfl rfl rfl
    · rw [hsome, hs]
      exact .keep rfl rfl rfl
    · rw [hsome, hs]
      simp only [Option.toList_some, filterMap_cons, hregs.role_eq, hr, hregs.generation_eq]
      have hs := hregs.slot_admits
      simp only [hr, taken, lanes_setSlot_same] at hs
      exact .opens hs.not_disabled hs.newer rfl rfl rfl
  | healed hst =>
    refine slotMove_setSlot ?_ role
    exact .heals hst rfl rfl
  | reopening hst | disabling hst => exact slotMove_setSlot (hfls hst (by simp)) role
  | exhausting hst => exact slotMove_endAttachment (slotMove_setSlot (hfls hst (by simp)) role)
  | closing => exact .keep rfl rfl rfl

theorem step_slotMove (h : reg.WellHeld) (call : Call) (role : LaneRole) :
    SlotMove (reg.lanes role) ((reg.step call).2.openedOf role) ((reg.step call).1.lanes role) :=
  (step_effect reg call).slotMove h role

/-! ### The end of an attachment -/

/-- A reply that hands a lane, held or open, or a grant to the owner. -/
def Reply.Admits : Reply → Prop
  | .openLocal (.ok _) | .admitPeer (.ok _) | .authorize (.ok _) => True
  | _ => False

theorem PhaseAdmits.not_ended {phase : Phase}
    (h : PhaseAdmits phase preface gen) (reason : LaneEndReason) : phase ≠ .ended reason := by
  rintro rfl
  cases h with
  | control _ hph | bound _ hph => cases hph

/-- An ended registry admits nothing, keeps every lane's state and stays ended. -/
theorem Effect.of_ended (hend : reg.phase = .ended reason) (heff : Effect reg call next reply) :
    ¬reply.Admits ∧ (∃ reason, next.phase = .ended reason) ∧ ∀ role, next.state role = reg.state role := by
  cases heff with
  | @idle _ _ hidle =>
    refine ⟨?_, ⟨reason, hend⟩, fun _ => rfl⟩
    unfold Reply.Idle at hidle
    split at hidle <;> first | exact id | cases hidle
  | openedLocal _ _ hregs
  | admitted _ hregs => exact absurd hend (hregs.phase_admits.not_ended reason)
  | held _ hph | granted hph => simp [hph] at hend
  | @healed role =>
    refine ⟨id, ⟨reason, hend⟩, fun other => ?_⟩
    by_cases ho : other = role
    · subst ho
      simp [state]
    · simp [state, ho]
  | reopening _ hn | disabling _ hn | exhausting _ hn =>
    exact absurd hend (ended_eq_none.mp hn reason)
  | closing => exact ⟨id, ⟨_, rfl⟩, fun _ => rfl⟩

end Arcen.LaneRegistry
