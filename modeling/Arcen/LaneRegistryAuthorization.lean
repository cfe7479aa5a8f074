import Arcen.LaneRegistryRuns

/-! Authorization safety. The log of a run says which stream every open lane came from: a local
opening, an admitted peer stream, or a held stream the grant let in. A non-control lane is open only
on a stream that carried the attachment of an earlier grant for its role. -/

namespace Arcen.LaneRegistry

open List

variable {side : LaneEndpoint} {log : List (Call × Reply)} {reg : LaneRegistry}

/-! ### Where lanes come from -/

/-- The stream a lane was opened on: its preface, its shape and the endpoint that opened it. -/
structure Opening where
  preface : LanePreface
  shape : LaneShape
  opener : LaneEndpoint

/-- The stream a reply put on hold, if it did. -/
def heldStream : Call × Reply → Option (LaneShape × LanePreface)
  | (.admitPeer shape preface, .admitPeer (.ok (.pendingAuthorization ..))) => some (shape, preface)
  | _ => none

def lastHeld (role : LaneRole) (log : List (Call × Reply)) : Option (LaneShape × LanePreface) :=
  (log.filterMap heldStream).reverse.find? fun stream => stream.2.role = role

/-- The streams one reply opened lanes on. A local opening uses the role's own shape; a held lane the
grant admits is the one last held for its role. -/
def openingsOf (localEndpoint : LaneEndpoint) (past : List (Call × Reply)) : Call × Reply → List Opening
  | (.openLocal role, .openLocal (.ok preface)) => [⟨preface, role.shape, localEndpoint⟩]
  | (.admitPeer shape preface, .admitPeer (.ok (.admitted _))) => [⟨preface, shape, localEndpoint.peer⟩]
  | (.authorize .., .authorize (.ok resolutions)) => resolutions.filterMap fun resolution =>
    match resolution.outcome with
    | .ok _ => (lastHeld resolution.role past).map fun stream => ⟨stream.2, stream.1, localEndpoint.peer⟩
    | .error _ => none
  | _ => []

def openingsFrom (localEndpoint : LaneEndpoint) (past : List (Call × Reply)) : List (Call × Reply) → List Opening
  | [] => []
  | entry :: rest => openingsOf localEndpoint past entry ++ openingsFrom localEndpoint (past ++ [entry]) rest

/-- The streams all lanes of a run were opened on. -/
def openings (localEndpoint : LaneEndpoint) (log : List (Call × Reply)) : List Opening :=
  openingsFrom localEndpoint [] log

def grantOf : Call × Reply → Option (LaneAttachment × LaneRoleSet)
  | (.authorize attachment roles, .authorize (.ok _)) => some (attachment, roles)
  | _ => none

/-- A successful grant in the log, after the control lane was opened. -/
def Granted (localEndpoint : LaneEndpoint) (log : List (Call × Reply)) (attachment : LaneAttachment)
    (roles : LaneRoleSet) : Prop :=
  ∃ before entry after, log = before ++ entry :: after ∧ grantOf entry = some (attachment, roles) ∧
    ∃ opening ∈ openings localEndpoint before, opening.preface.role = .control

theorem openingsFrom_append (past first second : List (Call × Reply)) : openingsFrom side past (first ++ second) =
      openingsFrom side past first ++ openingsFrom side (past ++ first) second := by
  induction first generalizing past with
  | nil => simp [openingsFrom]
  | cons entry first ih => simp [openingsFrom, ih]

theorem openings_concat (log : List (Call × Reply)) (entry : Call × Reply) :
    openings side (log ++ [entry]) = openings side log ++ openingsOf side log entry := by
  simp [openings, openingsFrom_append, openingsFrom]

variable {entry : Call × Reply} {att : LaneAttachment} {roles : LaneRoleSet} {next : LaneRegistry}
  {reason : LaneEndReason}

theorem lastHeld_concat_none (h : heldStream entry = none) (role : LaneRole) :
    lastHeld role (log ++ [entry]) = lastHeld role log := by
  simp [lastHeld, h]

theorem lastHeld_concat_some (h : heldStream entry = some stream) (role : LaneRole) :
    lastHeld role (log ++ [entry]) = if stream.2.role = role then some stream else lastHeld role log := by
  simp only [lastHeld, filterMap_append, filterMap_cons, h]
  split_ifs with hr <;> simp [hr]

section

variable (h : Granted side log att roles)
include h

theorem Granted.append (more : List (Call × Reply)) : Granted side (log ++ more) att roles := by
  obtain ⟨before, entry, after, rfl, hg, hc⟩ := h
  exact ⟨before, entry, after ++ more, by simp, hg, hc⟩

theorem Granted.control : ∃ opening ∈ openings side log, opening.preface.role = .control := by
  obtain ⟨_, _, _, rfl, -, opening, hmem, hr⟩ := h
  refine ⟨opening, ?_, hr⟩
  rw [openings, openingsFrom_append]
  exact mem_append_left _ hmem

theorem Granted.mem : (att, roles) ∈ log.filterMap grantOf := by
  obtain ⟨_, entry, _, rfl, hg, -⟩ := h
  rw [mem_filterMap]
  exact ⟨entry, by simp, hg⟩

end

/-- The stream fits a grant of the log: right attachment, opener and shape, and the role is granted. -/
def Opening.FitsGrant (localEndpoint : LaneEndpoint) (log : List (Call × Reply)) (opening : Opening) : Prop :=
  ∃ attachment roles, Granted localEndpoint log attachment roles ∧ roles.contains opening.preface.role = true ∧
    opening.preface.attachment = some attachment ∧ opening.opener = opening.preface.role.opener ∧
      opening.shape = opening.preface.role.shape

/-! ### The history invariant -/

def PhaseLogged (localEndpoint : LaneEndpoint) (log : List (Call × Reply)) : Phase → Prop
  | .awaitingControl => log.filterMap grantOf = []
  | .unauthorized => log.filterMap grantOf = [] ∧
      ∃ opening ∈ openings localEndpoint log, opening.preface.role = .control
  | .authorized attachment granted => ∃ roles, log.filterMap grantOf = [(attachment, roles)] ∧
      granted = roles.withRole .control ∧ Granted localEndpoint log attachment roles
  | .ended _ => (log.filterMap grantOf).length ≤ 1

/-- What the log says about the registry it led to. -/
structure Provenance (localEndpoint : LaneEndpoint) (log : List (Call × Reply)) (reg : LaneRegistry) : Prop where
  endpoint_eq : reg.localEndpoint = localEndpoint
  wellHeld : reg.WellHeld
  held_logged : ∀ role held, (reg.lanes role).pending = some held → lastHeld role log = some (role.shape, held)
  phase_logged : PhaseLogged localEndpoint log reg.phase
  opening_fits : ∀ opening ∈ openings localEndpoint log, opening.preface.role ≠ .control →
    opening.FitsGrant localEndpoint log
  open_logged : ∀ role generation, reg.state role = .opened generation →
    ∃ opening ∈ openings localEndpoint log, opening.preface.role = role ∧ opening.preface.laneGeneration = generation

theorem PhaseLogged.length_le {phase : Phase} (h : PhaseLogged side log phase) :
    (log.filterMap grantOf).length ≤ 1 := by
  cases phase with
  | awaitingControl => simp [show log.filterMap grantOf = [] from h]
  | unauthorized => simp [h.1]
  | authorized =>
    obtain ⟨_, hgs, -⟩ := h
    simp [hgs]
  | ended => exact h

theorem PhaseLogged.concat {phase : Phase} (h : PhaseLogged side log phase)
    (hg : grantOf entry = none) : PhaseLogged side (log ++ [entry]) phase := by
  have hgs : (log ++ [entry]).filterMap grantOf = log.filterMap grantOf := by simp [hg]
  cases phase with
  | awaitingControl => exact hgs.trans h
  | unauthorized =>
    obtain ⟨hn, opening, hmem, hr⟩ := h
    exact ⟨hgs.trans hn, opening, by simp [openings_concat, hmem], hr⟩
  | authorized =>
    obtain ⟨given, hgiven, hrls, hgran⟩ := h
    exact ⟨given, hgs.trans hgiven, hrls, hgran.append _⟩
  | ended =>
    rw [PhaseLogged, hgs]
    exact h

section

variable (h : Provenance side log reg)
include h

theorem Provenance.concat (hendpt : next.localEndpoint = reg.localEndpoint) (hwellHeld : next.WellHeld)
    (hh : ∀ role held, (next.lanes role).pending = some held →
      lastHeld role (log ++ [entry]) = some (role.shape, held))
    (hph : PhaseLogged side (log ++ [entry]) next.phase)
    (hfits : ∀ opening ∈ openingsOf side log entry, opening.preface.role ≠ .control →
      opening.FitsGrant side (log ++ [entry]))
    (ho : ∀ role gen, next.state role = .opened gen → reg.state role = .opened gen ∨
      ∃ opening ∈ openingsOf side log entry, opening.preface.role = role ∧ opening.preface.laneGeneration = gen) :
    Provenance side (log ++ [entry]) next where
  endpoint_eq := hendpt.trans h.endpoint_eq
  wellHeld := hwellHeld
  held_logged := hh
  phase_logged := hph
  opening_fits := by
    intro opening hmem hr
    rw [openings_concat, mem_append] at hmem
    rcases hmem with hmem | hmem
    · obtain ⟨att, roles, hgran, hrest⟩ := h.opening_fits opening hmem hr
      exact ⟨att, roles, hgran.append _, hrest⟩
    · exact hfits opening hmem hr
  open_logged := by
    intro role gen hst
    simp only [openings_concat, mem_append]
    rcases ho role gen hst with hold | ⟨opening, hmem, hnew⟩
    · obtain ⟨opening, hmem, hold⟩ := h.open_logged role gen hold
      exact ⟨opening, .inl hmem, hold⟩
    · exact ⟨opening, .inr hmem, hnew⟩

/-- A reply that opens, holds and grants nothing. -/
theorem Provenance.quiet (hopeni : openingsOf side log entry = []) (hg : grantOf entry = none)
    (hstr : heldStream entry = none) (hendpt : next.localEndpoint = reg.localEndpoint)
    (hph : next.phase = reg.phase)
    (hp : ∀ role, (next.lanes role).pending = (reg.lanes role).pending)
    (hst : ∀ role gen, next.state role = .opened gen → reg.state role = .opened gen) :
    Provenance side (log ++ [entry]) next := by
  refine h.concat hendpt ?_ ?_ ?_ ?_ ?_
  · intro role held hh
    rw [hp] at hh
    simpa [hendpt, hph] using h.wellHeld role held hh
  · intro role held hh
    rw [hp] at hh
    rw [lastHeld_concat_none hstr, h.held_logged role held hh]
  · rw [hph]
    exact h.phase_logged.concat hg
  · simp [hopeni]
  · exact fun role gen ho => .inl (hst role gen ho)

/-- The attachment ended: nothing is held any more and no lane opened. -/
theorem Provenance.ending (hopeni : openingsOf side log entry = []) (hg : grantOf entry = none)
    (hendpt : next.localEndpoint = reg.localEndpoint) (hph : next.phase = .ended reason)
    (hp : ∀ role, (next.lanes role).pending = none)
    (hst : ∀ role gen, next.state role = .opened gen → reg.state role = .opened gen) :
    Provenance side (log ++ [entry]) next := by
  refine h.concat hendpt (wellHeld_of_pending_eq_none hp) ?_ ?_ ?_ ?_
  · intro role held hh
    simp [hp] at hh
  · rw [hph]
    have hlen := h.phase_logged.length_le
    simpa [PhaseLogged, hg] using hlen
  · simp [hopeni]
  · exact fun role gen ho => .inl (hst role gen ho)

/-- A stream that passed `register` became the role's open lane. -/
theorem Provenance.opening (hregs : Registers reg shape preface allowSupersede adm)
    (hopeni : openingsOf side log entry = [⟨preface, shape, preface.role.opener⟩])
    (hg : grantOf entry = none) (hstr : heldStream entry = none) :
    Provenance side (log ++ [entry]) (reg.openLane preface.role preface.laneGeneration) := by
  refine h.concat (by simp) (wellHeld_openLane h.wellHeld _ _) ?_ ?_ ?_ ?_
  · intro role held hh
    have hp : (reg.lanes role).pending = some held := by
      by_cases hr : role = preface.role
      · subst hr
        simpa using hh
      · simpa [hr] using hh
    rw [lastHeld_concat_none hstr, h.held_logged role held hp]
  · have hl := h.phase_logged
    rw [phase_openLane]
    rcases hregs.phase_admits.control_or_bound with ⟨hr, hph⟩ | ⟨_, _, hr, -⟩
    · rw [hph] at hl
      rw [if_neg (by simp [hr])]
      refine ⟨?_, ⟨preface, shape, preface.role.opener⟩, by simp [openings_concat, hopeni], hr⟩
      simpa [PhaseLogged, hg] using hl
    · rw [if_pos (LaneRole.requiresAttachment_iff.mpr hr)]
      exact hl.concat hg
  · intro opening hmem hr
    rw [hopeni, mem_singleton] at hmem
    subst hmem
    rcases hregs.phase_admits.control_or_bound with
      ⟨hc, -⟩ | ⟨att, granted, -, hph, hrls, ha⟩
    · exact absurd hc hr
    · have hl := h.phase_logged
      rw [hph] at hl
      obtain ⟨roles, -, rfl, hgran⟩ := hl
      refine ⟨att, roles, hgran.append _, ?_, ha, rfl, hregs.shape_eq⟩
      rw [LaneRoleSet.contains_withRole, decide_eq_false (Ne.symm hr), Bool.or_false] at hrls
      exact hrls
  · intro role gen ho
    by_cases hr : role = preface.role
    · subst hr
      refine .inr ⟨_, by rw [hopeni]; exact mem_singleton_self _, rfl, ?_⟩
      simpa [state] using ho
    · exact .inl (by simpa [state, hr] using ho)

/-- A stream put on hold. -/
theorem Provenance.hold
    (hopens : preface.role.opener = reg.localEndpoint.peer) (hph : reg.phase = .unauthorized)
    (hd : reg.localEndpoint = .deck) (hr : preface.role ≠ .control)
    (hopeni : openingsOf side log entry = []) (hg : grantOf entry = none)
    (hstr : heldStream entry = some (preface.role.shape, preface)) : Provenance side (log ++ [entry])
      (reg.setSlot preface.role { reg.lanes preface.role with pending := some preface }) := by
  refine h.concat rfl (wellHeld_hold h.wellHeld hopens hph hd hr) ?_ ?_ ?_ ?_
  · intro role held hh
    rw [lastHeld_concat_some hstr]
    by_cases hs : role = preface.role
    · subst hs
      simp only [lanes_setSlot_same, Option.some.injEq] at hh
      rw [if_pos rfl, hh]
    · rw [lanes_setSlot_of_ne _ _ hs] at hh
      rw [if_neg (Ne.symm hs), h.held_logged role held hh]
  · exact h.phase_logged.concat hg
  · simp [hopeni]
  · intro role gen ho
    left
    by_cases hs : role = preface.role
    · subst hs
      simpa [state] using ho
    · simpa [state, hs] using ho

/-- The streams a grant opens lanes on are the held ones it admits. -/
theorem mem_openingsOf_grant : opening ∈ openingsOf side log (.authorize att roles,
        .authorize (.ok (LaneRole.all.filterMap (reg.grant att roles).resolution))) ↔
      ∃ role held adm, (reg.lanes role).pending = some held ∧
        (reg.grant att roles).resolution role = some ⟨role, held.laneGeneration, .ok adm⟩ ∧
        opening = ⟨held, role.shape, side.peer⟩ := by
  simp only [openingsOf, mem_filterMap]
  constructor
  · rintro ⟨_, ⟨role, -, hresol⟩, hopening⟩
    rcases resolve_cases h.wellHeld att roles role with
      ⟨-, hn, -⟩ | ⟨held, hh, -, ⟨refusal, hsome, -⟩ | ⟨adm, hsome, -⟩⟩
    · rw [hn] at hresol
      cases hresol
    · rw [hsome] at hresol
      cases hresol
      cases hopening
    · have hs := hresol.symm.trans hsome
      cases hs
      simp only [h.held_logged role held hh, Option.map_some, Option.some.injEq] at hopening
      exact ⟨role, held, adm, hh, hsome, hopening.symm⟩
  · rintro ⟨role, held, _, hh, hsome, rfl⟩
    refine ⟨_, ⟨role, LaneRole.mem_all role, hsome⟩, ?_⟩
    simp [h.held_logged role held hh]

/-- The grant: every held lane it admits is the one last held for its role, and carries the granted
attachment. -/
theorem Provenance.granting (hph : reg.phase = .unauthorized) (att : LaneAttachment) (roles : LaneRoleSet) :
    Provenance side (log ++ [(.authorize att roles,
        .authorize (.ok (LaneRole.all.filterMap (reg.grant att roles).resolution)))])
      { reg.grant att roles with lanes := (reg.grant att roles).resolvedSlot } := by
  have hl := h.phase_logged
  rw [hph] at hl
  obtain ⟨hn, hc⟩ := hl
  have hgran : Granted side (log ++ [(.authorize att roles,
      .authorize (.ok (LaneRole.all.filterMap (reg.grant att roles).resolution)))]) att roles :=
    ⟨log, _, [], rfl, rfl, hc⟩
  refine h.concat rfl (wellHeld_of_pending_eq_none fun role => pending_resolvedSlot _ role) ?_ ?_ ?_ ?_
  · intro role held hh
    simp [pending_resolvedSlot] at hh
  · exact ⟨roles, by simp [hn, grantOf], rfl, hgran⟩
  · intro opening hmem hr
    obtain ⟨role, held, adm, hh, hsome, rfl⟩ := (mem_openingsOf_grant h).mp hmem
    obtain ⟨rfl, -, hopens, -⟩ := h.wellHeld role held hh
    rcases resolve_cases h.wellHeld att roles held.role with
      ⟨-, hn, -⟩ | ⟨lane, hlane, -, ⟨refusal, href, -⟩ | ⟨_, _, -, hregs⟩⟩
    · simp [hn] at hsome
    · simp [href] at hsome
    · obtain rfl : lane = held := Option.some.inj (hlane.symm.trans hh)
      rcases hregs.phase_admits.control_or_bound with
        ⟨hc, -⟩ | ⟨presented, granted, -, hauth, hrls, ha⟩
      · exact absurd hc hr
      · cases hauth
        rw [LaneRoleSet.contains_withRole, decide_eq_false (Ne.symm hr), Bool.or_false] at hrls
        rw [h.endpoint_eq] at hopens
        exact ⟨att, roles, hgran, hrls, ha, hopens.symm, rfl⟩
  · intro role gen ho
    rcases resolve_cases h.wellHeld att roles role with
      ⟨-, -, hslot⟩ | ⟨held, hh, hr, ⟨refusal, -, hslot⟩ | ⟨adm, hsome, hslot, -⟩⟩
    · exact .inl (by simpa [state, hslot] using ho)
    · exact .inl (by simpa [state, hslot] using ho)
    · refine .inr ⟨_, (mem_openingsOf_grant h).mpr ⟨role, held, adm, hh, hsome, rfl⟩, hr, ?_⟩
      simpa [state, hslot] using ho

end

theorem idle_entry (side : LaneEndpoint) (log : List (Call × Reply)) (h : reply.Idle) :
    openingsOf side log (call, reply) = [] ∧ grantOf (call, reply) = none ∧ heldStream (call, reply) = none := by
  unfold Reply.Idle at h
  split at h
  case h_6 => cases h
  all_goals cases call <;> exact ⟨rfl, rfl, rfl⟩

/-- **The invariant is kept by every call.** -/
theorem Provenance.step (h : Provenance side log reg) (call : Call) :
    Provenance side (log ++ [(call, (reg.step call).2)]) (reg.step call).1 := by
  have heff := step_effect reg call
  generalize reg.step call = result at heff
  obtain ⟨_, _⟩ := result
  have hsetSlot {role : LaneRole} {slot : LaneSlot} {entry : Call × Reply}
      (hopeni : openingsOf side log entry = []) (hg : grantOf entry = none)
      (hstr : heldStream entry = none) (hp : slot.pending = (reg.lanes role).pending)
      (hst : ∀ gen, slot.state = .opened gen → reg.state role = .opened gen) :
      Provenance side (log ++ [entry]) (reg.setSlot role slot) := by
    refine h.quiet hopeni hg hstr rfl rfl ?_ ?_
    · intro other
      by_cases hoth : other = role
      · subst hoth
        simpa using hp
      · simp [hoth]
    · intro other gen ho
      by_cases hoth : other = role
      · subst hoth
        exact hst gen (by simpa [state] using ho)
      · simpa [state, hoth] using ho
  cases heff with
  | idle hidle =>
    obtain ⟨hopeni, hg, hstr⟩ := idle_entry side log hidle
    exact h.quiet hopeni hg hstr rfl rfl (fun _ => rfl) fun _ _ => id
  | openedLocal hopens hr hregs =>
    subst hr
    rw [h.endpoint_eq] at hopens
    exact h.opening hregs (by rw [hopens]; rfl) rfl rfl
  | admitted hopens hregs =>
    rw [h.endpoint_eq] at hopens
    exact h.opening hregs (by rw [hopens]; rfl) rfl rfl
  | held hopens hph hd hr hshape =>
    exact h.hold hopens hph hd hr rfl rfl (by rw [← hshape]; rfl)
  | granted hph =>
    rw [resolvePending_grant h.wellHeld]
    exact h.granting hph _ _
  | healed => exact hsetSlot rfl rfl rfl rfl fun _ => id
  | reopening | disabling => exact hsetSlot rfl rfl rfl rfl fun _ ho => by simp [failedSlot] at ho
  | @exhausting role =>
    refine h.ending rfl rfl rfl rfl (fun _ => rfl) fun other gen ho => ?_
    by_cases hoth : other = role
    · subst hoth
      simp [state, failedSlot] at ho
    · simpa [state, hoth] using ho
  | closing => exact h.ending rfl rfl rfl rfl (fun _ => rfl) fun _ _ => id

theorem provenance_new (side : LaneEndpoint) : Provenance side [] (new side) where
  endpoint_eq := rfl
  wellHeld := wellHeld_new side
  held_logged := by simp [new, LaneSlot.new]
  phase_logged := rfl
  opening_fits := by simp [openings, openingsFrom]
  open_logged := by simp [new, LaneSlot.new, state]

/-! ### Safety -/

/-- From the end of the attachment on, nothing is admitted. -/
theorem ended_run (side : LaneEndpoint) (calls : List Call) {reg : LaneRegistry} (hend : reg.phase = .ended reason) :
    (∀ entry ∈ (laneRegistry side).logFrom reg calls, ¬entry.2.Admits) ∧
      (∃ reason, ((laneRegistry side).execFrom reg calls).phase = .ended reason) ∧
      ∀ role, ((laneRegistry side).execFrom reg calls).state role = reg.state role := by
  induction calls generalizing reg reason with
  | nil => exact ⟨by simp, ⟨reason, hend⟩, fun _ => rfl⟩
  | cons call calls ih =>
    obtain ⟨hadmi, ⟨_, hph⟩, hst⟩ := (step_effect reg call).of_ended hend
    obtain ⟨hrest, hlat, hstat⟩ := ih hph
    refine ⟨?_, hlat, fun role => (hstat role).trans (hst role)⟩
    exact forall_mem_cons.mpr ⟨hadmi, hrest⟩

theorem checkSend_of_ended (h : reg.phase = .ended reason) (role : LaneRole) :
    reg.checkSend role = .error .attachmentEnded := by
  simp [checkSend, ended_eq_some.mpr h]

/-- **Authorization safety.** An open non-control lane answers to one earlier grant for its role: the
stream it was opened on carried that attachment, came from the role's opener and has the role's shape.
Without a control lane or without a grant no such lane is open, a Pier never holds a lane, and an ended
registry admits and sends nothing any more. -/
theorem authorization_safety (localEndpoint : LaneEndpoint) (calls : List Call) :
    let reg := (laneRegistry localEndpoint).exec calls
    let log := (laneRegistry localEndpoint).log calls
    (∀ role gen, role ≠ .control → reg.state role = .opened gen →
      ∃ att roles, Granted localEndpoint log att roles ∧ roles.contains role = true ∧
        (∃ opening ∈ openings localEndpoint log, opening.preface.role = role ∧ opening.preface.laneGeneration = gen) ∧
        ∀ opening ∈ openings localEndpoint log, opening.preface.role = role → opening.preface.laneGeneration = gen →
            opening.preface.attachment = some att ∧ opening.opener = role.opener ∧ opening.shape = role.shape) ∧
    ((∀ opening ∈ openings localEndpoint log, opening.preface.role ≠ .control) ∨
        (∀ entry ∈ log, grantOf entry = none) → ∀ role gen, role ≠ .control → reg.state role ≠ .opened gen) ∧
    (localEndpoint = .pier → ∀ role, (reg.lanes role).pending = none) ∧ (∀ reason, reg.phase = .ended reason → ∀ more,
      (∀ entry ∈ (laneRegistry localEndpoint).logFrom reg more, ¬entry.2.Admits) ∧
      (∀ role gen, ((laneRegistry localEndpoint).execFrom reg more).state role = .opened gen →
        reg.state role = .opened gen) ∧
      ∀ role, ((laneRegistry localEndpoint).execFrom reg more).checkSend role = .error .attachmentEnded) := by
  intro reg log
  have h : Provenance localEndpoint log reg := (laneRegistry localEndpoint).log_invariant
    (provenance_new localEndpoint) (fun _ _ call h => h.step call) calls
  have ho : ∀ role gen, role ≠ .control → reg.state role = .opened gen →
      ∃ opening ∈ openings localEndpoint log, opening.preface.role = role ∧
        opening.preface.laneGeneration = gen ∧ opening.FitsGrant localEndpoint log := by
    intro role gen hr hst
    obtain ⟨opening, hmem, rfl, rfl⟩ := h.open_logged role gen hst
    exact ⟨opening, hmem, rfl, rfl, h.opening_fits opening hmem hr⟩
  refine ⟨?_, ?_, ?_, ?_⟩
  · intro role gen hr hst
    obtain ⟨opening, hmem, rfl, rfl, att, roles, hgran, hrls, -⟩ := ho role gen hr hst
    refine ⟨att, roles, hgran, hrls, ⟨opening, hmem, rfl, rfl⟩, ?_⟩
    intro other hoth hs _
    rw [← hs]
    obtain ⟨_, _, hgran', -, ha, hopens, hshape⟩ := h.opening_fits other hoth (Eq.symm hs ▸ hr)
    have hsing := h.phase_logged.length_le
    have hfst := hgran.mem
    have hsnd := hgran'.mem
    match hgs : log.filterMap grantOf with
    | [] => simp [hgs] at hfst
    | [grant] =>
      rw [hgs, mem_singleton] at hfst hsnd
      have hs := hfst.trans hsnd.symm
      cases hs
      exact ⟨ha, hopens, hshape⟩
    | _ :: _ :: _ => simp [hgs] at hsing
  · intro hn role gen hr hst
    obtain ⟨_, _, _, _, _, _, hgran, -⟩ := ho role gen hr hst
    rcases hn with hc | hg
    · obtain ⟨opening, hmem, hr⟩ := hgran.control
      exact hc opening hmem hr
    · obtain ⟨entry, hmem, hent⟩ := mem_filterMap.mp hgran.mem
      simp [hg entry hmem] at hent
  · rintro rfl role
    rw [Option.eq_none_iff_forall_ne_some]
    intro held hh
    have hd := (h.wellHeld role held hh).2.2.2.1
    rw [h.endpoint_eq] at hd
    cases hd
  · intro reason hend more
    obtain ⟨hadmi, ⟨_, hlat⟩, hstat⟩ := ended_run localEndpoint more hend
    exact ⟨hadmi, fun role gen hst => (hstat role).symm.trans hst, checkSend_of_ended hlat⟩

/-- A Deck that opened its input lane after the grant. -/
theorem authorization_safety_inputCursor : ((laneRegistry .deck).exec [.openLocal .control,
        .authorize .first (.fromRoles [.inputCursor]), .openLocal .inputCursor]).state .inputCursor =
        .opened NonZeroU32.minValue ∧
      ∃ attachment roles, Granted .deck ((laneRegistry .deck).log [.openLocal .control,
        .authorize .first (.fromRoles [.inputCursor]), .openLocal .inputCursor]) attachment roles ∧
          roles.contains .inputCursor = true := by
  have ho : ((laneRegistry .deck).exec [.openLocal .control, .authorize .first (.fromRoles [.inputCursor]),
      .openLocal .inputCursor]).state .inputCursor = .opened NonZeroU32.minValue := by decide
  obtain ⟨attachment, roles, hgran, hrls, -⟩ :=
    (authorization_safety .deck [.openLocal .control, .authorize .first (.fromRoles [.inputCursor]),
      .openLocal .inputCursor]).1 .inputCursor NonZeroU32.minValue (by decide) ho
  exact ⟨ho, attachment, roles, hgran, hrls⟩

end Arcen.LaneRegistry
