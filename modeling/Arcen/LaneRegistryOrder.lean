import Arcen.LaneRegistryRecovery
import Arcen.Newest

/-! Delivery order on the Deck. QUIC does not order streams, so the lanes of one Pier-opened role reach
`admitPeer` in any order, before the grant (held) or after it (registered). Both paths refine the same
register that keeps the newest generation, and the grant only moves the held generation over. -/

namespace Arcen.LaneRegistry

open List hiding not_le

/-! ### Reports -/

variable (role : LaneRole)

def staleIn : LaneRefusal → List NonZeroU32
  | .staleLaneGeneration refused presented _ => if refused = role then [presented] else []
  | _ => []

def supersededIn (role reported : LaneRole) (superseded : Option SupersededLane) : List NonZeroU32 :=
  if reported = role then (superseded.map (·.generation)).toList else []

def Reply.staleOf : Reply → List NonZeroU32
  | .openLocal (.error (.refused refusal)) => staleIn role refusal
  | .admitPeer (.error refusal) => staleIn role refusal
  | .authorize (.ok resolutions) => resolutions.flatMap fun resolution =>
    match resolution.outcome with
    | .error refusal => staleIn role refusal
    | .ok _ => []
  | _ => []

def Reply.supersededOf : Reply → List NonZeroU32
  | .admitPeer (.ok (.admitted admission)) => supersededIn role admission.role admission.superseded
  | .admitPeer (.ok (.pendingAuthorization reported _ superseded)) => supersededIn role reported superseded
  | .authorize (.ok resolutions) => resolutions.flatMap fun resolution =>
    match resolution.outcome with
    | .error _ => []
    | .ok admission => supersededIn role admission.role admission.superseded
  | _ => []

variable (log : List (Call × Reply))

def staleGenerations : List NonZeroU32 := log.flatMap fun entry => entry.2.staleOf role

def supersededGenerations : List NonZeroU32 := log.flatMap fun entry => entry.2.supersededOf role

/-- The reports are those of a run of the register that keeps the newest. -/
def SameReports (offers : List (NonZeroU32 × Offer NonZeroU32)) : Prop :=
  staleGenerations role log = offers.flatMap refusedOf ∧ supersededGenerations role log = offers.flatMap replacedOf

variable {role log} in
theorem SameReports.append (h : SameReports role log offers) (h' : SameReports role later offers') :
    SameReports role (log ++ later) (offers ++ offers') := by
  constructor
  · rw [staleGenerations, flatMap_append, flatMap_append]
    exact congrArg₂ _ h.1 h'.1
  · rw [supersededGenerations, flatMap_append, flatMap_append]
    exact congrArg₂ _ h.2 h'.2

/-! ### The two paths -/

section Delivery

variable {role : LaneRole} {att : LaneAttachment} {reg : LaneRegistry} {best : Option NonZeroU32}

def Valid (role : LaneRole) (attachment : LaneAttachment) (preface : LanePreface) : Prop :=
  preface.role = role ∧ preface.attachment = some attachment

/-- A Deck that waits for the grant and holds the newest lane of the role. -/
structure Holding (role : LaneRole) (attachment : LaneAttachment) (best : Option NonZeroU32)
    (reg : LaneRegistry) : Prop where
  deck : reg.localEndpoint = .deck
  phase_eq : reg.phase = .unauthorized
  others : ∀ other, other ≠ role → (reg.lanes other).pending = none
  slot : ∃ held, reg.lanes role = ⟨.absent, none, 0, held⟩ ∧ held.map (·.laneGeneration) = best ∧
    ∀ preface, held = some preface → Valid role attachment preface

/-- An authorized Deck whose role is open with the newest generation. -/
structure Admitting (role : LaneRole) (attachment : LaneAttachment) (best : Option NonZeroU32)
    (reg : LaneRegistry) : Prop where
  deck : reg.localEndpoint = .deck
  phase_eq : ∃ roles, reg.phase = .authorized attachment roles ∧ roles.contains role = true
  slot : reg.lanes role = ⟨best.elim .absent .opened, best, 0, none⟩

/-- A delivery of another generation does to the registry what an offer does to the register that keeps
the newest. -/
def Refines (Rel : Option NonZeroU32 → LaneRegistry → Prop) (role : LaneRole) (attachment : LaneAttachment) : Prop :=
  ∀ best reg preface, Valid role attachment preface → best ≠ some preface.laneGeneration → Rel best reg →
    Rel (offer best preface.laneGeneration).1 (reg.step (.admitPeer role.shape preface)).1 ∧
    (reg.step (.admitPeer role.shape preface)).2.staleOf role =
      refusedOf (preface.laneGeneration, (offer best preface.laneGeneration).2) ∧
    (reg.step (.admitPeer role.shape preface)).2.supersededOf role =
      replacedOf (preface.laneGeneration, (offer best preface.laneGeneration).2)

theorem ne_control_of_pier (h : role.opener = .pier) : role ≠ .control := by
  rintro rfl
  cases h

variable {preface : LanePreface}

section

variable (hopens : preface.role.opener = .pier)
include hopens

theorem admitPeer_eq_holdPending (hd : reg.localEndpoint = .deck) (hph : reg.phase = .unauthorized)
    (shape : LaneShape) : reg.admitPeer shape preface = reg.holdPending shape preface := by
  simp [admitPeer, hopens, hd, hph, LaneEndpoint.peer, ne_control_of_pier hopens]

end

theorem holding_setSlot (h : Holding role att best reg) (hv : Valid role att preface) :
    Holding role att (some preface.laneGeneration)
      (reg.setSlot role { reg.lanes role with pending := some preface }) := by
  obtain ⟨hd, hph, hoths, _, hs, -, -⟩ := h
  refine ⟨hd, hph, fun other ho => by simp [ho, hoths other ho], some preface, ?_, rfl, ?_⟩
  · simp [hs]
  · rintro _ ⟨⟩
    exact hv

theorem refines_holding (hrole : role.opener = .pier) : Refines (Holding role attachment) role attachment := by
  intro best reg preface hv _ h
  have ⟨hd, hph, _, held, hs, hbest, _⟩ := h
  obtain rfl := hv.1
  subst hbest
  simp only [step, admitPeer_eq_holdPending hrole hd hph]
  cases held with
  | none =>
    have heq : reg.holdPending preface.role.shape preface =
        (reg.setSlot preface.role { reg.lanes preface.role with pending := some preface },
          .ok (.pendingAuthorization preface.role preface.laneGeneration none)) := by
      simp [holdPending, hs]
    rw [heq]
    exact ⟨holding_setSlot h hv, rfl, by simp [Reply.supersededOf, supersededIn, offer_none, replacedOf]⟩
  | some held =>
    rcases le_or_gt preface.laneGeneration held.laneGeneration with hle | hlt
    · have heq : reg.holdPending preface.role.shape preface =
          (reg, .error (.staleLaneGeneration preface.role preface.laneGeneration held.laneGeneration)) := by
        simp [holdPending, hs, hle]
      rw [heq, Option.map_some, offer_of_le hle]
      exact ⟨h, by simp [Reply.staleOf, staleIn, refusedOf], rfl⟩
    · have heq : reg.holdPending preface.role.shape preface =
          (reg.setSlot preface.role { reg.lanes preface.role with pending := some preface },
            .ok (.pendingAuthorization preface.role preface.laneGeneration
              (some (.forRole preface.role held.laneGeneration)))) := by
        simp [holdPending, hs, not_le.mpr hlt]
      rw [heq, Option.map_some, offer_of_lt hlt]
      exact ⟨holding_setSlot h hv, rfl,
        by simp [Reply.supersededOf, supersededIn, replacedOf, SupersededLane.forRole]⟩

/-- Equal generations apart, `register` refuses an older lane as stale. -/
theorem register_stale (hph : PhaseAdmits reg.phase preface gen)
    (hs : reg.lanes preface.role = ⟨.opened cur, some cur, 0, none⟩) (hlt : preface.laneGeneration < cur) :
    reg.register preface.role.shape preface true =
      (reg, .error (.staleLaneGeneration preface.role preface.laneGeneration cur)) := by
  have ha := checkAttachment_eq_ok.mpr ⟨rfl, hph⟩
  simp [register, ha, hs, LaneSlot.checkGeneration, LaneSlot.checkHighest, hlt.ne, hlt.le]

theorem refines_admitting (hrole : role.opener = .pier) : Refines (Admitting role attachment) role attachment := by
  intro best reg preface hv hne h
  have ⟨hd, ⟨roles, hph, hrls⟩, hs⟩ := h
  obtain ⟨rfl, ha⟩ := hv
  have hctl := ne_control_of_pier hrole
  have hauth : reg.phase ≠ .unauthorized := by simp [hph]
  have hadmi : PhaseAdmits reg.phase preface (some attachment.generation) := .bound hctl hph hrls ha
  have hopene : Admitting preface.role attachment (some preface.laneGeneration)
      (reg.openLane preface.role preface.laneGeneration) := by
    refine ⟨by simpa using hd, ⟨roles, ?_, hrls⟩, by simp [hs]⟩
    rw [phase_openLane, if_pos (LaneRole.requiresAttachment_iff.mpr hctl), hph]
  have hdire : preface.role.opener = reg.localEndpoint.peer := by
    rw [hrole, hd]
    rfl
  simp only [step, admitPeer, hdire, hauth, ne_eq]
  cases best with
  | none =>
    have hfresh : SlotAdmits (reg.lanes preface.role) preface.role preface.laneGeneration true none :=
      .fresh (.inl (by simp [hs])) (by simp [hs])
    rw [register_of_admits rfl hadmi hfresh]
    exact ⟨hopene, rfl, by simp [Reply.supersededOf, supersededIn, offer_none, replacedOf]⟩
  | some cur =>
    rcases lt_trichotomy preface.laneGeneration cur with hlt | heq | hlt
    · rw [register_stale hadmi hs hlt, offer_of_le hlt.le]
      exact ⟨h, by simp [Reply.staleOf, staleIn, refusedOf], rfl⟩
    · exact absurd (congrArg some heq.symm) hne
    · have hnew : SlotAdmits (reg.lanes preface.role) preface.role preface.laneGeneration true
          (some (.forRole preface.role cur)) := .supersede (by simp [hs]) rfl hlt.ne' (by simp [hs, hlt])
      rw [register_of_admits rfl hadmi hnew, offer_of_lt hlt]
      exact ⟨hopene, rfl, by simp [Reply.supersededOf, supersededIn, replacedOf, SupersededLane.forRole]⟩

/-- **Refinement.** A run of deliveries is a run of offers, with the same reports. -/
theorem Refines.run {Rel : Option NonZeroU32 → LaneRegistry → Prop} (hrefi : Refines Rel role att)
    (prefaces : List LanePreface) (hv : ∀ preface ∈ prefaces, Valid role att preface) {best : Option NonZeroU32}
    (hnd : (best.toList ++ prefaces.map (·.laneGeneration)).Nodup) (h : Rel best reg) :
    Rel ((newest NonZeroU32).execFrom best (prefaces.map (·.laneGeneration)))
        ((laneRegistry .deck).execFrom reg (prefaces.map (.admitPeer role.shape))) ∧
      SameReports role ((laneRegistry .deck).logFrom reg (prefaces.map (.admitPeer role.shape)))
        ((newest NonZeroU32).logFrom best (prefaces.map (·.laneGeneration))) := by
  induction prefaces generalizing best reg with
  | nil => exact ⟨h, rfl, rfl⟩
  | cons preface prefaces ih =>
    obtain ⟨next, hnext, hmem, -⟩ := offer_greatest best preface.laneGeneration
    rw [map_cons, ← singleton_append, ← append_assoc] at hnd
    obtain ⟨hfst, hrest, hdisj⟩ := nodup_append.mp hnd
    have hne : best ≠ some preface.laneGeneration := by
      rintro rfl
      simp at hfst
    have hnodupNext : ((some next).toList ++ prefaces.map (·.laneGeneration)).Nodup := by
      rw [Option.toList_some, singleton_append, nodup_cons]
      exact ⟨fun hl => hdisj next hmem next hl rfl, hrest⟩
    obtain ⟨hrel, hstale, hsup⟩ := hrefi best reg preface (hv preface mem_cons_self) hne h
    have hstep : SameReports role [(.admitPeer role.shape preface, (reg.step (.admitPeer role.shape preface)).2)]
        [(preface.laneGeneration, (offer best preface.laneGeneration).2)] := by
      simpa [SameReports, staleGenerations, supersededGenerations] using And.intro hstale hsup
    rw [hnext] at hrel
    obtain ⟨hrelRun, hrun⟩ := ih (fun other ho => hv other (mem_cons_of_mem _ ho)) hnodupNext hrel
    simp only [map_cons, Machine.execFrom_cons, Machine.logFrom_cons, newest_step, hnext]
    exact ⟨hrelRun, hstep.append hrun⟩

/-! ### The grant -/

section

variable (hrole : role.opener = .pier)
include hrole

theorem Holding.wellHeld (h : Holding role att best reg) : reg.WellHeld := by
  obtain ⟨hd, hph, hoths, _, hs, -, hv⟩ := h
  intro other lane hlane
  by_cases ho : other = role
  · subst ho
    rw [hs] at hlane
    exact ⟨(hv lane hlane).1, ne_control_of_pier hrole, by rw [hrole, hd]; rfl, hd, hph⟩
  · simp [hoths other ho] at hlane

/-- The grant opens the held lane, if any, and reports nothing. -/
theorem Holding.authorize (hrls : roles.contains role = true) (h : Holding role att best reg) :
    Admitting role att best (reg.step (.authorize att roles)).1 ∧
      (reg.step (.authorize att roles)).2.staleOf role = [] ∧
      (reg.step (.authorize att roles)).2.supersededOf role = [] := by
  have hwell := h.wellHeld hrole
  obtain ⟨hd, hph, hoths, held, hs, rfl, hv⟩ := h
  have hstep : reg.authorize att roles = ({ reg.grant att roles with lanes := (reg.grant att roles).resolvedSlot },
        .ok (LaneRole.all.filterMap (reg.grant att roles).resolution)) := by
    have hrsv := resolvePending_grant hwell att roles
    simp only [grant] at hrsv
    simp only [LaneRegistry.authorize, hph, hrsv, grant]
  have hls (other : LaneRole) : (reg.grant att roles).lanes other = reg.lanes other := rfl
  have hresolutions : LaneRole.all.filterMap (reg.grant att roles).resolution =
      ((reg.grant att roles).resolution role).toList := filterMap_eq_toList LaneRole.nodup_all (LaneRole.mem_all role)
      fun other _ ho => by simp [resolution, hls, hoths other ho]
  have hgrantedRoles : (roles.withRole .control).contains role = true := by simp [hrls]
  simp only [step, hstep, hresolutions]
  cases held with
  | none =>
    have hresol : (reg.grant att roles).resolution role = none := by simp [resolution, hls, hs]
    have hreso : (reg.grant att roles).resolvedSlot role = reg.lanes role := by
      simp [resolvedSlot, hls, hs]
    rw [hresol]
    exact ⟨⟨hd, ⟨_, rfl, hgrantedRoles⟩, hreso.trans hs⟩, rfl, rfl⟩
  | some held =>
    obtain ⟨rfl, ha⟩ := hv held rfl
    have hph : PhaseAdmits ((reg.grant att roles).taken held.role).phase held
        (some att.generation) := .bound (ne_control_of_pier hrole) rfl hgrantedRoles ha
    have hfresh : SlotAdmits (((reg.grant att roles).taken held.role).lanes held.role) held.role
        held.laneGeneration true none := .fresh (.inl (by simp [taken, hls, hs])) (by simp [taken, hls, hs])
    have hreg := register_of_admits rfl hph hfresh
    have hresol : (reg.grant att roles).resolution held.role = some ⟨held.role, held.laneGeneration,
        .ok ⟨held.role, held.laneGeneration, some att.generation, none⟩⟩ := by
      simp [resolution, hls, hs, hreg]
    have hreso : (reg.grant att roles).resolvedSlot held.role =
        ⟨.opened held.laneGeneration, some held.laneGeneration, 0, none⟩ := by
      simp only [resolvedSlot, hls, hs, hreg]
      simp [taken, hls, hs]
    rw [hresol]
    exact ⟨⟨hd, ⟨_, rfl, hgrantedRoles⟩, hreso⟩, rfl, by simp [Reply.supersededOf, supersededIn]⟩

theorem holding_openLocal (att : LaneAttachment) :
    Holding role att none ((laneRegistry .deck).exec [.openLocal .control]) := by
  have hexec : (laneRegistry .deck).exec [.openLocal .control] =
      (new .deck).openLane .control NonZeroU32.minValue := rfl
  rw [hexec]
  refine ⟨rfl, rfl, fun other _ => ?_, none, ?_, rfl, by simp⟩
  · by_cases ho : other = .control
    · subst ho
      rfl
    · rw [lanes_openLane_of_ne _ _ ho]
      rfl
  · rw [lanes_openLane_of_ne _ _ (ne_control_of_pier hrole)]
    rfl

end

/-- The control lane is opened, lanes of a role arrive, the grant arrives, and more lanes arrive. -/
def deliveryRun (role : LaneRole) (attachment : LaneAttachment) (roles : LaneRoleSet)
    (before after : List LanePreface) : List Call :=
  [.openLocal .control] ++ before.map (.admitPeer role.shape) ++ [.authorize attachment roles] ++
    after.map (.admitPeer role.shape)

/-- The whole run, the grant at any point of it, refines the offers in the order of arrival. -/
theorem deliveryRun_refines (hrole : role.opener = .pier) (hrls : roles.contains role = true)
    {before after : List LanePreface} (hv : ∀ preface ∈ before ++ after, Valid role att preface)
    (hnd : ((before ++ after).map (·.laneGeneration)).Nodup) :
    Admitting role att ((newest NonZeroU32).exec ((before ++ after).map (·.laneGeneration)))
        ((laneRegistry .deck).exec (deliveryRun role att roles before after)) ∧
      SameReports role ((laneRegistry .deck).log (deliveryRun role att roles before after))
        ((newest NonZeroU32).log ((before ++ after).map (·.laneGeneration))) := by
  rw [map_append] at hnd ⊢
  obtain ⟨hnodupBefore, hnodupAfter, hdisj⟩ := nodup_append.mp hnd
  have hvalidBefore preface (hmem : preface ∈ before) := hv preface (mem_append_left _ hmem)
  have hvalidAfter preface (hmem : preface ∈ after) := hv preface (mem_append_right _ hmem)
  obtain ⟨hhold, hbefore⟩ := (refines_holding hrole).run before hvalidBefore
    (by simpa using hnodupBefore) (holding_openLocal hrole att)
  obtain ⟨hadmitting, hgrantStale, hgrantSuperseded⟩ := hhold.authorize hrole hrls
  have hnodupGrant : (((newest NonZeroU32).execFrom none (before.map (·.laneGeneration))).toList ++
      after.map (·.laneGeneration)).Nodup := by
    rcases before.map (·.laneGeneration) |>.eq_nil_or_concat with hnil | ⟨_, _, hcons⟩
    · rw [hnil]
      exact hnodupAfter
    · have hne : (none : Option NonZeroU32).toList ++ before.map (·.laneGeneration) ≠ [] := by simp [hcons]
      obtain ⟨greatest, hg, hmem, -⟩ := newest_greatest hne
      rw [hg, Option.toList_some, singleton_append, nodup_cons]
      exact ⟨fun hl => hdisj greatest hmem greatest hl rfl, hnodupAfter⟩
  obtain ⟨hfinal, hafter⟩ := (refines_admitting hrole).run after hvalidAfter hnodupGrant hadmitting
  have hopen : SameReports role ((laneRegistry .deck).log [.openLocal .control]) [] := ⟨rfl, rfl⟩
  have hgrant : SameReports role [(.authorize att roles, _)] [] :=
    ⟨(append_nil _).trans hgrantStale, (append_nil _).trans hgrantSuperseded⟩
  simp only [deliveryRun, Machine.exec_append, Machine.log_append]
  have hall := ((hopen.append hbefore).append hgrant).append hafter
  rw [append_nil] at hall
  exact ⟨hfinal, hall⟩

end Delivery

theorem video_attached : (some LaneAttachment.first).isSome = LaneRole.video.requiresAttachment := rfl

def videoPreface (generation : NonZeroU32) : LanePreface := ⟨.video, some .first, generation, video_attached⟩

end Arcen.LaneRegistry
