import Arcen.InputRoleSteps

/-! Held input between two lanes of the input role. In every interleaving of the dispatcher, the writers and the reader,
a release stands between the records of two lanes exactly if the reader did not miss a lane in between: a lane is missed
if its writer closed it, the reader did not ask for its state before the next lane was admitted, and took that next
lane. -/

namespace Arcen

open InputRole

variable (events : List LaneEvent)

/-- Between a record of a lane and a record of a newer one, the agent was sent a release. -/
def ReleasedBetween : Prop :=
  ∀ before middle after older newer, events = before ++ .record older :: (middle ++ .record newer :: after) →
    older < newer → .release ∈ middle

/-- Of the lanes the reader had from the older to the newer one, it left one that it did not miss. -/
def NoticedBetween : Prop :=
  ∀ before middle after older newer, events = before ++ .record older :: (middle ++ .record newer :: after) →
    older < newer → ∃ left, .took left ∈ before ++ .record older :: middle ∧ older ≤ left ∧ left < newer ∧
      ¬Missed (before ++ .record older :: middle) left

theorem laneEvents_concat (log : List (RoleStep × Option LaneEvent)) (entry : RoleStep × Option LaneEvent) :
    laneEvents (log ++ [entry]) = laneEvents log ++ entry.2.toList := filterMap_concat _ log entry

variable (registry : LaneRegistry)

theorem followed_init : Followed [] (inputRole registry).init := by
  have hslot : ((inputRole registry).init.registry).lanes .inputCursor = .new := by simp [inputRole]
  refine ⟨?_, .inl ⟨fun _ => List.not_mem_nil, rfl, .inl rfl⟩⟩
  constructor <;> simp [hslot, LaneSlot.new] <;> simp [inputRole]

variable {role : InputRole} {call : RoleStep} {gen : NonZeroU32}

theorem handling_of_record (hrec : (role.step call).2 = some (.record gen)) : role.reader = .handling gen .input := by
  have hclos : ∀ (action : LaneRecoveryAction) (event : LaneEvent), event ≠ .record gen →
      action.closing event ≠ some (.record gen) := by
    intro action event hev
    unfold LaneRecoveryAction.closing
    split
    · exact fun heq => hev (Option.some.inj heq)
    · exact nofun
  cases call with
  | dispatcher => grind [step, dispatcherStep, admitLane]
  | writer => grind [step, writerStep]
  | reader => grind [step, readerStep]

/-- A record goes to the agent when what it holds is what the reader left without a release. -/
theorem Followed.balanced {events : List LaneEvent} (h : Followed events role)
    (hrec : (role.step call).2 = some (.record generation)) : Balanced events generation := by
  have hrd := handling_of_record hrec
  rcases h.reader with ⟨-, -, hends⟩ | ⟨current, -, hfits⟩
  · rw [hrd] at hends
    exact absurd hends (by simp)
  · rw [hrd] at hfits
    obtain ⟨rfl, htrack⟩ := hfits
    exact htrack.balanced

variable (steps : List RoleStep)

theorem balanced_throughout : Throughout (fun before event => ∀ gen, event = .record gen → Balanced before gen)
      (laneEvents ((inputRole registry).log steps)) := by
  have hrun := (inputRole registry).log_invariant (P := fun log role => Followed (laneEvents log) role ∧
      Throughout (fun before event => ∀ gen, event = .record gen → Balanced before gen)
        (laneEvents log)) ⟨followed_init registry, .nil⟩ ?_ steps
  · exact hrun.2
  · rintro _ role call ⟨hfoll, hthro⟩
    rw [laneEvents_concat]
    refine ⟨hfoll.step call, ?_⟩
    cases hev : (role.step call).2 with
    | none =>
      have hnone : ((inputRole registry).step role call).2.toList = [] := by
        rw [Option.toList_eq_nil_iff]
        exact hev
      rw [hnone, List.append_nil]
      exact hthro
    | some event =>
      have hsome : ((inputRole registry).step role call).2.toList = [event] := by
        rw [Option.toList_eq_singleton_iff]
        exact hev
      rw [hsome]
      refine hthro.concat fun gen hgen => ?_
      rw [hgen] at hev
      exact hfoll.balanced hev

/-- **Held input between two lanes.** Over every interleaving, the agent gets a release between the records of two lanes
exactly if the reader left one of the lanes from the older to the newer without missing it. -/
theorem input_released_iff_noticed : ReleasedBetween (laneEvents ((inputRole registry).log steps)) ↔
      NoticedBetween (laneEvents ((inputRole registry).log steps)) := by
  have hbal := balanced_throughout registry steps
  generalize laneEvents ((inputRole registry).log steps) = events at hbal ⊢
  constructor
  · intro hrele before middle after older newer hs hlt
    have hpr : events = (before ++ .record older :: middle) ++ .record newer :: after := by simp [hs]
    by_contra hmiss
    push Not at hmiss
    have hheld : HeldFrom (before ++ .record older :: middle) older :=
      (hbal _ _ _ hpr newer rfl older).mpr ⟨by simp, hmiss⟩
    obtain ⟨before', _, middle', hs', rfl, hfree⟩ := hheld
    rw [hs', List.append_assoc] at hpr
    exact hfree .release (hrele before' middle' after older newer hpr hlt) rfl
  · intro hnotd before middle after older newer hs hlt
    have hpr : events = (before ++ .record older :: middle) ++ .record newer :: after := by simp [hs]
    by_contra hfree
    have hheld : HeldFrom (before ++ .record older :: middle) older :=
      ⟨before, _, middle, rfl, rfl, fun later hlat hrel => hfree (hrel ▸ hlat)⟩
    obtain ⟨left, htook, hle, hlt', hkept⟩ := hnotd before middle after older newer hs hlt
    exact hkept (((hbal _ _ _ hpr newer rfl older).mp hheld).2 left htook hle hlt')

def grantedInput : LaneRegistry :=
  ⟨.pier, .authorized .first (LaneRoleSet.empty.withRole .inputCursor), fun _ => .new⟩

/-- The writer of the first lane reports its failure; the second lane is admitted before the reader asks. -/
def missedLane : List RoleStep :=
  let lane (generation : NonZeroU32) : LanePreface := ⟨.inputCursor, some .first, generation, rfl⟩
  let first : NonZeroU32 := ⟨1, u32_one_ne_zero⟩
  let second : NonZeroU32 := ⟨2, u32_two_ne_zero⟩
  [.dispatcher .bidirectional (lane first), .reader .lost, .reader (.frame .input), .reader .lost, .reader .lost,
    .writer first (.failed .writeFailed), .writer first .written, .writer first .written,
    .dispatcher .bidirectional (lane second), .reader .lost, .reader .lost, .reader .lost, .reader .lost, .reader .lost,
    .reader (.frame .input), .reader .lost, .reader .lost]

/-- The record of the second lane follows that of the first with no release between them. -/
theorem input_not_released_missed : ¬ReleasedBetween (laneEvents ((inputRole grantedInput).log missedLane)) := by
  have heven : laneEvents ((inputRole grantedInput).log missedLane) =
      [.admitted ⟨1, by decide⟩, .took ⟨1, by decide⟩, .record ⟨1, by decide⟩, .writerClosed ⟨1, by decide⟩,
        .admitted ⟨2, by decide⟩, .looked ⟨1, by decide⟩, .took ⟨2, by decide⟩, .record ⟨2, by decide⟩] := by
    decide +kernel
  intro hrele
  have hrel := hrele [.admitted ⟨1, by decide⟩, .took ⟨1, by decide⟩] [.writerClosed ⟨1, by decide⟩,
    .admitted ⟨2, by decide⟩, .looked ⟨1, by decide⟩, .took ⟨2, by decide⟩] [] ⟨1, by decide⟩ ⟨2, by decide⟩ heven
    (by decide)
  exact absurd hrel (by decide)

end Arcen
