import Arcen.History
import Arcen.InputRole

/-! What the events of the input role tell of a lane that the reader left: whether its writer closed it without the
reader noticing. The reader leaves a lane without a release exactly then. -/

namespace Arcen

open List hiding le_of_lt not_le not_lt

variable (events : List LaneEvent)

variable (generation : NonZeroU32)

/-- A record of the lane reached the agent, and no release since. -/
def HeldFrom : Prop := Since (· = LaneEvent.record generation) (· ≠ .release) events

/-- The reader asked for the state of its lane after the writer had reported its failure and before a newer lane was
admitted. -/
def Noticed : Prop :=
  ∃ before after, events = before ++ .looked generation :: after ∧ .writerClosed generation ∈ before ∧
    ∀ newer, .admitted newer ∈ before → newer ≤ generation

/-- The first lane admitted after this one is the one the reader took. -/
def FirstTaken : Prop := ∃ next, .took next ∈ events ∧ generation < next ∧
    ∀ newer, .admitted newer ∈ events → generation < newer → next ≤ newer

/-- The writer closed the lane, the reader did not notice, and took the lane that replaced it. -/
def Missed : Prop := .writerClosed generation ∈ events ∧ ¬Noticed events generation ∧ FirstTaken events generation

/-- Input of the lane went to the agent, and every lane the reader left since, up to the current one, it missed. -/
def Unsettled (current generation : NonZeroU32) : Prop :=
  .record generation ∈ events ∧ ∀ left, .took left ∈ events → generation ≤ left → left < current → Missed events left

/-- What may happen once the reader has taken a lane. -/
def LaneEvent.Follows (current : NonZeroU32) : LaneEvent → Prop
  | .admitted generation | .took generation => current < generation
  | .writerClosed generation | .readerClosed generation | .looked generation | .record generation => current ≤ generation
  | .release => True

section Concat

variable {events : List LaneEvent} {event : LaneEvent} {cur generation left : NonZeroU32}

theorem noticed_concat : Noticed (events ++ [event]) gen ↔ Noticed events gen ∨
    event = .looked gen ∧ .writerClosed gen ∈ events ∧ ∀ newer, .admitted newer ∈ events → newer ≤ gen := by
  constructor
  · rintro ⟨before, after, hsplit, hr⟩
    induction after using reverseRecOn with
    | nil =>
      obtain ⟨rfl, hlast⟩ := append_inj' hsplit rfl
      exact .inr ⟨singleton_inj.mp hlast, hr⟩
    | append_singleton rest =>
      rw [← cons_append, ← append_assoc] at hsplit
      obtain ⟨hfrt, -⟩ := append_inj' hsplit rfl
      exact .inl ⟨before, rest, hfrt, hr⟩
  · rintro (⟨before, after, rfl, hr⟩ | ⟨rfl, hr⟩)
    · exact ⟨before, after ++ [event], by simp, hr⟩
    · exact ⟨events, [], rfl, hr⟩

theorem noticed_of_other (h : event ≠ .looked generation) :
    Noticed (events ++ [event]) generation ↔ Noticed events generation := by
  rw [noticed_concat]
  exact or_iff_left fun hn => h hn.1

theorem not_noticed_of_not_looked (h : .looked generation ∉ events) : ¬Noticed events generation := by
  rintro ⟨_, _, rfl, -⟩
  exact h (by simp)

section

variable (hf : event.Follows cur)
include hf

variable (hlast : ∀ other, .took other ∈ events → other ≤ cur) (ha : .admitted cur ∈ events)
include hlast ha

/-- Nothing that happens later changes what was taken first after an older lane. -/
theorem firstTaken_concat (hl : left < cur) : FirstTaken (events ++ [event]) left ↔ FirstTaken events left := by
  constructor
  · rintro ⟨next, hnext, hlt, hfst⟩
    refine ⟨next, ?_, hlt, fun newer hnew => hfst newer (mem_append_left _ hnew)⟩
    rcases mem_append.mp hnext with ho | hn
    · exact ho
    · -- the lane that is taken now is newer than the cur one, which was admitted after the old one too
      obtain rfl := mem_singleton.mp hn
      exact absurd (hfst cur (mem_append_left _ ha) hl) (not_le.mpr hf)
  · rintro ⟨next, hnext, hlt, hfst⟩
    refine ⟨next, mem_append_left _ hnext, hlt, fun newer hnew hnew' => ?_⟩
    rcases mem_append.mp hnew with ho | hn
    · exact hfst newer ho hnew'
    · obtain rfl := mem_singleton.mp hn
      exact (hlast next hnext).trans (le_of_lt hf)

theorem missed_concat (hl : left < cur) : Missed (events ++ [event]) left ↔ Missed events left := by
  have hcl : LaneEvent.writerClosed left ∈ events ++ [event] ↔ LaneEvent.writerClosed left ∈ events := by
    rw [mem_append, mem_singleton]
    refine or_iff_left fun hn => ?_
    subst hn
    exact absurd hl (not_lt.mpr hf)
  have hlook : event ≠ .looked left := by
    rintro rfl
    exact absurd hl (not_lt.mpr hf)
  unfold Missed
  rw [hcl, noticed_of_other hlook, firstTaken_concat hf hlast ha hl]

theorem unsettled_concat (hrec : event ≠ .record generation) :
    Unsettled (events ++ [event]) cur generation ↔ Unsettled events cur generation := by
  have hmem : LaneEvent.record generation ∈ events ++ [event] ↔ LaneEvent.record generation ∈ events := by
    rw [mem_append, mem_singleton]
    exact or_iff_left fun hn => hrec hn.symm
  unfold Unsettled
  rw [hmem]
  refine and_congr_right fun _ => ⟨fun h left hl hle hlt => ?_, fun h left hl hle hlt => ?_⟩
  · exact (missed_concat hf hlast ha hlt).mp (h left (mem_append_left _ hl) hle hlt)
  · refine (missed_concat hf hlast ha hlt).mpr (h left ?_ hle hlt)
    rcases mem_append.mp hl with ho | hn
    · exact ho
    · obtain rfl := mem_singleton.mp hn
      exact absurd hlt (not_lt.mpr (le_of_lt hf))

end

theorem HeldFrom.mem (h : HeldFrom events generation) : .record generation ∈ events := by
  obtain ⟨_, _, _, rfl, rfl, -⟩ := h
  simp

theorem heldFrom_concat : HeldFrom (events ++ [event]) generation ↔
    event = .record generation ∨ event ≠ .release ∧ HeldFrom events generation := since_concat

theorem not_heldFrom_release : ¬HeldFrom (events ++ [.release]) generation := by
  rw [heldFrom_concat]
  simp

end Concat
end Arcen
