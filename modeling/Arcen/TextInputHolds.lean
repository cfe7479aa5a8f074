import Arcen.TextInputPolicy
import Arcen.History

/-! Holds of a key, from its press to its release, seen one key at a time. What the policy does with the strokes of a
key is a latch: a stroke taken as text sets it, and while it is set the key is kept from the host. The latch is only
moved while committed text is in use, and here it is compared with the strokes and the settings alone. -/

namespace Arcen

open List

/-! ### One key -/

/-- What decides over a stroke of a key: whether committed text is in use, and whether the stroke would be text. -/
structure KeyInput where
  phase : KeyPhase
  active : Bool
  typed : Bool

namespace KeyInput

/-- The stroke is sent as text on its own account. -/
def taken (input : KeyInput) : Bool := input.active && input.phase != .release && input.typed

/-- The stroke sets or clears the latch whatever it was. -/
def settles (input : KeyInput) : Bool := input.active && input.phase != .repeats

end KeyInput

/-- The latch of a key; the reply is whether the stroke goes to the host. -/
def keyLatch (latched : Bool) : Machine Bool KeyInput Bool where
  init := latched
  step latched input :=
    if input.active then
      match input.phase with
      | .press => (input.typed, !input.typed)
      | .repeats => (latched || input.typed, !(latched || input.typed))
      | .release => (false, !latched)
    else (latched, true)

/-- Latches differ in where they start only. -/
theorem keyLatch_logFrom (latched other set : Bool) (strokes : List KeyInput) :
    (keyLatch latched).logFrom set strokes = (keyLatch other).logFrom set strokes := by
  induction strokes generalizing set with
  | nil => rfl
  | cons input strokes ih =>
    rw [Machine.logFrom_cons, ih]
    rfl

/-- The last word on the key was a stroke taken as text. -/
def Leftover (latched : Bool) (strokes : List KeyInput) : Prop :=
  Since (fun input => input.taken = true) (fun input => input.settles = false) strokes ∨
    latched = true ∧ ∀ input ∈ strokes, input.settles = false

variable {latched : Bool} {input : KeyInput} {set : Bool}

theorem leftover_concat : Leftover latched (strokes ++ [input]) ↔
      input.taken = true ∨ input.settles = false ∧ Leftover latched strokes := by
  unfold Leftover
  rw [since_concat]
  simp only [mem_append, mem_singleton, or_imp, forall_and, forall_eq]
  constructor
  · rintro ((ht | ⟨hk, hsnc⟩) | ⟨hlatch, hearly, hk⟩)
    · exact .inl ht
    · exact .inr ⟨hk, .inl hsnc⟩
    · exact .inr ⟨hk, .inr ⟨hlatch, hearly⟩⟩
  · rintro (ht | ⟨hk, hsnc | ⟨hlatch, hearly⟩⟩)
    · exact .inl (.inl ht)
    · exact .inl (.inr ⟨hk, hsnc⟩)
    · exact .inr ⟨hlatch, hearly, hk⟩

theorem keyLatch_set_iff (latched : Bool) (strokes : List KeyInput) :
    (keyLatch latched).exec strokes = true ↔ Leftover latched strokes := by
  refine (keyLatch latched).calls_invariant (P := fun strokes set => set = true ↔ Leftover latched strokes) ?_ ?_ strokes
  · unfold Leftover Since
    simp [keyLatch]
  · intro strokes set input hset
    rw [leftover_concat, ← hset]
    obtain ⟨phase, active, _⟩ := input
    cases active <;> cases phase <;> simp [keyLatch, KeyInput.taken, KeyInput.settles, or_comm]

theorem keyLatch_press (h : input.phase = .press) : ((keyLatch latched).step set input).2 = !input.taken := by
  simp only [keyLatch, KeyInput.taken, h]
  cases input.active <;> rfl

theorem keyLatch_repeats (h : input.phase = .repeats) :
    ((keyLatch latched).step set input).2 = !(input.active && (set || input.typed)) := by
  simp only [keyLatch, h]
  cases input.active <;> rfl

theorem keyLatch_release (h : input.phase = .release) :
    ((keyLatch latched).step set input).2 = !(input.active && set) := by
  simp only [keyLatch, h]
  cases input.active <;> rfl

structure InHold {α : Type} (phase : α → KeyPhase) (strokes before : List α) (press : α) (repeats : List α) (later : α) :
    Prop where
  split : ∃ after, strokes = before ++ press :: repeats ++ later :: after
  pressed : phase press = .press
  repeated : ∀ stroke ∈ repeats, phase stroke = .repeats
  held : phase later ≠ .press

/-- The host never sees half a key: a release goes to the host exactly when the press did, and a repeat only then. -/
def WholeHolds (strokes : List (KeyPhase × Bool)) : Prop :=
  ∀ before press repeats later, InHold Prod.fst strokes before press repeats later →
    (later.1 = .release → later.2 = press.2) ∧ (later.1 = .repeats → later.2 = true → press.2 = true)

/-- The settings and strokes that leave a key whole: after a press taken as text, committed text stays in use to the
end of the hold; and a key pressed as a position is not released, with committed text in use, while the last word on
the key was a stroke taken as text. -/
def Settled (latched : Bool) (strokes : List KeyInput) : Prop :=
  ∀ before press repeats later, InHold KeyInput.phase strokes before press repeats later →
    (press.taken = true → later.active = true) ∧ (press.taken = false → later.phase = .release → later.active = true →
      ¬Leftover latched (before ++ press :: repeats))

def latchOutcomes (latched : Bool) (strokes : List KeyInput) : List (KeyPhase × Bool) :=
  ((keyLatch latched).log strokes).map fun entry => (entry.1.phase, entry.2)

theorem whole_iff_settled_at
    (hp : press.phase = .press) (hr : ∀ stroke ∈ repeats, stroke.phase = .repeats)
    (hl : later.phase ≠ .press)
    (hpressReply : pressReply = ((keyLatch latched).step ((keyLatch latched).exec before) press).2)
    (hlaterReply : laterReply =
      ((keyLatch latched).step ((keyLatch latched).exec (before ++ press :: repeats)) later).2) :
    ((later.phase = .release → laterReply = pressReply) ∧
      (later.phase = .repeats → laterReply = true → pressReply = true)) ↔
    (press.taken = true → later.active = true) ∧ (press.taken = false → later.phase = .release → later.active = true →
        ¬Leftover latched (before ++ press :: repeats)) := by
  have hset := keyLatch_set_iff latched (before ++ press :: repeats)
  -- a press taken as text still holds the latch, since only repeats came after it
  have hk : press.taken = true → (keyLatch latched).exec (before ++ press :: repeats) = true := by
    intro ht
    refine hset.mpr (.inl ⟨before, press, repeats, rfl, ht, fun stroke hs => ?_⟩)
    have hph := hr stroke hs
    simp [KeyInput.settles, hph]
  rw [← hset, hpressReply, hlaterReply, keyLatch_press hp]
  cases hph : later.phase with
  | press => exact absurd hph hl
  | repeats =>
    rw [keyLatch_repeats hph]
    cases ht : press.taken with
    | true => simp [hk ht]
    | false => simp
  | release =>
    rw [keyLatch_release hph]
    cases ht : press.taken with
    | true => simp [hk ht]
    | false => cases later.active <;> simp

/-- **One key.** The latch keeps its key whole exactly when the settings and strokes are settled. -/
theorem wholeHolds_iff_settled (latched : Bool) (strokes : List KeyInput) :
    WholeHolds (latchOutcomes latched strokes) ↔ Settled latched strokes := by
  constructor
  · rintro hwh before press repeats later ⟨⟨after, rfl⟩, hp, hr, hl⟩
    have hlog : latchOutcomes latched (before ++ press :: repeats ++ later :: after) = latchOutcomes latched _ := rfl
    conv_rhs at hlog => simp only [latchOutcomes, Machine.log_append, map_append]
    refine (whole_iff_settled_at hp hr hl rfl rfl).mp (hwh _ _ _ _ ⟨⟨_, hlog⟩, hp, ?_, hl⟩)
    intro stroke hs
    obtain ⟨entry, hent, rfl⟩ := mem_map.mp hs
    have hmem := mem_map_of_mem (f := Prod.fst) hent
    rw [(keyLatch latched).map_fst_logFrom] at hmem
    exact hr entry.1 hmem
  · rintro hsett _ _ repeats _ ⟨⟨_, hsplit⟩, hp, hr, hl⟩
    obtain ⟨_, _, hlog, hfrt, hrest⟩ := map_eq_append_iff.mp hsplit
    obtain ⟨_, _, rfl, rfl, -⟩ := map_eq_cons_iff.mp hrest
    obtain ⟨_, _, rfl, -, hmidd⟩ := map_eq_append_iff.mp hfrt
    obtain ⟨_, holds, rfl, rfl, rfl⟩ := map_eq_cons_iff.mp hmidd
    obtain ⟨hstrok, -, hlast⟩ := (keyLatch latched).log_split hlog
    rw [append_assoc] at hlog
    obtain ⟨-, -, hfst⟩ := (keyLatch latched).log_split hlog
    rw [map_append] at hstrok hlast
    have hheld : ∀ stroke ∈ holds.map Prod.fst, stroke.phase = .repeats := by
      intro stroke hs
      obtain ⟨entry, hent, rfl⟩ := mem_map.mp hs
      exact hr (entry.1.phase, entry.2) (mem_map.mpr ⟨entry, hent, rfl⟩)
    refine (whole_iff_settled_at hp hheld hl hfst hlast).mpr ?_
    exact hsett _ _ _ _ ⟨⟨_, hstrok⟩, hp, hheld, hl⟩

end Arcen
