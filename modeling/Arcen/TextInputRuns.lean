import Arcen.TextInputHolds

/-! Runs of the policy, one key at a time. Every stroke of a tracked key moves the latch of that key and of no other,
so the strokes of a key in a whole run are answered as its latch answers them. The theorem at the end says for which
settings and strokes a key stays whole on the host. -/

namespace Arcen

open TextInputPolicy DeckTextAction List

/-- What the policy remembers a key by: the side of an Option key, or the key position. -/
inductive TrackedKey where
  | position (position : UInt32)
  | option (slot : Fin 2)
  deriving DecidableEq

def KeyStroke.key (stroke : KeyStroke) : Option TrackedKey :=
  if stroke.optionKey = .none then stroke.position.map .position else (optionSlot stroke.optionKey).map .option

def DeckTextAction.forwards (index : Nat) : DeckTextAction → Bool
  | .forwardKey other => other == index
  | .forwardKeyWithoutAlt other => other == index
  | _ => false

/-- The strokes of a frame from an index on, with what the actions did with them. -/
def frameOutcomes (actions : List DeckTextAction) (index : Nat) : List DeckTextEvent → List (KeyStroke × Bool)
  | [] => []
  | .key stroke :: rest => (stroke, actions.any (·.forwards index)) :: frameOutcomes actions (index + 1) rest
  | _ :: rest => frameOutcomes actions (index + 1) rest

/-- The strokes of a run, with what became of them. -/
def strokeOutcomes (log : List (TextInputCall × List DeckTextAction)) : List (KeyStroke × Bool) :=
  log.flatMap fun entry =>
    match entry.1 with
    | .planFrame events => frameOutcomes entry.2 0 events
    | _ => []

def ofKey {α : Type} (key : TrackedKey) (strokes : List (KeyStroke × α)) : List (KeyStroke × α) :=
  strokes.filter fun entry => entry.1.key = some key

/-- The strokes of a key and whether they went to the host. -/
def keyOutcomes (key : TrackedKey) (strokes : List (KeyStroke × Bool)) : List (KeyPhase × Bool) :=
  (ofKey key strokes).map fun entry => (entry.1.phase, entry.2)

/-! ### The inputs of a run -/

namespace TextInputPolicy

variable (policy : TextInputPolicy)

/-- The settings make the stroke text on its own account. -/
def typed (stroke : KeyStroke) (text : Option String) : Bool :=
  if stroke.optionKey = .none then
    match stroke.position, text with
    | some position, some text => !stroke.command && !text.isEmpty && policy.asText stroke position text
    | _, _ => false
  else stroke.phase == .press && policy.option.composes stroke.optionKey

def input (stroke : KeyStroke) (text : Option String) : KeyInput :=
  ⟨stroke.phase, policy.active, policy.typed stroke text⟩

def latched : TrackedKey → Bool
  | .position position => position ∈ policy.textKeys
  | .option slot => policy.heldComposingOptions slot

/-- The text that stands right after a keystroke. -/
def textAfter : List DeckTextEvent → Option String
  | .text text :: _ => some text
  | _ => none

/-- The strokes of a frame with what decides over them. -/
def frameInputs (policy : TextInputPolicy) : List DeckTextEvent → List (KeyStroke × KeyInput)
  | [] => []
  | .key stroke :: rest => (stroke, policy.input stroke (textAfter rest)) :: frameInputs policy rest
  | _ :: rest => frameInputs policy rest

/-- The strokes of a run with the settings in force at each. -/
def runInputs (policy : TextInputPolicy) : List TextInputCall → List (KeyStroke × KeyInput)
  | [] => []
  | .configure mode option :: rest => runInputs (policy.configure mode option) rest
  | .setHost host :: rest => runInputs (policy.setHost host) rest
  | .setHostKeymap keymap :: rest => runInputs (policy.setHostKeymap keymap) rest
  | .planFrame events :: rest => policy.frameInputs events ++ runInputs policy rest

/-- The policies differ in what they remember only. -/
structure SameSettings (policy other : TextInputPolicy) : Prop where
  mode : policy.mode = other.mode
  option : policy.option = other.option
  host : policy.host = other.host
  keymap : policy.keymap = other.keymap

namespace SameSettings

variable {policy other third : TextInputPolicy}

theorem refl (policy : TextInputPolicy) : SameSettings policy policy := ⟨rfl, rfl, rfl, rfl⟩

section

variable (h : SameSettings policy other)
include h

theorem trans (h' : SameSettings other third) : SameSettings policy third :=
  ⟨h.mode.trans h'.mode, h.option.trans h'.option, h.host.trans h'.host, h.keymap.trans h'.keymap⟩

theorem active : policy.active = other.active := by
  rw [TextInputPolicy.active, TextInputPolicy.active, h.mode, h.host]

theorem asText : policy.asText = other.asText := by
  funext stroke pos text
  rw [TextInputPolicy.asText, TextInputPolicy.asText, h.mode, h.option, h.keymap]

theorem typed : policy.typed = other.typed := by
  funext stroke text
  unfold TextInputPolicy.typed
  rw [h.asText, h.option]

theorem input : policy.input = other.input := by
  funext stroke text
  rw [TextInputPolicy.input, TextInputPolicy.input, h.active, h.typed]

theorem frameInputs (events : List DeckTextEvent) : policy.frameInputs events = other.frameInputs events := by
  induction events with
  | nil => rfl
  | cons event rest ih => cases event <;> simp only [TextInputPolicy.frameInputs, ih, h.input]

theorem runInputs (calls : List TextInputCall) : policy.runInputs calls = other.runInputs calls := by
  induction calls generalizing policy other with
  | nil => rfl
  | cons call rest ih =>
    cases call with
    | configure => exact ih ⟨rfl, rfl, h.host, h.keymap⟩
    | setHost => exact ih ⟨h.mode, h.option, rfl, rfl⟩
    | setHostKeymap => exact ih ⟨h.mode, h.option, h.host, rfl⟩
    | planFrame => rw [runInputs, runInputs, h.frameInputs, ih h]

end

end SameSettings

/-! ### One stroke -/

/-- What a stroke does: it moves the latch of its own key, and the action is about its own index. -/
structure Moves (policy : TextInputPolicy) (index : Nat) (stroke : KeyStroke) (input : KeyInput)
    (next : TextInputPolicy) (action : DeckTextAction) : Prop where
  settings : SameSettings next policy
  latched : ∀ key, stroke.key = some key → next.latched key = ((keyLatch false).step (policy.latched key) input).1
  forwards : ∀ key, stroke.key = some key →
    action.forwards index = ((keyLatch false).step (policy.latched key) input).2
  unlatched : ∀ key, stroke.key ≠ some key → next.latched key = policy.latched key
  other : ∀ elsewhere, elsewhere ≠ index → action.forwards elsewhere = false

section Strokes

variable {policy : TextInputPolicy} {index : Nat} {stroke : KeyStroke} {text heard : Option String}

theorem typeOrForward_eq {pos : UInt32} (ho : stroke.optionKey = .none)
    (hpos : stroke.position = some pos) : policy.typeOrForward index stroke pos text =
      if policy.typed stroke text then
        ({ policy with textKeys := insert pos policy.textKeys }, .suppressKey index .sentAsText)
      else (policy, .forwardKey index) := by
  unfold typed
  rw [if_pos ho, hpos]
  cases text with
  | none => rfl
  | some text =>
    unfold typeOrForward
    by_cases hcomm : stroke.command = true
    · simp [hcomm]
    · by_cases hemp : text.isEmpty = true
      · simp [hemp]
      · simp [hcomm, hemp]

theorem latched_insert (key : TrackedKey) :
    ({ policy with textKeys := insert position policy.textKeys } : TextInputPolicy).latched key =
      (decide (key = .position position) || policy.latched key) := by
  cases key with
  | position => simp [latched]
  | option => simp [latched]

theorem latched_erase (key : TrackedKey) :
    ({ policy with textKeys := policy.textKeys.erase position } : TextInputPolicy).latched key =
      (!decide (key = .position position) && policy.latched key) := by
  cases key with
  | position => simp [latched]
  | option => simp [latched]

theorem latched_hold (key : TrackedKey) :
    ({ policy with heldComposingOptions := Function.update policy.heldComposingOptions slot held } :
      TextInputPolicy).latched key = if key = .option slot then held else policy.latched key := by
  cases key with
  | position => rfl
  | option other =>
    simp only [latched, TrackedKey.option.injEq]
    by_cases heq : other = slot
    · rw [heq, Function.update_self, if_pos rfl]
    · rw [Function.update_of_ne heq, if_neg heq]

/-- A stroke of a key is followed by looking at the latch of that key and at the others. -/
theorem Moves.of_key {input : KeyInput} {next : TextInputPolicy} {action : DeckTextAction}
    (hk : stroke.key = some own) (hsett : SameSettings next policy)
    (hown : next.latched own = ((keyLatch false).step (policy.latched own) input).1)
    (hforw : action.forwards index = ((keyLatch false).step (policy.latched own) input).2)
    (hoth : ∀ key ≠ own, next.latched key = policy.latched key)
    (helse : ∀ elsewhere, elsewhere ≠ index → action.forwards elsewhere = false) :
    Moves policy index stroke input next action := by
  refine ⟨hsett, fun key h => ?_, fun key h => ?_, fun key h => hoth key ?_, helse⟩
  · rw [hk, Option.some.injEq] at h
    exact h ▸ hown
  · rw [hk, Option.some.injEq] at h
    exact h ▸ hforw
  · rintro rfl
    exact h hk

/-- A stroke that is no tracked key goes to the host and changes nothing. -/
theorem Moves.untracked {input : KeyInput} (hk : stroke.key = none) :
    Moves policy index stroke input policy (.forwardKey index) := by
  have hno : ∀ key, stroke.key ≠ some key := fun _ h => nomatch hk.symm.trans h
  exact ⟨.refl _, fun key h => absurd h (hno key), fun key h => absurd h (hno key), fun _ _ => rfl,
    fun elsewhere hne => beq_false_of_ne hne.symm⟩

theorem forwards_self : (forwardKey index).forwards index = true := beq_self_eq_true index

theorem forwards_elsewhere (hne : elsewhere ≠ index) :
    (forwardKey index).forwards elsewhere = false := beq_false_of_ne hne.symm

variable (ha : policy.active = true)

include ha

theorem optionKeystroke_moves (ho : stroke.optionKey ≠ .none) :
    Moves policy index stroke (policy.input stroke heard) (policy.optionKeystroke index stroke).1
      (policy.optionKeystroke index stroke).2 := by
  have hk : stroke.key = (optionSlot stroke.optionKey).map .option := if_neg ho
  have htyped : policy.typed stroke heard = (stroke.phase == .press && policy.option.composes stroke.optionKey) :=
    if_neg ho
  unfold optionKeystroke
  cases hslot : optionSlot stroke.optionKey with
  | none => exact .untracked (by rw [hk, hslot]; rfl)
  | some =>
    rw [hslot] at hk
    refine .of_key hk ⟨rfl, rfl, rfl, rfl⟩ ?_ ?_ (fun key hne => ?_) (fun elsewhere hne => ?_)
    · rw [latched_hold]
      simp only [keyLatch, input, ha, htyped]
      cases stroke.phase <;> simp [latched]
    · simp only [keyLatch, input, htyped]
      cases stroke.phase <;> simp only [latched] <;> split_ifs <;> simp_all [forwards]
    · rw [latched_hold, if_neg hne]
    · simp only
      split_ifs
      · rfl
      · exact forwards_elsewhere hne

section Positions

variable {pos : UInt32} (ho : stroke.optionKey = .none) (hpos : stroke.position = some pos)

include ho hpos

omit ha in
theorem key_eq_position : stroke.key = some (.position pos) := by
  rw [KeyStroke.key, if_pos ho, hpos, Option.map_some]

omit ha in
/-- A stroke that types or goes to the host, once the latch of its key is clear. -/
theorem typeOrForward_moves (hsame : SameSettings before policy)
    (hc : before.latched (.position pos) = false)
    (hoths : ∀ key ≠ .position pos, before.latched key = policy.latched key)
    (hs : (keyLatch false).step (policy.latched (.position pos)) (policy.input stroke text) =
      (policy.typed stroke text, !policy.typed stroke text)) :
    Moves policy index stroke (policy.input stroke text) (before.typeOrForward index stroke pos text).1
      (before.typeOrForward index stroke pos text).2 := by
  rw [typeOrForward_eq ho hpos, hsame.typed]
  cases htaken : policy.typed stroke text with
  | true =>
    rw [htaken] at hs
    rw [if_pos rfl]
    refine .of_key (key_eq_position ho hpos) ⟨hsame.mode, hsame.option, hsame.host, hsame.keymap⟩ ?_
      (by rw [hs]; rfl) (fun key hne => ?_) (fun _ _ => rfl)
    · rw [latched_insert, hs]
      simp
    · rw [latched_insert, hoths key hne]
      simp [hne]
  | false =>
    rw [htaken] at hs
    rw [if_neg Bool.false_ne_true]
    exact .of_key (key_eq_position ho hpos) hsame (by rw [hs]; exact hc)
      (by rw [hs]; exact forwards_self) hoths (fun _ => forwards_elsewhere)

theorem latched_repeat_moves (hph : stroke.phase = .repeats) (hl : pos ∈ policy.textKeys) (reason : SuppressReason) :
    Moves policy index stroke (policy.input stroke text) policy (.suppressKey index reason) := by
  have hset : policy.latched (.position pos) = true := decide_eq_true hl
  have hs : (keyLatch false).step (policy.latched (.position pos)) (policy.input stroke text) = (true, false) := by
    simp only [keyLatch, input, ha, if_true, hph, hset, Bool.true_or, Bool.not_true]
  exact .of_key (key_eq_position ho hpos) (.refl _) (by rw [hs]; exact hset) (by rw [hs]; rfl)
    (fun _ _ => rfl) (fun _ _ => rfl)

theorem release_moves (hph : stroke.phase = .release) (hres : (if pos ∈ policy.textKeys then
        ({ policy with textKeys := policy.textKeys.erase pos }, suppressKey index .textKeystroke)
      else (policy, .forwardKey index)) = result) :
    Moves policy index stroke (policy.input stroke text) result.1 result.2 := by
  subst hres
  have hs : (keyLatch false).step (policy.latched (.position pos)) (policy.input stroke text) =
      (false, !policy.latched (.position pos)) := by
    simp only [keyLatch, input, ha, if_true, hph]
  by_cases hl : pos ∈ policy.textKeys
  · have hset : policy.latched (.position pos) = true := decide_eq_true hl
    rw [if_pos hl]
    refine .of_key (key_eq_position ho hpos) ⟨rfl, rfl, rfl, rfl⟩ ?_ (by rw [hs, hset]; rfl)
      (fun key hne => ?_) (fun _ _ => rfl)
    · rw [latched_erase, hs]
      simp
    · rw [latched_erase]
      simp [hne]
  · have hc : policy.latched (.position pos) = false := decide_eq_false hl
    rw [if_neg hl]
    exact .of_key (key_eq_position ho hpos) (.refl _) (by rw [hs]; exact hc)
      (by rw [hs, hc]; exact forwards_self) (fun _ _ => rfl) (fun _ => forwards_elsewhere)

end Positions

/-- A plain stroke. Its text counts for nothing at a release. -/
theorem plainKeystroke_moves (ho : stroke.optionKey = .none) (ht : stroke.phase ≠ .release → text = heard) :
    Moves policy index stroke (policy.input stroke heard) (policy.plainKeystroke index stroke text).1
      (policy.plainKeystroke index stroke text).2 := by
  unfold plainKeystroke
  cases hpos : stroke.position with
  | none => exact .untracked (by rw [KeyStroke.key, if_pos ho, hpos]; rfl)
  | some pos =>
    cases hph : stroke.phase with
    | press =>
      rw [ht (by simp [hph])]
      refine typeOrForward_moves ho hpos ⟨rfl, rfl, rfl, rfl⟩ ?_ (fun key hne => ?_) ?_
      · rw [latched_erase]
        simp
      · rw [latched_erase]
        simp [hne]
      · simp only [keyLatch, input, ha, if_true, hph]
    | release => exact release_moves ha ho hpos hph rfl
    | repeats =>
      rw [ht (by simp [hph])]
      by_cases hl : pos ∈ policy.textKeys
      · simp only [if_pos hl]
        exact latched_repeat_moves ha ho hpos hph hl _
      · simp only [if_neg hl]
        have hc : policy.latched (.position pos) = false := decide_eq_false hl
        refine typeOrForward_moves ho hpos (.refl _) hc (fun _ _ => rfl) ?_
        simp only [keyLatch, input, ha, if_true, hph, hc, Bool.false_or]

/-- **Stroke rule.** -/
theorem keystroke_moves (ht : stroke.phase ≠ .release → text = heard) :
    Moves policy index stroke (policy.input stroke heard) (policy.keystroke index stroke text).1
      (policy.keystroke index stroke text).2 := by
  unfold keystroke
  by_cases ho : stroke.optionKey = .none
  · rw [if_neg (not_not.mpr ho)]
    have hmv : Moves policy index stroke _ _ _ := plainKeystroke_moves ha ho ht
    -- a key without Alt goes to the host as well
    generalize policy.plainKeystroke index stroke text = result at hmv
    obtain ⟨_, action⟩ := result
    cases action with
    | forwardKey other =>
      simp only
      split_ifs
      · exact ⟨hmv.settings, hmv.latched, hmv.forwards, hmv.unlatched, hmv.other⟩
      · exact hmv
    | _ => exact hmv
  · rw [if_pos ho]
    exact optionKeystroke_moves ha ho

end Strokes

/-! ### Frames -/

def keyInputs (key : TrackedKey) (strokes : List (KeyStroke × KeyInput)) : List KeyInput :=
  (ofKey key strokes).map Prod.snd

theorem ofKey_cons {α : Type} {entry : KeyStroke × α} {strokes : List (KeyStroke × α)} :
    ofKey key (entry :: strokes) = if entry.1.key = some key then entry :: ofKey key strokes else ofKey key strokes := by
  simp [ofKey, filter_cons]

/-- Outcomes from an index on only depend on what the actions do from there on. -/
theorem frameOutcomes_congr {actions others : List DeckTextAction} (events : List DeckTextEvent)
    (h : ∀ later, index ≤ later → actions.any (·.forwards later) = others.any (·.forwards later)) :
    frameOutcomes actions index events = frameOutcomes others index events := by
  induction events generalizing index with
  | nil => rfl
  | cons event rest ih =>
    have hr : frameOutcomes actions (index + 1) rest = frameOutcomes others (index + 1) rest :=
      ih fun later hlat => h later (by omega)
    cases event <;> simp only [frameOutcomes, hr, h index le_rfl]

/-- What the actions of a frame do to the latch of every key, and how they answer its strokes. -/
structure Plays (policy : TextInputPolicy) (index : Nat) (events : List DeckTextEvent) (last : TextInputPolicy)
    (actions : List DeckTextAction) : Prop where
  settings : SameSettings last policy
  earlier : ∀ before < index, actions.any (·.forwards before) = false
  latched : ∀ key, last.latched key =
    (keyLatch false).execFrom (policy.latched key) (keyInputs key (policy.frameInputs events))
  outcomes : ∀ key, keyOutcomes key (frameOutcomes actions index events) =
    ((keyLatch false).logFrom (policy.latched key) (keyInputs key (policy.frameInputs events))).map
      fun entry => (entry.1.phase, entry.2)

section Frames

variable {policy next last : TextInputPolicy} {index : Nat} {stroke : KeyStroke} {rest : List DeckTextEvent}
  {action : DeckTextAction} {actions between : List DeckTextAction}

theorem any_between (hbtw : ∀ action ∈ between, ∀ any, action.forwards any = false) (any : Nat) :
    (between ++ actions).any (·.forwards any) = actions.any (·.forwards any) := by
  rw [any_append, any_eq_false.mpr fun action hmem => by rw [hbtw action hmem any]; exact Bool.false_ne_true,
    Bool.false_or]

theorem Plays.skip (hev : ∀ stroke, event ≠ .key stroke)
    (h : Plays next (index + 1) rest last actions) (hsett : SameSettings next policy)
    (hl : next.latched = policy.latched)
    (hbtw : ∀ action ∈ between, ∀ any, action.forwards any = false) :
    Plays policy index (event :: rest) last (between ++ actions) := by
  have hi : policy.frameInputs (event :: rest) = next.frameInputs rest := by
    rw [hsett.frameInputs]
    cases event with
    | key stroke => exact absurd rfl (hev stroke)
    | _ => rfl
  have houts : frameOutcomes (between ++ actions) index (event :: rest) = frameOutcomes actions (index + 1) rest := by
    rw [← frameOutcomes_congr rest fun later _ => any_between hbtw later]
    cases event with
    | key stroke => exact absurd rfl (hev stroke)
    | _ => rfl
  refine ⟨h.settings.trans hsett, fun before hpre => ?_, fun key => ?_, fun key => ?_⟩
  · rw [any_between hbtw]
    exact h.earlier before (by omega)
  · rw [hi, h.latched, hl]
  · rw [hi, houts, h.outcomes, hl]

/-- A keystroke moves its latch and leaves the rest of the frame to play. -/
theorem Plays.key (hmv : Moves policy index stroke (policy.input stroke (textAfter rest)) next action)
    (h : Plays next (index + 1) rest last actions) (hbtw : ∀ action ∈ between, ∀ any, action.forwards any = false) :
    Plays policy index (.key stroke :: rest) last (action :: between ++ actions) := by
  have hany : ∀ any, (action :: between ++ actions).any (·.forwards any) =
      (action.forwards any || actions.any (·.forwards any)) := by
    intro any
    rw [cons_append, any_cons, any_between hbtw]
  have hhere : (action :: between ++ actions).any (·.forwards index) = action.forwards index := by
    rw [hany, h.earlier index (by omega), Bool.or_false]
  have hlat : frameOutcomes (action :: between ++ actions) (index + 1) rest = frameOutcomes actions (index + 1) rest := by
    refine frameOutcomes_congr rest fun later hidx => ?_
    rw [hany, hmv.other later (by omega), Bool.false_or]
  have hi : policy.frameInputs (.key stroke :: rest) =
      (stroke, policy.input stroke (textAfter rest)) :: next.frameInputs rest := by
    rw [hmv.settings.frameInputs]
    rfl
  have houts : frameOutcomes (action :: between ++ actions) index (.key stroke :: rest) =
      (stroke, action.forwards index) :: frameOutcomes actions (index + 1) rest := by
    rw [← hlat, ← hhere]
    rfl
  refine ⟨h.settings.trans hmv.settings, fun before hpre => ?_, fun key => ?_, fun key => ?_⟩
  · rw [hany, hmv.other before (by omega), h.earlier before (by omega)]
    rfl
  · rw [hi, h.latched]
    by_cases hk : stroke.key = some key
    · simp only [keyInputs, ofKey_cons, if_pos hk, map_cons, Machine.execFrom_cons, hmv.latched key hk]
    · simp only [keyInputs, ofKey_cons, if_neg hk, hmv.unlatched key hk]
  · have hrest := h.outcomes key
    rw [hi, houts]
    unfold keyOutcomes keyInputs at hrest ⊢
    by_cases hk : stroke.key = some key
    · simp only [ofKey_cons, if_pos hk, map_cons, hrest, hmv.latched key hk, hmv.forwards key hk]
      rfl
    · simp only [ofKey_cons, if_neg hk, hrest, hmv.unlatched key hk]

theorem Plays.skipSilent (hev : ∀ stroke, event ≠ .key stroke)
    (h : Plays policy (index + 1) rest last actions) : Plays policy index (event :: rest) last actions :=
  have hsile : Plays policy index (event :: rest) last ([] ++ actions) := .skip hev h (.refl _) rfl nofun
  hsile

theorem Plays.keySilent (hmv : Moves policy index stroke (policy.input stroke (textAfter rest)) next action)
    (h : Plays next (index + 1) rest last actions) : Plays policy index (.key stroke :: rest) last (action :: actions) :=
  have hsile : Plays policy index (.key stroke :: rest) last (action :: [] ++ actions) := .key hmv h nofun
  hsile

theorem moves_of_keystroke (ha : policy.active = true)
    (h : policy.keystroke index stroke text = (next, action)) (ht : stroke.phase ≠ .release → text = heard) :
    Moves policy index stroke (policy.input stroke heard) next action := by
  have hmv : Moves policy index stroke _ _ _ := keystroke_moves ha ht
  rw [h] at hmv
  exact hmv

theorem forwards_textSent : ∀ sent ∈ textSent text action, ∀ any, sent.forwards any = false := by
  intro sent hsent any
  cases action <;> simp only [textSent, mem_singleton, not_mem_nil] at hsent
  rw [hsent]
  rfl

theorem forwards_sendNonempty : ∀ sent ∈ sendNonempty text, ∀ any, sent.forwards any = false := by
  intro sent hsent any
  unfold sendNonempty at hsent
  split_ifs at hsent
  · cases hsent
  · rw [mem_singleton.mp hsent]
    rfl

section

variable (policy : TextInputPolicy) (index : Nat) (events : List DeckTextEvent)

/-- **Frame rule.** -/
theorem planFrom_plays (ha : policy.active = true) (hf : DeckTextEvent.focusLost ∉ events) :
    Plays policy index events (policy.planFrom index events).1 (policy.planFrom index events).2 := by
  fun_induction planFrom policy index events with
  | case1 =>
    exact ⟨.refl _, fun _ _ => rfl, fun _ => rfl, fun _ => rfl⟩
  | case2 policy index stroke text rest hph next action hkeys last actions hr ih =>
    have hmv := moves_of_keystroke ha hkeys fun _ => rfl
    have hp := ih (hmv.settings.active.trans ha) fun hmem => hf (mem_cons_of_mem _ (mem_cons_of_mem _ hmem))
    rw [hr] at hp
    exact .key hmv (hp.skipSilent nofun) forwards_textSent
  | case3 policy index stroke text rest hph next action hkeys last actions hr ih =>
    have hmv : Moves policy index stroke (policy.input stroke (some text)) next action :=
      moves_of_keystroke ha hkeys fun hne => absurd hne hph
    have hp := ih (hmv.settings.active.trans ha) fun hmem => hf (mem_cons_of_mem _ hmem)
    rw [hr] at hp
    exact .keySilent hmv hp
  | case4 policy index stroke rest hr next action hkeys last actions hplan ih =>
    have ht : textAfter rest = none := by
      unfold textAfter
      split
      · rename_i text rest
        exact absurd rfl (hr text rest)
      · rfl
    have hmv := moves_of_keystroke ha hkeys fun _ => ht.symm
    have hp := ih (hmv.settings.active.trans ha) fun hmem => hf (mem_cons_of_mem _ hmem)
    rw [hplan] at hp
    exact .keySilent hmv hp
  | case5 policy index text rest last actions hplan ih =>
    have hp := ih ha fun hmem => hf (mem_cons_of_mem _ hmem)
    rw [hplan] at hp
    exact .skip nofun hp (.refl _) rfl forwards_sendNonempty
  | case6 policy index text rest last actions hplan ih =>
    have hp := ih ha fun hmem => hf (mem_cons_of_mem _ hmem)
    rw [hplan] at hp
    refine .skip nofun hp ⟨rfl, rfl, rfl, rfl⟩ rfl fun sent hsent any => ?_
    rcases mem_append.mp hsent with hsent | hsent
    · split_ifs at hsent
      · rw [mem_singleton.mp hsent]
        rfl
      · cases hsent
    · exact forwards_sendNonempty sent hsent any
  | case7 policy index text rest composing last actions hplan ih =>
    have hp := ih ha fun hmem => hf (mem_cons_of_mem _ hmem)
    rw [hplan] at hp
    have hshown : ∀ sent ∈ [DeckTextAction.preedit (if composing then some text else none)], ∀ any,
        sent.forwards any = false := fun sent hsent any => by rw [mem_singleton.mp hsent]; rfl
    have hskip : Plays policy index (.preedit text :: rest) last ([.preedit (if composing then some text else none)] ++
        actions) := .skip nofun hp ⟨rfl, rfl, rfl, rfl⟩ rfl hshown
    exact hskip
  | case8 => exact absurd mem_cons_self hf

/-- With committed text out of use a frame plays without moving a latch. -/
theorem forwardAll_plays (hinac : policy.active = false) : Plays policy index events policy (forwardAll index events) := by
  induction events generalizing index with
  | nil => exact ⟨.refl _, fun _ _ => rfl, fun _ => rfl, fun _ => rfl⟩
  | cons event rest ih =>
    cases event with
    | key stroke =>
      have hs : ∀ latched, (keyLatch false).step latched (policy.input stroke (textAfter rest)) = (latched, true) := by
        intro latched
        simp [keyLatch, input, hinac]
      refine .keySilent ⟨.refl _, fun key _ => ?_, fun key _ => ?_, fun _ _ => rfl, fun _ hne => ?_⟩ (ih (index + 1))
      · rw [hs]
      · rw [hs]
        exact forwards_self
      · exact forwards_elsewhere hne
    | text | preedit | commit | focusLost => exact (ih (index + 1)).skipSilent (by simp)
end

theorem planFrame_plays (policy : TextInputPolicy) (events : List DeckTextEvent)
    (hf : DeckTextEvent.focusLost ∉ events) :
    Plays policy 0 events (policy.planFrame events).1 (policy.planFrame events).2 := by
  unfold planFrame
  split_ifs with ha
  · exact planFrom_plays policy 0 events ha hf
  · exact forwardAll_plays policy 0 events (Bool.not_eq_true _ ▸ ha)

end Frames

/-! ### Runs -/

/-- Neither a new host nor a loss of focus, which forget the keys that are down. -/
def KeepsKeys : TextInputCall → Prop
  | .setHost _ => False
  | .planFrame events => DeckTextEvent.focusLost ∉ events
  | _ => True

theorem keyInputs_append (key : TrackedKey) (first second : List (KeyStroke × KeyInput)) :
    keyInputs key (first ++ second) = keyInputs key first ++ keyInputs key second := by
  rw [keyInputs, ofKey, filter_append, map_append]
  rfl

theorem keyOutcomes_append (key : TrackedKey) (first second : List (KeyStroke × Bool)) :
    keyOutcomes key (first ++ second) = keyOutcomes key first ++ keyOutcomes key second := by
  rw [keyOutcomes, ofKey, filter_append, map_append]
  rfl

/-- **Run rule.** The strokes of a key in a run are answered as its latch answers them. -/
theorem run_outcomes (start policy : TextInputPolicy) (calls : List TextInputCall)
    (hcs : ∀ call ∈ calls, KeepsKeys call) (key : TrackedKey) :
    keyOutcomes key (strokeOutcomes ((textInput start).logFrom policy calls)) =
      ((keyLatch false).logFrom (policy.latched key) (keyInputs key (policy.runInputs calls))).map
        fun entry => (entry.1.phase, entry.2) := by
  induction calls generalizing policy with
  | nil => rfl
  | cons call calls ih =>
    have hr := fun next => ih next fun later hlat => hcs later (mem_cons_of_mem _ hlat)
    cases call with
    | configure mode option => exact hr (policy.configure mode option)
    | setHost => exact (hcs _ mem_cons_self).elim
    | setHostKeymap keymap => exact hr (policy.setHostKeymap keymap)
    | planFrame events =>
      have hp := planFrame_plays policy events (hcs _ mem_cons_self)
      have hfr : strokeOutcomes ((textInput start).logFrom policy (.planFrame events :: calls)) =
          frameOutcomes (policy.planFrame events).2 0 events ++
            strokeOutcomes ((textInput start).logFrom (policy.planFrame events).1 calls) := rfl
      rw [hfr, keyOutcomes_append, hp.outcomes, hr, runInputs, keyInputs_append, Machine.logFrom_append,
        map_append, hp.latched, hp.settings.runInputs]

end TextInputPolicy

/-- **Whole keys.** The strokes of a key that go to the host make whole holds exactly when the settings and strokes
leave the key settled. -/
theorem keys_stay_whole_iff (policy : TextInputPolicy) (calls : List TextInputCall)
    (hcalls : ∀ call ∈ calls, TextInputPolicy.KeepsKeys call) (key : TrackedKey) :
    WholeHolds (keyOutcomes key (strokeOutcomes ((textInput policy).log calls))) ↔
      Settled (policy.latched key) (keyInputs key (policy.runInputs calls)) := by
  have hrun : keyOutcomes key (strokeOutcomes ((textInput policy).log calls)) = _ :=
    run_outcomes policy policy calls hcalls key
  rw [← wholeHolds_iff_settled, hrun, keyLatch_logFrom false (policy.latched key)]
  rfl

/-- A key typed as text: neither its press nor its release goes to the host. -/
theorem keys_stay_whole_typed :
    let policy : TextInputPolicy := { mode := .characters, host := ⟨true, false⟩ }
    let calls := [.planFrame [.key { position := some 0x41, phase := .press }, .text "a"],
      .setHostKeymap none, .planFrame [.key { position := some 0x41, phase := .release }]]
    keyOutcomes (.position 0x41) (strokeOutcomes ((textInput policy).log calls)) =
      [(.press, false), (.release, false)] ∧
    Settled (policy.latched (.position 0x41)) (keyInputs (.position 0x41) (policy.runInputs calls)) := by
  intro policy calls
  have houts : keyOutcomes (.position 0x41) (strokeOutcomes ((textInput policy).log calls)) =
      [(.press, false), (.release, false)] := by decide +kernel
  refine ⟨houts, (keys_stay_whole_iff policy calls (by simp [calls, TextInputPolicy.KeepsKeys]) _).mp ?_⟩
  rw [houts]
  rintro before _ repeats _ ⟨⟨_, hsplit⟩, _, -, -⟩
  rcases before with _ | ⟨first, _ | ⟨second, before⟩⟩
  · rcases repeats with _ | ⟨middle, repeats⟩
    · cases hsplit
      exact ⟨fun _ => rfl, nofun⟩
    · simp at hsplit
  · simp at hsplit
  · simp at hsplit

/-- A key held through the end of a shortcut: its press goes to the host, a repeat becomes text, and the host never
sees the release. -/
theorem key_stuck_after_repeat :
    let policy : TextInputPolicy := { mode := .characters, host := ⟨true, false⟩ }
    let calls := [.planFrame [.key { position := some 0x41, phase := .press, command := true }],
      .planFrame [.key { position := some 0x41, phase := .repeats }, .text "a"],
      .planFrame [.key { position := some 0x41, phase := .release }]]
    (∀ call ∈ calls, TextInputPolicy.KeepsKeys call) ∧
    keyOutcomes (.position 0x41) (strokeOutcomes ((textInput policy).log calls)) =
      [(.press, true), (.repeats, false), (.release, false)] ∧
    ¬WholeHolds (keyOutcomes (.position 0x41) (strokeOutcomes ((textInput policy).log calls))) := by
  intro policy calls
  have houts : keyOutcomes (.position 0x41) (strokeOutcomes ((textInput policy).log calls)) =
      [(.press, true), (.repeats, false), (.release, false)] := by decide +kernel
  refine ⟨by simp [calls, TextInputPolicy.KeepsKeys], houts, fun hwh => ?_⟩
  rw [houts] at hwh
  have hhold := hwh [] (.press, true) [(.repeats, false)] (.release, false)
    ⟨⟨[], rfl⟩, rfl, fun stroke hstro => by rw [mem_singleton.mp hstro], nofun⟩
  exact Bool.false_ne_true (hhold.1 rfl)

end Arcen
