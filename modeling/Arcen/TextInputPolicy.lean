import Arcen.Machine

/-! The client's choice, per keystroke, between the key position and the characters typed (`input/text/policy.rs`).
A keystroke that is sent as text is remembered, so that its repeats and its release are kept from the host too. -/

namespace Arcen

inductive TypingMode where
  | keys
  | auto
  | characters
  deriving DecidableEq

inductive OptionSide where
  | none
  | left
  | right
  | both
  deriving DecidableEq

inductive OptionKeyMode where
  | bothAlt
  | leftAltRightCharacters
  | bothCharacters

def OptionKeyMode.composes : OptionKeyMode → OptionSide → Bool
  | .bothCharacters, .left => true
  | .bothCharacters, .right => true
  | .bothCharacters, .both => true
  | .leftAltRightCharacters, .right => true
  | _, _ => false

inductive KeyPhase where
  | press
  | repeats
  | release
  deriving DecidableEq

structure KeyStroke where
  position : Option UInt32
  phase : KeyPhase
  shift : Bool := false
  command : Bool := false
  option : OptionSide := .none
  optionKey : OptionSide := .none

inductive DeckTextEvent where
  | key (stroke : KeyStroke)
  | text (text : String)
  | preedit (text : String)
  | commit (text : String)
  | focusLost

inductive SuppressReason where
  | sentAsText
  | textKeystroke
  | composingOption

inductive DeckTextAction where
  | forwardKey (index : Nat)
  | forwardKeyWithoutAlt (index : Nat)
  | suppressKey (index : Nat) (reason : SuppressReason)
  | sendText (text : String)
  | preedit (text : Option String)

structure HostTextTruth where
  textCommit : Bool := false
  unicode : Bool := false

/-- What the host's layout types at each described key position, plain and with Shift. -/
structure HostKeyPositions where
  positions : UInt32 → Option (Option String × Option String)

def HostKeyPositions.typesSame (keymap : HostKeyPositions) (position : UInt32) (shift : Bool) (text : String) :
    Option Bool :=
  (keymap.positions position).map fun (base, shifted) => (if shift then shifted else base) == some text

structure TextInputPolicy where
  mode : TypingMode := .auto
  option : OptionKeyMode := .leftAltRightCharacters
  host : HostTextTruth := {}
  keymap : Option HostKeyPositions := none
  /-- The positions whose keystroke was sent as text. -/
  textKeys : Finset UInt32 := ∅
  /-- Composing Option keys (left, right) whose press was kept from the host. -/
  heldComposingOptions : Fin 2 → Bool := fun _ => false
  preedit : Bool := false

def optionSlot : OptionSide → Option (Fin 2)
  | .left => some 0
  | .right => some 1
  | .none => none
  | .both => none

namespace TextInputPolicy

variable (policy : TextInputPolicy)

def configure (mode : TypingMode) (option : OptionKeyMode) : TextInputPolicy := { policy with mode, option }

def setHost (host : HostTextTruth) : TextInputPolicy :=
  { policy with host, keymap := none, textKeys := ∅, heldComposingOptions := fun _ => false, preedit := false }

def setHostKeymap (keymap : Option HostKeyPositions) : TextInputPolicy := { policy with keymap }

def active : Bool := policy.host.textCommit && policy.mode != .keys

/-- The settings make this text, typed at the position, text rather than a key position. -/
def asText (stroke : KeyStroke) (position : UInt32) (text : String) : Bool :=
  if stroke.option = .none then
    match policy.mode with
    | .keys => false
    | .characters => true
    | .auto => ((policy.keymap.bind fun keymap => keymap.typesSame position stroke.shift text).map not).getD false
  else policy.option.composes stroke.option

variable (index : Nat)

/-- An Option key itself, tracked per side. -/
def optionKeystroke (stroke : KeyStroke) : TextInputPolicy × DeckTextAction :=
  match optionSlot stroke.optionKey with
  | none => (policy, .forwardKey index)
  | some slot =>
    let kept := match stroke.phase with
      | .press => policy.option.composes stroke.optionKey
      | .repeats => policy.heldComposingOptions slot
      | .release => policy.heldComposingOptions slot
    let held := match stroke.phase with
      | .press => kept
      | .repeats => kept
      | .release => false
    ({ policy with heldComposingOptions := Function.update policy.heldComposingOptions slot held },
      if kept then .suppressKey index .composingOption else .forwardKey index)

/-- A press, or a repeat of a key that was not sent as text. -/
def typeOrForward (stroke : KeyStroke) (position : UInt32) : Option String → TextInputPolicy × DeckTextAction
  | none => (policy, .forwardKey index)
  | some text =>
    if stroke.command ∨ text.isEmpty then (policy, .forwardKey index)
    else if policy.asText stroke position text then
      ({ policy with textKeys := insert position policy.textKeys }, .suppressKey index .sentAsText)
    else (policy, .forwardKey index)

def plainKeystroke (stroke : KeyStroke) (text : Option String) : TextInputPolicy × DeckTextAction :=
  match stroke.position with
  | none => (policy, .forwardKey index)
  | some position =>
    match stroke.phase with
    -- the release of an earlier press was lost if this key is still remembered
    | .press =>
      typeOrForward { policy with textKeys := policy.textKeys.erase position } index stroke position text
    | .release =>
      if position ∈ policy.textKeys then
        ({ policy with textKeys := policy.textKeys.erase position }, .suppressKey index .textKeystroke)
      else (policy, .forwardKey index)
    | .repeats =>
      if position ∈ policy.textKeys then
        (policy, .suppressKey index (if text.isSome then .sentAsText else .textKeystroke))
      else policy.typeOrForward index stroke position text

def keystroke (stroke : KeyStroke) (text : Option String) : TextInputPolicy × DeckTextAction :=
  if stroke.optionKey ≠ .none then policy.optionKeystroke index stroke
  else
    match policy.plainKeystroke index stroke text with
    | (next, .forwardKey index) =>
      (next, if next.option.composes stroke.option then .forwardKeyWithoutAlt index else .forwardKey index)
    | (next, action) => (next, action)

def textSent (text : String) : DeckTextAction → List DeckTextAction
  | .suppressKey _ _ => [.sendText text]
  | _ => []

def sendNonempty (text : String) : List DeckTextAction := if text.isEmpty then [] else [.sendText text]

def planFrom (policy : TextInputPolicy) (index : Nat) : List DeckTextEvent → TextInputPolicy × List DeckTextAction
  | [] => (policy, [])
  | .key stroke :: .text text :: rest =>
    if stroke.phase ≠ .release then
      let (next, action) := policy.keystroke index stroke (some text)
      let (last, actions) := planFrom next (index + 2) rest
      (last, action :: textSent text action ++ actions)
    else
      let (next, action) := policy.keystroke index stroke none
      let (last, actions) := planFrom next (index + 1) (.text text :: rest)
      (last, action :: actions)
  | .key stroke :: rest =>
    let (next, action) := policy.keystroke index stroke none
    let (last, actions) := planFrom next (index + 1) rest
    (last, action :: actions)
  | .text text :: rest =>
    let (last, actions) := planFrom policy (index + 1) rest
    (last, sendNonempty text ++ actions)
  | .commit text :: rest =>
    let (last, actions) := planFrom { policy with preedit := false } (index + 1) rest
    (last, (if policy.preedit then [.preedit none] else []) ++ sendNonempty text ++ actions)
  | .preedit text :: rest =>
    let composing := !text.isEmpty
    let (last, actions) := planFrom { policy with preedit := composing } (index + 1) rest
    (last, .preedit (if composing then some text else none) :: actions)
  | .focusLost :: rest =>
    let (last, actions) := planFrom
      { policy with textKeys := ∅, heldComposingOptions := fun _ => false, preedit := false } (index + 1) rest
    (last, (if policy.preedit then [.preedit none] else []) ++ actions)

/-- Every keystroke of a frame as a position. -/
def forwardAll (index : Nat) : List DeckTextEvent → List DeckTextAction
  | [] => []
  | .key _ :: rest => .forwardKey index :: forwardAll (index + 1) rest
  | _ :: rest => forwardAll (index + 1) rest

def planFrame (policy : TextInputPolicy) (events : List DeckTextEvent) : TextInputPolicy × List DeckTextAction :=
  if policy.active then policy.planFrom 0 events else (policy, forwardAll 0 events)

end TextInputPolicy

/-! ### Runs -/

inductive TextInputCall where
  | configure (mode : TypingMode) (option : OptionKeyMode)
  | setHost (host : HostTextTruth)
  | setHostKeymap (keymap : Option HostKeyPositions)
  | planFrame (events : List DeckTextEvent)

/-- A policy under calls in any order; only a frame answers with actions. -/
def textInput (policy : TextInputPolicy) : Machine TextInputPolicy TextInputCall (List DeckTextAction) where
  init := policy
  step policy
    | .configure mode option => (policy.configure mode option, [])
    | .setHost host => (policy.setHost host, [])
    | .setHostKeymap keymap => (policy.setHostKeymap keymap, [])
    | .planFrame events => policy.planFrame events

end Arcen
