import Arcen.Json
import Arcen.RegionInputWire

/-! The ordered outbox of the input/cursor lane (`shared/input/src/lane_outbox.rs`). Edges are never dropped,
merged or reordered; motion behind motion of the same kind is coalesced; ink is folded only above a backlog
cap, and then in the middle of the queue. A counter that would go below zero is a panic, `none` here. -/

namespace Arcen

open Json List

/-- How a queued input record may be treated under back-pressure. -/
inductive InputRecordClass where
  | edge
  | absoluteMotion
  | regionMotion
  | relativeMotion
  | penHoverMotion
  | penContactMotion
  deriving DecidableEq

/-- Contact pen samples allowed to wait before the oldest adjacent pair of one stroke is folded. -/
def penContactBacklogCap : Nat := 256

def penEvent : String := "pen_event"

def mouseMoveRelative : String := "mouse_move_relative"

namespace InputRecordClass

def ofMessageType (msgType : String) : InputRecordClass :=
  if msgType = "mouse_move" then .absoluteMotion
  else if msgType = regionPointerMotion then .regionMotion
  else if msgType = mouseMoveRelative then .relativeMotion
  else .edge

variable (message : Value)

def ofPenMessage : InputRecordClass :=
  let flag (name : String) : Option Bool := (message.get name).bind Value.asBool
  -- an absent flag is an edge, so nothing ambiguous is ever folded
  if flag "coalescable" ≠ some true ∨ flag "in_proximity" ≠ some true then .edge
  else if flag "touching" = some true then .penContactMotion
  else .penHoverMotion

def ofMessage : InputRecordClass :=
  match (message.get "type").bind Value.asStr with
  | none => .edge
  | some msgType =>
    if msgType = penEvent ∨ msgType = regionPenEvent then ofPenMessage message else ofMessageType msgType

theorem ofMessageType_eq_relativeMotion : ofMessageType msgType = .relativeMotion ↔ msgType = mouseMoveRelative := by
  unfold ofMessageType
  split_ifs with habso hregi hr
  · simp [habso, mouseMoveRelative]
  · simp [hregi, regionPointerMotion, mouseMoveRelative]
  · simp [hr]
  · simp [hr]

theorem ofPenMessage_ne : ofPenMessage message ≠ .relativeMotion := by
  simp only [ofPenMessage]
  split_ifs <;> simp

end InputRecordClass

open InputRecordClass

/-! ### Relative motion -/

structure MouseMoveRelativeMsg where
  msgType : String
  dx : Int32
  dy : Int32
  sequence : UInt64
  timestampNs : UInt64
  coalescable : Bool

namespace MouseMoveRelativeMsg

/-- Every field has a default and unknown fields are ignored. -/
def fromValue (value : Value) : Option MouseMoveRelativeMsg :=
  if value.isStruct 6 then do
    let msgType ← orDefault Value.asStr mouseMoveRelative (value.field 0 "type")
    let dx ← orDefault Value.toI32 0 (value.field 1 "dx")
    let dy ← orDefault Value.toI32 0 (value.field 2 "dy")
    let sequence ← orDefault Value.toU64 0 (value.field 3 "sequence")
    let timestampNs ← orDefault Value.toU64 0 (value.field 4 "timestamp_ns")
    let coalescable ← orDefault Value.asBool true (value.field 5 "coalescable")
    return ⟨msgType, dx, dy, sequence, timestampNs, coalescable⟩
  else none

variable (message : MouseMoveRelativeMsg)

def toValue : Value :=
  .object [("coalescable", .bool message.coalescable), ("dx", .ofI32 message.dx), ("dy", .ofI32 message.dy),
    ("sequence", .ofU64 message.sequence), ("timestamp_ns", .ofU64 message.timestampNs),
    ("type", .string message.msgType)]

theorem fromValue_toValue : fromValue message.toValue = some message := by
  simp [fromValue, toValue, Value.isStruct, Value.field, Value.get, lookup_cons, Value.asStr, Value.asBool]

theorem get_type_toValue : message.toValue.get "type" = some (.string message.msgType) := rfl

theorem msgType_of_fromValue {msgType : String}
    (ht : value.get "type" = some (.string msgType)) (h : fromValue value = some msg) : msg.msgType = msgType := by
  cases value with
  | object entries =>
    have hfield : (Value.object entries).field 0 "type" = some (.string msgType) := ht
    simp only [fromValue, Value.isStruct, if_true, hfield, bind, Option.bind_eq_some_iff] at h
    obtain ⟨_, ht, _, _, _, _, _, _, _, _, _, _, h⟩ := h
    cases ht
    cases h
    rfl
  | _ => cases ht

end MouseMoveRelativeMsg

open MouseMoveRelativeMsg

def checkedAdd (a b : Int32) : Option Int32 := i32TryFrom (a.toInt + b.toInt)

/-- Both messages as one relative delta, or `none` when either cannot be merged. -/
def sumRelative (older newer : Value) : Option Value := do
  let older ← fromValue older
  let newer ← fromValue newer
  if !older.coalescable || !newer.coalescable then none
  else
    let dx ← checkedAdd older.dx newer.dx
    let dy ← checkedAdd older.dy newer.dy
    return { newer with dx, dy }.toValue

/-- The delta of a well-formed message that its sender marked coalescable. -/
def delta (message : Value) : Option MouseMoveRelativeMsg := (fromValue message).filter (·.coalescable)

variable {message : Value} {relative : MouseMoveRelativeMsg} {older newer merged : Value}

theorem delta_eq_some : delta message = some relative ↔
      fromValue message = some relative ∧ relative.coalescable = true := by
  rw [delta, Option.filter_eq_some_iff]

theorem delta_toValue (h : relative.coalescable = true) : delta relative.toValue = some relative :=
  delta_eq_some.mpr ⟨relative.fromValue_toValue, h⟩

/-- Two messages are summed only as coalescable deltas, and to a coalescable delta. -/
theorem sumRelative_eq_some (h : sumRelative older newer = some merged) :
    ∃ a b c, delta older = some a ∧ delta newer = some b ∧ merged = toValue c ∧
      c.msgType = b.msgType ∧ c.coalescable = true ∧ c.dx.toInt = a.dx.toInt + b.dx.toInt ∧
      c.dy.toInt = a.dy.toInt + b.dy.toInt := by
  simp only [sumRelative, bind, Option.bind_eq_some_iff] at h
  obtain ⟨a, ha, b, hb, h⟩ := h
  split at h
  · cases h
  · next hcoal =>
      simp only [Bool.or_eq_true, Bool.not_eq_true', not_or, Bool.not_eq_false] at hcoal
      simp only [Option.bind_eq_some_iff] at h
      obtain ⟨_, hdx, _, hdy, h⟩ := h
      cases h
      exact ⟨a, b, _, delta_eq_some.mpr ⟨ha, hcoal.1⟩, delta_eq_some.mpr ⟨hb, hcoal.2⟩, rfl, rfl,
        hcoal.2, toInt_of_i32TryFrom hdx, toInt_of_i32TryFrom hdy⟩

theorem ofMessage_eq_relativeMotion :
    ofMessage message = .relativeMotion ↔ message.get "type" = some (.string mouseMoveRelative) := by
  constructor
  · intro h
    unfold ofMessage at h
    split at h
    · cases h
    · next msgType hmsgType =>
        obtain ⟨_, hval, hstr⟩ := Option.bind_eq_some_iff.mp hmsgType
        split at h
        · exact absurd h (ofPenMessage_ne message)
        · rw [ofMessageType_eq_relativeMotion] at h
          rw [hval, Value.asStr_eq_some.mp hstr, h]
  · intro h
    rw [ofMessage, h]
    rfl

theorem ofMessage_of_sumRelative (hn : ofMessage newer = .relativeMotion)
    (h : sumRelative older newer = some merged) : ofMessage merged = .relativeMotion := by
  obtain ⟨-, b, _, -, hb, rfl, ht, -, -, -⟩ := sumRelative_eq_some h
  have hmsgType : b.msgType = mouseMoveRelative :=
    msgType_of_fromValue (ofMessage_eq_relativeMotion.mp hn) (delta_eq_some.mp hb).1
  rw [ofMessage_eq_relativeMotion, get_type_toValue, ht, hmsgType]

/-- Whether two pen samples belong to the same unchanged stroke state. -/
def samePenStroke (older newer : Value) : Bool :=
  ["type", "tool", "buttons", "touching", "in_proximity", "region_id", "region_generation"].all fun key =>
    older.get key == newer.get key

/-! ### The outbox -/

/-- Input messages waiting for room on the input lane, in send order. -/
structure InputLaneOutbox where
  pending : List (Value × InputRecordClass)
  coalesced : UInt64
  penContactPending : Nat
  penContactDecimated : UInt64

def saturatingSucc (count : UInt64) : UInt64 := if count + 1 = 0 then count else count + 1

/-- `n - 1`, which panics at zero. -/
def checkedPred : Nat → Option Nat
  | 0 => none
  | n + 1 => some n

namespace InputLaneOutbox

def empty : InputLaneOutbox := ⟨[], 0, 0, 0⟩

def coalesce (last : Value × InputRecordClass) (message : Value) : Option Value :=
  if last.2 = .ofMessage message then
    match last.2 with
    | .absoluteMotion | .regionMotion => some message
    | .relativeMotion => sumRelative last.1 message
    | .penHoverMotion => if samePenStroke last.1 message then some message else none
    | .penContactMotion | .edge => none
  else none

/-- Whether the records at an index and before it are contact samples of one stroke. -/
def contactPairAt (pending : List (Value × InputRecordClass)) (index : Nat) : Bool :=
  match pending[index - 1]?, pending[index]? with
  | some older, some newer =>
    decide (older.2 = .penContactMotion) && decide (newer.2 = .penContactMotion) && samePenStroke older.1 newer.1
  | _, _ => false

variable (outbox : InputLaneOutbox)

/-- Folds the oldest adjacent pair of contact samples from the same stroke, keeping the newer one. -/
def foldOldestContactPair : Option InputLaneOutbox :=
  match (range' 1 (outbox.pending.length - 1)).find? (contactPairAt outbox.pending) with
  | none => some outbox
  | some index => do
      let penContactPending ← checkedPred outbox.penContactPending
      return { outbox with
        pending := outbox.pending.eraseIdx (index - 1)
        penContactPending
        penContactDecimated := saturatingSucc outbox.penContactDecimated }

/-- Queues a message behind everything already waiting, or coalesces it with the last in line. -/
def push (message : Value) : Option InputLaneOutbox :=
  match outbox.pending.getLast?.bind (coalesce · message) with
  | some merged =>
    some { outbox with
      pending := outbox.pending.dropLast ++ [(merged, .ofMessage message)]
      coalesced := saturatingSucc outbox.coalesced }
  | none =>
    let appended := { outbox with pending := outbox.pending ++ [(message, .ofMessage message)] }
    if ofMessage message = .penContactMotion then
      let counted := { appended with penContactPending := appended.penContactPending + 1 }
      if penContactBacklogCap < counted.penContactPending then counted.foldOldestContactPair else some counted
    else some appended

/-- Removes the message just sent. -/
def popFront : Option (InputLaneOutbox × Option Value) :=
  match outbox.pending with
  | [] => some (outbox, none)
  | (message, recordClass) :: rest =>
    if recordClass = .penContactMotion then do
      let penContactPending ← checkedPred outbox.penContactPending
      return ({ outbox with pending := rest, penContactPending }, some message)
    else some ({ outbox with pending := rest }, some message)

/-! ### What a call does -/

def messages : List Value := outbox.pending.map Prod.fst

/-- A sample taken while the tip is down. -/
def isContact (message : Value) : Bool := decide (ofMessage message = .penContactMotion)

/-- Every record is filed under its own class, and the contact samples are counted. -/
structure Consistent (outbox : InputLaneOutbox) : Prop where
  filed : ∀ record ∈ outbox.pending, record.2 = .ofMessage record.1
  counted : outbox.penContactPending = outbox.messages.countP isContact

inductive Pushed (message : Value) : List Value → List Value → Prop where
  | appended (before : List Value) : Pushed message before (before ++ [message])
  | replaced (front : List Value) (last : Value) (hclass : ofMessage last = .ofMessage message)
      (hposition : ofMessage message = .absoluteMotion ∨
        ofMessage message = .regionMotion ∨ ofMessage message = .penHoverMotion) :
      Pushed message (front ++ [last]) (front ++ [message])
  | summed (front : List Value) (last merged : Value) (hlast : ofMessage last = .relativeMotion)
      (hmessage : ofMessage message = .relativeMotion)
      (hsum : sumRelative last message = some merged) : Pushed message (front ++ [last]) (front ++ [merged])
  | folded (before front : List Value) (older newer : Value) (rest : List Value)
      (hqueue : before ++ [message] = front ++ older :: newer :: rest)
      (holder : ofMessage older = .penContactMotion)
      (hnewer : ofMessage newer = .penContactMotion) : Pushed message before (front ++ newer :: rest)

theorem contactPairAt_split {pending : List (Value × InputRecordClass)} (hidx : 1 ≤ index)
    (h : contactPairAt pending index = true) : ∃ front older newer rest, pending = front ++ older :: newer :: rest ∧
      pending.eraseIdx (index - 1) = front ++ newer :: rest ∧ older.2 = .penContactMotion ∧
      newer.2 = .penContactMotion := by
  obtain ⟨i, rfl⟩ := Nat.exists_eq_add_of_le' hidx
  unfold contactPairAt at h
  split at h
  · next older newer holder hn =>
      simp only [Bool.and_eq_true, decide_eq_true_eq] at h
      rw [Nat.add_sub_cancel] at holder ⊢
      obtain ⟨hi, rfl⟩ := List.getElem?_eq_some_iff.mp holder
      obtain ⟨hi', rfl⟩ := List.getElem?_eq_some_iff.mp hn
      refine ⟨pending.take i, _, _, pending.drop (i + 1 + 1), ?_, ?_, h.1.1, h.1.2⟩
      · rw [← drop_eq_getElem_cons hi', ← drop_eq_getElem_cons hi, take_append_drop]
      · rw [eraseIdx_eq_take_drop_succ, ← drop_eq_getElem_cons hi']
  · cases h

variable {message : Value} {last : Value × InputRecordClass} {merged : Value}

theorem filed_iff {recordClass : InputRecordClass} (hf : recordClass = .ofMessage message) :
    recordClass = .penContactMotion ↔ isContact message = true := by
  rw [isContact, decide_eq_true_iff, hf]

variable {outbox : InputLaneOutbox}

/-- Folding removes at most the older of two adjacent contact samples. -/
theorem Consistent.fold (h : outbox.Consistent) : ∃ next, outbox.foldOldestContactPair = some next ∧ next.Consistent ∧
      (next.messages = outbox.messages ∨ ∃ front older newer rest, outbox.messages = front ++ older :: newer :: rest ∧
          next.messages = front ++ newer :: rest ∧ ofMessage older = .penContactMotion ∧
          ofMessage newer = .penContactMotion) := by
  unfold foldOldestContactPair
  split
  · exact ⟨outbox, rfl, h, Or.inl rfl⟩
  · next index hfind =>
      obtain ⟨hpair, hrng, -⟩ := List.find?_range'_eq_some.mp hfind
      obtain ⟨front, older, newer, rest, hp, herase, holder, hn⟩ := contactPairAt_split (mem_range'_1.mp hrng).1 hpair
      have hf := h.filed
      have hc := h.counted
      rw [messages, hp] at hc
      rw [hp] at hf
      have hcon : isContact older.1 = true := (filed_iff (hf older (by simp))).mp holder
      have hcnt : outbox.penContactPending = ((front ++ newer :: rest).map Prod.fst).countP isContact + 1 := by
        rw [hc]
        simp only [map_append, map_cons, countP_append, countP_cons, hcon]
        simp +arith
      rw [hcnt, herase]
      refine ⟨_, rfl, ⟨fun record hrec => hf record ?_, rfl⟩, Or.inr ⟨front.map Prod.fst, older.1, newer.1,
        rest.map Prod.fst, ?_, by simp [messages], ?_, ?_⟩⟩
      · simp only [mem_append] at hrec ⊢
        tauto
      · rw [messages, hp]
        simp
      · rw [← hf older (by simp), holder]
      · rw [← hf newer (by simp), hn]

theorem coalesce_eq_some (h : coalesce last message = some merged) : last.2 = .ofMessage message ∧
      ((last.2 = .absoluteMotion ∨ last.2 = .regionMotion ∨ last.2 = .penHoverMotion) ∧ merged = message ∨
        last.2 = .relativeMotion ∧ sumRelative last.1 message = some merged) := by
  unfold coalesce at h
  split at h
  · next hcls =>
      refine ⟨hcls, ?_⟩
      split at h
      · next hl =>
          cases h
          exact Or.inl ⟨Or.inl hl, rfl⟩
      · next hl =>
          cases h
          exact Or.inl ⟨Or.inr (Or.inl hl), rfl⟩
      · next hl => exact Or.inr ⟨hl, h⟩
      · next hl =>
          split at h
          · cases h
            exact Or.inl ⟨Or.inr (Or.inr hl), rfl⟩
          · cases h
      · cases h
      · cases h
  · cases h

theorem Consistent.setLast (h : outbox.Consistent) (hp : outbox.pending = front ++ [last])
    (hcls : last.2 = .ofMessage merged) (hcon : last.2 ≠ .penContactMotion) (coalesced : UInt64) :
    Consistent { outbox with pending := front ++ [(merged, last.2)], coalesced } := by
  have hf := h.filed
  have hc := h.counted
  rw [hp] at hf
  have hl : isContact last.1 = false := by
    rw [Bool.eq_false_iff, Ne, ← filed_iff (hf last (by simp))]
    exact hcon
  have hmerg : isContact merged = false := by
    rw [Bool.eq_false_iff, Ne, ← filed_iff hcls]
    exact hcon
  refine ⟨fun record hrec => ?_, ?_⟩
  · rcases mem_append.mp hrec with hfrt | hnew
    · exact hf record (mem_append_left _ hfrt)
    · rw [mem_singleton.mp hnew]
      exact hcls
  · rw [hc, messages, messages, hp]
    simp [hl, hmerg]

theorem messages_append (outbox : InputLaneOutbox) (msg : Value) (contacts : Nat) : messages { outbox with
        pending := outbox.pending ++ [(msg, .ofMessage msg)], penContactPending := contacts } =
      outbox.messages ++ [msg] := by
  simp [messages]

/-- A record is appended, and counted when it is a contact sample. -/
theorem Consistent.append (h : outbox.Consistent) (msg : Value) (contacts : Nat)
    (hcont : contacts = outbox.penContactPending + if isContact msg then 1 else 0) : Consistent { outbox with
      pending := outbox.pending ++ [(msg, .ofMessage msg)], penContactPending := contacts } := by
  refine ⟨fun record hrec => ?_, ?_⟩
  · rcases mem_append.mp hrec with hold | hnew
    · exact h.filed record hold
    · rw [mem_singleton.mp hnew]
  · rw [messages_append, countP_append, countP_singleton, ← h.counted]
    exact hcont

/-- **One push.** It never panics, and does one of the four things. -/
theorem Consistent.push (h : outbox.Consistent) (msg : Value) :
    ∃ next, outbox.push msg = some next ∧ next.Consistent ∧ Pushed msg outbox.messages next.messages := by
  unfold InputLaneOutbox.push
  split
  · next merged hmerg =>
      obtain ⟨last, hl, hcoale⟩ := Option.bind_eq_some_iff.mp hmerg
      obtain ⟨front, hp⟩ := getLast?_eq_some_iff.mp hl
      have hf : last.2 = .ofMessage last.1 := h.filed last (by rw [hp]; simp)
      obtain ⟨hcls, hcases⟩ := coalesce_eq_some hcoale
      have hpre : outbox.messages = front.map Prod.fst ++ [last.1] := by
        rw [messages, hp]
        simp
      rw [hp, dropLast_concat, ← hcls, hpre]
      rcases hcases with ⟨hpos, rfl⟩ | ⟨hr, hsum⟩
      · refine ⟨_, rfl, h.setLast hp hcls (by rcases hpos with h | h | h <;> simp [h]) _, ?_⟩
        rw [messages, map_append]
        exact .replaced _ _ (by rw [← hf, hcls]) (by rw [← hcls]; exact hpos)
      · have hmsg : ofMessage msg = .relativeMotion := by rw [← hcls, hr]
        have hsumm : last.2 = .ofMessage merged := by rw [hr, ofMessage_of_sumRelative hmsg hsum]
        refine ⟨_, rfl, h.setLast hp hsumm (by simp [hr]) _, ?_⟩
        rw [messages, map_append]
        exact .summed _ _ _ (by rw [← hf, hr]) hmsg hsum
  · dsimp only
    split
    · next hcon =>
        have hc := h.append msg (outbox.penContactPending + 1) (by simp [isContact, hcon])
        split
        · obtain ⟨next, hnext, hcons, hsame | ⟨front, older, newer, rest, hq, hrest, holder, hn⟩⟩ := hc.fold
          · refine ⟨next, hnext, hcons, ?_⟩
            rw [hsame, messages_append]
            exact .appended _
          · rw [messages_append] at hq
            exact ⟨next, hnext, hcons, hrest ▸ .folded _ front older newer rest hq holder hn⟩
        · refine ⟨_, rfl, hc, ?_⟩
          rw [messages_append]
          exact .appended _
    · next hcon =>
        refine ⟨_, rfl, h.append msg _ (by simp [isContact, hcon]), ?_⟩
        rw [messages_append]
        exact .appended _

/-- **One pop.** It never panics, and takes the first message. -/
theorem Consistent.popFront (h : outbox.Consistent) :
    ∃ next popped, outbox.popFront = some (next, popped) ∧ next.Consistent ∧
      popped.toList ++ next.messages = outbox.messages := by
  unfold InputLaneOutbox.popFront
  split
  · next hp => exact ⟨outbox, none, rfl, h, rfl⟩
  · next message recordClass rest hp =>
      have hf := h.filed
      have hc := h.counted
      rw [messages, hp, map_cons, countP_cons] at hc
      rw [hp, forall_mem_cons] at hf
      split
      · next hcls =>
          rw [if_pos ((filed_iff hf.1).mp hcls)] at hc
          rw [hc]
          exact ⟨_, some message, rfl, ⟨hf.2, rfl⟩, by rw [messages, messages, hp]; rfl⟩
      · next hcls =>
          rw [if_neg (fun hcon => hcls ((filed_iff hf.1).mpr hcon))] at hc
          exact ⟨_, some message, rfl, ⟨hf.2, hc⟩, by rw [messages, messages, hp]; rfl⟩

end InputLaneOutbox
end Arcen
