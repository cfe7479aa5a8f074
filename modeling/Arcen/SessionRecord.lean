import Arcen.Utf8
import Arcen.LengthPrefix

/-! Session records: the envelope of the session-message lanes (`shared/protocol/src/lanes.rs`). A
record is a 4-byte big-endian length, a kind byte and the payload; the length covers the kind byte and
the payload. Only a close reason is ever changed on the way, cut at a character boundary. -/

namespace Arcen

open List

def maxSessionCloseReasonBytes : Nat := 123

inductive SessionRecordKind where
  | text
  | binary
  | close
  | ping
  | pong

namespace SessionRecordKind

def wire : SessionRecordKind → UInt8
  | .text => 1
  | .binary => 2
  | .close => 3
  | .ping => 4
  | .pong => 5

def fromWire (value : UInt8) : Option SessionRecordKind :=
  if value = 1 then some .text
  else if value = 2 then some .binary
  else if value = 3 then some .close
  else if value = 4 then some .ping
  else if value = 5 then some .pong
  else none

@[simp] theorem fromWire_wire (kind : SessionRecordKind) : fromWire kind.wire = some kind := by
  cases kind <;> rfl

theorem wire_of_fromWire (h : fromWire value = some kind) : kind.wire = value := by
  unfold fromWire at h
  split_ifs at h <;> cases h <;> simp_all [wire]

end SessionRecordKind

open SessionRecordKind

structure SessionClose where
  code : UInt16
  reason : String
  deriving DecidableEq

inductive SessionRecord where
  | text (content : String)
  | binary (bytes : List UInt8)
  | close (notice : Option SessionClose)
  | ping (bytes : List UInt8)
  | pong (bytes : List UInt8)
  deriving DecidableEq

/-- Why a received session record was refused. -/
inductive SessionRecordError where
  | empty
  | unknownKind (kind : UInt8)
  | invalidUtf8
  | malformedClose

/-- The nested loop that cuts a close reason: while the reason is too long, step back from the bound to
a character boundary and keep what is before it. -/
def cutCloseReason (reason : String) : String :=
  if maxSessionCloseReasonBytes < (strBytes reason).length then
    cutCloseReason (strPrefix reason (floorCharBoundary reason maxSessionCloseReasonBytes)
      (isCharBoundary_floorCharBoundary reason maxSessionCloseReasonBytes))
  else reason
termination_by (strBytes reason).length
decreasing_by
  have hle := floorCharBoundary_le reason maxSessionCloseReasonBytes
  rw [strBytes_strPrefix, length_take]
  omega

namespace SessionRecord

def kind : SessionRecord → SessionRecordKind
  | .text _ => .text
  | .binary _ => .binary
  | .close _ => .close
  | .ping _ => .ping
  | .pong _ => .pong

/-- The bytes after the kind byte. -/
def payload : SessionRecord → List UInt8
  | .text content => strBytes content
  | .binary bytes | .ping bytes | .pong bytes => bytes
  | .close none => []
  | .close (some notice) => u16ToBeBytes notice.code ++ strBytes (cutCloseReason notice.reason)

variable (record : SessionRecord)

/-- What the length prefix covers. -/
def body : List UInt8 := record.kind.wire :: record.payload

def encode : List UInt8 :=
  let bodyLen := (u32TryFrom (record.payload.length + 1)).getD 0xffffffff
  u32ToBeBytes bodyLen ++ record.body

/-- Decodes one record body: everything after the length prefix. -/
def decodeBody : List UInt8 → Except SessionRecordError SessionRecord
  | [] => .error .empty
  | kind :: payload =>
    match fromWire kind with
    | none => .error (.unknownKind kind)
    | some .text =>
      match strFromUtf8 payload with
      | none => .error .invalidUtf8
      | some content => .ok (.text content)
    | some .binary => .ok (.binary payload)
    | some .ping => .ok (.ping payload)
    | some .pong => .ok (.pong payload)
    | some .close =>
      match payload with
      | [] => .ok (.close none)
      | [_] => .error .malformedClose
      | high :: low :: reason =>
        if maxSessionCloseReasonBytes < reason.length then .error .malformedClose
        else
          match strFromUtf8 reason with
          | none => .error .invalidUtf8
          | some reason => .ok (.close (some ⟨u16FromBeBytes [high, low], reason⟩))

/-- What of a record its encoding carries. -/
def cut : SessionRecord → SessionRecord
  | .close (some notice) => .close (some { notice with reason := cutCloseReason notice.reason })
  | record => record

end SessionRecord

theorem cutCloseReason_of_le (h : (strBytes reason).length ≤ maxSessionCloseReasonBytes) :
    cutCloseReason reason = reason := by
  rw [cutCloseReason, if_neg (by omega)]

/-- The outer loop runs once: what it keeps is already short enough. -/
theorem cutCloseReason_of_lt (h : maxSessionCloseReasonBytes < (strBytes reason).length) :
    cutCloseReason reason = strPrefix reason (floorCharBoundary reason maxSessionCloseReasonBytes)
      (isCharBoundary_floorCharBoundary reason maxSessionCloseReasonBytes) := by
  have hle := floorCharBoundary_le reason maxSessionCloseReasonBytes
  rw [cutCloseReason, if_pos h]
  apply cutCloseReason_of_le
  rw [strBytes_strPrefix, length_take]
  omega

theorem length_cutCloseReason (reason : String) :
    (strBytes (cutCloseReason reason)).length ≤ maxSessionCloseReasonBytes := by
  rcases Nat.lt_or_ge maxSessionCloseReasonBytes (strBytes reason).length with h | h
  · have hle := floorCharBoundary_le reason maxSessionCloseReasonBytes
    rw [cutCloseReason_of_lt h, strBytes_strPrefix, length_take]
    omega
  · rwa [cutCloseReason_of_le h]

namespace SessionRecord

theorem drop_encode (record : SessionRecord) : record.encode.drop 4 = record.body :=
  drop_left' (length_u32ToBeBytes _)

variable {record : SessionRecord}

theorem encode_eq_frame (h : record.body.length < 2 ^ 32) : record.encode = frame record.body := by
  have hf : u32TryFrom (record.payload.length + 1) = some (UInt32.ofNat record.body.length) := if_pos h
  rw [encode, hf]
  rfl

theorem framed_encode (h : record.body.length < 2 ^ 32) : Framed record.encode record.body := by
  rw [encode_eq_frame h]
  exact framed_frame h

theorem decodeBody_close (code : UInt16) (reason : String)
    (h : (strBytes reason).length ≤ maxSessionCloseReasonBytes) :
    decodeBody (SessionRecordKind.close.wire :: (u16ToBeBytes code ++ strBytes reason)) =
      .ok (.close (some ⟨code, reason⟩)) := by
  obtain ⟨high, low, hcode⟩ := length_eq_two.mp (length_u16ToBeBytes code)
  have hback : u16FromBeBytes [high, low] = code := by rw [← hcode, u16FromBeBytes_toBeBytes]
  rw [hcode, cons_append, cons_append, nil_append]
  simp only [decodeBody, fromWire_wire]
  rw [if_neg (by omega), strFromUtf8_strBytes]
  simp only [hback]

theorem decodeBody_body (record : SessionRecord) : decodeBody record.body = .ok record.cut := by
  cases record with
  | text | binary | ping | pong => simp [body, kind, payload, cut, decodeBody]
  | close notice =>
    cases notice with
    | none => rfl
    | some => exact decodeBody_close _ _ (length_cutCloseReason _)

/-- The decoder accepts only bodies the encoder writes. -/
theorem body_of_decodeBody (h : decodeBody bytes = .ok record) : record.body = bytes := by
  unfold decodeBody at h
  split at h
  · cases h
  · rename_i tag content
    split at h
    · cases h
    · rename_i hk
      split at h
      · cases h
      · rename_i htext
        cases h
        simp only [body, kind, payload, wire_of_fromWire hk, strBytes_of_strFromUtf8 htext]
    · rename_i hk
      cases h
      simp only [body, kind, payload, wire_of_fromWire hk]
    · rename_i hk
      cases h
      simp only [body, kind, payload, wire_of_fromWire hk]
    · rename_i hk
      cases h
      simp only [body, kind, payload, wire_of_fromWire hk]
    · rename_i hk
      split at h
      · cases h
        simp only [body, kind, payload, wire_of_fromWire hk]
      · cases h
      · rename_i high low reason
        split_ifs at h with hlong
        split at h
        · cases h
        · rename_i htext
          cases h
          have hreas := strBytes_of_strFromUtf8 htext
          simp only [body, kind, payload, wire_of_fromWire hk]
          rw [cutCloseReason_of_le (by rw [hreas]; omega), hreas, u16ToBeBytes_fromBeBytes rfl]
          rfl

theorem cut_of_short (h : ∀ notice, record = .close (some notice) →
      (strBytes notice.reason).length ≤ maxSessionCloseReasonBytes) : record.cut = record := by
  cases record with
  | close notice =>
    cases notice with
    | none => rfl
    | some notice => rw [cut, cutCloseReason_of_le (h notice rfl)]
  | text | binary | ping | pong => rfl

/-- A body too long for the prefix: the encoder saturates the prefix and keeps the body. -/
theorem framed_encode_iff
    (h : decodeBody bytes = .ok record) : Framed record.encode bytes ↔ bytes.length < 2 ^ 32 := by
  constructor
  · exact Framed.length_lt
  · intro hlen
    rw [← body_of_decodeBody h] at hlen ⊢
    exact framed_encode hlen

/-- **Framing.** A record comes back from its own frame, a close reason cut to its longest admissible
prefix; an accepted body is what re-encoding writes after the length, and the prefix spells its length
exactly when the length fits the prefix; and a stream of encoded records splits into the same records. -/
theorem encode_decodeBody_framing : (∀ record : SessionRecord, record.payload.length + 1 < 2 ^ 32 →
      ∃ bytes, Framed record.encode bytes ∧ decodeBody bytes = .ok record.cut) ∧
    (∀ record : SessionRecord, (∀ notice, record = .close (some notice) → (strBytes notice.reason).length ≤ 123) →
        record.cut = record) ∧ (∀ notice : SessionClose, 123 < (strBytes notice.reason).length →
      ∃ reason, (SessionRecord.close (some notice)).cut = .close (some ⟨notice.code, reason⟩) ∧
        IsLongestPrefix 123 notice.reason reason) ∧ (∀ bytes record, decodeBody bytes = .ok record →
      record.encode.drop 4 = bytes ∧ (Framed record.encode bytes ↔ bytes.length < 2 ^ 32)) ∧
    (∀ records : List SessionRecord, (∀ record ∈ records, record.payload.length + 1 < 2 ^ 32) →
      ∃ bodies, splitFrames (2 ^ 32 - 1) (records.flatMap encode) = some bodies ∧
        bodies.map decodeBody = records.map fun record => .ok record.cut) := by
  refine ⟨?_, fun record h => cut_of_short h, fun notice h => ⟨_, rfl, ?_⟩, ?_, ?_⟩
  · intro record hf
    exact ⟨record.body, framed_encode hf, decodeBody_body record⟩
  · rw [cutCloseReason_of_lt h]
    exact isLongestPrefix_floorCharBoundary _ _
  · intro bytes record h
    exact ⟨by rw [drop_encode, body_of_decodeBody h], framed_encode_iff h⟩
  · intro records hf
    refine ⟨records.map body, ?_, ?_⟩
    · apply splitFrames_flatten encode body
      intro record hmem
      have hlen : record.body.length < 2 ^ 32 := hf record hmem
      exact ⟨framed_encode hlen, by omega⟩
    · simp [decodeBody_body]

theorem encode_decodeBody_framing_ping :
    (∃ bytes, Framed (SessionRecord.ping [7]).encode bytes ∧ decodeBody bytes = .ok (.ping [7])) ∧
      (SessionRecord.binary [0]).encode.drop 4 = [2, 0] := ⟨encode_decodeBody_framing.1 (.ping [7]) (by decide),
    (encode_decodeBody_framing.2.2.2.1 [2, 0] (.binary [0]) rfl).1⟩

/-- A body of `2 ^ 32` bytes is accepted, but no 4-byte prefix spells its length. -/
theorem not_framed_encode_of_decodeBody :
    ¬∀ bytes record, decodeBody bytes = .ok record → Framed record.encode bytes := by
  intro hall
  have hdec (content : List UInt8) : decodeBody (2 :: content) = .ok (.binary content) := rfl
  have hlt := (hall _ _ (hdec (replicate (2 ^ 32 - 1) 0))).length_lt
  rw [length_cons, length_replicate] at hlt
  omega

end SessionRecord
end Arcen
