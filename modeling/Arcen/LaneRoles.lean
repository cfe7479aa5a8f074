import Mathlib.Data.Nat.Bitwise
import Mathlib.Data.List.Basic

/-! The role table of lane protocol v1 (`shared/protocol/src/lanes.rs`): who opens a lane, with which
stream shape, in which direction its payload flows, and the one-byte set of roles an attachment
grants. -/

namespace Arcen

/-- Which endpoint of a session: the host (Pier) or the client (Deck). -/
inductive LaneEndpoint where
  | pier
  | deck
  deriving DecidableEq

def LaneEndpoint.peer : LaneEndpoint → LaneEndpoint
  | .pier => .deck
  | .deck => .pier

/-- QUIC stream shape a lane uses. -/
inductive LaneShape where
  | bidirectional
  | unidirectional
  deriving DecidableEq

/-- Direction application payload flows on a lane. -/
inductive LaneFlow where
  | pierToDeck
  | deckToPier
  | both

/-- How payload is framed after the preface. -/
inductive LaneFraming where
  | sessionMessages
  | lengthPrefixedMedia

inductive LaneStreamCode where
  | refused
  | prefaceTimeout
  | laneFailed
  | superseded
  | attachmentEnded
  | disabled
  deriving DecidableEq

inductive LaneRole where
  | control
  | video
  | audioOutput
  | inputCursor
  | microphone
  | bulkAux
  deriving DecidableEq

namespace LaneRole

/-- `LaneRole::ALL`, in wire order. -/
def all : List LaneRole := [.control, .video, .audioOutput, .inputCursor, .microphone, .bulkAux]

def wire : LaneRole → UInt8
  | .control => 1
  | .video => 2
  | .audioOutput => 3
  | .inputCursor => 4
  | .microphone => 5
  | .bulkAux => 6

def fromWire (value : UInt8) : Option LaneRole :=
  if value = 1 then some .control
  else if value = 2 then some .video
  else if value = 3 then some .audioOutput
  else if value = 4 then some .inputCursor
  else if value = 5 then some .microphone
  else if value = 6 then some .bulkAux
  else none

/-- Dense index in `0..LANE_ROLE_COUNT`. -/
def index (role : LaneRole) : Nat := role.wire.toNat - 1

def token : LaneRole → String
  | .control => "control"
  | .video => "video"
  | .audioOutput => "audio_output"
  | .inputCursor => "input_cursor"
  | .microphone => "microphone"
  | .bulkAux => "bulk_aux"

def fromToken (value : String) : Option LaneRole := all.find? fun role => role.token == value

def shape : LaneRole → LaneShape
  | .control | .inputCursor | .bulkAux => .bidirectional
  | .video | .audioOutput | .microphone => .unidirectional

/-- Endpoint that opens the stream and writes the preface. -/
def opener : LaneRole → LaneEndpoint
  | .control | .inputCursor | .bulkAux | .microphone => .deck
  | .video | .audioOutput => .pier

def flow : LaneRole → LaneFlow
  | .control | .inputCursor | .bulkAux => .both
  | .video | .audioOutput => .pierToDeck
  | .microphone => .deckToPier

def framing : LaneRole → LaneFraming
  | .control | .inputCursor | .bulkAux => .sessionMessages
  | .video | .audioOutput | .microphone => .lengthPrefixedMedia

variable (role : LaneRole)

/-- Whether `sender` may write application payload on this lane. -/
def maySend (sender : LaneEndpoint) : Bool :=
  match role.flow with
  | .both => true
  | .pierToDeck => sender == .pier
  | .deckToPier => sender == .deck

/-- Whether the preface must bind to an authorized attachment. -/
def requiresAttachment : Bool := role != .control

theorem mem_all : role ∈ all := by cases role <;> decide

theorem nodup_all : all.Nodup := by decide

@[simp] theorem fromWire_wire : fromWire role.wire = some role := by
  cases role <;> rfl

variable {role : LaneRole}

theorem wire_of_fromWire (h : fromWire value = some role) : role.wire = value := by
  unfold fromWire at h
  split_ifs at h <;> cases h <;> simp_all [wire]

@[simp] theorem fromToken_token (role : LaneRole) : fromToken role.token = some role := by
  cases role <;> decide

theorem token_of_fromToken (h : fromToken value = some role) : role.token = value := by
  have := List.find?_some h
  simpa using this

theorem index_lt (role : LaneRole) : role.index < 6 := by cases role <;> decide

theorem index_injective {left right : LaneRole} (h : left.index = right.index) : left = right := by
  cases left <;> cases right <;> first | rfl | exact absurd h (by decide)

theorem exists_index (h : i < 6) : ∃ role : LaneRole, role.index = i := by
  match i, h with
  | 0, _ => exact ⟨.control, rfl⟩
  | 1, _ => exact ⟨.video, rfl⟩
  | 2, _ => exact ⟨.audioOutput, rfl⟩
  | 3, _ => exact ⟨.inputCursor, rfl⟩
  | 4, _ => exact ⟨.microphone, rfl⟩
  | 5, _ => exact ⟨.bulkAux, rfl⟩

@[simp] theorem requiresAttachment_iff : role.requiresAttachment = true ↔ role ≠ .control := by
  simp [requiresAttachment]

end LaneRole

/-- A set of lane roles as one byte, one bit per role. No constructor of the source sets the two
high bits, so they are zero by type. -/
structure LaneRoleSet where
  bits : UInt8
  bits_lt : bits.toNat < 2 ^ 6
  deriving DecidableEq

namespace LaneRoleSet

/-- `1 << role.index()`. -/
def mask (role : LaneRole) : UInt8 := 1 <<< UInt8.ofNat role.index

theorem toNat_mask (role : LaneRole) : (mask role).toNat = 2 ^ role.index := by cases role <;> rfl

def empty : LaneRoleSet := ⟨0, by decide⟩

def contains (set : LaneRoleSet) (role : LaneRole) : Bool := set.bits &&& mask role != 0

/-- The set with `role` added. -/
def withRole (set : LaneRoleSet) (role : LaneRole) : LaneRoleSet where
  bits := set.bits ||| mask role
  bits_lt := by
    rw [UInt8.toNat_or, toNat_mask]
    exact Nat.or_lt_two_pow set.bits_lt (Nat.pow_lt_pow_right (by decide) role.index_lt)

def fromRoles (roles : List LaneRole) : LaneRoleSet := roles.foldl withRole empty

/-- Roles in wire order. -/
def iter (set : LaneRoleSet) : List LaneRole := LaneRole.all.filter set.contains

theorem contains_eq_testBit (set : LaneRoleSet) (role : LaneRole) :
    set.contains role = set.bits.toNat.testBit role.index := by
  have hmask : (set.bits &&& mask role).toNat = (set.bits.toNat.testBit role.index).toNat * 2 ^ role.index := by
    rw [UInt8.toNat_and, toNat_mask, Nat.and_two_pow]
  rw [contains, bne, Bool.eq_iff_iff, Bool.not_eq_true', beq_eq_false_iff_ne, ne_eq, ← UInt8.toNat_inj, hmask]
  cases set.bits.toNat.testBit role.index <;> simp

@[simp] theorem contains_empty (role : LaneRole) : empty.contains role = false := by
  cases role <;> rfl

@[simp] theorem contains_withRole (set : LaneRoleSet) (added role : LaneRole) :
    (set.withRole added).contains role = (set.contains role || decide (added = role)) := by
  rw [contains_eq_testBit, contains_eq_testBit, withRole, UInt8.toNat_or, toNat_mask, Nat.testBit_or]
  congr 1
  by_cases h : added = role
  · simp [h]
  · have hidx : ¬added.index = role.index := fun heq => h (LaneRole.index_injective heq)
    simp [h, hidx]

/-- A set is determined by the roles it contains. -/
theorem ext_contains {left right : LaneRoleSet} (h : ∀ role, left.contains role = right.contains role) :
    left = right := by
  have hbits : left.bits.toNat = right.bits.toNat := by
    apply Nat.eq_of_testBit_eq
    intro i
    by_cases hi : i < 6
    · obtain ⟨_, rfl⟩ := LaneRole.exists_index hi
      rw [← contains_eq_testBit, ← contains_eq_testBit, h]
    · have hpow : 2 ^ 6 ≤ 2 ^ i := Nat.pow_le_pow_right (by decide) (by omega)
      rw [Nat.testBit_lt_two_pow (left.bits_lt.trans_le hpow), Nat.testBit_lt_two_pow (right.bits_lt.trans_le hpow)]
  cases left
  cases right
  simpa [← UInt8.toNat_inj] using hbits

theorem mem_iter {set : LaneRoleSet} {role : LaneRole} : role ∈ set.iter ↔ set.contains role = true := by
  simp [iter, LaneRole.mem_all]

theorem nodup_iter (set : LaneRoleSet) : set.iter.Nodup := LaneRole.nodup_all.filter _

variable (roles : List LaneRole)

theorem contains_foldl_withRole (set : LaneRoleSet) (role : LaneRole) :
    (roles.foldl withRole set).contains role = (set.contains role || decide (role ∈ roles)) := by
  induction roles generalizing set with
  | nil => simp
  | cons first rest ih =>
    rw [List.foldl_cons, ih, contains_withRole, Bool.or_assoc]
    congr 1
    simp [eq_comm]

theorem contains_fromRoles (role : LaneRole) : (fromRoles roles).contains role = decide (role ∈ roles) := by
  rw [fromRoles, contains_foldl_withRole, contains_empty, Bool.false_or]

end LaneRoleSet
end Arcen
