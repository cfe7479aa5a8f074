import Arcen.LanePreface
import Arcen.Hex

/-! The grant the Pier sends on the control lane (`LaneAttachmentMsg` of `shared/protocol/src/lanes.rs`).
The binding travels as hex text and the roles as tokens, so validation is a second decoder beside the
one of the preface. -/

namespace Arcen

open LaneRole LaneRoleSet LanePreface

def laneRoleCount : Nat := 6

def laneAttachmentMsgType : String := "lane_attachment"

namespace LaneAttachmentBinding

def toHex (binding : LaneAttachmentBinding) : String := String.ofList (binding.bytes.val.flatMap hexPair)

def fromHex (value : String) : Except LaneContractError LaneAttachmentBinding :=
  let digits := strBytes value
  if digits.length ≠ laneAttachmentBindingBytes * 2 then .error .malformedBinding
  else
    match parseHex digits with
    | none => .error .malformedBinding
    | some bytes => new (readArray laneAttachmentBindingBytes bytes)

end LaneAttachmentBinding

/-- Control-lane message the Pier sends after successful authentication. -/
structure LaneAttachmentMsg where
  msgType : String
  laneProtocolVersion : UInt16
  attachmentGeneration : UInt64
  binding : String
  roles : List String

namespace LaneAttachmentMsg

/-- Builds the grant for an attachment and its enabled roles. Control is implicit and never listed. -/
def new (attachment : LaneAttachment) (roles : LaneRoleSet) : LaneAttachmentMsg where
  msgType := laneAttachmentMsgType
  laneProtocolVersion := Arcen.laneProtocolVersion
  attachmentGeneration := attachment.generation.get
  binding := attachment.binding.toHex
  roles := (roles.iter.filter requiresAttachment).map token

/-- The role loop of `validate`. -/
def validateRoles (roles : LaneRoleSet) : List String → Except LaneContractError LaneRoleSet
  | [] => .ok roles
  | token :: tokens =>
    match fromToken token with
    | none => .error .unknownRole
    | some role =>
      if !role.requiresAttachment || roles.contains role then .error .invalidRoleList
      else validateRoles (roles.withRole role) tokens

/-- Strictly validates a received grant. -/
def validate (msg : LaneAttachmentMsg) : Except LaneContractError (LaneAttachment × LaneRoleSet) :=
  if msg.msgType ≠ laneAttachmentMsgType then .error .wrongMessageType
  else if msg.laneProtocolVersion ≠ Arcen.laneProtocolVersion then
    .error (.unsupportedVersion msg.laneProtocolVersion)
  else
    match NonZero.new msg.attachmentGeneration with
    | none => .error .zeroAttachmentGeneration
    | some generation =>
      match LaneAttachmentBinding.fromHex msg.binding with
      | .error error => .error error
      | .ok binding =>
        if laneRoleCount ≤ msg.roles.length then .error .invalidRoleList
        else
          match validateRoles .empty msg.roles with
          | .error error => .error error
          | .ok roles => .ok (⟨generation, binding⟩, roles)

end LaneAttachmentMsg

open LaneAttachmentMsg

/-! ### The binding as text -/

theorem LaneAttachmentBinding.fromHex_toHex (binding : LaneAttachmentBinding) :
    fromHex binding.toHex = .ok binding := by
  obtain ⟨hlen, hprs⟩ := parseHex_strBytes_ofList binding.bytes.val
  rw [binding.bytes.property] at hlen
  simp only [fromHex, toHex, hlen, hprs, ne_eq, not_true_eq_false, if_false, readArray_fixedBytes, new_bytes]

/-! ### The role list -/

namespace LaneAttachmentMsg

variable {roles : LaneRoleSet} {msg : LaneAttachmentMsg} {att : LaneAttachment}

/-- Distinct non-control roles pass the loop and are all added. -/
theorem validateRoles_map_token {granted : List LaneRole} (hnd : granted.Nodup)
    (hbd : ∀ role ∈ granted, role.requiresAttachment = true) (hnew : ∀ role ∈ granted, roles.contains role = false) :
    validateRoles roles (granted.map token) = .ok (granted.foldl withRole roles) := by
  induction granted generalizing roles with
  | nil => rfl
  | cons role granted ih =>
    obtain ⟨hnotMem, hnd⟩ := List.nodup_cons.mp hnd
    have hr := hbd role List.mem_cons_self
    have hfresh := hnew role List.mem_cons_self
    simp only [List.map_cons, validateRoles, fromToken_token, hr, hfresh]
    apply ih hnd fun other hmem => hbd other (List.mem_cons_of_mem _ hmem)
    intro other hmem
    have hne : role ≠ other := by
      rintro rfl
      exact hnotMem hmem
    simp [hnew other (List.mem_cons_of_mem _ hmem), hne]

/-- What the loop accepts is a list of distinct non-control roles. -/
theorem validateRoles_eq_ok (h : validateRoles roles tokens = .ok result) :
    ∃ granted : List LaneRole, tokens = granted.map token ∧ granted.Nodup ∧
      (∀ role ∈ granted, role.requiresAttachment = true ∧ roles.contains role = false) ∧
      result = granted.foldl withRole roles := by
  induction tokens generalizing roles with
  | nil =>
    cases h
    exact ⟨[], rfl, List.nodup_nil, by simp, rfl⟩
  | cons token tokens ih =>
    rw [validateRoles] at h
    split at h
    · cases h
    rename_i role hr
    split at h
    · cases h
    rename_i hadm
    simp only [Bool.or_eq_true, Bool.not_eq_true', not_or, Bool.not_eq_false, Bool.not_eq_true] at hadm
    obtain ⟨granted, rfl, hnd, ha, rfl⟩ := ih h
    refine ⟨role :: granted, ?_, ?_, ?_, rfl⟩
    · rw [List.map_cons, token_of_fromToken hr]
    · refine List.nodup_cons.mpr ⟨fun hmem => ?_, hnd⟩
      have hc := (ha role hmem).2
      simp at hc
    · intro other hmem
      rcases List.mem_cons.mp hmem with rfl | hmem
      · exact hadm
      · have hc := (ha other hmem).2
        rw [contains_withRole, Bool.or_eq_false_iff] at hc
        exact ⟨(ha other hmem).1, hc.1⟩

theorem validate_new (att : LaneAttachment) (roles : LaneRoleSet) : (new att roles).validate =
      .ok (att, fromRoles (roles.iter.filter requiresAttachment)) := by
  have hlen : ((roles.iter.filter requiresAttachment).map token).length < laneRoleCount := by
    rw [List.length_map, iter, List.filter_comm]
    calc
      ((all.filter requiresAttachment).filter roles.contains).length
          ≤ (all.filter requiresAttachment).length := List.length_filter_le _ _
      _ < laneRoleCount := by decide
  have hrls := validateRoles_map_token (roles.nodup_iter.filter requiresAttachment)
    (fun role hmem => (List.mem_filter.mp hmem).2) fun role _ => contains_empty role
  simp only [validate, new, NonZero.new_get,
    LaneAttachmentBinding.fromHex_toHex, if_neg (not_le.mpr hlen), hrls]
  rfl

theorem contains_validate_new (roles : LaneRoleSet) (role : LaneRole) :
    (fromRoles (roles.iter.filter requiresAttachment)).contains role =
      (roles.contains role && role.requiresAttachment) := by
  rw [contains_fromRoles, Bool.eq_iff_iff]
  simp [mem_iter]

section

variable (h : msg.validate = .ok (att, roles))
include h

/-- An accepted grant lists distinct non-control roles, and its set is the roles it lists. -/
theorem validate_eq_ok : ∃ granted : List LaneRole, msg.roles = granted.map token ∧ granted.Nodup ∧
      ∀ role, roles.contains role = decide (role ∈ granted) ∧
        (roles.contains role = true → role.requiresAttachment = true) := by
  unfold validate at h
  split at h
  · cases h
  split at h
  · cases h
  split at h
  · cases h
  split at h
  · cases h
  split at h
  · cases h
  split at h
  · cases h
  rename_i hrls
  cases h
  obtain ⟨granted, htoks, hnd, ha, rfl⟩ := validateRoles_eq_ok hrls
  refine ⟨granted, htoks, hnd, fun role => ?_⟩
  have hc := contains_fromRoles granted role
  rw [fromRoles] at hc
  refine ⟨hc, fun hmem => (ha role ?_).1⟩
  simpa [hc] using hmem

/-- A grant rebuilt from an accepted one validates to the same attachment and roles. -/
theorem validate_new_of_validate : (new att roles).validate = .ok (att, roles) := by
  obtain ⟨_, _, _, hrls⟩ := validate_eq_ok h
  rw [validate_new]
  congr 2
  apply ext_contains
  intro role
  rw [contains_validate_new]
  have hbd := (hrls role).2
  cases hr : roles.contains role with
  | false => rfl
  | true => rw [hbd hr, Bool.and_self]

theorem countP_roles_le_one (role : LaneRole) : msg.roles.countP (fun token => fromToken token = some role) ≤ 1 := by
  obtain ⟨granted, htoks, hnd, -⟩ := validate_eq_ok h
  rw [htoks, List.countP_map]
  calc
    granted.countP _ = granted.count role := by
      congr 1
      funext other
      simp [beq_eq_decide]
    _ ≤ 1 := List.nodup_iff_count.mp hnd role

end

end LaneAttachmentMsg

/-- **Preface and grant codecs.** Both codecs are inverse to each other: prefaces byte for byte, grants
up to the control role, which a grant never lists. -/
theorem preface_and_grant_inverse : (∀ preface : LanePreface, decode preface.encode = .ok preface) ∧
    (∀ bytes preface, decode bytes = .ok preface → preface.encode = bytes ∧ bytes.length = 36 ∧
        (preface.role = .control → preface.attachment = none) ∧
        (preface.role ≠ .control → ∃ attachment, preface.attachment = some attachment ∧
          attachment.generation.get ≠ 0 ∧ ∃ byte ∈ attachment.binding.bytes.val, byte ≠ 0)) ∧
    (∀ attachment roles, ∃ granted, (new attachment roles).validate = .ok (attachment, granted) ∧
        ∀ role, granted.contains role = (roles.contains role && role != .control)) ∧
    (∀ (msg : LaneAttachmentMsg) attachment roles, msg.validate = .ok (attachment, roles) →
      (∀ role, msg.roles.countP (fun token => fromToken token = some role) ≤ 1) ∧
        (new attachment roles).validate = .ok (attachment, roles)) := by
  refine ⟨decode_encode, ?_, ?_, ?_⟩
  · intro bytes preface h
    have henco := encode_of_decode h
    refine ⟨henco, ?_, attachment_eq_none.mpr, fun hr => ?_⟩
    · rw [← henco, length_encode]
      rfl
    · obtain ⟨attachment, hatt⟩ := Option.ne_none_iff_exists'.mp fun hnone => hr (attachment_eq_none.mp hnone)
      exact ⟨attachment, hatt, attachment.generation.ne_zero, by simpa using attachment.binding.not_all_zero⟩
  · intro attachment roles
    exact ⟨_, validate_new attachment roles, contains_validate_new roles⟩
  · intro msg attachment roles h
    exact ⟨countP_roles_le_one h, validate_new_of_validate h⟩

/-- The control preface of generation 1, byte by byte. -/
theorem preface_and_grant_inverse_control : (control NonZeroU32.minValue).encode =
        [0x41, 0x52, 0x4c, 0x4e, 0, 1, 1, 0, 0, 0, 0, 0, 0, 0, 0, 0, 0, 0, 0, 1, 0, 0, 0, 0, 0, 0, 0, 0, 0,
          0, 0, 0, 0, 0, 0, 0] ∧ (control NonZeroU32.minValue).encode.length = 36 :=
  ⟨by decide, (preface_and_grant_inverse.2.1 _ (control NonZeroU32.minValue) (preface_and_grant_inverse.1 _)).2.1⟩

end Arcen
