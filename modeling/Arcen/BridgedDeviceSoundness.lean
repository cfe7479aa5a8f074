import Arcen.BridgedConfiguration

/-! The guard over whole runs. A recorded request stays recorded until a call on the same URB, so the completion
that follows is checked against what the host asked for; the table of requests stays bounded and no check reads out
of bounds. -/

namespace Arcen

open Checked List

/-! ### Device descriptors stay in bounds -/

variable (payload : List UInt8)

theorem checkByte_ne_panicked (offset : Nat) (accept : UInt8 → Bool) :
    checkByte payload offset accept ≠ .panicked := by
  unfold checkByte
  split
  · exact refuseIf_ne_panicked _ _
  · exact nofun

theorem checkClass_ne_panicked : checkClass payload ≠ .panicked := by
  unfold checkClass
  split
  · exact refuseIf_ne_panicked _ _
  · exact nofun

theorem checkIdentity_ne_panicked {payload : List UInt8} (hlen : payload.length = deviceDescriptorLength)
    (identity : UsbDeviceId) : checkIdentity payload identity ≠ .panicked := by
  have hlong : deviceDescriptorLength = 18 := rfl
  have hfield : ∀ offset, offset + 1 < payload.length →
      (index payload offset >>= fun low => index payload (offset + 1) >>= fun high =>
        pure (u16FromLeBytes [low, high]) : Checked DeviceDescriptorViolation UInt16) ≠ .panicked := by
    intro offset hoff
    refine index_bind_ne_panicked (by omega) fun _ _ => ?_
    refine index_bind_ne_panicked hoff fun _ _ => ?_
    exact nofun
  refine bind_ne_panicked (hfield 8 (by omega)) fun _ _ => ?_
  refine bind_ne_panicked (hfield 10 (by omega)) fun _ _ => ?_
  refine bind_ne_panicked (hfield 12 (by omega)) fun _ _ => ?_
  refine refuseIf_bind_ne_panicked fun _ => ?_
  refine index_bind_ne_panicked (by omega) fun _ _ => ?_
  exact refuseIf_ne_panicked _ _

theorem validateDeviceDescriptor_ne_panicked (identity : UsbDeviceId) :
    validateDeviceDescriptor payload identity ≠ .panicked := by
  refine refuseIf_bind_ne_panicked fun _ => ?_
  refine bind_ne_panicked (checkByte_ne_panicked _ _ _) fun _ _ => ?_
  refine bind_ne_panicked (checkByte_ne_panicked _ _ _) fun _ _ => ?_
  refine bind_ne_panicked (checkClass_ne_panicked _) fun _ _ => ?_
  split_ifs with hlen
  · exact checkIdentity_ne_panicked hlen identity
  · exact nofun

theorem validateDeviceQualifier_ne_panicked : validateDeviceQualifier payload ≠ .panicked := by
  refine refuseIf_bind_ne_panicked fun _ => ?_
  refine bind_ne_panicked (checkByte_ne_panicked _ _ _) fun _ _ => ?_
  refine bind_ne_panicked (checkByte_ne_panicked _ _ _) fun _ _ => ?_
  refine bind_ne_panicked (checkClass_ne_panicked _) fun _ _ => ?_
  split
  · exact refuseIf_ne_panicked _ _
  · exact nofun

namespace BridgedDeviceGuard

/-! ### Report descriptors -/

/-- **Report soundness and completeness.** -/
theorem checkReport_eq_ok {claims : List InterfaceReportDescriptor}
    (hdist : (claims.map InterfaceReportDescriptor.interface).Nodup) (intf : UInt8) (length : UInt16)
    (payload : List UInt8) :
    checkReport claims intf length payload = .ok () ↔ ∃ claim ∈ claims, claim.interface = intf ∧
      payload = claim.descriptor.take (min length.toNat claim.descriptor.length) := by
  have hpref : ∀ claim : InterfaceReportDescriptor,
      (payload <+: claim.descriptor ∧ payload.length = min claim.descriptor.length length.toNat) ↔
        payload = claim.descriptor.take (min length.toNat claim.descriptor.length) := by
    intro claim
    constructor
    · rintro ⟨hpay, hlen⟩
      rw [Nat.min_comm, ← hlen]
      exact prefix_iff_eq_take.mp hpay
    · intro heq
      refine ⟨heq ▸ List.take_prefix _ _, ?_⟩
      rw [heq, length_take]
      omega
  unfold checkReport
  split
  · next hnone =>
    refine iff_of_false nofun ?_
    rintro ⟨claim, hclaim, hintf, -⟩
    exact find?_eq_none.mp hnone claim hclaim (by simpa using hintf)
  · next found hfnd =>
    have hmem := mem_of_find?_eq_some hfnd
    have hintf : found.interface = intf := by simpa using find?_some hfnd
    have hcheck : (do
        refuseIf (¬payload <+: found.descriptor) (.reportMismatch intf)
        refuseIf (payload.length ≠ min found.descriptor.length length.toNat)
          (.reportTruncated intf payload.length (min found.descriptor.length length.toNat)) : Reply) = .ok () ↔
        payload = found.descriptor.take (min length.toNat found.descriptor.length) := by
      simp only [bind_eq_ok, refuseIf_eq_ok, not_not, exists_const, hpref]
    refine hcheck.trans ⟨fun heq => ⟨found, hmem, hintf, heq⟩, ?_⟩
    rintro ⟨_, hclaim, hsame, heq⟩
    obtain rfl := inj_on_of_nodup_map hdist hclaim hmem (hsame.trans hintf.symm)
    exact heq

theorem checkReport_ne_panicked (claims : List InterfaceReportDescriptor) (intf : UInt8) (length : UInt16)
    (payload : List UInt8) : checkReport claims intf length payload ≠ .panicked := by
  unfold checkReport
  split
  · exact nofun
  · refine refuseIf_bind_ne_panicked fun _ => ?_
    exact refuseIf_ne_panicked _ _

section

variable (guard : BridgedDeviceGuard)

theorem checkRequested_ne_panicked (payload : List UInt8) (req : Requested) :
    guard.checkRequested payload req ≠ .panicked := by
  cases req with
  | device => exact mapError_ne_panicked (validateDeviceDescriptor_ne_panicked payload guard.identity)
  | deviceQualifier => exact mapError_ne_panicked (validateDeviceQualifier_ne_panicked payload)
  | configuration kind =>
    exact mapError_ne_panicked (validateConfigurationDescriptor_ne_panicked payload kind guard.reportLengths)
  | report intf length => exact checkReport_ne_panicked guard.claims intf length payload

/-! ### One call -/

/-- What the attachment was authorized with never changes. -/
theorem step_authorized (call : Call) :
    (guard.step call).1.claims = guard.claims ∧ (guard.step call).1.reportLengths = guard.reportLengths := by
  cases call with
  | submit =>
    simp only [step, observeSubmit]
    split
    · exact ⟨rfl, rfl⟩
    · split_ifs <;> exact ⟨rfl, rfl⟩
  | cancel => exact ⟨rfl, rfl⟩
  | complete =>
    simp only [step, checkCompletion]
    split <;> exact ⟨rfl, rfl⟩

theorem step_ne_panicked (call : Call) : (guard.step call).2 ≠ .panicked := by
  cases call with
  | submit =>
    simp only [step, observeSubmit]
    split
    · exact nofun
    · split_ifs <;> exact nofun
  | cancel => exact nofun
  | complete =>
    simp only [step, checkCompletion]
    split
    · exact nofun
    · split_ifs
      · exact checkRequested_ne_panicked _ _ _
      · exact nofun

/-- A call leaves the requests of other URBs alone. -/
theorem step_lookup_of_ne (hne : call.urb ≠ urb) :
    (guard.step call).1.pending.lookup urb = guard.pending.lookup urb := by
  cases call with
  | submit =>
    simp only [step, observeSubmit]
    split
    · rfl
    · split_ifs
      · rfl
      · exact AList.lookup_insert_ne (Ne.symm hne)
  | cancel => exact AList.lookup_erase_ne (Ne.symm hne)
  | complete =>
    simp only [step, checkCompletion]
    split
    · rfl
    · exact AList.lookup_erase_ne (Ne.symm hne)

end

theorem length_keys_erase_le (pending : AList fun _ : UrbId => Requested) (urb : UrbId) :
    (pending.erase urb).keys.length ≤ pending.keys.length := by
  rw [AList.keys_erase]
  exact length_erase_le

theorem step_pending_le (guard : BridgedDeviceGuard) (call : Call)
    (hbd : guard.pending.keys.length ≤ maxInFlightUrbs) :
    (guard.step call).1.pending.keys.length ≤ maxInFlightUrbs := by
  cases call with
  | submit urb =>
    simp only [step, observeSubmit]
    split
    · exact hbd
    · split_ifs with hfull
      · exact hbd
      · rw [AList.keys_insert, length_cons]
        by_cases hmem : urb ∈ guard.pending
        · have hpos := length_pos_of_mem (AList.mem_keys.mp hmem)
          rw [length_erase_of_mem (AList.mem_keys.mp hmem)]
          omega
        · have hroom : ¬maxInFlightUrbs ≤ guard.pending.keys.length := fun hle => hfull ⟨hle, hmem⟩
          have herase : (guard.pending.keys.erase urb).length ≤ guard.pending.keys.length := length_erase_le
          omega
  | cancel => exact (length_keys_erase_le _ _).trans hbd
  | complete =>
    simp only [step, checkCompletion]
    split
    · exact hbd
    · exact (length_keys_erase_le _ _).trans hbd

theorem requested_configuration (h : requested setup = some (.configuration kind)) :
    kind = descriptorConfiguration ∨ kind = descriptorOtherSpeedConfiguration := by
  unfold requested at h
  split at h
  · cases h
  · split_ifs at h with _ _ _ hkind
    · cases h
    · cases h
    · cases h
      exact hkind

/-! ### Runs -/

section Runs

variable (identity : UsbDeviceId) (claims : List InterfaceReportDescriptor)

variable (calls : List Call)

theorem exec_authorized : ((machine identity claims).exec calls).claims = claims ∧
    ((machine identity claims).exec calls).reportLengths = collectLengths claims := by
  refine (machine identity claims).invariant
    (P := fun guard => guard.claims = claims ∧ guard.reportLengths = collectLengths claims) ⟨rfl, rfl⟩ ?_ calls
  rintro guard call ⟨hclms, hlens⟩
  obtain ⟨hsame, hkept⟩ := step_authorized guard call
  exact ⟨hsame.trans hclms, hkept.trans hlens⟩

theorem log_ne_panicked : ∀ entry ∈ (machine identity claims).log calls, entry.2 ≠ .panicked := by
  refine (machine identity claims).log_invariant (P := fun log _ => ∀ entry ∈ log, entry.2 ≠ .panicked)
    (fun entry hent => absurd hent not_mem_nil) ?_ calls
  intro log guard call hlog entry hent
  rcases mem_append.mp hent with hold | hnew
  · exact hlog entry hold
  · rw [mem_singleton.mp hnew]
    exact step_ne_panicked guard call

variable {urb : UrbId} {req : Requested}

/-- A recorded request is still recorded when its completion comes. -/
theorem exec_lookup (hb : ∀ call ∈ between, call.urb ≠ urb) (hr : requested setup = some req)
    (hok : (((machine identity claims).exec before).step (.submit urb (some setup))).2 = .ok ()) :
    ((machine identity claims).exec (before ++ .submit urb (some setup) :: between)).pending.lookup urb =
      some req := by
  induction between using reverseRecOn with
  | nil =>
    rw [Machine.exec_concat]
    change (step _ _).1.pending.lookup urb = _
    simp only [step, observeSubmit, Option.bind_some, hr] at hok ⊢
    split_ifs at hok ⊢
    exact AList.lookup_insert _
  | append_singleton between call ih =>
    rw [← cons_append, ← append_assoc, Machine.exec_concat]
    refine (step_lookup_of_ne _ (hb call (mem_append_right _ mem_cons_self))).trans ?_
    exact ih fun other hoth => hb other (mem_append_left _ hoth)

theorem step_complete {guard : BridgedDeviceGuard} (h : guard.pending.lookup urb = some req) (payload : List UInt8) :
    (guard.step (.complete urb true payload)).2 = guard.checkRequested payload req := by
  simp only [step, checkCompletion, h, if_true]

/-- **The guard is sound.** A report completion passes exactly when it is the claimed bytes the host asked for, a
passed configuration is the claimed one, no check reads out of bounds, and the table of requests is bounded. -/
theorem guard_sound (hdistinct : (claims.map InterfaceReportDescriptor.interface).Nodup) :
    (∀ (before between : List Call) (urb : UrbId) (setup : SetupPacket) (payload : List UInt8),
      (∀ call ∈ between, call.urb ≠ urb) →
      (((machine identity claims).exec before).step (.submit urb (some setup))).2 = .ok () →
      (∀ interface length, requested setup = some (.report interface length) →
        ((((machine identity claims).exec (before ++ .submit urb (some setup) :: between)).step
            (.complete urb true payload)).2 = .ok () ↔ ∃ claim ∈ claims, claim.interface = interface ∧
            payload = claim.descriptor.take (min length.toNat claim.descriptor.length))) ∧
      (∀ kind, requested setup = some (.configuration kind) → configurationHeaderLength < payload.length →
        (((machine identity claims).exec (before ++ .submit urb (some setup) :: between)).step
            (.complete urb true payload)).2 = .ok () →
          ∃ tiles, Tiled payload tiles ∧ HidConfiguration claims tiles)) ∧
    ∀ calls : List Call, (∀ entry ∈ (machine identity claims).log calls, entry.2 ≠ .panicked) ∧
      ((machine identity claims).exec calls).pending.keys.length ≤ maxInFlightUrbs := by
  refine ⟨?_, fun calls => ⟨log_ne_panicked identity claims calls, (machine identity claims).invariant
    (P := fun guard => guard.pending.keys.length ≤ maxInFlightUrbs) (Nat.zero_le _) step_pending_le calls⟩⟩
  intro before between urb setup payload hb hok
  obtain ⟨hclms, hlens⟩ := exec_authorized identity claims (before ++ .submit urb (some setup) :: between)
  constructor
  · intro interface length hr
    rw [step_complete (exec_lookup identity claims hb hr hok), checkRequested, hclms]
    exact checkReport_eq_ok hdistinct interface length payload
  · intro kind hr hlong hpas
    rw [step_complete (exec_lookup identity claims hb hr hok), checkRequested, hlens, mapError_eq_ok] at hpas
    exact validateConfigurationDescriptor_eq_ok hdistinct (requested_configuration hr) hlong hpas

/-- A tablet with one interface answers both requests honestly, the second while the first is outstanding. -/
theorem guard_sound_tablet : ([⟨0, [5, 13]⟩].map InterfaceReportDescriptor.interface).Nodup ∧
    (((machine ⟨1, 2, 3⟩ [⟨0, [5, 13]⟩]).exec [.submit ⟨1, by decide⟩ (some ⟨0x81, 6, 0x2200, 0, 64⟩),
        .submit ⟨2, by decide⟩ (some ⟨0x80, 6, 0x0200, 0, 255⟩)]).step (.complete ⟨1, by decide⟩ true [5, 13])).2 = .ok () ∧
    ∃ tiles, Tiled [9, 2, 34, 0, 1, 1, 0, 0x80, 50, 9, 4, 0, 0, 1, 3, 0, 0, 0, 9, 0x21, 0x11, 1, 0, 1, 0x22, 2, 0,
        7, 5, 0x81, 3, 64, 0, 1] tiles ∧ HidConfiguration [⟨0, [5, 13]⟩] tiles := by
  have hsound := guard_sound ⟨1, 2, 3⟩ [⟨0, [5, 13]⟩] (by decide)
  refine ⟨by decide, ?_, ?_⟩
  · refine ((hsound.1 [] [.submit ⟨2, by decide⟩ (some ⟨0x80, 6, 0x0200, 0, 255⟩)] ⟨1, by decide⟩
      ⟨0x81, 6, 0x2200, 0, 64⟩ [5, 13] (by decide) (by decide +kernel)).1 0 64 (by decide)).mpr ?_
    exact ⟨⟨0, [5, 13]⟩, by decide, rfl, rfl⟩
  · exact (hsound.1 [] [] ⟨2, by decide⟩ ⟨0x80, 6, 0x0200, 0, 255⟩ _ (by decide) (by decide +kernel)).2
      descriptorConfiguration (by decide) (by decide) (by decide +kernel)

end Runs

end BridgedDeviceGuard
end Arcen
