import Arcen.Tiles
import Arcen.PenTabletGate

/-! The bounded parsers of the USB bridge: a configuration descriptor becomes its interfaces and endpoints, a HID
class descriptor its one report length. Every index of the source is an index here, so a parser that never panics
never reads out of bounds. -/

namespace Arcen

open List

def maxConfigurationDescriptorBytes : Nat := 4 * 1024
def maxEndpoints : Nat := 32
def maxHidSubordinateDescriptors : Nat := 16

def descriptorConfiguration : UInt8 := 0x02
def descriptorInterface : UInt8 := 0x04
def descriptorEndpoint : UInt8 := 0x05
def descriptorHid : UInt8 := 0x21
def descriptorHidReport : UInt8 := 0x22

/-! ### Configuration descriptors -/

structure EndpointAddress where
  value : UInt8

/-- The endpoint number without the direction bit. -/
def EndpointAddress.number (address : EndpointAddress) : UInt8 := address.value &&& 0x0f

inductive TransferKind where
  | control
  | interrupt

structure EndpointDescriptor where
  address : EndpointAddress
  transferKind : TransferKind
  maxPacketSize : UInt16
  interval : UInt8

structure InterfaceDescriptor where
  number : UInt8
  alternateSetting : UInt8
  interfaceClass : UInt8
  subclass : UInt8
  protocol : UInt8
  endpoints : List EndpointDescriptor

structure ParsedConfiguration where
  configurationValue : UInt8
  interfaces : List InterfaceDescriptor

inductive DescriptorError where
  | tooLarge (actual maximum : Nat)
  | truncated
  | invalidLength (offset length : Nat)
  | missingConfiguration
  | invalidConfigurationHeader
  | interfaceLimit
  | endpointLimit
  | endpointBeforeInterface
  | unsupportedTransferType (kind : UInt8)
  | endpointDirectionMismatch
  deriving DecidableEq

open Checked

/-- The two locals of the loop: what was parsed, and how many endpoints that has. -/
structure ConfigurationWalk where
  parsed : ParsedConfiguration
  endpointCount : Nat

def pushInterface (walk : ConfigurationWalk) (offset : Nat) (bytes : List UInt8) (length : Nat) :
    Checked DescriptorError ConfigurationWalk := do
  refuseIf (length < 9) (.invalidLength offset length)
  refuseIf (maxInterfaces ≤ walk.parsed.interfaces.length) .interfaceLimit
  let number ← index bytes 2
  let alternateSetting ← index bytes 3
  let interfaceClass ← index bytes 5
  let subclass ← index bytes 6
  let protocol ← index bytes 7
  pure { walk with parsed := { walk.parsed with
    interfaces := walk.parsed.interfaces ++
      [{ number, alternateSetting, interfaceClass, subclass, protocol, endpoints := [] }] } }

def lastInterface (interfaces : List InterfaceDescriptor) : Checked DescriptorError InterfaceDescriptor :=
  match interfaces.getLast? with
  | some interface => .ok interface
  | none => .error .endpointBeforeInterface

variable (walk : ConfigurationWalk)

def pushEndpoint (offset : Nat) (bytes : List UInt8) (length : Nat) : Checked DescriptorError ConfigurationWalk := do
  refuseIf (length < 7) (.invalidLength offset length)
  let endpointCount := walk.endpointCount + 1
  refuseIf (maxEndpoints < endpointCount) .endpointLimit
  let interface ← lastInterface walk.parsed.interfaces
  let address ← index bytes 2
  refuseIf (EndpointAddress.number ⟨address⟩ = 0) .endpointDirectionMismatch
  let attributes ← index bytes 3
  refuseIf (attributes &&& 0x03 ≠ 0x03) (.unsupportedTransferType (attributes &&& 0x03))
  let low ← index bytes 4
  let high ← index bytes 5
  let interval ← index bytes 6
  let endpoint : EndpointDescriptor :=
    { address := ⟨address⟩, transferKind := .interrupt, maxPacketSize := u16FromLeBytes [low, high], interval }
  pure
    { parsed := { walk.parsed with
        interfaces := walk.parsed.interfaces.dropLast ++ [{ interface with endpoints := interface.endpoints ++ [endpoint] }] }
      endpointCount }

/-- One descriptor of the walk: `bytes` start at the descriptor. Unknown types are skipped. -/
def visitConfiguration (offset : Nat) (bytes : List UInt8) : Checked DescriptorError ConfigurationWalk := do
  let length ← index bytes 0
  let descriptorType ← index bytes 1
  if descriptorType = descriptorInterface then pushInterface walk offset bytes length.toNat
  else if descriptorType = descriptorEndpoint then pushEndpoint walk offset bytes length.toNat
  else pure walk

def parseConfigurationDescriptor (bytes : List UInt8) : Checked DescriptorError ParsedConfiguration := do
  refuseIf (maxConfigurationDescriptorBytes < bytes.length) (.tooLarge bytes.length maxConfigurationDescriptorBytes)
  refuseIf (bytes.length < 9) .truncated
  let length ← index bytes 0
  let descriptorType ← index bytes 1
  refuseIf (length ≠ 9 ∨ descriptorType ≠ descriptorConfiguration) .invalidConfigurationHeader
  let low ← index bytes 2
  let high ← index bytes 3
  let declaredTotal := (u16FromLeBytes [low, high]).toNat
  refuseIf (declaredTotal < 9 ∨ bytes.length < declaredTotal) .truncated
  let configurationValue ← index bytes 5
  let walk ← walkTiles 0 (.error .truncated) .invalidLength visitConfiguration declaredTotal 0 bytes
    ⟨⟨configurationValue, []⟩, 0⟩
  refuseIf (walk.parsed.interfaces = []) .missingConfiguration
  pure walk.parsed

/-! ### What the walk reads -/

def kindOf (tile : List UInt8) : UInt8 := byteAt tile 1

/-- An endpoint descriptor of the interrupt kind with a nonzero number. -/
def InterruptEndpoint (tile : List UInt8) : Prop :=
  7 ≤ tile.length ∧ EndpointAddress.number ⟨byteAt tile 2⟩ ≠ 0 ∧ byteAt tile 3 &&& 0x03 = 0x03

def ConfigurationWalk.shapes (walk : ConfigurationWalk) : List (UInt8 × UInt8) :=
  walk.parsed.interfaces.map fun interface => (interface.number, interface.interfaceClass)

structure ConfigurationVisit (walk : ConfigurationWalk) (tile : List UInt8) (next : ConfigurationWalk) : Prop where
  interface : kindOf tile = descriptorInterface →
    9 ≤ tile.length ∧ next.shapes = walk.shapes ++ [(byteAt tile 2, byteAt tile 5)]
  other : kindOf tile ≠ descriptorInterface → next.shapes = walk.shapes
  endpoint : kindOf tile = descriptorEndpoint → InterruptEndpoint tile ∧ walk.shapes ≠ []

variable {bytes tile : List UInt8} {walk next : ConfigurationWalk} {offset : Nat} {rest : List UInt8}

variable {ε : Type} {i length : Nat}

theorem index_byteAt (h : i < bytes.length) : (index bytes i : Checked ε UInt8) = .ok (byteAt bytes i) := by
  rw [index_eq_ok, byteAt, getD_eq_getElem?_getD, getElem?_eq_getElem h]
  rfl

theorem index_tile (h : i < tile.length) (rest : List UInt8) : (index (tile ++ rest) i : Checked ε UInt8)
    = .ok (byteAt tile i) := by
  rw [index_byteAt (by rw [length_append]; omega), byteAt_append_left h]

theorem pushInterface_visits (h : pushInterface walk offset (tile ++ rest) tile.length = .ok next) :
    9 ≤ tile.length ∧ next.shapes = walk.shapes ++ [(byteAt tile 2, byteAt tile 5)] := by
  obtain ⟨_, hl, h⟩ := bind_eq_ok.mp h
  obtain ⟨_, -, h⟩ := bind_eq_ok.mp h
  rw [refuseIf_eq_ok] at hl
  simp only [index_tile (show 2 < tile.length by omega), index_tile (show 3 < tile.length by omega),
    index_tile (show 5 < tile.length by omega), index_tile (show 6 < tile.length by omega),
    index_tile (show 7 < tile.length by omega), ok_bind, pure_eq_ok] at h
  subst h
  refine ⟨by omega, ?_⟩
  simp [ConfigurationWalk.shapes]

theorem lastInterface_eq_ok (h : lastInterface interfaces = .ok intf)
    : interfaces = interfaces.dropLast ++ [intf] := by
  unfold lastInterface at h
  split at h
  · next last hlast =>
    obtain rfl := Checked.ok.inj h
    exact (dropLast_append_getLast? _ hlast).symm
  · cases h

theorem pushEndpoint_visits (h : pushEndpoint walk offset (tile ++ rest) tile.length = .ok next) :
    next.shapes = walk.shapes ∧ InterruptEndpoint tile ∧ walk.shapes ≠ [] := by
  obtain ⟨_, hl, h⟩ := bind_eq_ok.mp h
  obtain ⟨_, -, h⟩ := bind_eq_ok.mp h
  obtain ⟨intf, hlast, h⟩ := bind_eq_ok.mp h
  rw [refuseIf_eq_ok] at hl
  simp only [index_tile (show 2 < tile.length by omega), index_tile (show 3 < tile.length by omega),
    index_tile (show 4 < tile.length by omega), index_tile (show 5 < tile.length by omega),
    index_tile (show 6 < tile.length by omega), ok_bind] at h
  obtain ⟨_, hnum, h⟩ := bind_eq_ok.mp h
  obtain ⟨_, hk, h⟩ := bind_eq_ok.mp h
  rw [refuseIf_eq_ok] at hnum hk
  rw [pure_eq_ok] at h
  have hsplit := lastInterface_eq_ok hlast
  have hs : walk.shapes = walk.parsed.interfaces.dropLast.map (fun i => (i.number, i.interfaceClass)) ++
      [(intf.number, intf.interfaceClass)] := by
    rw [ConfigurationWalk.shapes, hsplit, map_append, dropLast_concat]
    rfl
  refine ⟨?_, ⟨by omega, hnum, not_not.mp hk⟩, ?_⟩
  · subst h
    rw [hs, ConfigurationWalk.shapes, map_append]
    rfl
  · rw [hs]
    exact append_ne_nil_of_right_ne_nil _ (cons_ne_nil _ _)

theorem visitConfiguration_visits (htile : IsTile tile) (h : visitConfiguration walk offset (tile ++ rest) = .ok next)
    : ConfigurationVisit walk tile next := by
  obtain ⟨_, hlen⟩ := htile
  simp only [visitConfiguration, index_tile (show 0 < tile.length by omega),
    index_tile (show 1 < tile.length by omega), ok_bind, hlen] at h
  have hdist : descriptorEndpoint ≠ descriptorInterface := by decide
  split_ifs at h with hintf hendpt
  · exact ⟨fun _ => pushInterface_visits h, fun hne => absurd hintf hne, fun he => absurd (he.symm.trans hintf) hdist⟩
  · obtain ⟨hsame, hkept⟩ := pushEndpoint_visits h
    exact ⟨fun hi => absurd hi hintf, fun _ => hsame, fun _ => hkept⟩
  · rw [pure_eq_ok] at h
    subst h
    exact ⟨fun hi => absurd hi hintf, fun _ => rfl, fun he => absurd he hendpt⟩

def AcceptedTile (tile : List UInt8) : Prop :=
  (kindOf tile = descriptorInterface → 9 ≤ tile.length) ∧ (kindOf tile = descriptorEndpoint → InterruptEndpoint tile)

/-- **The walk reads every interface descriptor, and lets only interrupt endpoints through.** -/
theorem foldTiles_visitConfiguration {after : List UInt8}
    (htl : ∀ tile ∈ tiles, IsTile tile)
    (h : foldTiles visitConfiguration after offset tiles walk = .ok final) : final.shapes = walk.shapes ++
        (tiles.filter (kindOf · = descriptorInterface)).map (fun tile => (byteAt tile 2, byteAt tile 5)) ∧
      ∀ tile ∈ tiles, AcceptedTile tile := by
  induction tiles generalizing offset walk with
  | nil =>
    obtain rfl := Checked.ok.inj h
    exact ⟨(append_nil _).symm, fun tile htile => absurd htile not_mem_nil⟩
  | cons tile tiles ih =>
    obtain ⟨_, hvisit, hnext⟩ := bind_eq_ok.mp h
    have visited := visitConfiguration_visits (htl tile mem_cons_self) hvisit
    obtain ⟨hs, hacc⟩ := ih (fun other hoth => htl other (mem_cons_of_mem _ hoth)) hnext
    refine ⟨?_, ?_⟩
    · by_cases hk : kindOf tile = descriptorInterface
      · rw [hs, (visited.interface hk).2, filter_cons_of_pos (by simpa using hk), map_cons,
          append_assoc, singleton_append]
      · rw [hs, visited.other hk, filter_cons_of_neg (by simpa using hk)]
    · exact forall_mem_cons.mpr
        ⟨⟨fun hk => (visited.interface hk).1, fun hk => (visited.endpoint hk).1⟩, hacc⟩

/-- What the parser accepts, when it reads the bytes to their end. -/
theorem parseConfigurationDescriptor_eq_ok
    (htotal : (u16FromLeBytes [byteAt bytes 2, byteAt bytes 3]).toNat = bytes.length)
    (h : parseConfigurationDescriptor bytes = .ok parsed) :
    ∃ tiles, Tiled bytes tiles ∧ parsed.interfaces.map (fun intf => (intf.number, intf.interfaceClass)) =
        (tiles.filter (kindOf · = descriptorInterface)).map (fun tile => (byteAt tile 2, byteAt tile 5)) ∧
      ∀ tile ∈ tiles, AcceptedTile tile := by
  obtain ⟨_, -, h⟩ := bind_eq_ok.mp h
  obtain ⟨_, hl, h⟩ := bind_eq_ok.mp h
  rw [refuseIf_eq_ok] at hl
  have hr : ∀ i < 9, (index bytes i : Checked DescriptorError UInt8) = .ok (byteAt bytes i) :=
    fun i hi => index_byteAt (by omega)
  simp only [hr 0 (by decide), hr 1 (by decide), hr 2 (by decide), hr 3 (by decide),
    hr 5 (by decide), ok_bind] at h
  obtain ⟨_, -, h⟩ := bind_eq_ok.mp h
  obtain ⟨_, -, h⟩ := bind_eq_ok.mp h
  obtain ⟨walk, hwalk, h⟩ := bind_eq_ok.mp h
  obtain ⟨_, -, h⟩ := bind_eq_ok.mp h
  rw [pure_eq_ok] at h
  obtain ⟨tiles, after, hby, htl, _, hfold⟩ :=
    exists_tiles_of_walkTiles 0 bytes _ walk (Nat.zero_le _) (by omega) hwalk
  have haft : after = [] := by
    apply eq_nil_of_length_eq_zero
    have hsum := congrArg List.length hby
    rw [length_append] at hsum
    omega
  subst haft
  rw [append_nil] at hby
  obtain ⟨hs, hacc⟩ := foldTiles_visitConfiguration htl hfold
  subst h
  exact ⟨tiles, ⟨hby.symm, htl⟩, hs, hacc⟩

/-! ### The walk stays in bounds -/

theorem lastInterface_ne_panicked (interfaces : List InterfaceDescriptor) : lastInterface interfaces ≠ .panicked := by
  unfold lastInterface
  split <;> exact nofun

theorem pushEndpoint_ne_panicked (walk : ConfigurationWalk) (offset : Nat) (hlen : length ≤ bytes.length)
    : pushEndpoint walk offset bytes length ≠ .panicked := by
  refine refuseIf_bind_ne_panicked fun hl => ?_
  refine refuseIf_bind_ne_panicked fun _ => ?_
  refine bind_ne_panicked (lastInterface_ne_panicked _) fun intf _ => ?_
  refine index_bind_ne_panicked (by omega) fun _ _ => ?_
  refine refuseIf_bind_ne_panicked fun _ => ?_
  refine index_bind_ne_panicked (by omega) fun _ _ => ?_
  refine refuseIf_bind_ne_panicked fun _ => ?_
  refine index_bind_ne_panicked (by omega) fun _ _ => ?_
  refine index_bind_ne_panicked (by omega) fun _ _ => ?_
  refine index_bind_ne_panicked (by omega) fun _ _ => ?_
  exact nofun

theorem visitConfiguration_ne_panicked (walk : ConfigurationWalk) (offset : Nat) (lead : UInt8) (bytes : List UInt8)
    (hl : 2 ≤ lead.toNat) (hfit : lead.toNat ≤ (lead :: bytes).length) :
    visitConfiguration walk offset (lead :: bytes) ≠ .panicked := by
  refine index_bind_ne_panicked (by omega) fun length hlen => ?_
  obtain rfl : lead = length := by simpa using hlen
  refine index_bind_ne_panicked (by omega) fun kind _ => ?_
  split_ifs
  · refine refuseIf_bind_ne_panicked fun hl => ?_
    refine refuseIf_bind_ne_panicked fun _ => ?_
    refine index_bind_ne_panicked (by omega) fun _ _ => ?_
    refine index_bind_ne_panicked (by omega) fun _ _ => ?_
    refine index_bind_ne_panicked (by omega) fun _ _ => ?_
    refine index_bind_ne_panicked (by omega) fun _ _ => ?_
    refine index_bind_ne_panicked (by omega) fun _ _ => ?_
    exact nofun
  · exact pushEndpoint_ne_panicked walk offset hfit
  · exact nofun

/-- **The configuration parser never reads out of bounds.** -/
theorem parseConfigurationDescriptor_ne_panicked (bytes : List UInt8) :
    parseConfigurationDescriptor bytes ≠ .panicked := by
  refine refuseIf_bind_ne_panicked fun _ => ?_
  refine refuseIf_bind_ne_panicked fun hl => ?_
  refine index_bind_ne_panicked (by omega) fun _ _ => ?_
  refine index_bind_ne_panicked (by omega) fun _ _ => ?_
  refine refuseIf_bind_ne_panicked fun _ => ?_
  refine index_bind_ne_panicked (by omega) fun low _ => ?_
  refine index_bind_ne_panicked (by omega) fun high _ => ?_
  refine refuseIf_bind_ne_panicked fun htotal => ?_
  refine index_bind_ne_panicked (by omega) fun _ _ => ?_
  refine bind_ne_panicked (walkTiles_ne_panicked visitConfiguration_ne_panicked 0 bytes _ (by omega)) fun walk _ => ?_
  refine refuseIf_bind_ne_panicked fun _ => ?_
  exact nofun

/-! ### HID class descriptors -/

inductive HidClassDescriptorError where
  | malformed
  | inconsistentCount
  | reportEntries (count : Nat)
  | reportLength (length : UInt16)
  deriving DecidableEq

/-- The report lengths among the three-byte entries, `chunks_exact(3)` filtered and mapped. -/
def reportEntries : List UInt8 → List UInt16
  | kind :: low :: high :: rest =>
    if kind = descriptorHidReport then u16FromLeBytes [low, high] :: reportEntries rest else reportEntries rest
  | _ => []

/-- `let [length] = reports.as_slice() else`. -/
def onlyReport (reports : List UInt16) : Checked HidClassDescriptorError UInt16 :=
  match reports with
  | [length] => .ok length
  | _ => .error (.reportEntries reports.length)

def parseHidClassDescriptor (descriptor : List UInt8) : Checked HidClassDescriptorError UInt16 := do
  refuseIf (descriptor.length < 6) .malformed
  let lead ← index descriptor 0
  let kind ← index descriptor 1
  refuseIf (lead.toNat ≠ descriptor.length ∨ kind ≠ descriptorHid) .malformed
  let count ← index descriptor 5
  refuseIf (count = 0 ∨ maxHidSubordinateDescriptors < count.toNat ∨ descriptor.length ≠ 6 + 3 * count.toNat)
    .inconsistentCount
  let entries ← sliceFrom descriptor 6
  let length ← onlyReport (reportEntries entries)
  refuseIf (length = 0 ∨ maxHidReportDescriptorBytes < length.toNat) (.reportLength length)
  pure length

/-- The one report entry of an accepted descriptor is the length returned. -/
theorem parseHidClassDescriptor_eq_ok {length : UInt16}
    (h : parseHidClassDescriptor desc = .ok length) : reportEntries (desc.drop 6) = [length] := by
  simp only [parseHidClassDescriptor, bind_eq_ok, pure_eq_ok] at h
  obtain ⟨_, -, _, -, _, -, _, -, _, -, _, -, _, hentr, _, honly, _, -, h⟩ := h
  rw [(sliceFrom_eq_ok.mp hentr).2]
  unfold onlyReport at honly
  split at honly
  · next last heq => rw [heq, ← h, Checked.ok.inj honly]
  · cases honly

theorem onlyReport_ne_panicked (reports : List UInt16) : onlyReport reports ≠ .panicked := by
  unfold onlyReport
  split <;> exact nofun

theorem parseHidClassDescriptor_ne_panicked (desc : List UInt8) : parseHidClassDescriptor desc ≠ .panicked := by
  refine refuseIf_bind_ne_panicked fun hl => ?_
  refine index_bind_ne_panicked (by omega) fun _ _ => ?_
  refine index_bind_ne_panicked (by omega) fun _ _ => ?_
  refine refuseIf_bind_ne_panicked fun _ => ?_
  refine index_bind_ne_panicked (by omega) fun _ _ => ?_
  refine refuseIf_bind_ne_panicked fun _ => ?_
  refine bind_ne_panicked (sliceFrom_ne_panicked (by omega)) fun entries _ => ?_
  refine bind_ne_panicked (onlyReport_ne_panicked _) fun length _ => ?_
  refine refuseIf_bind_ne_panicked fun _ => ?_
  exact nofun

end Arcen
