import Mathlib.Data.List.AList
import Mathlib.Data.Finset.Insert
import Arcen.Machine
import Arcen.NonZero
import Arcen.UsbDescriptors

/-! The guard on the URB path of a bridged device. It remembers the descriptor requests of the host and checks each
completion against the identity and the report descriptors that were authorized, before the host kernel sees it. -/

namespace Arcen

def maxInFlightUrbs : Nat := 128

def requestTypeStandardDeviceIn : UInt8 := 0x80
def requestTypeStandardInterfaceIn : UInt8 := 0x81
def requestGetDescriptor : UInt8 := 0x06
def descriptorDevice : UInt8 := 0x01
def descriptorDeviceQualifier : UInt8 := 0x06
def descriptorOtherSpeedConfiguration : UInt8 := 0x07
def deviceDescriptorLength : Nat := 18
def deviceQualifierLength : Nat := 10
def configurationHeaderLength : Nat := 9
def usbClassPerInterface : UInt8 := 0x00
def usbClassHid : UInt8 := 0x03

structure UsbDeviceId where
  vendorId : UInt16
  productId : UInt16
  bcdDevice : UInt16

abbrev UrbId := NonZeroU32

inductive DeviceDescriptorViolation where
  | malformed
  | deviceClass (value : UInt8)
  | identity
  | configurationCount (count : UInt8)
  deriving DecidableEq

inductive ConfigurationViolation where
  | malformed
  | unparseable (error : DescriptorError)
  | tooLarge (total : Nat)
  | interfaceCount (declared : UInt8) (authorized : Nat)
  | notHid (interface interfaceClass : UInt8)
  | interfaceSet
  | hidClassDescriptor (interface : UInt8) (error : HidClassDescriptorError)
  | reportLength (interface : UInt8) (declared : Option UInt16) (authorized : Nat)
  deriving DecidableEq

inductive BridgedDeviceViolation where
  | tooManyPending
  | reportUnclaimed (interface : UInt8)
  | reportMismatch (interface : UInt8)
  | reportTruncated (interface : UInt8) (returned expected : Nat)
  | device (violation : DeviceDescriptorViolation)
  | configuration (violation : ConfigurationViolation)
  deriving DecidableEq

open Checked

/-! ### Device descriptors -/

variable (payload : List UInt8)

/-- A byte the read reached has to be acceptable. -/
def checkByte (offset : Nat) (accept : UInt8 → Bool) : Checked DeviceDescriptorViolation Unit :=
  match payload[offset]? with
  | some byte => refuseIf (!accept byte) .malformed
  | none => pure ()

def checkClass : Checked DeviceDescriptorViolation Unit :=
  match payload[4]? with
  | some value => refuseIf (value ≠ usbClassPerInterface ∧ value ≠ usbClassHid) (.deviceClass value)
  | none => pure ()

variable (identity : UsbDeviceId)

def checkIdentity : Checked DeviceDescriptorViolation Unit := do
  let field offset : Checked DeviceDescriptorViolation UInt16 := do
    let low ← index payload offset
    let high ← index payload (offset + 1)
    pure (u16FromLeBytes [low, high])
  let vendor ← field 8
  let product ← field 10
  let revision ← field 12
  refuseIf (vendor ≠ identity.vendorId ∨ product ≠ identity.productId ∨ revision ≠ identity.bcdDevice) .identity
  let count ← index payload 17
  refuseIf (count ≠ 1) (.configurationCount count)

def validateDeviceDescriptor : Checked DeviceDescriptorViolation Unit := do
  refuseIf (deviceDescriptorLength < payload.length) .malformed
  checkByte payload 0 fun length => length.toNat == deviceDescriptorLength
  checkByte payload 1 fun kind => kind == descriptorDevice
  checkClass payload
  if payload.length = deviceDescriptorLength then checkIdentity payload identity else pure ()

def validateDeviceQualifier : Checked DeviceDescriptorViolation Unit := do
  refuseIf (deviceQualifierLength < payload.length) .malformed
  checkByte payload 0 fun length => length.toNat == deviceQualifierLength
  checkByte payload 1 fun kind => kind == descriptorDeviceQualifier
  checkClass payload
  match payload[8]? with
  | some count => refuseIf (1 < count) (.configurationCount count)
  | none => pure ()

/-! ### Configuration descriptors -/

/-- The authorized interfaces, each with the length of its report descriptor. -/
abbrev ReportLengths := AList fun _ : UInt8 => Nat

/-- The header fields as far as the read reached. -/
def checkTotal : Checked ConfigurationViolation Unit :=
  if 4 ≤ payload.length then do
    let low ← index payload 2
    let high ← index payload 3
    let total := (u16FromLeBytes [low, high]).toNat
    refuseIf (maxConfigurationDescriptorBytes < total) (.tooLarge total)
    refuseIf (total < configurationHeaderLength) .malformed
    refuseIf (configurationHeaderLength < payload.length ∧ payload.length ≠ total) .malformed
  else pure ()

def checkInterfaceCount (authorized : ReportLengths) : Checked ConfigurationViolation Unit :=
  match payload[4]? with
  | some declared =>
    refuseIf (declared.toNat ≠ authorized.keys.length) (.interfaceCount declared authorized.keys.length)
  | none => pure ()

def collectNumbers (numbers : Finset UInt8) : List InterfaceDescriptor → Checked ConfigurationViolation (Finset UInt8)
  | [] => .ok numbers
  | interface :: interfaces => do
      refuseIf (interface.interfaceClass ≠ usbClassHid) (.notHid interface.number interface.interfaceClass)
      collectNumbers (insert interface.number numbers) interfaces

/-- One interface descriptor of the second walk: its number, the report length its HID descriptors declare and how
many of those were seen. -/
structure ReportEntry where
  interface : UInt8
  declared : Option UInt16
  seen : Nat

variable (entries : List ReportEntry)

def lastEntry : Checked ConfigurationViolation ReportEntry :=
  match entries.getLast? with
  | some entry => .ok entry
  | none => .error .malformed

/-- One descriptor of the second walk. -/
def visitReportLength (_offset : Nat) (bytes : List UInt8) : Checked ConfigurationViolation (List ReportEntry) := do
  let length ← index bytes 0
  let descriptor ← sliceTo bytes length.toNat
  let kind ← index descriptor 1
  if kind = descriptorInterface ∧ 3 ≤ length.toNat then
    let interface ← index descriptor 2
    pure (entries ++ [⟨interface, none, 0⟩])
  else if kind = descriptorHid then
    let entry ← lastEntry entries
    let declared ← mapError (.hidClassDescriptor entry.interface) (parseHidClassDescriptor descriptor)
    pure (entries.dropLast ++ [{ entry with declared := some declared, seen := entry.seen + 1 }])
  else pure entries

def usizeMax : Nat := 2 ^ 64 - 1

/-- Every entry saw one HID descriptor, of the authorized length. -/
def checkEntries (authorized : ReportLengths) : List ReportEntry → Checked ConfigurationViolation Unit
  | [] => .ok ()
  | entry :: entries => do
      let expected := (authorized.lookup entry.interface).getD usizeMax
      refuseIf (entry.seen ≠ 1 ∨ entry.declared.map UInt16.toNat ≠ some expected)
        (.reportLength entry.interface (if entry.seen = 1 then entry.declared else none) expected)
      checkEntries authorized entries

def checkReportLengths (bytes : List UInt8) (authorized : ReportLengths) : Checked ConfigurationViolation Unit := do
  let entries ← walkTiles 1 .panicked (fun _ _ => .malformed) visitReportLength bytes.length 0 bytes []
  checkEntries authorized entries

/-- A read past the header: the whole descriptor is parsed, under a standard configuration header. -/
def checkInterfaces (payload : List UInt8) (authorized : ReportLengths) : Checked ConfigurationViolation Unit := do
  let normalized := payload.set 1 descriptorConfiguration
  let parsed ← mapError .unparseable (parseConfigurationDescriptor normalized)
  let numbers ← collectNumbers ∅ parsed.interfaces
  refuseIf (numbers ≠ authorized.keys.toFinset) .interfaceSet
  checkReportLengths normalized authorized

def validateConfigurationDescriptor (payload : List UInt8) (descriptorType : UInt8) (authorized : ReportLengths) :
    Checked ConfigurationViolation Unit := do
  refuseIf ((payload[0]?.any fun length => length.toNat ≠ configurationHeaderLength) ∨
    payload[1]?.any fun kind => kind ≠ descriptorType) .malformed
  checkTotal payload
  checkInterfaceCount payload authorized
  if payload.length ≤ configurationHeaderLength then pure () else checkInterfaces payload authorized

/-! ### The guard -/

structure SetupPacket where
  requestType : UInt8
  request : UInt8
  value : UInt16
  index : UInt16
  length : UInt16

variable (setup : SetupPacket)

def SetupPacket.descriptorType : UInt8 := (setup.value >>> 8).toUInt8

def requestedReportDescriptorInterface : Option UInt8 :=
  if setup.requestType = requestTypeStandardInterfaceIn ∧ setup.request = requestGetDescriptor ∧
      setup.descriptorType = descriptorHidReport ∧ setup.index ≤ 0xFF then some setup.index.toUInt8
  else none

inductive Requested where
  | device
  | deviceQualifier
  | configuration (kind : UInt8)
  | report (interface : UInt8) (length : UInt16)
  deriving DecidableEq

def requested : Option Requested :=
  match requestedReportDescriptorInterface setup with
  | some interface => some (.report interface setup.length)
  | none =>
    if setup.requestType ≠ requestTypeStandardDeviceIn ∨ setup.request ≠ requestGetDescriptor then none
    else if setup.descriptorType = descriptorDevice then some .device
    else if setup.descriptorType = descriptorDeviceQualifier then some .deviceQualifier
    else if setup.descriptorType = descriptorConfiguration ∨
        setup.descriptorType = descriptorOtherSpeedConfiguration then some (.configuration setup.descriptorType)
    else none

structure BridgedDeviceGuard where
  identity : UsbDeviceId
  claims : List InterfaceReportDescriptor
  reportLengths : ReportLengths
  pending : AList fun _ : UrbId => Requested

namespace BridgedDeviceGuard

/-- `collect` into a map: a later claim on an interface replaces an earlier one. -/
def collectLengths (claims : List InterfaceReportDescriptor) : ReportLengths :=
  claims.foldl (fun lengths claim => lengths.insert claim.interface claim.descriptor.length) ∅

def new (identity : UsbDeviceId) (claims : List InterfaceReportDescriptor) : BridgedDeviceGuard where
  identity := identity
  claims := claims
  reportLengths := collectLengths claims
  pending := ∅

abbrev Reply := Checked BridgedDeviceViolation Unit

variable (guard : BridgedDeviceGuard)

def observeSubmit (urb : UrbId) (setup : Option SetupPacket) : BridgedDeviceGuard × Reply :=
  match setup.bind requested with
  | none => (guard, .ok ())
  | some request =>
    if maxInFlightUrbs ≤ guard.pending.keys.length ∧ urb ∉ guard.pending then (guard, .error .tooManyPending)
    else ({ guard with pending := guard.pending.insert urb request }, .ok ())

def observeCancel (urb : UrbId) : BridgedDeviceGuard := { guard with pending := guard.pending.erase urb }

/-- The report branch: the claimed bytes, or as many of them as the host asked for. -/
def checkReport (claims : List InterfaceReportDescriptor) (interface : UInt8) (length : UInt16)
    (payload : List UInt8) : Reply :=
  match claims.find? fun claim => claim.interface == interface with
  | none => .error (.reportUnclaimed interface)
  | some claim => do
      refuseIf (¬payload <+: claim.descriptor) (.reportMismatch interface)
      let expected := min claim.descriptor.length length.toNat
      refuseIf (payload.length ≠ expected) (.reportTruncated interface payload.length expected)

variable (guard : BridgedDeviceGuard)

def checkRequested (payload : List UInt8) : Requested → Reply
  | .device => mapError .device (validateDeviceDescriptor payload guard.identity)
  | .deviceQualifier => mapError .device (validateDeviceQualifier payload)
  | .configuration kind =>
    mapError .configuration (validateConfigurationDescriptor payload kind guard.reportLengths)
  | .report interface length => checkReport guard.claims interface length payload

def checkCompletion (urb : UrbId) (success : Bool) (payload : List UInt8) : BridgedDeviceGuard × Reply :=
  match guard.pending.lookup urb with
  | none => (guard, .ok ())
  | some request =>
    ({ guard with pending := guard.pending.erase urb },
      if success then guard.checkRequested payload request else .ok ())

/-- The calls the URB path makes on the guard. -/
inductive Call where
  | submit (urb : UrbId) (setup : Option SetupPacket)
  | cancel (urb : UrbId)
  | complete (urb : UrbId) (success : Bool) (payload : List UInt8)

/-- The request a call is about. -/
def Call.urb : Call → UrbId
  | .submit urb _ => urb
  | .cancel urb => urb
  | .complete urb _ _ => urb

def step : Call → BridgedDeviceGuard × Reply
  | .submit urb setup => guard.observeSubmit urb setup
  | .cancel urb => (guard.observeCancel urb, .ok ())
  | .complete urb success payload => guard.checkCompletion urb success payload

def machine (identity : UsbDeviceId) (claims : List InterfaceReportDescriptor) :
    Machine BridgedDeviceGuard Call Reply where
  init := new identity claims
  step := step

end BridgedDeviceGuard
end Arcen
