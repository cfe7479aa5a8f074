import Arcen.HidReportDescriptor

/-! The pen-tablet gate: classification of a device from its report descriptors
(`shared/usb-bridge/src/hid_digitizer.rs`) and authorization of a bridged tablet
(`shared/usb-bridge/src/tablet_claim.rs`). -/

namespace Arcen

/-- Maximum interfaces accepted for one bridged device. -/
def maxInterfaces : Nat := 16

def maxClaimedReportDescriptorBytes : Nat := 12 * 1024

inductive NotPenTablet where
  | noDescriptors
  | tooManyDescriptors
  | malformed (error : HidDescriptorError)
  | touchOnly
  | noPenCollection
  | vendorDigitizerOnly
  | disqualifyingCollection
  | noDigitizer
  deriving DecidableEq

inductive PenTabletEvidence where
  | digitizerPen
  | vendorDigitizerWithStandardDigitizer
  | vendorDigitizerPen
  deriving DecidableEq

structure PenTabletProfile where
  evidence : PenTabletEvidence
  capabilities : PenCapabilities
  deriving DecidableEq

variable (collection : TopLevelCollection)

/-- The Generic Desktop usage that makes a collection one that is never forwarded with a tablet. -/
def disqualifyingUsage : Option UInt16 :=
  if isControllerUsage collection.usagePage collection.usage then some collection.usage
  else collection.nestedControllerUsage

def isDisqualifying : Bool := (disqualifyingUsage collection).isSome

def disqualifyingCollection (descriptor : List UInt8) : Except HidDescriptorError (Option UInt16) := do
  let collections ← parseReportDescriptor descriptor
  return collections.findSome? disqualifyingUsage

/-- The loop that parses the descriptors, with the summaries so far. -/
def parseSummaries (summaries : List (List TopLevelCollection)) :
    List (List UInt8) → Except NotPenTablet (List (List TopLevelCollection))
  | [] => .ok summaries
  | descriptor :: rest =>
    if maxInterfaces ≤ summaries.length then .error .tooManyDescriptors
    else
      match parseReportDescriptor descriptor with
      | .error error => .error (.malformed error)
      | .ok summary => parseSummaries (summaries ++ [summary]) rest

/-- Classifies one device from the report descriptors of its HID interfaces. -/
def classifyPenTablet (descriptors : List (List UInt8)) : Except NotPenTablet PenTabletProfile := do
  let summaries ← parseSummaries [] descriptors
  let collections := summaries.flatten
  let ofClass (wanted : CollectionClass) := collections.filter fun collection => collection.collectionClass = wanted
  let pen := (ofClass .pen).foldl (fun merged collection =>
    some (merged.elim collection.capabilities fun merged => merged.merged collection.capabilities)) none
  let vendor := (ofClass .vendorDigitizer).foldl (fun merged collection => merged.merged collection.capabilities) {}
  let hasVendor := collections.any fun collection => collection.collectionClass = .vendorDigitizer
  let hasStandard := collections.any fun collection => collection.usagePage = usagePageDigitizer
  let vendorPen := collections.any fun collection => collection.collectionClass = .vendorDigitizer ∧
    (collection.usage = digitizerDigitizer ∨ collection.usage = digitizerPen)
  if summaries = [] then .error .noDescriptors
  else
    match pen with
    | some capabilities => .ok ⟨.digitizerPen, capabilities.merged vendor⟩
    | none =>
      if hasVendor ∧ hasStandard then .ok ⟨.vendorDigitizerWithStandardDigitizer, vendor⟩
      else if vendorPen then
        if collections.any isDisqualifying then .error .disqualifyingCollection
        else .ok ⟨.vendorDigitizerPen, vendor⟩
      else if hasVendor then .error .vendorDigitizerOnly
      else if collections.any fun collection => collection.collectionClass = .otherDigitizer then
        .error .noPenCollection
      else if collections.any fun collection => collection.collectionClass = .touch then .error .touchOnly
      else .error .noDigitizer

/-- One HID interface's report descriptor, as claimed for a bridged device. -/
structure InterfaceReportDescriptor where
  interface : UInt8
  descriptor : List UInt8
  deriving DecidableEq

/-- Why a device was not authorized as a pen tablet. -/
inductive HardUsbTabletDenial where
  | deviceClass (value : UInt8)
  | noDescriptors
  | tooManyDescriptors
  | duplicateInterface (interface : UInt8)
  | descriptorTooLarge (interface : UInt8)
  | descriptorsTooLarge (total : Nat)
  | notPenTablet (reason : NotPenTablet)
  | forwardsNonPenInput (interface : UInt8) (usage : UInt16)
  deriving DecidableEq

/-- The loop over the claims, with the interfaces seen so far: sizes and duplicates. -/
def checkClaims (earlier : List UInt8) : List InterfaceReportDescriptor → Except HardUsbTabletDenial Unit
  | [] => .ok ()
  | entry :: rest =>
    if maxHidReportDescriptorBytes < entry.descriptor.length then .error (.descriptorTooLarge entry.interface)
    else if entry.interface ∈ earlier then .error (.duplicateInterface entry.interface)
    else checkClaims (earlier ++ [entry.interface]) rest

/-- Everything that is forwarded is checked for game controllers. -/
def checkForwarded : List InterfaceReportDescriptor → Except HardUsbTabletDenial Unit
  | [] => .ok ()
  | entry :: rest =>
    match disqualifyingCollection entry.descriptor with
    | .error error => .error (.notPenTablet (.malformed error))
    | .ok (some usage) => .error (.forwardsNonPenInput entry.interface usage)
    | .ok none => checkForwarded rest

/-- Decides, from claimed facts alone, whether a device may be bridged as a pen tablet. -/
def authorizeHardUsbTablet (deviceClass : UInt8) (descriptors : List InterfaceReportDescriptor) :
    Except HardUsbTabletDenial PenTabletProfile :=
  let total := (descriptors.map (·.descriptor.length)).sum
  if deviceClass ≠ 0x00 ∧ deviceClass ≠ 0x03 then .error (.deviceClass deviceClass)
  else if descriptors = [] then .error .noDescriptors
  else if maxInterfaces < descriptors.length then .error .tooManyDescriptors
  else if maxClaimedReportDescriptorBytes < total then .error (.descriptorsTooLarge total)
  else do
    checkClaims [] descriptors
    match classifyPenTablet (descriptors.map (·.descriptor)) with
    | .error reason => .error (.notPenTablet reason)
    | .ok profile =>
      checkForwarded descriptors
      return profile

end Arcen
