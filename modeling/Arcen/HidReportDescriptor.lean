import Arcen.Bytes

/-! The bounded HID report descriptor parser (`shared/usb-bridge/src/hid_digitizer.rs`). A descriptor is a
string of items; local items collect usages, a main item consumes them, and the application collections that
close are classified. The parser resolves the page of a usage when it reads the usage. -/

namespace Arcen

def maxHidReportDescriptorBytes : Nat := 4096
def maxCollectionDepth : Nat := 32
def maxTopLevelCollections : Nat := 64
def maxLocalUsages : Nat := 256
def maxGlobalStackDepth : Nat := 16

def usagePageGenericDesktop : UInt16 := 0x01
def usagePageDigitizer : UInt16 := 0x0D
/-- Vendor-defined page that mirrors the Digitizers page in its low byte. -/
def usagePageVendorDigitizer : UInt16 := 0xFF0D

def usageX : UInt16 := 0x30
def usageY : UInt16 := 0x31
def digitizerDigitizer : UInt16 := 0x01
def digitizerPen : UInt16 := 0x02
def digitizerTouchScreen : UInt16 := 0x04
def digitizerTouchPad : UInt16 := 0x05
def digitizerStylus : UInt16 := 0x20
def digitizerFinger : UInt16 := 0x22
def digitizerTipPressure : UInt16 := 0x30
def digitizerInRange : UInt16 := 0x32
def digitizerInvert : UInt16 := 0x3C
def digitizerXTilt : UInt16 := 0x3D
def digitizerYTilt : UInt16 := 0x3E
def digitizerTwist : UInt16 := 0x41
def digitizerTipSwitch : UInt16 := 0x42
def digitizerBarrelSwitch : UInt16 := 0x44
def digitizerEraser : UInt16 := 0x45
def digitizerContactIdentifier : UInt16 := 0x51
def digitizerSecondaryBarrelSwitch : UInt16 := 0x5A

/-- Signed logical and physical extent of one reported axis. -/
structure AxisRange where
  logicalMin : Int
  logicalMax : Int
  physicalMin : Int
  physicalMax : Int
  unit : UInt32
  unitExponent : Int
  deriving DecidableEq

/-- Pen surface a descriptor declares. -/
structure PenCapabilities where
  x : Option AxisRange := none
  y : Option AxisRange := none
  tipSwitch : Bool := false
  inRange : Bool := false
  pressure : Option AxisRange := none
  tiltX : Option AxisRange := none
  tiltY : Option AxisRange := none
  twist : Option AxisRange := none
  eraser : Bool := false
  barrelButtons : UInt8 := 0
  deriving DecidableEq

namespace PenCapabilities

/-- Position plus a contact or proximity signal. -/
def isPenShaped (capabilities : PenCapabilities) : Bool := capabilities.x.isSome && capabilities.y.isSome &&
    (capabilities.tipSwitch || capabilities.inRange || capabilities.pressure.isSome)

/-- Union of two declarations, keeping the first declared range per axis. -/
def merged (one other : PenCapabilities) : PenCapabilities where
  x := one.x.or other.x
  y := one.y.or other.y
  tipSwitch := one.tipSwitch || other.tipSwitch
  inRange := one.inRange || other.inRange
  pressure := one.pressure.or other.pressure
  tiltX := one.tiltX.or other.tiltX
  tiltY := one.tiltY.or other.tiltY
  twist := one.twist.or other.twist
  eraser := one.eraser || other.eraser
  barrelButtons := max one.barrelButtons other.barrelButtons

end PenCapabilities

inductive CollectionClass where
  | pen
  | vendorDigitizer
  | touch
  | otherDigitizer
  | other
  deriving DecidableEq

/-- One application collection's identity and declared pen surface. -/
structure TopLevelCollection where
  usagePage : UInt16
  usage : UInt16
  collectionClass : CollectionClass
  capabilities : PenCapabilities
  nested : Bool
  nestedControllerUsage : Option UInt16

inductive HidDescriptorError where
  | empty
  | tooLarge (actual : Nat)
  | truncated (offset : Nat)
  | unbalancedCollection (offset : Nat)
  | unterminatedCollection
  | collectionTooDeep
  | tooManyCollections
  | tooManyUsages
  | globalStack
  deriving DecidableEq

/-! ### Item state -/

structure GlobalState where
  usagePage : UInt16 := 0
  logicalMin : Int := 0
  logicalMaxRaw : UInt32 := 0
  logicalMaxSize : UInt8 := 0
  physicalMin : Int := 0
  physicalMaxRaw : UInt32 := 0
  physicalMaxSize : UInt8 := 0
  unit : UInt32 := 0
  unitExponent : Int := 0

def signExtend (raw : UInt32) (size : UInt8) : Int :=
  if size = 1 then Int.bmod raw.toNat (2 ^ 8)
  else if size = 2 then Int.bmod raw.toNat (2 ^ 16)
  else if size = 4 then Int.bmod raw.toNat (2 ^ 32)
  else 0

/-- A maximum is signed only when its minimum is negative. -/
def interpretMaximum (minimum : Int) (raw : UInt32) (size : UInt8) : Int :=
  if minimum < 0 then signExtend raw size else raw.toNat

def GlobalState.range (state : GlobalState) : AxisRange where
  logicalMin := state.logicalMin
  logicalMax := interpretMaximum state.logicalMin state.logicalMaxRaw state.logicalMaxSize
  physicalMin := state.physicalMin
  physicalMax := interpretMaximum state.physicalMin state.physicalMaxRaw state.physicalMaxSize
  unit := state.unit
  unitExponent := state.unitExponent

inductive LocalUsage where
  | single (page usage : UInt16)
  | range (page minimum maximum : UInt16)

structure LocalState where
  usages : List LocalUsage := []
  pendingMinimum : Option (UInt16 × UInt16) := none

def LocalState.push (state : LocalState) (usage : LocalUsage) : Except HidDescriptorError LocalState :=
  if maxLocalUsages ≤ state.usages.length then .error .tooManyUsages
  else .ok { state with usages := state.usages ++ [usage] }

structure OpenTopLevel where
  usagePage : UInt16
  usage : UInt16
  /-- Collection depth this application collection was opened at. -/
  openedAt : Nat
  stylus : Bool := false
  finger : Bool := false
  contactIdentifier : Bool := false
  nestedForeignApplication : Bool := false
  nestedControllerUsage : Option UInt16 := none
  capabilities : PenCapabilities := {}

/-- The Digitizers usage a usage on that page or on its vendor mirror stands for. -/
def digitizerEquivalent (page usage : UInt16) : Option UInt16 :=
  if page = usagePageDigitizer ∨ (page = usagePageVendorDigitizer ∧ usage ≤ 0xFF) then some usage else none

def extendedUsage (data : UInt32) (size : UInt8) (page : UInt16) : UInt16 × UInt16 :=
  if size = 4 then (UInt16.ofNat (data.toNat / 2 ^ 16), data.toUInt16) else (page, data.toUInt16)

def recordPosition (capabilities : PenCapabilities) (usage : UInt16) (range : AxisRange) : PenCapabilities :=
  if usage = usageX then { capabilities with x := capabilities.x.or (some range) }
  else if usage = usageY then { capabilities with y := capabilities.y.or (some range) }
  else capabilities

def recordDigitizer (capabilities : PenCapabilities) (digitizer : UInt16) (range : AxisRange) : PenCapabilities :=
  if digitizer = digitizerTipPressure then { capabilities with pressure := capabilities.pressure.or (some range) }
  else if digitizer = digitizerInRange then { capabilities with inRange := true }
  else if digitizer = digitizerXTilt then { capabilities with tiltX := capabilities.tiltX.or (some range) }
  else if digitizer = digitizerYTilt then { capabilities with tiltY := capabilities.tiltY.or (some range) }
  else if digitizer = digitizerTwist then { capabilities with twist := capabilities.twist.or (some range) }
  else if digitizer = digitizerTipSwitch then { capabilities with tipSwitch := true }
  else if digitizer = digitizerEraser ∨ digitizer = digitizerInvert then { capabilities with eraser := true }
  else if digitizer = digitizerBarrelSwitch ∨ digitizer = digitizerSecondaryBarrelSwitch then
    -- the count saturates
    { capabilities with barrelButtons :=
        if capabilities.barrelButtons = 255 then 255 else capabilities.barrelButtons + 1 }
  else capabilities

def recordInput (top : OpenTopLevel) (page usage : UInt16) (range : AxisRange) : OpenTopLevel :=
  if page = usagePageGenericDesktop then { top with capabilities := recordPosition top.capabilities usage range }
  else
    match digitizerEquivalent page usage with
    | none => top
    | some digitizer =>
      { top with
        capabilities := recordDigitizer top.capabilities digitizer range
        contactIdentifier := top.contactIdentifier || decide (digitizer = digitizerContactIdentifier) }

def closeTopLevel (top : OpenTopLevel) : TopLevelCollection :=
  let page := top.usagePage
  let penUsage := top.usage = digitizerPen ∨ top.usage = digitizerDigitizer ∨ top.usage = digitizerStylus
  let touchUsage := top.usage = digitizerTouchScreen ∨ top.usage = digitizerTouchPad
  let touchShaped := (top.finger || top.contactIdentifier) && !top.stylus
  { usagePage := page
    usage := top.usage
    collectionClass :=
      if page = usagePageDigitizer then
        if top.capabilities.isPenShaped ∧ (top.stylus ∨ (penUsage ∧ ¬ touchShaped)) ∧ (¬ touchUsage ∨ top.stylus)
        then .pen
        else if touchUsage ∨ touchShaped then .touch
        else .otherDigitizer
      else if page = usagePageVendorDigitizer ∧ top.nestedForeignApplication = false then .vendorDigitizer
      else .other
    capabilities := top.capabilities
    nested := decide (0 < top.openedAt)
    nestedControllerUsage := top.nestedControllerUsage }

/-- Generic Desktop joystick, gamepad or multi-axis controller. -/
def isControllerUsage (page usage : UInt16) : Bool :=
  page == usagePageGenericDesktop && (usage == 0x04 || usage == 0x05 || usage == 0x08)

def isDigitizerApplication (page : UInt16) : Bool := page == usagePageDigitizer || page == usagePageVendorDigitizer

def recognisedUsages : List UInt16 :=
  [usageX, usageY, digitizerTipPressure, digitizerInRange, digitizerXTilt, digitizerYTilt, digitizerTwist,
    digitizerTipSwitch, digitizerBarrelSwitch, digitizerEraser, digitizerInvert, digitizerSecondaryBarrelSwitch]

structure ShortItem where
  offset : Nat
  itemType : UInt8
  tag : UInt8
  size : UInt8
  data : UInt32

/-- The parser's state; open application collections innermost first. -/
structure DescriptorParser where
  collections : List TopLevelCollection := []
  global : GlobalState := {}
  globalStack : List GlobalState := []
  localState : LocalState := {}
  depth : Nat := 0
  applications : List OpenTopLevel := []

namespace DescriptorParser

/-- Records every usage of an input; a range records the usages it holds that the parser can act on. -/
def recordUsages (range : AxisRange) (top : OpenTopLevel) (usages : List LocalUsage) : OpenTopLevel :=
  usages.foldl (fun top usage =>
    match usage with
    | .single page usage => recordInput top page usage range
    | .range page minimum maximum =>
      recognisedUsages.foldl (fun top usage =>
        if minimum ≤ usage ∧ usage ≤ maximum then recordInput top page usage range else top) top) top

def input (parser : DescriptorParser) : DescriptorParser :=
  match parser.applications with
  | [] => parser
  | innermost :: outer =>
    { parser with applications := recordUsages parser.global.range innermost parser.localState.usages :: outer }

def firstUsage (parser : DescriptorParser) : UInt16 × UInt16 :=
  match parser.localState.usages.head? with
  | some (.single page usage) => (page, usage)
  | some (.range page minimum _) => (page, minimum)
  | none => (parser.global.usagePage, 0)

def collectionApplication : UInt32 := 0x01

/-- Marks the innermost application as wrapping another device's application collection. -/
def markForeign (page : UInt16) : List OpenTopLevel → List OpenTopLevel
  | [] => []
  | parent :: outer =>
    (if isDigitizerApplication page then parent else { parent with nestedForeignApplication := true }) :: outer

/-- What a collection that is no application says about the innermost application. -/
def noteInner (page usage : UInt16) : List OpenTopLevel → List OpenTopLevel
  | [] => []
  | innermost :: outer =>
    let equivalent := digitizerEquivalent page usage
    { innermost with
      stylus := innermost.stylus || decide (equivalent = some digitizerStylus)
      finger := innermost.finger || decide (equivalent = some digitizerFinger)
      nestedControllerUsage :=
        if isControllerUsage page usage ∧ innermost.nestedControllerUsage = none then some usage
        else innermost.nestedControllerUsage } :: outer

variable (parser : DescriptorParser)

def openCollection (kind : UInt32) : Except HidDescriptorError DescriptorParser :=
  if maxCollectionDepth ≤ parser.depth then .error .collectionTooDeep
  else
    let (page, usage) := parser.firstUsage
    if parser.depth = 0 ∨ kind &&& 0xFF = collectionApplication then
      if maxTopLevelCollections ≤ parser.collections.length + parser.applications.length then
        .error .tooManyCollections
      else
        .ok { parser with
          applications := { usagePage := page, usage, openedAt := parser.depth } :: markForeign page parser.applications
          depth := parser.depth + 1 }
    else .ok { parser with applications := noteInner page usage parser.applications, depth := parser.depth + 1 }

def closeCollection (offset : Nat) : Except HidDescriptorError DescriptorParser :=
  match parser.depth with
  | 0 => .error (.unbalancedCollection offset)
  | depth + 1 =>
    match parser.applications with
    | innermost :: outer =>
      if innermost.openedAt = depth then
        .ok { parser with
          collections := parser.collections ++ [closeTopLevel innermost], applications := outer, depth }
      else .ok { parser with depth }
    | [] => .ok { parser with depth }

def mainItem (item : ShortItem) : Except HidDescriptorError DescriptorParser :=
  -- constant input fields are padding and declare nothing
  if item.tag = 0x8 ∧ item.data &&& 0x01 = 0 then .ok parser.input
  else if item.tag = 0xA then parser.openCollection item.data
  else if item.tag = 0xC then parser.closeCollection item.offset
  else .ok parser

def globalItem (item : ShortItem) : Except HidDescriptorError DescriptorParser :=
  let update (global : GlobalState) : Except HidDescriptorError DescriptorParser := .ok { parser with global }
  let global := parser.global
  if item.tag = 0x0 then update { global with usagePage := item.data.toUInt16 }
  else if item.tag = 0x1 then update { global with logicalMin := signExtend item.data item.size }
  else if item.tag = 0x2 then update { global with logicalMaxRaw := item.data, logicalMaxSize := item.size }
  else if item.tag = 0x3 then update { global with physicalMin := signExtend item.data item.size }
  else if item.tag = 0x4 then update { global with physicalMaxRaw := item.data, physicalMaxSize := item.size }
  else if item.tag = 0x5 then update { global with unitExponent := Int.bmod item.data.toNat 16 }
  else if item.tag = 0x6 then update { global with unit := item.data }
  else if item.tag = 0xA then
    if maxGlobalStackDepth ≤ parser.globalStack.length then .error .globalStack
    else .ok { parser with globalStack := global :: parser.globalStack }
  else if item.tag = 0xB then
    match parser.globalStack with
    | [] => .error .globalStack
    | saved :: rest => .ok { parser with global := saved, globalStack := rest }
  else .ok parser

def localItem (item : ShortItem) : Except HidDescriptorError DescriptorParser :=
  let (page, usage) := extendedUsage item.data item.size parser.global.usagePage
  if item.tag = 0x0 then do
    let localState ← parser.localState.push (.single page usage)
    return { parser with localState }
  else if item.tag = 0x1 then .ok { parser with localState.pendingMinimum := some (page, usage) }
  else if item.tag = 0x2 then
    let taken := { parser.localState with pendingMinimum := none }
    match parser.localState.pendingMinimum with
    | none => .ok { parser with localState := taken }
    | some (minimumPage, minimum) =>
      if minimumPage = page ∧ minimum ≤ usage then do
        let localState ← taken.push (.range page minimum usage)
        return { parser with localState }
      else .ok { parser with localState := taken }
  else .ok parser

def item (parser : DescriptorParser) (item : ShortItem) : Except HidDescriptorError DescriptorParser :=
  if item.itemType = 0 then do
    let next ← parser.mainItem item
    return { next with localState := {} }
  else if item.itemType = 1 then parser.globalItem item
  else if item.itemType = 2 then parser.localItem item
  else .ok parser

end DescriptorParser

/-- Reads the item that starts at an offset: a short item, or a long one (skipped by its declared length),
with the number of bytes behind its first. -/
def readItem (offset : Nat) (lead : UInt8) (rest : List UInt8) : Except HidDescriptorError (Option ShortItem × Nat) :=
  if lead = 0xFE then
    match rest with
    | [] => .error (.truncated offset)
    | size :: _ =>
      if rest.length < 2 + size.toNat then .error (.truncated offset) else .ok (none, 2 + size.toNat)
  else
    let size : UInt8 := if lead &&& 0x03 = 3 then 4 else lead &&& 0x03
    if rest.length < size.toNat then .error (.truncated offset)
    else
      .ok (some
        { offset, itemType := (lead >>> 2) &&& 0x03, tag := lead >>> 4, size,
          data := u32FromLeBytes (rest.take size.toNat) }, size.toNat)

def parseItems (offset : Nat) (bytes : List UInt8) (parser : DescriptorParser) :
    Except HidDescriptorError DescriptorParser :=
  match bytes with
  | [] => .ok parser
  | lead :: rest =>
    match readItem offset lead rest with
    | .error error => .error error
    | .ok (none, taken) => parseItems (offset + 1 + taken) (rest.drop taken) parser
    | .ok (some item, taken) =>
      match parser.item item with
      | .error error => .error error
      | .ok next => parseItems (offset + 1 + taken) (rest.drop taken) next
termination_by bytes.length

/-- Parses one HID report descriptor into its application collections, in the order they close. -/
def parseReportDescriptor (bytes : List UInt8) : Except HidDescriptorError (List TopLevelCollection) :=
  if bytes = [] then .error .empty
  else if maxHidReportDescriptorBytes < bytes.length then .error (.tooLarge bytes.length)
  else
    match parseItems 0 bytes {} with
    | .error error => .error error
    | .ok parser => if parser.depth ≠ 0 then .error .unterminatedCollection else .ok parser.collections

end Arcen
