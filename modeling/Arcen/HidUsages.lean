import Arcen.PenTabletGate

/-! The usages of a report descriptor as HID 1.11 section 6.2.2.8 defines them. A one- or two-byte usage takes
the usage page in force when the main item that consumes it is reached; a four-byte usage carries its own page.
The reader below keeps usages unresolved until then, and remembers the page each was read under, which is the
page the bounded parser gives it. -/

namespace Arcen

open List

/-- A usage as it stands in the descriptor, with the page in force when it was read. -/
structure UsageItem where
  explicitPage : Option UInt16
  usage : UInt16
  pageRead : UInt16
  deriving DecidableEq

namespace UsageItem

def ofItem (item : ShortItem) (page : UInt16) : UsageItem where
  explicitPage := if item.size = 4 then some (UInt16.ofNat (item.data.toNat / 2 ^ 16)) else none
  usage := item.data.toUInt16
  pageRead := page

def onPage (page : UInt16) (item : UsageItem) : UInt16 × UInt16 := (item.explicitPage.getD page, item.usage)

def asRead (item : UsageItem) : UInt16 × UInt16 := item.onPage item.pageRead

end UsageItem

inductive UsageEntry where
  | single (item : UsageItem)
  | range (minimum maximum : UsageItem)
  deriving DecidableEq

/-- The first usage an entry stands for; a range must lie on one page and be in order. -/
def UsageEntry.first (resolve : UsageItem → UInt16 × UInt16) : UsageEntry → Option (UInt16 × UInt16)
  | .single item => some (resolve item)
  | .range minimum maximum =>
    if (resolve minimum).1 = (resolve maximum).1 ∧ (resolve minimum).2 ≤ (resolve maximum).2 then
      some (resolve minimum)
    else none

/-- A Collection item with the usages it consumes and the page in force. -/
structure HidCollection where
  kind : UInt32
  entries : List UsageEntry
  page : UInt16
  deriving DecidableEq

namespace HidCollection

variable (collection : HidCollection)

def firstUsage : Option (UInt16 × UInt16) :=
  collection.entries.findSome? (UsageEntry.first (UsageItem.onPage collection.page))

/-- Its first usage if every usage kept the page it was read under. -/
def firstUsageAsRead : Option (UInt16 × UInt16) := collection.entries.findSome? (UsageEntry.first UsageItem.asRead)

/-- A physical, application or logical collection. -/
def isFunction : Bool := decide (collection.kind &&& 0xFF ≤ 2)

end HidCollection

/-- A first usage that is a joystick, gamepad or multi-axis controller. -/
def namesController (usage : Option (UInt16 × UInt16)) : Bool :=
  usage.any fun usage => isControllerUsage usage.1 usage.2

structure HidReader where
  page : UInt16 := 0
  pageStack : List UInt16 := []
  entries : List UsageEntry := []
  pendingMinimum : Option UsageItem := none
  collections : List HidCollection := []

namespace HidReader

variable (reader : HidReader)

def globalItem (item : ShortItem) : HidReader :=
  if item.tag = 0x0 then { reader with page := item.data.toUInt16 }
  else if item.tag = 0xA then { reader with pageStack := reader.page :: reader.pageStack }
  else if item.tag = 0xB then
    match reader.pageStack with
    | [] => reader
    | saved :: rest => { reader with page := saved, pageStack := rest }
  else reader

def localItem (item : ShortItem) : HidReader :=
  let usage := UsageItem.ofItem item reader.page
  if item.tag = 0x0 then { reader with entries := reader.entries ++ [.single usage] }
  else if item.tag = 0x1 then { reader with pendingMinimum := some usage }
  else if item.tag = 0x2 then
    match reader.pendingMinimum with
    | none => reader
    | some minimum => { reader with entries := reader.entries ++ [.range minimum usage], pendingMinimum := none }
  else reader

def mainItem (item : ShortItem) : HidReader :=
  let collections :=
    if item.tag = 0xA then reader.collections ++ [⟨item.data, reader.entries, reader.page⟩] else reader.collections
  { reader with entries := [], pendingMinimum := none, collections }

def item (reader : HidReader) (item : ShortItem) : HidReader :=
  if item.itemType = 0 then reader.mainItem item
  else if item.itemType = 1 then reader.globalItem item
  else if item.itemType = 2 then reader.localItem item
  else reader

end HidReader

def shortItems (offset : Nat) (bytes : List UInt8) : List ShortItem :=
  match bytes with
  | [] => []
  | lead :: rest =>
    match readItem offset lead rest with
    | .error _ => []
    | .ok (item, taken) => item.toList ++ shortItems (offset + 1 + taken) (rest.drop taken)
termination_by bytes.length

def hidCollections (descriptor : List UInt8) : List HidCollection :=
  ((shortItems 0 descriptor).foldl HidReader.item {}).collections

/-! ### Nesting -/

/-- Open applications are nested strictly, and while any collection is open one of them is at the top. -/
structure WellNested (depth : Nat) (openings : List Nat) : Prop where
  strict : openings.Pairwise (· > ·)
  inside : ∀ opening ∈ openings, opening < depth
  rooted : 0 < depth → 0 ∈ openings

namespace WellNested

variable {depth : Nat} {openings : List Nat}

theorem open_application (h : WellNested depth openings) : WellNested (depth + 1) (depth :: openings) where
  strict := pairwise_cons.mpr ⟨h.inside, h.strict⟩
  inside := forall_mem_cons.mpr ⟨Nat.lt_succ_self depth, fun opening ho => Nat.lt_succ_of_lt (h.inside opening ho)⟩
  rooted _ := by
    rcases Nat.eq_zero_or_pos depth with rfl | hpos
    · exact mem_cons_self
    · exact mem_cons_of_mem _ (h.rooted hpos)

theorem open_inner (h : WellNested depth openings) (hpos : 0 < depth) : WellNested (depth + 1) openings where
  strict := h.strict
  inside opening ho := Nat.lt_succ_of_lt (h.inside opening ho)
  rooted _ := h.rooted hpos

theorem close_application (h : WellNested (depth + 1) (depth :: openings)) : WellNested depth openings where
  strict := (pairwise_cons.mp h.strict).2
  inside := (pairwise_cons.mp h.strict).1
  rooted hpos := by
    rcases mem_cons.mp (h.rooted (Nat.succ_pos depth)) with hzero | hmem
    · omega
    · exact hmem

theorem close_inner (h : WellNested (depth + 1) openings) (hhead : openings.head? ≠ some depth) :
    WellNested depth openings where
  strict := h.strict
  inside opening ho := by
    have hlt := h.inside opening ho
    cases openings with
    | nil => cases ho
    | cons head =>
      have hne : head ≠ depth := fun heq => hhead (congrArg some heq)
      have hheadLt := h.inside head mem_cons_self
      rcases mem_cons.mp ho with rfl | hrest
      · omega
      · have hgt := (pairwise_cons.mp h.strict).1 opening hrest
        omega
  rooted _ := h.rooted (Nat.succ_pos depth)

end WellNested

end Arcen
