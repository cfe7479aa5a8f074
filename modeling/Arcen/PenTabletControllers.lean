import Arcen.Fallible
import Arcen.HidUsages

/-! Game controllers at the pen-tablet gate. The bounded parser follows the HID reader item by item, and marks a
descriptor as soon as a collection opens whose first usage, on the pages the usages were read under, is a
controller. It does not see a controller whose page changes between its usage and its collection. -/

namespace Arcen

open OpenTopLevel UsageEntry List

variable (top : OpenTopLevel)

/-- An open application that is a controller, or holds one. -/
def OpenTopLevel.isFlagged : Bool := isControllerUsage top.usagePage top.usage || top.nestedControllerUsage.isSome

theorem isDisqualifying_closeTopLevel : isDisqualifying (closeTopLevel top) = top.isFlagged := by
  simp only [isDisqualifying, disqualifyingUsage, closeTopLevel, isFlagged]
  split_ifs with h <;> simp [h]

theorem namesController_iff {first : Option (UInt16 × UInt16)} :
    namesController first = true ↔ ∃ usage, first = some usage ∧ isControllerUsage usage.1 usage.2 = true := by
  cases first <;> simp [namesController]

/-! ### What recording an input leaves alone -/

/-- What decides whether an application is flagged, and where it closes. -/
def OpenTopLevel.identity : UInt16 × UInt16 × Nat × Option UInt16 :=
  (top.usagePage, top.usage, top.openedAt, top.nestedControllerUsage)

variable {top other : OpenTopLevel} {entry : InterfaceReportDescriptor} {deviceClass : UInt8}
  {profile : PenTabletProfile}

theorem isFlagged_of_identity (h : top.identity = other.identity) : top.isFlagged = other.isFlagged := by
  simp only [identity, Prod.mk.injEq] at h
  simp only [isFlagged, h]

theorem openedAt_of_identity (h : top.identity = other.identity) : top.openedAt = other.openedAt := by
  simp only [identity, Prod.mk.injEq] at h
  exact h.2.2.1

theorem identity_recordInput (top : OpenTopLevel) (page usage : UInt16) (range : AxisRange) :
    (recordInput top page usage range).identity = top.identity := by
  unfold recordInput
  split
  · rfl
  · split <;> rfl

theorem foldl_identity {f : OpenTopLevel → α → OpenTopLevel} (hf : ∀ top a, (f top a).identity = top.identity)
    (items : List α) (top : OpenTopLevel) : (items.foldl f top).identity = top.identity := by
  induction items generalizing top with
  | nil => rfl
  | cons a items ih => rw [foldl_cons, ih, hf]

theorem identity_recordUsages (range : AxisRange) (top : OpenTopLevel) (usages : List LocalUsage) :
    (DescriptorParser.recordUsages range top usages).identity = top.identity := by
  refine foldl_identity (fun top usage => ?_) usages top
  cases usage with
  | single page usage => exact identity_recordInput top page usage range
  | range page =>
    refine foldl_identity (fun top usage => ?_) recognisedUsages top
    split
    · exact identity_recordInput top page usage range
    · rfl

/-! ### The usages, as read -/

def UsageEntry.asRead : UsageEntry → Option LocalUsage
  | .single item => some (.single item.asRead.1 item.asRead.2)
  | .range minimum maximum =>
    if minimum.asRead.1 = maximum.asRead.1 ∧ minimum.asRead.2 ≤ maximum.asRead.2 then
      some (.range maximum.asRead.1 minimum.asRead.2 maximum.asRead.2)
    else none

def LocalUsage.first : LocalUsage → UInt16 × UInt16
  | .single page usage => (page, usage)
  | .range page minimum _ => (page, minimum)

theorem UsageEntry.first_asRead (entry : UsageEntry) : entry.first UsageItem.asRead = entry.asRead.map LocalUsage.first := by
  cases entry with
  | single => rfl
  | range =>
    simp only [first, asRead]
    split_ifs with h
    · simp [LocalUsage.first, ← h.1]
    · rfl

theorem extendedUsage_eq (item : ShortItem) (page : UInt16) :
    extendedUsage item.data item.size page = (UsageItem.ofItem item page).asRead := by
  simp only [extendedUsage, UsageItem.ofItem, UsageItem.asRead, UsageItem.onPage]
  split_ifs <;> rfl

namespace DescriptorParser

/-- The descriptor has been found to hold a controller. -/
def Flagged (parser : DescriptorParser) : Prop :=
  parser.collections.any isDisqualifying = true ∨ parser.applications.any isFlagged = true

structure Follows (parser : DescriptorParser) (reader : HidReader) : Prop where
  page : parser.global.usagePage = reader.page
  stack : parser.globalStack.map (·.usagePage) = reader.pageStack
  usages : parser.localState.usages = reader.entries.filterMap asRead
  pending : parser.localState.pendingMinimum = reader.pendingMinimum.map UsageItem.asRead
  nested : WellNested parser.depth (parser.applications.map (·.openedAt))
  flagged : ∀ collection ∈ reader.collections, namesController collection.firstUsageAsRead = true → parser.Flagged

variable {parser next : DescriptorParser} {reader : HidReader} {item : ShortItem}

theorem Follows.init : Follows {} {} := ⟨rfl, rfl, rfl, rfl, ⟨List.Pairwise.nil, by simp, by simp⟩, by simp⟩

theorem Follows.firstUsage (h : Follows parser reader) {usage : UInt16 × UInt16}
    (hfst : (HidCollection.mk kind reader.entries reader.page).firstUsageAsRead = some usage) :
    parser.firstUsage = usage := by
  have hh : (parser.localState.usages.head?).map LocalUsage.first = some usage := by
    rw [h.usages, head?_filterMap, ← hfst, HidCollection.firstUsageAsRead]
    induction reader.entries with
    | nil => rfl
    | cons entry entries ih =>
      simp only [findSome?_cons, first_asRead]
      cases entry.asRead with
      | none => exact ih
      | some => rfl
  unfold DescriptorParser.firstUsage
  cases husag : parser.localState.usages.head? with
  | none => simp [husag] at hh
  | some entry =>
    rw [husag, Option.map_some, Option.some.injEq] at hh
    cases entry <;> exact hh

/-! ### Collections -/

theorem any_markForeign (page : UInt16) (apps : List OpenTopLevel) :
    (markForeign page apps).any isFlagged = apps.any isFlagged := by
  cases apps with
  | nil => rfl
  | cons =>
    simp only [markForeign]
    split <;> rfl

theorem openedAt_markForeign (page : UInt16) (apps : List OpenTopLevel) :
    (markForeign page apps).map (·.openedAt) = apps.map (·.openedAt) := by
  cases apps with
  | nil => rfl
  | cons =>
    simp only [markForeign]
    split <;> rfl

theorem openedAt_noteInner (page usage : UInt16) (apps : List OpenTopLevel) :
    (noteInner page usage apps).map (·.openedAt) = apps.map (·.openedAt) := by
  cases apps <;> rfl

/-- A collection inside an application keeps its flag, and raises it when it is a controller. -/
theorem any_noteInner {page usage : UInt16} (hne : apps ≠ [])
    (h : apps.any isFlagged = true ∨ isControllerUsage page usage = true) :
    (noteInner page usage apps).any isFlagged = true := by
  obtain ⟨_, _, rfl⟩ := exists_cons_of_ne_nil hne
  simp only [noteInner, any_cons, Bool.or_eq_true, isFlagged] at h ⊢
  rcases h with ((hu | hn) | houter) | hctrl
  · exact Or.inl (Or.inl hu)
  · refine Or.inl (Or.inr ?_)
    split
    · rfl
    · exact hn
  · exact Or.inr houter
  · refine Or.inl (Or.inr ?_)
    split
    · rfl
    · next hnot =>
        rw [Option.isSome_iff_ne_none]
        exact fun hnone => hnot ⟨hctrl, hnone⟩

theorem openCollection_cases (h : parser.openCollection kind = .ok next) : next = { parser with
        applications := { usagePage := parser.firstUsage.1, usage := parser.firstUsage.2, openedAt := parser.depth } ::
          markForeign parser.firstUsage.1 parser.applications
        depth := parser.depth + 1 } ∨ 0 < parser.depth ∧ next = { parser with
        applications := noteInner parser.firstUsage.1 parser.firstUsage.2 parser.applications
        depth := parser.depth + 1 } := by
  unfold openCollection at h
  split at h
  · cases h
  · dsimp only at h
    split at h
    · split at h
      · cases h
      · cases h
        exact Or.inl rfl
    · next happl =>
        cases h
        exact Or.inr ⟨Nat.pos_of_ne_zero fun hzero => happl (Or.inl hzero), rfl⟩

theorem closeCollection_cases (h : parser.closeCollection offset = .ok next) : ∃ depth, parser.depth = depth + 1 ∧
      ((∃ innermost outer, parser.applications = innermost :: outer ∧ innermost.openedAt = depth ∧
          next = { parser with
            collections := parser.collections ++ [closeTopLevel innermost], applications := outer, depth }) ∨
        (parser.applications.map (·.openedAt)).head? ≠ some depth ∧ next = { parser with depth }) := by
  unfold closeCollection at h
  split at h
  · cases h
  · next depth hd =>
      refine ⟨depth, hd, ?_⟩
      split at h
      · next innermost outer ha =>
          split at h
          · next ho =>
              cases h
              exact Or.inl ⟨innermost, outer, ha, ho, rfl⟩
          · next ho =>
              cases h
              refine Or.inr ⟨?_, rfl⟩
              rw [ha]
              exact fun hh => ho (Option.some.inj hh)
      · next ha =>
          cases h
          exact Or.inr ⟨by simp [ha], rfl⟩

/-! ### The parser follows the reader -/

theorem input_eq (parser : DescriptorParser) : ∃ applications, parser.input = { parser with applications } := by
  unfold DescriptorParser.input
  split
  · exact ⟨_, rfl⟩
  · exact ⟨_, rfl⟩

theorem Flagged.input (h : parser.Flagged) : parser.input.Flagged := by
  unfold DescriptorParser.input
  split
  · exact h
  · next innermost outer ha =>
      refine h.imp_right fun hany => ?_
      rw [ha, any_cons] at hany
      rw [any_cons, isFlagged_of_identity (identity_recordUsages _ _ _)]
      exact hany

theorem openedAt_input : parser.input.applications.map (·.openedAt) = parser.applications.map (·.openedAt) := by
  unfold DescriptorParser.input
  split
  · rfl
  · next innermost outer ha =>
      rw [ha, map_cons, map_cons, openedAt_of_identity (identity_recordUsages _ _ _)]

section

variable (h : Follows parser reader)
include h

/-- A main item drops the local items on both sides. -/
theorem Follows.consume {collections : List HidCollection}
    (hg : next.global = parser.global) (hstack : next.globalStack = parser.globalStack)
    (hn : WellNested next.depth (next.applications.map (·.openedAt)))
    (hflag : ∀ coll ∈ collections, namesController coll.firstUsageAsRead = true → next.Flagged) :
    Follows { next with localState := {} } { reader with entries := [], pendingMinimum := none, collections } :=
  ⟨hg ▸ h.page, hstack ▸ h.stack, rfl, rfl, hn, hflag⟩

theorem Follows.opened (hopen : parser.openCollection kind = .ok next) :
    Follows { next with localState := {} } { reader with
      entries := [], pendingMinimum := none
      collections := reader.collections ++ [⟨kind, reader.entries, reader.page⟩] } := by
  have hctrl : namesController (HidCollection.mk kind reader.entries reader.page).firstUsageAsRead = true →
      isControllerUsage parser.firstUsage.1 parser.firstUsage.2 = true := by
    intro hnm
    obtain ⟨_, hfst, hu⟩ := namesController_iff.mp hnm
    rw [h.firstUsage hfst]
    exact hu
  -- old controllers stay flagged, and the new one is
  have hcases : ∀ coll ∈ reader.collections ++ [⟨kind, reader.entries, reader.page⟩],
      namesController coll.firstUsageAsRead = true →
        parser.Flagged ∨ isControllerUsage parser.firstUsage.1 parser.firstUsage.2 = true := by
    intro coll hc hnm
    rcases mem_append.mp hc with hold | hnew
    · exact Or.inl (h.flagged coll hold hnm)
    · rw [mem_singleton.mp hnew] at hnm
      exact Or.inr (hctrl hnm)
  rcases openCollection_cases hopen with rfl | ⟨hpos, rfl⟩
  · refine h.consume rfl rfl ?_ fun coll hc hnm => ?_
    · rw [map_cons, openedAt_markForeign]
      exact h.nested.open_application
    · rcases hcases coll hc hnm with (hclos | ho) | hu
      · exact Or.inl hclos
      · exact Or.inr (by rw [any_cons, any_markForeign, ho, Bool.or_true])
      · exact Or.inr (by rw [any_cons, isFlagged, hu, Bool.true_or, Bool.true_or])
  · have hne : parser.applications ≠ [] := by
      rintro hnil
      have hroot := h.nested.rooted hpos
      simp [hnil] at hroot
    refine h.consume rfl rfl ?_ fun coll hc hnm => ?_
    · rw [openedAt_noteInner]
      exact h.nested.open_inner hpos
    · rcases hcases coll hc hnm with (hclos | ho) | hu
      · exact Or.inl hclos
      · exact Or.inr (any_noteInner hne (Or.inl ho))
      · exact Or.inr (any_noteInner hne (Or.inr hu))

theorem Follows.closed (hcl : parser.closeCollection offset = .ok next) :
    Follows { next with localState := {} } { reader with entries := [], pendingMinimum := none } := by
  have hn := h.nested
  obtain ⟨_, hd, ⟨_, _, ha, ho, rfl⟩ | ⟨hh, rfl⟩⟩ := closeCollection_cases hcl
  · rw [hd, ha, map_cons, ho] at hn
    refine h.consume rfl rfl hn.close_application fun coll hc hnm => ?_
    rcases h.flagged coll hc hnm with hclos | hopen
    · exact Or.inl (by rw [any_append, hclos, Bool.true_or])
    · rw [ha, any_cons, Bool.or_eq_true] at hopen
      rcases hopen with hinner | houter
      · exact Or.inl (by
          rw [any_append, any_cons, isDisqualifying_closeTopLevel, hinner, Bool.true_or, Bool.or_true])
      · exact Or.inr houter
  · rw [hd] at hn
    exact h.consume rfl rfl (hn.close_inner hh) h.flagged

theorem Follows.main (hm : parser.mainItem item = .ok next) :
    Follows { next with localState := {} } (reader.mainItem item) := by
  unfold mainItem at hm
  unfold HidReader.mainItem
  split at hm
  · next ht =>
      cases hm
      rw [ht.1]
      obtain ⟨_, hin⟩ := parser.input_eq
      refine h.consume (by rw [hin]) (by rw [hin]) ?_ fun coll hc hnm => (h.flagged coll hc hnm).input
      rw [openedAt_input, hin]
      exact h.nested
  · split at hm
    · next ht =>
        simp only [ht, if_true]
        exact h.opened hm
    · next ht =>
        simp only [ht, if_false]
        split at hm
        · exact h.closed hm
        · cases hm
          exact h.consume rfl rfl h.nested h.flagged

theorem Follows.globals (hg : parser.globalItem item = .ok next) : Follows next (reader.globalItem item) := by
  -- an item that is neither a page nor a push or pop keeps the page
  have hkeep : item.tag ≠ 0x0 → item.tag ≠ 0xA → item.tag ≠ 0xB → ∀ global : GlobalState,
      { parser with global } = next → global.usagePage = parser.global.usagePage →
        Follows next (reader.globalItem item) := by
    rintro h0 hA hB global rfl hpage
    rw [HidReader.globalItem, if_neg h0, if_neg hA, if_neg hB]
    exact ⟨hpage.trans h.page, h.stack, h.usages, h.pending, h.nested, h.flagged⟩
  simp only [globalItem] at hg
  split_ifs at hg with h0 h1 h2 h3 h4 h5 h6 hA hfull hB
  · cases hg
    rw [HidReader.globalItem, if_pos h0]
    exact ⟨rfl, h.stack, h.usages, h.pending, h.nested, h.flagged⟩
  · exact hkeep h0 (by simp [h1]) (by simp [h1]) _ (Except.ok.inj hg) rfl
  · exact hkeep h0 (by simp [h2]) (by simp [h2]) _ (Except.ok.inj hg) rfl
  · exact hkeep h0 (by simp [h3]) (by simp [h3]) _ (Except.ok.inj hg) rfl
  · exact hkeep h0 (by simp [h4]) (by simp [h4]) _ (Except.ok.inj hg) rfl
  · exact hkeep h0 (by simp [h5]) (by simp [h5]) _ (Except.ok.inj hg) rfl
  · exact hkeep h0 (by simp [h6]) (by simp [h6]) _ (Except.ok.inj hg) rfl
  · -- push
    cases hg
    rw [HidReader.globalItem, if_neg h0, if_pos hA]
    exact ⟨h.page, by rw [map_cons, h.page, h.stack], h.usages, h.pending, h.nested, h.flagged⟩
  · -- pop
    rw [HidReader.globalItem, if_neg h0, if_neg hA, if_pos hB, ← h.stack]
    split at hg
    · cases hg
    · next saved rest hstack =>
        cases hg
        rw [hstack]
        exact ⟨rfl, rfl, h.usages, h.pending, h.nested, h.flagged⟩
  · exact hkeep h0 hA hB _ (Except.ok.inj hg) rfl

end

theorem push_eq_ok {state after : LocalState} {usage : LocalUsage} (h : state.push usage = .ok after) :
    after = { state with usages := state.usages ++ [usage] } := by
  unfold LocalState.push at h
  split at h
  · cases h
  · cases h
    rfl

variable (h : Follows parser reader)
include h

theorem Follows.locals (hl : parser.localItem item = .ok next) : Follows next (reader.localItem item) := by
  have hu := extendedUsage_eq item parser.global.usagePage
  rw [h.page] at hu
  simp only [localItem, HidReader.localItem, h.page, hu] at hl ⊢
  split_ifs at hl ⊢ with h0 h1 h2
  · obtain ⟨_, hpush, hl⟩ := exceptBind_eq_ok.mp hl
    cases hl
    rw [push_eq_ok hpush]
    exact ⟨h.page, h.stack, by rw [filterMap_append, ← h.usages]; rfl, h.pending, h.nested, h.flagged⟩
  · cases hl
    exact ⟨h.page, h.stack, h.usages, rfl, h.nested, h.flagged⟩
  · cases hpend : reader.pendingMinimum with
    | none =>
      simp only [h.pending, hpend, Option.map_none] at hl ⊢
      cases hl
      exact ⟨h.page, h.stack, h.usages, by rw [hpend]; rfl, h.nested, h.flagged⟩
    | some minimum =>
      simp only [h.pending, hpend, Option.map_some] at hl ⊢
      split_ifs at hl with hrng
      · obtain ⟨_, hpush, hl⟩ := exceptBind_eq_ok.mp hl
        cases hl
        rw [push_eq_ok hpush]
        refine ⟨h.page, h.stack, ?_, rfl, h.nested, h.flagged⟩
        simp only [filterMap_append, filterMap_cons, filterMap_nil, asRead, if_pos hrng, ← h.usages]
      · cases hl
        refine ⟨h.page, h.stack, ?_, rfl, h.nested, h.flagged⟩
        simp only [filterMap_append, filterMap_cons, filterMap_nil, asRead, if_neg hrng, append_nil, ← h.usages]
  · cases hl
    exact h

/-- **One item.** -/
theorem Follows.step (hi : parser.item item = .ok next) : Follows next (reader.item item) := by
  unfold DescriptorParser.item at hi
  unfold HidReader.item
  split_ifs at hi ⊢ with h0 h1 h2
  · obtain ⟨_, hm, hi⟩ := exceptBind_eq_ok.mp hi
    cases hi
    exact h.main hm
  · exact h.globals hi
  · exact h.locals hi
  · cases hi
    exact h

/-- The whole loop: the parser follows the reader over the items of the descriptor. -/
theorem Follows.parseItems (hp : Arcen.parseItems offset bytes parser = .ok next) :
    Follows next ((shortItems offset bytes).foldl HidReader.item reader) := by
  induction offset, bytes, parser using Arcen.parseItems.induct generalizing reader with
  | case1 =>
    rw [Arcen.parseItems] at hp
    cases hp
    rw [shortItems]
    exact h
  | case2 _ _ _ _ _ hr =>
    rw [Arcen.parseItems, hr] at hp
    cases hp
  | case3 offset parser lead rest taken hr ih =>
    rw [Arcen.parseItems, hr] at hp
    rw [shortItems, hr]
    exact ih h hp
  | case4 _ _ _ _ _ _ hr _ hi =>
    rw [Arcen.parseItems, hr] at hp
    simp only [hi] at hp
    cases hp
  | case5 offset parser lead rest item taken hr after hi ih =>
    rw [Arcen.parseItems, hr] at hp
    simp only [hi] at hp
    rw [shortItems, hr]
    exact ih (h.step hi) hp

end DescriptorParser

/-! ### The gate -/

variable {coll : HidCollection} {descs : List InterfaceReportDescriptor}

/-- A descriptor that parses is disqualified by every controller the parser can see. -/
theorem disqualified_of_asRead
    (hp : parseReportDescriptor desc = .ok collections)
    (hc : coll ∈ hidCollections desc)
    (hnm : namesController coll.firstUsageAsRead = true) : collections.any isDisqualifying = true := by
  unfold parseReportDescriptor at hp
  split_ifs at hp
  cases hitems : parseItems 0 desc {} with
  | error => simp [hitems] at hp
  | ok =>
    simp only [hitems] at hp
    split_ifs at hp with hd
    cases hp
    have hfol := DescriptorParser.Follows.init.parseItems hitems
    rcases hfol.flagged coll hc hnm with hclos | hopen
    · exact hclos
    · -- every application is closed at depth zero
      obtain ⟨top, htop, -⟩ := any_eq_true.mp hopen
      have hin := hfol.nested.inside top.openedAt (mem_map_of_mem htop)
      omega

theorem disqualifyingCollection_of_checkForwarded (h : checkForwarded descs = .ok ()) (hent : entry ∈ descs) :
    disqualifyingCollection entry.descriptor = .ok none := by
  induction descs with
  | nil => cases hent
  | cons first rest ih =>
    unfold checkForwarded at h
    split at h
    · cases h
    · cases h
    · next hfst =>
        rcases mem_cons.mp hent with rfl | hrest
        · exact hfst
        · exact ih h hrest

theorem checkForwarded_of_authorize (h : authorizeHardUsbTablet deviceClass descs = .ok profile) :
    checkForwarded descs = .ok () := by
  simp only [authorizeHardUsbTablet] at h
  split_ifs at h
  obtain ⟨_, -, h⟩ := exceptBind_eq_ok.mp h
  split at h
  · cases h
  · obtain ⟨_, hforw, -⟩ := exceptBind_eq_ok.mp h
    exact hforw

/-- An accepted device has no collection whose first usage, as read, is a controller. -/
theorem asRead_of_authorize (h : authorizeHardUsbTablet deviceClass descs = .ok profile) (hent : entry ∈ descs)
    (hc : coll ∈ hidCollections entry.descriptor) : namesController coll.firstUsageAsRead = false := by
  have hforw := disqualifyingCollection_of_checkForwarded (checkForwarded_of_authorize h) hent
  obtain ⟨_, hp, hforw⟩ := exceptBind_eq_ok.mp hforw
  rw [exceptPure_eq_ok, findSome?_eq_none_iff] at hforw
  rw [Bool.eq_false_iff]
  intro hnm
  obtain ⟨top, htop, hdisq⟩ := any_eq_true.mp (disqualified_of_asRead hp hc hnm)
  simp [isDisqualifying, hforw top htop] at hdisq

def UsageEntry.items : UsageEntry → List UsageItem
  | .single item => [item]
  | .range minimum maximum => [minimum, maximum]

/-- A one- or two-byte usage of the collection was read under another page than the one in force at it. -/
def HidCollection.PageChanged (collection : HidCollection) : Prop :=
  ∃ entry ∈ collection.entries, ∃ item ∈ entry.items, item.explicitPage = none ∧ item.pageRead ≠ collection.page

theorem UsageItem.onPage_of_kept {item : UsageItem}
    (h : ¬ (item.explicitPage = none ∧ item.pageRead ≠ page)) : item.onPage page = item.asRead := by
  unfold UsageItem.asRead UsageItem.onPage
  cases hpage : item.explicitPage with
  | some => rfl
  | none =>
    have hr : item.pageRead = page := Classical.not_not.mp fun hne => h ⟨hpage, hne⟩
    rw [hr]

theorem HidCollection.firstUsage_of_page_kept (h : ¬ coll.PageChanged) : coll.firstUsage = coll.firstUsageAsRead := by
  have hent : ∀ entry ∈ coll.entries, entry.first (UsageItem.onPage coll.page) = entry.first UsageItem.asRead := by
    intro entry hmem
    have hi : ∀ item ∈ entry.items, item.onPage coll.page = item.asRead := fun item hi =>
      UsageItem.onPage_of_kept fun hchan => h ⟨entry, hmem, item, hi, hchan⟩
    cases entry with
    | single item => exact congrArg some (hi item mem_cons_self)
    | range =>
      simp only [items, forall_mem_cons] at hi
      simp only [first, hi.1, hi.2.1]
  unfold firstUsage firstUsageAsRead
  generalize coll.entries = entries at hent
  induction entries with
  | nil => rfl
  | cons entry entries ih =>
    rw [forall_mem_cons] at hent
    rw [findSome?_cons, findSome?_cons, hent.1, ih hent.2]

/-- **Game controllers at the gate.** For every accepted device: no physical, application or logical collection of
its descriptors is a joystick, gamepad or multi-axis controller, exactly when no such collection is one whose
usage page changed between a usage and the collection. -/
theorem controllers_kept_out_iff {deviceClass : UInt8} {descriptors : List InterfaceReportDescriptor}
    {profile : PenTabletProfile} (h : authorizeHardUsbTablet deviceClass descriptors = .ok profile) :
    (∀ entry ∈ descriptors, ∀ collection ∈ hidCollections entry.descriptor, collection.isFunction = true →
        namesController collection.firstUsage = false) ↔
      ∀ entry ∈ descriptors, ∀ collection ∈ hidCollections entry.descriptor, collection.isFunction = true →
        collection.PageChanged → namesController collection.firstUsage = false := by
  constructor
  · intro hnone entry hent collection hc hfunc _
    exact hnone entry hent collection hc hfunc
  · intro hkept entry hent collection hc hfunc
    by_cases hchan : collection.PageChanged
    · exact hkept entry hent collection hc hfunc hchan
    · rw [HidCollection.firstUsage_of_page_kept hchan]
      exact asRead_of_authorize h hent hc

/-- A pen with position and a tip switch. -/
def penDescriptor : List UInt8 := [0x05, 0x0D, 0x09, 0x02, 0xA1, 0x01, 0x05, 0x01, 0x09, 0x30, 0x09, 0x31, 0x81, 0x02,
    0x05, 0x0D, 0x09, 0x42, 0x81, 0x02, 0xC0]

theorem controllers_kept_out_iff_pen : ∃ profile, authorizeHardUsbTablet 0x00 [⟨0, penDescriptor⟩] = .ok profile ∧
      ∀ collection ∈ hidCollections penDescriptor, collection.isFunction = true →
        namesController collection.firstUsage = false := by
  obtain ⟨profile, hacc⟩ : ∃ profile, authorizeHardUsbTablet 0x00 [⟨0, penDescriptor⟩] = .ok profile :=
    ⟨⟨.digitizerPen, { x := some ⟨0, 0, 0, 0, 0, 0⟩, y := some ⟨0, 0, 0, 0, 0, 0⟩, tipSwitch := true }⟩,
      by decide +kernel⟩
  have hkept : ∀ entry ∈ [(⟨0, penDescriptor⟩ : InterfaceReportDescriptor)],
      ∀ collection ∈ hidCollections entry.descriptor, collection.isFunction = true →
        collection.PageChanged → namesController collection.firstUsage = false := by
    intro entry hent collection hc _ _
    rw [mem_singleton.mp hent] at hc
    have hcolle : hidCollections penDescriptor = [⟨1, [.single ⟨none, 0x02, 0x0D⟩], 0x0D⟩] := by decide +kernel
    rw [hcolle, mem_singleton] at hc
    rw [hc]
    rfl
  exact ⟨profile, hacc, (controllers_kept_out_iff hacc).mpr hkept _ (mem_singleton_self _)⟩

/-- The pen again, and a joystick whose usage is read on the Digitizers page. -/
def latePageJoystick : List UInt8 := penDescriptor ++ [0x09, 0x04, 0x05, 0x01, 0xA1, 0x01, 0xC0]

theorem joystick_accepted_by_late_page : (authorizeHardUsbTablet 0x00 [⟨0, latePageJoystick⟩]).isOk = true ∧
      ∃ collection ∈ hidCollections latePageJoystick, collection.isFunction = true ∧
        collection.firstUsage = some (usagePageGenericDesktop, 0x04) ∧
        namesController collection.firstUsage = true := by
  refine ⟨by decide +kernel, ⟨1, [.single ⟨none, 0x04, 0x0D⟩], 0x01⟩, by decide +kernel, ?_⟩
  decide

end Arcen
