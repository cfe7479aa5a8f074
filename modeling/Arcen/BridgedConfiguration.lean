import Mathlib.Data.List.TakeWhile
import Arcen.BridgedDeviceGuard

/-! What a passed configuration descriptor is. The parser and the report-length check walk the same bytes; the
parser's walk tiles them, and over tiles the second walk is a fold. Its entries then say, for every interface
descriptor, which HID class descriptors follow it before the next interface. -/

namespace Arcen

open List hiding le_refl

open Checked

/-! ### The second walk -/

/-- One more HID class descriptor behind the interface. -/
def ReportEntry.declare (entry : ReportEntry) (length : UInt16) : ReportEntry :=
  { entry with declared := some length, seen := entry.seen + 1 }

inductive ReportVisit (entries : List ReportEntry) (tile : List UInt8) : List ReportEntry → Prop where
  | interface (hkind : kindOf tile = descriptorInterface) :
      ReportVisit entries tile (entries ++ [⟨byteAt tile 2, none, 0⟩])
  | hid (hkind : kindOf tile = descriptorHid) {before : List ReportEntry} {entry : ReportEntry} {length : UInt16}
      (hentries : entries = before ++ [entry]) (hparse : parseHidClassDescriptor tile = .ok length) :
      ReportVisit entries tile (before ++ [entry.declare length])
  | other (hinterface : kindOf tile ≠ descriptorInterface) (hhid : kindOf tile ≠ descriptorHid) :
      ReportVisit entries tile entries

variable {entries : List ReportEntry} {tile : List UInt8} {claims : List InterfaceReportDescriptor}
  {payload : List UInt8}

theorem lastEntry_eq_ok (h : lastEntry entries = .ok entry) : entries = entries.dropLast ++ [entry] := by
  unfold lastEntry at h
  split at h
  · next last hlast =>
    obtain rfl := Checked.ok.inj h
    exact (dropLast_append_getLast? _ hlast).symm
  · cases h

variable {next : List ReportEntry} {auth : ReportLengths} {bytes head : List UInt8} {tail : List (List UInt8)}
  {kind : UInt8}

theorem visitReportLength_visits (ht : IsTile tile) (ha : AcceptedTile tile)
    (h : visitReportLength entries offset (tile ++ rest) = .ok next) : ReportVisit entries tile next := by
  obtain ⟨_, hlen⟩ := ht
  have hslice : (sliceTo (tile ++ rest) tile.length : Checked ConfigurationViolation _) = .ok tile :=
    sliceTo_eq_ok.mpr ⟨by rw [length_append]; omega, take_left⟩
  simp only [visitReportLength, index_tile (show 0 < tile.length by omega), ok_bind, hlen, hslice,
    index_byteAt (show 1 < tile.length by omega)] at h
  split_ifs at h with hintf hhid
  · rw [index_byteAt (by omega), ok_bind, pure_eq_ok] at h
    exact h ▸ .interface hintf.1
  · obtain ⟨_, hent, h⟩ := bind_eq_ok.mp h
    obtain ⟨_, hp, h⟩ := bind_eq_ok.mp h
    rw [pure_eq_ok] at h
    exact h ▸ .hid hhid (lastEntry_eq_ok hent) (mapError_eq_ok.mp hp)
  · rw [pure_eq_ok] at h
    refine h ▸ .other (fun hk => hintf ⟨hk, ?_⟩) hhid
    have := ha.1 hk
    omega

theorem ReportVisit.dropLast_isPrefix
    (visit : ReportVisit entries tile next) : entries.dropLast <+: next.dropLast := by
  cases visit with
  | interface => exact dropLast_concat ▸ List.dropLast_prefix entries
  | hid _ hentr => rw [hentr, dropLast_concat, dropLast_concat]
  | other => exact prefix_rfl

section Fold

variable {after : List UInt8} {tiles : List (List UInt8)} {offset : Nat} {final : List ReportEntry}

section

variable (htl : ∀ tile ∈ tiles, IsTile tile ∧ AcceptedTile tile)
include htl

/-- Entries before the last are never touched again. -/
theorem foldTiles_dropLast_isPrefix
    {entries : List ReportEntry} (h : foldTiles visitReportLength after offset tiles entries = .ok final) :
    entries.dropLast <+: final.dropLast := by
  induction tiles generalizing offset entries with
  | nil =>
    obtain rfl := Checked.ok.inj h
    exact prefix_rfl
  | cons tile tiles ih =>
    obtain ⟨_, hv, hn⟩ := bind_eq_ok.mp h
    obtain ⟨ht, ha⟩ := htl tile mem_cons_self
    have hstep := (visitReportLength_visits ht ha hv).dropLast_isPrefix
    exact hstep.trans (ih (fun other ho => htl other (mem_cons_of_mem _ ho)) hn)

/-- Between two interface descriptors, each HID class descriptor declares its length to the last entry. -/
theorem foldTiles_declare (hb : ∀ tile ∈ tiles, kindOf tile ≠ descriptorInterface)
    (h : foldTiles visitReportLength after offset tiles (before ++ [entry]) = .ok final) :
    ∃ lengths, List.Forall₂ (fun tile length => parseHidClassDescriptor tile = .ok length)
        (tiles.filter (kindOf · = descriptorHid)) lengths ∧
      final = before ++ [lengths.foldl ReportEntry.declare entry] := by
  induction tiles generalizing offset entry with
  | nil =>
    obtain rfl := Checked.ok.inj h
    exact ⟨[], .nil, rfl⟩
  | cons tile tiles ih =>
    obtain ⟨_, hv, hn⟩ := bind_eq_ok.mp h
    obtain ⟨ht, ha⟩ := htl tile mem_cons_self
    have htl' : ∀ other ∈ tiles, IsTile other ∧ AcceptedTile other := fun other ho => htl other (mem_cons_of_mem _ ho)
    have hb' : ∀ other ∈ tiles, kindOf other ≠ descriptorInterface := fun other ho => hb other (mem_cons_of_mem _ ho)
    cases visitReportLength_visits ht ha hv with
    | interface hk => exact absurd hk (hb tile mem_cons_self)
    | hid hk hentr hp =>
      obtain ⟨rfl, hlast⟩ := append_inj' hentr rfl
      obtain rfl := singleton_inj.mp hlast
      obtain ⟨lengths, hlens, hfinal⟩ := ih htl' hb' hn
      refine ⟨_ :: lengths, ?_, hfinal⟩
      rw [filter_cons_of_pos (by simpa using hk)]
      exact .cons hp hlens
    | other _ hk =>
      obtain ⟨lengths, _, hfinal⟩ := ih htl' hb' hn
      refine ⟨lengths, ?_, hfinal⟩
      rwa [filter_cons_of_neg (by simpa using hk)]

end

/-- The HID class descriptors behind an interface descriptor, before the next one. -/
def hidDescriptors (after : List (List UInt8)) : List (List UInt8) :=
  (after.takeWhile (kindOf · ≠ descriptorInterface)).filter (kindOf · = descriptorHid)

/-- **Every interface descriptor has its entry**, made by the HID class descriptors up to the next interface. -/
theorem foldTiles_entry (htl : ∀ other ∈ front ++ tile :: back, IsTile other ∧ AcceptedTile other)
    (hk : kindOf tile = descriptorInterface)
    (h : foldTiles visitReportLength after offset (front ++ tile :: back) entries = .ok final) :
    ∃ lengths, List.Forall₂ (fun hid length => parseHidClassDescriptor hid = .ok length)
        (hidDescriptors back) lengths ∧ lengths.foldl ReportEntry.declare ⟨byteAt tile 2, none, 0⟩ ∈ final := by
  have hback : ∀ other ∈ back, IsTile other ∧ AcceptedTile other := fun other ho =>
    htl other (mem_append_right _ (mem_cons_of_mem _ ho))
  obtain ⟨ht, ha⟩ := htl tile (mem_append_right _ mem_cons_self)
  rw [foldTiles_append] at h
  obtain ⟨before, -, h⟩ := bind_eq_ok.mp h
  obtain ⟨pushed, hv, h⟩ := bind_eq_ok.mp h
  -- The interface desc pushes a fresh entry.
  have hpush : pushed = before ++ [⟨byteAt tile 2, none, 0⟩] := by
    cases visitReportLength_visits ht ha hv with
    | interface => rfl
    | hid hhid => exact absurd (hk.symm.trans hhid) (by decide)
    | other ho => exact absurd hk ho
  subst hpush
  have hs := takeWhile_append_dropWhile (p := fun other => decide (kindOf other ≠ descriptorInterface)) (l := back)
  rw [← hs, foldTiles_append] at h
  obtain ⟨_, hg, h⟩ := bind_eq_ok.mp h
  obtain ⟨lengths, hlens, rfl⟩ := foldTiles_declare
    (fun other ho => hback other ((List.takeWhile_prefix _).subset ho))
    (fun other ho => by simpa using mem_takeWhile_imp ho) hg
  refine ⟨lengths, hlens, ?_⟩
  -- What is left starts with the next interface desc, if there is one.
  cases hr : back.dropWhile (fun other => decide (kindOf other ≠ descriptorInterface)) with
  | nil =>
    rw [hr] at h
    obtain rfl := Checked.ok.inj h
    exact mem_append_right _ mem_cons_self
  | cons later rest =>
    have hlaterKind : kindOf later = descriptorInterface := by
      have hh := head?_dropWhile_not (fun other => decide (kindOf other ≠ descriptorInterface)) back
      rw [hr] at hh
      simpa using hh
    have hmem : ∀ other ∈ later :: rest, IsTile other ∧ AcceptedTile other := fun other ho =>
      hback other ((dropWhile_suffix _).subset (hr ▸ ho))
    rw [hr] at h
    obtain ⟨_, hl, h⟩ := bind_eq_ok.mp h
    have hn := visitReportLength_visits (hmem later mem_cons_self).1 (hmem later mem_cons_self).2 hl
    have hkept := foldTiles_dropLast_isPrefix (fun other ho => hmem other (mem_cons_of_mem _ ho)) h
    cases hn with
    | interface =>
      rw [dropLast_concat] at hkept
      exact (dropLast_subset _) (hkept.subset (mem_append_right _ mem_cons_self))
    | hid hhid => exact absurd (hlaterKind.symm.trans hhid) (by decide)
    | other ho => exact absurd hlaterKind ho

end Fold

theorem seen_foldl_declare (lengths : List UInt16) (entry : ReportEntry) :
    (lengths.foldl ReportEntry.declare entry).seen = entry.seen + lengths.length := by
  induction lengths generalizing entry with
  | nil => rfl
  | cons length lengths ih =>
    rw [foldl_cons, ih]
    exact Nat.add_right_comm entry.seen 1 lengths.length

theorem checkEntries_eq_ok (h : checkEntries auth entries = .ok ()) : ∀ entry ∈ entries, entry.seen = 1 ∧
      entry.declared.map UInt16.toNat = some ((auth.lookup entry.interface).getD usizeMax) := by
  induction entries with
  | nil => exact fun entry hent => absurd hent not_mem_nil
  | cons first entries ih =>
    obtain ⟨_, hf, h⟩ := bind_eq_ok.mp h
    rw [refuseIf_eq_ok, not_or, not_not, not_not] at hf
    exact forall_mem_cons.mpr ⟨hf, ih h⟩

/-- **The report check**: behind every interface descriptor one HID class descriptor of the authorized length. -/
theorem checkReportLengths_eq_ok (htiled : Tiled bytes tiles) (ha : ∀ tile ∈ tiles, AcceptedTile tile)
    (h : checkReportLengths bytes auth = .ok ())
    (hs : tiles = front ++ tile :: back) (hk : kindOf tile = descriptorInterface) :
    ∃ hid length, hidDescriptors back = [hid] ∧ reportEntries (hid.drop 6) = [length] ∧
      length.toNat = (auth.lookup (byteAt tile 2)).getD usizeMax := by
  obtain ⟨hby, htl⟩ := htiled
  obtain ⟨_, hwalk, hentr⟩ := bind_eq_ok.mp h
  have hfold := walkTiles_eq_foldTiles .panicked (fun _ _ => .malformed) visitReportLength (le_refl 1) [] tiles htl 0 []
  rw [Nat.zero_add, append_nil, hby] at hfold
  rw [hfold, hs] at hwalk
  obtain ⟨_, hlens, hmem⟩ := foldTiles_entry
    (fun other ho => ⟨htl other (hs ▸ ho), ha other (hs ▸ ho)⟩) hk hwalk
  obtain ⟨hseen, hdecl⟩ := checkEntries_eq_ok hentr _ hmem
  rw [seen_foldl_declare, Nat.zero_add] at hseen
  obtain ⟨length, rfl⟩ := length_eq_one_iff.mp hseen
  obtain ⟨hid, hp, hg⟩ : ∃ hid, parseHidClassDescriptor hid = .ok length ∧ hidDescriptors back = [hid] := by
    generalize hidDescriptors back = group at hlens
    cases hlens with
    | cons hp hr =>
      cases hr
      exact ⟨_, hp, rfl⟩
  exact ⟨hid, length, hg, parseHidClassDescriptor_eq_ok hp, Option.some.inj hdecl⟩

theorem collectNumbers_eq_ok (h : collectNumbers numbers interfaces = .ok final) :
    (∀ intf ∈ interfaces, intf.interfaceClass = usbClassHid) ∧
      ∀ number, number ∈ final ↔ number ∈ numbers ∨ ∃ intf ∈ interfaces, intf.number = number := by
  induction interfaces generalizing numbers with
  | nil =>
    obtain rfl := Checked.ok.inj h
    simp
  | cons first interfaces ih =>
    obtain ⟨_, hcls, h⟩ := bind_eq_ok.mp h
    rw [refuseIf_eq_ok, not_not] at hcls
    obtain ⟨hclas, hnumb⟩ := ih h
    refine ⟨forall_mem_cons.mpr ⟨hcls, hclas⟩, fun number => ?_⟩
    rw [hnumb, Finset.mem_insert, exists_mem_cons_iff, eq_comm, or_assoc, or_left_comm]

/-! ### The claimed configuration -/

/-- Descriptors of a device with exactly the claimed interfaces: all HID class, with interrupt endpoints only, each
interface descriptor followed by one HID class descriptor that announces the claimed report descriptor. -/
structure HidConfiguration (claims : List InterfaceReportDescriptor) (tiles : List (List UInt8)) : Prop where
  hidClass : ∀ tile ∈ tiles, kindOf tile = descriptorInterface → byteAt tile 5 = usbClassHid
  numbers : ∀ number, (∃ tile ∈ tiles, kindOf tile = descriptorInterface ∧ byteAt tile 2 = number) ↔
    ∃ claim ∈ claims, claim.interface = number
  endpoints : ∀ tile ∈ tiles, kindOf tile = descriptorEndpoint → InterruptEndpoint tile
  reports : ∀ front tile back, tiles = front ++ tile :: back → kindOf tile = descriptorInterface →
    ∃ claim ∈ claims, claim.interface = byteAt tile 2 ∧ ∃ hid length, hidDescriptors back = [hid] ∧
      reportEntries (hid.drop 6) = [length] ∧ length.toNat = claim.descriptor.length

/-- The header is neither an interface nor an endpoint, so its type byte does not matter. -/
theorem HidConfiguration.changeHead (h : HidConfiguration claims (head :: tail))
    (hh : kindOf head ≠ descriptorInterface) (hintf : kindOf other ≠ descriptorInterface)
    (hendpt : kindOf other ≠ descriptorEndpoint) : HidConfiguration claims (other :: tail) where
  hidClass := by
    intro tile ht hk
    rcases mem_cons.mp ht with rfl | hl
    · exact absurd hk hintf
    · exact h.hidClass tile (mem_cons_of_mem _ hl) hk
  numbers := by
    intro number
    rw [← h.numbers number, exists_mem_cons_iff, exists_mem_cons_iff, and_iff_left_of_imp, and_iff_left_of_imp]
    · exact or_congr_left (iff_of_false hintf hh)
    · exact fun hk => absurd hk hh
    · exact fun hk => absurd hk hintf
  endpoints := by
    intro tile ht hk
    rcases mem_cons.mp ht with rfl | hl
    · exact absurd hk hendpt
    · exact h.endpoints tile (mem_cons_of_mem _ hl) hk
  reports := by
    intro front tile back hs hk
    cases front with
    | nil =>
      obtain ⟨rfl, -⟩ := List.cons.inj hs
      exact absurd hk hintf
    | cons _ front =>
      obtain ⟨-, htail⟩ := List.cons.inj hs
      exact h.reports (head :: front) tile back (congrArg (head :: ·) htail) hk

/-- Overwriting the type byte of a tiled string overwrites that of the first tile. -/
theorem Tiled.restoreKind (htiled : Tiled (bytes.set 1 standard) (head :: tail)) (hk : bytes[1]? = some kind) :
    Tiled bytes (head.set 1 kind :: tail) ∧ kindOf (head.set 1 kind) = kind ∧ kindOf head = standard := by
  obtain ⟨hby, htl⟩ := htiled
  obtain ⟨_, hlen⟩ := htl head mem_cons_self
  obtain ⟨hbd, hbyte⟩ := List.getElem?_eq_some_iff.mp hk
  refine ⟨⟨?_, ?_⟩, ?_, ?_⟩
  · rw [flatten_cons, ← set_append_left _ _ (by omega), ← flatten_cons, hby, set_set, ← hbyte, set_getElem_self]
  · intro tile ht
    rcases mem_cons.mp ht with rfl | hl
    · refine ⟨by rwa [length_set], ?_⟩
      rw [length_set, ← hlen]
      simp only [byteAt, getD_eq_getElem?_getD]
      rw [getElem?_set_ne (by decide)]
    · exact htl tile (mem_cons_of_mem _ hl)
  · simp only [kindOf, byteAt, getD_eq_getElem?_getD]
    rw [getElem?_set_self (by omega)]
    rfl
  · have hf := congrArg (fun xs => xs[1]?) hby
    simp only [flatten_cons] at hf
    rw [getElem?_append_left (by omega), getElem?_set_self hbd] at hf
    simp only [kindOf, byteAt, getD_eq_getElem?_getD, hf]
    rfl

namespace BridgedDeviceGuard

variable {claims : List InterfaceReportDescriptor}

theorem lookup_foldl_insert_of_ne (h : ∀ claim ∈ claims, claim.interface ≠ number) (lengths : ReportLengths) :
    (claims.foldl (fun lengths claim => lengths.insert claim.interface claim.descriptor.length) lengths).lookup number =
      lengths.lookup number := by
  refine foldlRecOn (motive := fun table : ReportLengths => table.lookup number = lengths.lookup number) _ _ rfl ?_
  intro table ht claim hmem
  rw [AList.lookup_insert_ne (h claim hmem).symm, ht]

section

variable (hd : (claims.map InterfaceReportDescriptor.interface).Nodup)
include hd

/-- With distinct interfaces the table holds every claim's length. -/
theorem lookup_collectLengths (hc : claim ∈ claims) :
    (collectLengths claims).lookup claim.interface = some claim.descriptor.length := by
  obtain ⟨_, back, rfl⟩ := append_of_mem hc
  rw [map_append] at hd
  have hl : ∀ other ∈ back, other.interface ≠ claim.interface := by
    intro other ho heq
    have hfresh := (nodup_cons.mp (nodup_append.mp hd).2.1).1
    exact hfresh (heq ▸ mem_map_of_mem ho)
  rw [collectLengths, foldl_append, foldl_cons, lookup_foldl_insert_of_ne hl]
  exact AList.lookup_insert _

theorem mem_collectLengths (number : UInt8) :
    number ∈ collectLengths claims ↔ ∃ claim ∈ claims, claim.interface = number := by
  constructor
  · intro hmem
    by_contra hnone
    push Not at hnone
    have hlook := lookup_foldl_insert_of_ne hnone ∅
    exact AList.lookup_eq_none.mp hlook hmem
  · rintro ⟨_, hc, rfl⟩
    rw [← AList.lookup_isSome, lookup_collectLengths hd hc]
    rfl

end

end BridgedDeviceGuard

open BridgedDeviceGuard in
/-- What the full check accepts, over the tiles of the normalized bytes. -/
theorem checkInterfaces_eq_ok (hd : (claims.map InterfaceReportDescriptor.interface).Nodup)
    (htotal : (u16FromLeBytes [byteAt payload 2, byteAt payload 3]).toNat = payload.length)
    (h : checkInterfaces payload (collectLengths claims) = .ok ()) :
    ∃ tiles, Tiled (payload.set 1 descriptorConfiguration) tiles ∧ HidConfiguration claims tiles := by
  obtain ⟨parsed, hpars, h⟩ := bind_eq_ok.mp h
  obtain ⟨_, hnumb, h⟩ := bind_eq_ok.mp h
  obtain ⟨_, hset, hrep⟩ := bind_eq_ok.mp h
  rw [refuseIf_eq_ok, not_not] at hset
  have hby : ∀ i, i ≠ 1 → byteAt (payload.set 1 descriptorConfiguration) i = byteAt payload i := by
    intro i hi
    simp only [byteAt, getD_eq_getElem?_getD]
    rw [getElem?_set_ne (Ne.symm hi)]
  obtain ⟨tiles, htiled, hshap, ha⟩ := parseConfigurationDescriptor_eq_ok
    (by rw [hby 2 (by decide), hby 3 (by decide), htotal, length_set]) (mapError_eq_ok.mp hpars)
  obtain ⟨hclas, hmem⟩ := collectNumbers_eq_ok hnumb
  -- The intf descriptors among the tiles are the parsed interfaces.
  have hintf : ∀ tile ∈ tiles, kindOf tile = descriptorInterface →
      ∃ intf ∈ parsed.interfaces, intf.number = byteAt tile 2 ∧ intf.interfaceClass = byteAt tile 5 := by
    intro tile ht hk
    have hshape : (byteAt tile 2, byteAt tile 5) ∈ parsed.interfaces.map
        (fun intf => (intf.number, intf.interfaceClass)) := by
      rw [hshap]
      exact mem_map_of_mem (mem_filter.mpr ⟨ht, by simpa using hk⟩)
    obtain ⟨intf, hm, heq⟩ := mem_map.mp hshape
    exact ⟨intf, hm, congrArg Prod.fst heq, congrArg Prod.snd heq⟩
  have hparsedTile : ∀ intf ∈ parsed.interfaces,
      ∃ tile ∈ tiles, kindOf tile = descriptorInterface ∧ byteAt tile 2 = intf.number := by
    intro intf hm
    have hshape := mem_map_of_mem (f := fun i => (i.number, i.interfaceClass)) hm
    rw [hshap] at hshape
    obtain ⟨tile, ht, heq⟩ := mem_map.mp hshape
    obtain ⟨ht, hk⟩ := mem_filter.mp ht
    exact ⟨tile, ht, by simpa using hk, congrArg Prod.fst heq⟩
  have hclai : ∀ number, (∃ intf ∈ parsed.interfaces, intf.number = number) ↔
      ∃ claim ∈ claims, claim.interface = number := by
    intro number
    rw [← mem_collectLengths hd, AList.mem_keys, ← mem_toFinset, ← hset, hmem]
    simp
  refine ⟨tiles, htiled, ?_, ?_, fun tile ht => (ha tile ht).2, ?_⟩
  · intro tile ht hk
    obtain ⟨intf, hm, -, hcls⟩ := hintf tile ht hk
    rw [← hcls, hclas intf hm]
  · intro number
    rw [← hclai number]
    constructor
    · rintro ⟨tile, ht, hk, rfl⟩
      obtain ⟨intf, hm, hnum, -⟩ := hintf tile ht hk
      exact ⟨intf, hm, hnum⟩
    · rintro ⟨intf, hm, rfl⟩
      exact hparsedTile intf hm
  · intro front tile back hs hk
    obtain ⟨intf, hm, hnum, -⟩ := hintf tile (hs ▸ mem_append_right _ mem_cons_self) hk
    obtain ⟨claim, hc, heq⟩ := (hclai _).mp ⟨intf, hm, hnum⟩
    obtain ⟨hid, length, hg, hentr, hlen⟩ := checkReportLengths_eq_ok htiled ha hrep hs hk
    refine ⟨claim, hc, heq, hid, length, hg, hentr, ?_⟩
    rw [hlen, ← heq, lookup_collectLengths hd hc]
    rfl

/-- The header checks: nine bytes announced, the requested type, and a read past them of the announced total. -/
theorem checkTotal_eq_ok (hlong : configurationHeaderLength < payload.length) (h : checkTotal payload = .ok ()) :
    (u16FromLeBytes [byteAt payload 2, byteAt payload 3]).toNat = payload.length := by
  have hnine : configurationHeaderLength = 9 := rfl
  rw [checkTotal, if_pos (by omega), index_byteAt (by omega), index_byteAt (by omega)] at h
  simp only [ok_bind] at h
  obtain ⟨_, -, h⟩ := bind_eq_ok.mp h
  obtain ⟨_, -, h⟩ := bind_eq_ok.mp h
  rw [refuseIf_eq_ok, not_and, not_not] at h
  exact (h hlong).symm

open BridgedDeviceGuard in
/-- **Configuration soundness.** A passed read past the header is the claimed configuration. -/
theorem validateConfigurationDescriptor_eq_ok (hd : (claims.map InterfaceReportDescriptor.interface).Nodup)
    (hk : kind = descriptorConfiguration ∨ kind = descriptorOtherSpeedConfiguration)
    (hlong : configurationHeaderLength < payload.length)
    (h : validateConfigurationDescriptor payload kind (collectLengths claims) = .ok ()) :
    ∃ tiles, Tiled payload tiles ∧ HidConfiguration claims tiles := by
  obtain ⟨_, hhdr, h⟩ := bind_eq_ok.mp h
  obtain ⟨_, htotal, h⟩ := bind_eq_ok.mp h
  obtain ⟨_, -, h⟩ := bind_eq_ok.mp h
  rw [if_neg (by omega)] at h
  have hnine : configurationHeaderLength = 9 := rfl
  have hsnd : payload[1]? = some kind := by
    rw [refuseIf_eq_ok, not_or] at hhdr
    have htype := hhdr.2
    rw [getElem?_eq_getElem (by omega)] at htype ⊢
    simpa using htype
  obtain ⟨tiles, htiled, hconf⟩ := checkInterfaces_eq_ok hd (checkTotal_eq_ok hlong htotal) h
  cases tiles with
  | nil =>
    have hemp := congrArg List.length htiled.1
    rw [length_set, flatten_nil, length_nil] at hemp
    omega
  | cons =>
    obtain ⟨hpay, hresto, hstan⟩ := htiled.restoreKind hsnd
    refine ⟨_, hpay, hconf.changeHead ?_ ?_ ?_⟩
    · rw [hstan]
      decide
    · rw [hresto]
      rcases hk with rfl | rfl <;> decide
    · rw [hresto]
      rcases hk with rfl | rfl <;> decide

/-! ### The checks stay in bounds -/

theorem lastEntry_ne_panicked (entries : List ReportEntry) : lastEntry entries ≠ .panicked := by
  unfold lastEntry
  split <;> exact nofun

theorem visitReportLength_ne_panicked (entries : List ReportEntry) (offset : Nat) (lead : UInt8) (bytes : List UInt8)
    (hlong : 2 ≤ lead.toNat) (hfit : lead.toNat ≤ (lead :: bytes).length) :
    visitReportLength entries offset (lead :: bytes) ≠ .panicked := by
  refine index_bind_ne_panicked (by omega) fun length hlen => ?_
  obtain rfl : lead = length := by simpa using hlen
  refine bind_ne_panicked (sliceTo_ne_panicked hfit) fun desc hslice => ?_
  obtain ⟨-, hdesc⟩ := sliceTo_eq_ok.mp hslice
  have hlen : desc.length = lead.toNat := by
    rw [← hdesc, length_take]
    omega
  refine index_bind_ne_panicked (by omega) fun kind _ => ?_
  split_ifs
  · refine index_bind_ne_panicked (by omega) fun _ _ => ?_
    exact nofun
  · refine bind_ne_panicked (lastEntry_ne_panicked entries) fun entry _ => ?_
    refine bind_ne_panicked (mapError_ne_panicked (parseHidClassDescriptor_ne_panicked desc)) fun _ _ => ?_
    exact nofun
  · exact nofun

theorem checkEntries_ne_panicked (auth : ReportLengths) (entries : List ReportEntry) :
    checkEntries auth entries ≠ .panicked := by
  induction entries with
  | nil => exact nofun
  | cons entry entries ih => exact refuseIf_bind_ne_panicked fun _ => ih

theorem checkReportLengths_ne_panicked (bytes : List UInt8) (auth : ReportLengths) :
    checkReportLengths bytes auth ≠ .panicked := by
  refine bind_ne_panicked (walkTiles_ne_panicked visitReportLength_ne_panicked 0 bytes [] (by omega)) fun entries _ => ?_
  exact checkEntries_ne_panicked auth entries

theorem collectNumbers_ne_panicked (interfaces : List InterfaceDescriptor) (numbers : Finset UInt8) :
    collectNumbers numbers interfaces ≠ .panicked := by
  induction interfaces generalizing numbers with
  | nil => exact nofun
  | cons intf interfaces ih => exact refuseIf_bind_ne_panicked fun _ => ih _

section

variable (payload : List UInt8)

theorem checkTotal_ne_panicked : checkTotal payload ≠ .panicked := by
  unfold checkTotal
  split_ifs with hlong
  · refine index_bind_ne_panicked (by omega) fun _ _ => ?_
    refine index_bind_ne_panicked (by omega) fun _ _ => ?_
    refine refuseIf_bind_ne_panicked fun _ => ?_
    refine refuseIf_bind_ne_panicked fun _ => ?_
    exact refuseIf_ne_panicked _ _
  · intro h
    cases h

theorem checkInterfaceCount_ne_panicked (auth : ReportLengths) : checkInterfaceCount payload auth ≠ .panicked := by
  unfold checkInterfaceCount
  split
  · exact refuseIf_ne_panicked _ _
  · exact nofun

theorem validateConfigurationDescriptor_ne_panicked (kind : UInt8)
    (auth : ReportLengths) : validateConfigurationDescriptor payload kind auth ≠ .panicked := by
  refine refuseIf_bind_ne_panicked fun _ => ?_
  refine bind_ne_panicked (checkTotal_ne_panicked payload) fun _ _ => ?_
  refine bind_ne_panicked (checkInterfaceCount_ne_panicked payload auth) fun _ _ => ?_
  split_ifs
  · exact nofun
  · refine bind_ne_panicked (mapError_ne_panicked (parseConfigurationDescriptor_ne_panicked _)) fun parsed _ => ?_
    refine bind_ne_panicked (collectNumbers_ne_panicked _ _) fun numbers _ => ?_
    refine refuseIf_bind_ne_panicked fun _ => ?_
    exact checkReportLengths_ne_panicked _ auth

end

end Arcen
