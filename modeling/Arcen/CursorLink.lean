import Arcen.Machine
import Arcen.Fallible
import Arcen.CursorLane

/-! Pier and Deck joined by the input/cursor lane. The lane is reliable and ordered, so a record the lane
accepts is applied by the Deck once and then committed by the Pier; a refused record is dropped. Both
ends forget their images when the lane is reopened. No acknowledgement crosses the link, and still the
Pier's mirror and the Deck's cache go through the same evictions. -/

namespace Arcen

open PngCodec CursorImageRegistry CursorLaneOutbox LruCache CursorImage
open List hiding contains_map

/-- The record between `prepare` and `commit`. -/
inductive CursorInFlight where
  | nothing
  | prepared (record : PreparedCursorUpdate)
  | delivered (record : PreparedCursorUpdate)

/-- The desktop's registry with every pair it has given out, the two ends, and the record in flight. -/
structure CursorLink where
  registry : CursorImageRegistry
  issued : List (CursorImageId × WireCursorImage)
  outbox : CursorLaneOutbox
  deck : DeckCursorState
  inFlight : CursorInFlight

inductive CursorLinkCall where
  | register (image : CursorImage)
  | set (facts : CursorFacts)
  | prepare
  | refuse
  | deliver
  | commit
  | resetLane

/-- Facts about an image the registry has given out. -/
def CursorFacts.Issued (issued : List (CursorImageId × WireCursorImage)) : CursorFacts → Prop
  | .hidden _ _ => True
  | .image _ _ id wire => (id, wire) ∈ issued

instance (issued : List (CursorImageId × WireCursorImage)) (facts : CursorFacts) : Decidable (facts.Issued issued) :=
  match facts with
  | .hidden _ _ => isTrue trivial
  | .image _ _ id wire => inferInstanceAs (Decidable ((id, wire) ∈ issued))

/-- The pair a `register` call gave out under a new id. -/
def newlyIssued (before after : CursorImageRegistry) :
    Except CursorImageError (Option (CursorImageId × WireCursorImage)) → List (CursorImageId × WireCursorImage)
  | .ok (some pair) => if after.nextId = before.nextId then [] else [pair]
  | _ => []

namespace CursorLink

variable (codec : PngCodec)

def empty : CursorLink := ⟨CursorImageRegistry.empty, [], CursorLaneOutbox.empty, DeckCursorState.empty, .nothing⟩

/-- One call. Between delivery and commit the outbox is left alone; a change of the outbox before
delivery drops the prepared record, and the lane is reopened only while nothing is in flight. -/
def step (link : CursorLink) : CursorLinkCall → CursorLink
  | .register image =>
    let (registry, result) := link.registry.register codec image
    { link with registry, issued := link.issued ++ newlyIssued link.registry registry result }
  | .set facts =>
    match link.inFlight with
    | .delivered _ => link
    | _ =>
      if facts.Issued link.issued then { link with outbox := link.outbox.set facts, inFlight := .nothing }
      else link
  | .prepare =>
    match link.inFlight with
    | .delivered _ => link
    | _ =>
      match link.outbox.prepare with
      | some (.ok (some record)) => { link with inFlight := .prepared record }
      | _ => { link with inFlight := .nothing }
  | .refuse =>
    match link.inFlight with
    | .prepared _ => { link with inFlight := .nothing }
    | _ => link
  | .deliver =>
    match link.inFlight with
    | .prepared record =>
      { link with deck := (link.deck.apply codec record.bytes).1, inFlight := .delivered record }
    | _ => link
  | .commit =>
    match link.inFlight with
    | .delivered record => { link with outbox := link.outbox.commit record, inFlight := .nothing }
    | _ => link
  | .resetLane =>
    match link.inFlight with
    | .delivered _ => link
    | _ =>
      { link with outbox := link.outbox.resetLane, deck := link.deck.resetLane, inFlight := .nothing }

end CursorLink

/-- The link as a machine; a call answers with what the Deck shows after it. -/
def cursorLink (codec : PngCodec) : Machine CursorLink CursorLinkCall DeckCursor where
  init := CursorLink.empty
  step link call := (link.step codec call, (link.step codec call).deck.shows)

/-! ### Ids -/

/-- Below 2^32 registrations the ids given out are 1, 2, 3, …, and every image the registry remembers is
one it gave out. -/
structure IssuedBy (registry : CursorImageRegistry) (issued : List (CursorImageId × WireCursorImage)) : Prop where
  next : registry.nextId.toNat = issued.length
  ids : issued.map (fun pair => pair.1.get.toNat) = range' 1 issued.length
  held : ∀ id entry, registry.images.lookup id = some entry → (id, entry.wire) ∈ issued

namespace IssuedBy

variable {reg next : CursorImageRegistry} {issued : List (CursorImageId × WireCursorImage)}

theorem empty : IssuedBy CursorImageRegistry.empty [] :=
  ⟨rfl, rfl, fun id entry h => by simp [CursorImageRegistry.empty] at h⟩

theorem wire_unique (h : IssuedBy reg issued) {id : CursorImageId}
    (hwire : (id, wire) ∈ issued) (hwire' : (id, wire') ∈ issued) : wire = wire' := by
  have hnd : (issued.map fun pair => pair.1.get.toNat).Nodup := h.ids ▸ nodup_range'
  have hpair := inj_on_of_nodup_map hnd hwire hwire' rfl
  exact congrArg Prod.snd hpair

theorem followingId_ne (id : UInt32) : followingId id ≠ id := by
  rw [followingId]
  split
  · rename_i h
    rw [h]
    decide
  · intro h
    have hnat := congrArg UInt32.toNat h
    simp at hnat
    omega

theorem toNat_followingId {id : UInt32} (h : id.toNat + 1 < 2 ^ 32) : (followingId id).toNat = id.toNat + 1 := by
  have hmax : id ≠ 0xffffffff := by
    rintro rfl
    revert h
    decide
  rw [followingId, if_neg hmax]
  exact Nat.mod_eq_of_lt h

theorem register (h : IssuedBy reg issued) (hreg : CursorImageRegistry.Registered reg next result)
    (hcnt : (issued ++ newlyIssued reg next result).length < 2 ^ 32) :
    IssuedBy next (issued ++ newlyIssued reg next result) := by
  cases hreg with
  | @known id entry hent hn hi =>
    have hnone : newlyIssued reg next (.ok (some (id, entry.wire))) = [] := if_pos hn
    rw [hnone, append_nil]
    refine ⟨hn ▸ h.next, h.ids, fun other held hheld => ?_⟩
    obtain ⟨old, hold, hwire⟩ := hi other held hheld
    exact hwire ▸ h.held other old hold
  | @fresh id wire hid hn hi =>
    have hne : next.nextId ≠ reg.nextId := hn ▸ followingId_ne reg.nextId
    have hnew : newlyIssued reg next (.ok (some (id, wire))) = [(id, wire)] := if_neg hne
    rw [hnew] at hcnt ⊢
    rw [length_append, ← h.next] at hcnt
    have hnat := toNat_followingId hcnt
    refine ⟨?_, ?_, fun other held hheld => ?_⟩
    · rw [hn, hnat, length_append, length_singleton, h.next]
    · rw [map_append, h.ids, length_append, length_singleton, range'_1_concat,
        map_singleton, hid, hnat, h.next, Nat.add_comm]
    · rcases hi other held hheld with ⟨rfl, rfl⟩ | hold
      · exact mem_append_right _ (mem_singleton.mpr rfl)
      · exact mem_append_left _ (h.held other held hold)
  | nothing hres hn hi =>
    have hnone : newlyIssued reg next result = [] := by
      unfold newlyIssued
      split
      · exact absurd rfl (hres _)
      · rfl
    rw [hnone, append_nil]
    exact ⟨hn ▸ h.next, h.ids, hi ▸ h.held⟩

end IssuedBy

/-! ### The mirror -/

def DeckCursor.ofFacts : CursorFacts → DeckCursor
  | .hidden _ _ => .hidden
  | .image output generation id wire => .image id wire.image output generation

def WireCursorImage.Decodes (codec : PngCodec) (wire : WireCursorImage) : Prop :=
  fromWirePng codec wire.png wire.image.width wire.image.height wire.image.hotspot = .ok wire.image

/-- Pier and Deck agree: same ids, weights and order; the Deck holds the images that were given out
under these ids, has met no unknown one, and shows the state that was sent last. -/
structure Synced (issued : List (CursorImageId × WireCursorImage)) (outbox : CursorLaneOutbox)
    (deck : DeckCursorState) : Prop where
  mirror : outbox.mirror = deck.cache.map fun _ => ()
  values : ∀ entry ∈ deck.cache.entries, ∃ wire, (entry.key, wire) ∈ issued ∧ entry.value = some wire.image
  unknown : deck.unknownImages = 0
  order : deck.lastSequence ≤ outbox.sequence
  latest : ∀ facts, outbox.latest = some facts → facts.Issued issued
  shown : ∀ facts, outbox.sent = some facts → deck.current = some (DeckCursor.ofFacts facts)

theorem CursorFacts.Issued.mono {issued issued' : List (CursorImageId × WireCursorImage)} (hsub : issued ⊆ issued')
    {facts : CursorFacts} (h : facts.Issued issued) : facts.Issued issued' := by
  cases facts with
  | hidden => trivial
  | image => exact hsub h

/-- What `prepare` hands out: the encoded record of the pending state, with the next sequence number. -/
theorem CursorLaneOutbox.prepare_eq {outbox : CursorLaneOutbox}
    (h : outbox.prepare = some (.ok (some prepared))) :
    outbox.latest = some prepared.facts ∧ outbox.sequence < prepared.sequence ∧
      ∃ record, prepared.facts.record prepared.sequence outbox.mirror.contains = .ok record ∧
        encodeCursorUpdate record.update = .ok prepared.bytes ∧ prepared.image = record.image := by
  unfold prepare at h
  split at h
  · split at h
    · cases h
    rename_i facts hlat
    split at h
    · cases h
    rename_i hmax
    dsimp only at h
    split at h
    · cases h
    rename_i record hr
    split at h
    · cases h
    rename_i bytes hby
    cases h
    refine ⟨hlat, ?_, record, hr, hby, rfl⟩
    have hlt := outbox.sequence.toNat_lt
    have hne : outbox.sequence.toNat ≠ 2 ^ 64 - 1 := fun heq => hmax (UInt64.toNat_inj.mp heq)
    rw [UInt64.lt_iff_toNat_lt, UInt64.toNat_add, UInt64.toNat_one]
    omega
  · cases h

theorem cursorDimension_eq_ok (h : cursorDimension value = .ok dimension) :
    dimension.toNat = value := by
  unfold cursorDimension at h
  split at h
  · rename_i hv
    cases h
    exact toNat_of_u16TryFrom hv
  · cases h

/-- The record of a visible state. -/
theorem CursorFacts.record_image {id : CursorImageId}
    {record : CursorRecord}
    (h : (CursorFacts.image output gen id wire).record seq held = .ok record) :
    ∃ reference : CursorImageRef, record.update = ⟨seq, output, gen, .default, .image reference⟩ ∧
      record.image = some (id, CursorImageCache.weight reference.width reference.height) ∧
      reference.id = id ∧ reference.width.toNat = wire.image.width ∧ reference.height.toNat = wire.image.height ∧
      (reference.hotspotX.toNat, reference.hotspotY.toNat) = wire.image.hotspot ∧
      reference.inlinePng = if held id then none else some wire.png := by
  simp only [CursorFacts.record, exceptBind_eq_ok, exceptPure_eq_ok] at h
  obtain ⟨width, hw, height, hh, hotspotX, hhotspotX, hotspotY, hhotspotY, rfl⟩ := h
  refine ⟨_, rfl, rfl, rfl, cursorDimension_eq_ok hw, cursorDimension_eq_ok hh, ?_, ?_⟩
  · rw [cursorDimension_eq_ok hhotspotX, cursorDimension_eq_ok hhotspotY]
  · cases held id <;> rfl

namespace DeckCursorState

variable {codec : PngCodec} {deck : DeckCursorState}

theorem lastSequence_resolveImage (codec : PngCodec) (deck : DeckCursorState) (reference : CursorImageRef) :
    (deck.resolveImage codec reference).1.lastSequence = deck.lastSequence := by
  unfold resolveImage
  split
  · rfl
  · split <;> rfl

theorem lastSequence_resolve (update : CursorUpdate) :
    (deck.resolve codec update).1.lastSequence = deck.lastSequence := by
  unfold resolve
  split
  · rfl
  · rename_i reference _
    have hsame := lastSequence_resolveImage codec deck reference
    split <;> (rename_i hrsv; rw [hrsv] at hsame; exact hsame)

variable {update : CursorUpdate} {reference : CursorImageRef} {image : CursorImage}

theorem resolve_held
    (happ : update.appearance = .image reference) (hinl : reference.inlinePng = none)
    (hent : deck.cache.find reference.id = some entry) (hv : entry.value = some image) :
    deck.resolve codec update = ({ deck with cache := (deck.cache.touch reference.id).1 },
        .image reference.id image update.output update.generation) := by
  have htouch : deck.cache.touch reference.id = ((deck.cache.remove reference.id).push entry, some (some image)) := by
    simp only [touch, hent, hv]
  simp only [resolve, happ, resolveImage, hinl, htouch]

/-- An image that arrives with its record. -/
theorem resolve_inline (happ : update.appearance = .image reference) (hinl : reference.inlinePng = some png)
    (hd : fromWirePng codec png reference.width.toNat reference.height.toNat
      (reference.hotspotX.toNat, reference.hotspotY.toNat) = .ok image) : deck.resolve codec update = ({ deck with
          cache := CursorImageCache.insert deck.cache reference.id
            (CursorImageCache.weight reference.width reference.height) (some image) },
        .image reference.id image update.output update.generation) := by
  simp only [resolve, happ, resolveImage, hinl, hd]
  rfl

end DeckCursorState

open DeckCursorState

namespace Synced

variable {codec : PngCodec} {issued issued' : List (CursorImageId × WireCursorImage)}
  {outbox : CursorLaneOutbox} {deck : DeckCursorState}

theorem empty : Synced [] CursorLaneOutbox.empty DeckCursorState.empty where
  mirror := rfl
  values := by simp [DeckCursorState.empty, LruCache.empty]
  unknown := rfl
  order := UInt64.le_refl _
  latest := by simp [CursorLaneOutbox.empty]
  shown := by simp [CursorLaneOutbox.empty]

section

variable (h : Synced issued outbox deck)
include h

theorem mono (hsub : issued ⊆ issued') : Synced issued' outbox deck where
  mirror := h.mirror
  values entry hent := by
    obtain ⟨wire, hwire, hv⟩ := h.values entry hent
    exact ⟨wire, hsub hwire, hv⟩
  unknown := h.unknown
  order := h.order
  latest facts hf := (h.latest facts hf).mono hsub
  shown := h.shown

theorem set (hf : facts.Issued issued) : Synced issued (outbox.set facts) deck where
  mirror := h.mirror
  values := h.values
  unknown := h.unknown
  order := h.order
  latest other ho := by
    cases ho
    exact hf
  shown := h.shown

theorem resetLane : Synced issued outbox.resetLane deck.resetLane where
  mirror := rfl
  values := by simp [DeckCursorState.resetLane, LruCache.empty]
  unknown := h.unknown
  order := UInt64.zero_le
  latest := h.latest
  shown := by simp [CursorLaneOutbox.resetLane]

/-- A record that shows an image leaves the two ends in step, when its cache operation does the same at
both and gives the image of the state. -/
theorem of_image {update : CursorUpdate}
    {cache : CursorImageCache (Option CursorImage)}
    (hd : decodeCursorUpdate prepared.bytes = .ok update) (hseq : update.sequence = prepared.sequence)
    (hnewer : outbox.sequence < prepared.sequence)
    (hrsv : deck.resolve codec update = ({ deck with cache }, DeckCursor.ofFacts prepared.facts))
    (hmirr : (outbox.commit prepared).mirror = cache.map fun _ => ())
    (hvalu : ∀ entry ∈ cache.entries, ∃ wire, (entry.key, wire) ∈ issued ∧ entry.value = some wire.image) :
    Synced issued (outbox.commit prepared) (deck.apply codec prepared.bytes).1 := by
  have hlast : deck.lastSequence < update.sequence := hseq ▸ UInt64.lt_of_le_of_lt h.order hnewer
  rw [apply, hd]
  dsimp only
  rw [lastSequence_resolve, if_neg (UInt64.not_le.mpr hlast), hrsv, hseq]
  refine ⟨hmirr, hvalu, h.unknown, UInt64.le_refl _, h.latest, fun facts hf => ?_⟩
  cases hf
  rfl

/-- **Delivery.** Applying a prepared record at the Deck and committing it at the Pier keeps them in
step. -/
theorem deliver
    (huniq : ∀ id wire wire', (id, wire) ∈ issued → (id, wire') ∈ issued → wire = wire')
    (hdeco : ∀ id wire, (id, wire) ∈ issued → wire.Decodes codec)
    (hprepa : outbox.prepare = some (.ok (some prepared))) :
    Synced issued (outbox.commit prepared) (deck.apply codec prepared.bytes).1 := by
  obtain ⟨hlat, hnewer, _, hr, hby, himage⟩ := outbox.prepare_eq hprepa
  have hd := decodeCursorUpdate_of_encode hby
  have hiss := h.latest _ hlat
  obtain ⟨_, _, _, facts, image⟩ := prepared
  dsimp only at hr himage hiss hnewer hd
  cases facts with
  | hidden =>
    cases hr
    subst himage
    exact h.of_image hd rfl hnewer rfl h.mirror h.values
  | image _ _ id wire =>
    obtain ⟨reference, hupd, hent, rfl, hw, hh, hhots, hinl⟩ := CursorFacts.record_image hr
    rw [hupd] at hd
    rw [hent] at himage
    subst himage
    have hcont : outbox.mirror.contains reference.id = deck.cache.contains reference.id := by
      rw [h.mirror, contains_map]
    cases hheld : deck.cache.contains reference.id with
    | true =>
      -- both ends touch the entry, and the Deck's value is the image given out under this id
      obtain ⟨entry, hfind, -⟩ := touch_of_contains hheld
      obtain ⟨_, hwire', hv⟩ := h.values entry (mem_of_find hfind)
      rw [key_of_find hfind] at hwire'
      obtain rfl := huniq _ _ _ hiss hwire'
      rw [hcont, hheld] at hinl
      refine h.of_image hd rfl hnewer (resolve_held rfl hinl hfind hv) ?_ ?_
      · rw [map_touch, ← h.mirror]
        obtain ⟨_, -, htouch⟩ := touch_of_contains (hcont.trans hheld)
        simp only [commit, htouch]
      · exact fun other ho => h.values other (mem_of_mem_touch ho)
    | false =>
      -- both ends insert the entry; the Deck decodes what the reg encoded
      rw [hcont, hheld] at hinl
      have hwire := hdeco _ _ hiss
      rw [WireCursorImage.Decodes, ← hw, ← hh, ← hhots] at hwire
      refine h.of_image hd rfl hnewer (resolve_inline rfl hinl hwire) ?_ ?_
      · rw [CursorImageCache.insert, map_insert, ← h.mirror]
        simp only [commit, touch_of_not_contains (hcont.trans hheld)]
        rfl
      · intro other ho
        rcases mem_of_mem_insert ho with hold | rfl
        · exact h.values other hold
        · exact ⟨wire, hiss, rfl⟩

end

end Synced

namespace CursorLink

variable {codec : PngCodec} {link : CursorLink}

def committed (link : CursorLink) : CursorLaneOutbox :=
  match link.inFlight with
  | .delivered record => link.outbox.commit record
  | _ => link.outbox

/-- What holds between any two calls. -/
structure InStep (link : CursorLink) : Prop where
  ids : IssuedBy link.registry link.issued
  synced : Synced link.issued link.committed link.deck
  prepared : ∀ record, link.inFlight = .prepared record → link.outbox.prepare = some (.ok (some record))

/-- The assumptions of the link: no id has been given twice, and the Deck can read what was registered. -/
structure Readable (codec : PngCodec) (link : CursorLink) : Prop where
  few : link.issued.length < 2 ^ 32
  decodes : ∀ id wire, (id, wire) ∈ link.issued → wire.Decodes codec

theorem issued_step_subset (codec : PngCodec) (link : CursorLink) (call : CursorLinkCall) :
    ∃ more, (link.step codec call).issued = link.issued ++ more := by
  cases call with
  | register => exact ⟨_, rfl⟩
  | _ =>
    refine ⟨[], ?_⟩
    rw [append_nil]
    unfold step
    dsimp only
    repeat' split
    all_goals rfl

theorem Readable.of_step (h : Readable codec (link.step codec call)) : Readable codec link := by
  obtain ⟨_, hmore⟩ := link.issued_step_subset codec call
  obtain ⟨hfew, hdeco⟩ := h
  rw [hmore] at hfew hdeco
  refine ⟨?_, fun id wire hwire => hdeco id wire (mem_append_left _ hwire)⟩
  rw [length_append] at hfew
  omega

/-- A link with nothing in flight. -/
theorem InStep.idle {reg : CursorImageRegistry} {issued : List (CursorImageId × WireCursorImage)}
    {outbox : CursorLaneOutbox} {deck : DeckCursorState} (hids : IssuedBy reg issued)
    (hs : Synced issued outbox deck) : InStep ⟨reg, issued, outbox, deck, .nothing⟩ :=
  ⟨hids, hs, fun record h => by cases h⟩

theorem InStep.step (h : InStep link) (hread : Readable codec (link.step codec call)) :
    InStep (link.step codec call) := by
  have hdeco := hread.of_step.decodes
  obtain ⟨reg, issued, outbox, deck, inFlight⟩ := link
  obtain ⟨hids, hs, hp⟩ := h
  cases call with
  | register image =>
    have hreg := hids.register (register_spec codec reg image) hread.few
    exact ⟨hreg, hs.mono (subset_append_left _ _), hp⟩
  | set facts =>
    cases inFlight with
    | delivered => exact ⟨hids, hs, hp⟩
    | nothing | prepared record =>
      simp only [CursorLink.step]
      split
      · rename_i hf
        exact .idle hids (Synced.set hs hf)
      · exact ⟨hids, hs, hp⟩
  | prepare =>
    cases inFlight with
    | delivered => exact ⟨hids, hs, hp⟩
    | nothing | prepared record =>
      simp only [CursorLink.step]
      split
      · rename_i next hn
        refine ⟨hids, hs, fun other ho => ?_⟩
        cases ho
        exact hn
      · exact .idle hids hs
  | refuse =>
    cases inFlight with
    | prepared => exact .idle hids hs
    | nothing | delivered => exact ⟨hids, hs, hp⟩
  | deliver =>
    cases inFlight with
    | prepared record =>
      refine ⟨hids, ?_, fun other ho => by cases ho⟩
      exact Synced.deliver hs (fun _ _ _ => hids.wire_unique) hdeco (hp record rfl)
    | nothing | delivered => exact ⟨hids, hs, hp⟩
  | commit =>
    cases inFlight with
    | delivered => exact .idle hids hs
    | nothing | prepared => exact ⟨hids, hs, hp⟩
  | resetLane =>
    cases inFlight with
    | delivered => exact ⟨hids, hs, hp⟩
    | nothing | prepared => exact .idle hids (Synced.resetLane hs)

/-- The two ends stay in step along every run. -/
theorem inStep_exec (codec : PngCodec) (calls : List CursorLinkCall)
    (hread : Readable codec ((cursorLink codec).exec calls)) : InStep ((cursorLink codec).exec calls) := by
  refine (cursorLink codec).invariant (P := fun link => Readable codec link → InStep link) ?_ ?_ calls hread
  · exact fun _ => .idle IssuedBy.empty Synced.empty
  · exact fun link call hlink hn => InStep.step (hlink hn.of_step) hn

/-- **The mirror.** Along every run of the link the Pier's mirror lists the ids the Deck holds, in the same
order; the Deck never meets an id it does not hold; and after a commit, and until the lane is reopened,
the Deck shows exactly the committed state. -/
theorem mirror_in_step (codec : PngCodec) (calls : List CursorLinkCall)
    (hfew : ((cursorLink codec).exec calls).issued.length < 2 ^ 32)
    (hdecodes : ∀ id wire, (id, wire) ∈ ((cursorLink codec).exec calls).issued → wire.Decodes codec) :
    let link := (cursorLink codec).exec calls
    link.deck.unknownImages = 0 ∧ ((∀ record, link.inFlight ≠ .delivered record) →
        link.outbox.mirroredIds = link.deck.cachedIds ∧
          ∀ facts, link.outbox.sent = some facts → link.deck.shows = .ofFacts facts) ∧
      ∀ record, link.inFlight = .delivered record → let after := (cursorLink codec).exec (calls ++ [.commit])
        after.outbox.sent = some record.facts ∧ after.outbox.mirroredIds = after.deck.cachedIds ∧
          after.deck.shows = .ofFacts record.facts := by
  intro link
  have hs := (inStep_exec codec calls ⟨hfew, hdecodes⟩).synced
  have hids : link.committed.mirroredIds = link.deck.cachedIds := by
    rw [mirroredIds, hs.mirror, keys_map]
    rfl
  have hshows : ∀ facts, link.committed.sent = some facts → link.deck.shows = .ofFacts facts := by
    intro facts hf
    rw [shows, hs.shown facts hf, Option.getD_some]
  refine ⟨hs.unknown, fun hidle => ?_, fun record hr => ?_⟩
  · have hc : link.committed = link.outbox := by
      unfold committed
      split
      · rename_i record hr
        exact absurd hr (hidle record)
      · rfl
    exact ⟨hc ▸ hids, hc ▸ hshows⟩
  · intro after
    have hc : link.committed = link.outbox.commit record := by simp only [committed, hr]
    have haft : after = { link with outbox := link.outbox.commit record, inFlight := .nothing } := by
      change (cursorLink codec).exec (calls ++ [.commit]) = _
      rw [Machine.exec_concat]
      change link.step codec .commit = _
      simp only [step, hr]
    rw [haft, ← hc]
    exact ⟨by rw [hc]; rfl, hids, hshows _ (by rw [hc]; rfl)⟩

end CursorLink

/-- A codec that stores the pixels as they are, after the magic and the two sides. -/
def PngCodec.stored : PngCodec where
  encodePngRgba info rgba _ := some (pngMagic ++ [UInt8.ofNat info.width, UInt8.ofNat info.height] ++ rgba)
  decodePngRgba png _ :=
    let width := (byteAt png 8).toNat
    let height := (byteAt png 9).toNat
    some (⟨width, height, width * height * 4⟩, png.drop 10)

/-- One opaque black pixel. -/
def CursorImage.dot : CursorImage := ⟨1, 1, (0, 0), [0, 0, 0, 255], by decide, by decide, by decide, by decide⟩

def WireCursorImage.dot : WireCursorImage := ⟨.dot, pngMagic ++ [1, 1, 0, 0, 0, 255]⟩

theorem toWire_dot : dot.toWire stored = .ok (some WireCursorImage.dot) := by
  change dot.shrinkToWire stored maxCursorSide.toNat = _
  rw [shrinkToWire]
  rfl

namespace CursorLink

/-- Registering the pixel, and sending it up to the commit. -/
def dotCalls : List CursorLinkCall :=
  [.register .dot, .set (.image 0 1 ⟨1, u32_one_ne_zero⟩ .dot), .prepare, .deliver]

theorem step_register_dot : ∃ reg, CursorLink.empty.step stored (.register .dot) =
    ⟨reg, [(⟨1, by decide⟩, .dot)], .empty, .empty, .nothing⟩ := by
  have hn : (CursorImageRegistry.empty.register stored .dot).1.nextId = 1 := by
    simp only [CursorImageRegistry.register, toWire_dot]
    exact CursorImageRegistry.nextId_evict _ _
  have hres : (CursorImageRegistry.empty.register stored .dot).2 = .ok (some (⟨1, by decide⟩, .dot)) := by
    simp only [CursorImageRegistry.register, toWire_dot]
    rfl
  refine ⟨(CursorImageRegistry.empty.register stored .dot).1, ?_⟩
  have hnew : newlyIssued CursorImageRegistry.empty (CursorImageRegistry.empty.register stored .dot).1
      (CursorImageRegistry.empty.register stored .dot).2 = [(⟨1, by decide⟩, .dot)] := by
    rw [hres, newlyIssued, hn]
    rfl
  simp only [CursorLink.step, CursorLink.empty, hnew, nil_append]

theorem exec_dotCalls : ((cursorLink stored).exec dotCalls).issued = [(⟨1, by decide⟩, .dot)] ∧
    ∃ record, ((cursorLink stored).exec dotCalls).inFlight = .delivered record ∧
      record.facts = .image 0 1 ⟨1, by decide⟩ .dot := by
  obtain ⟨reg, hreg⟩ := step_register_dot
  have hexec : (cursorLink stored).exec dotCalls = (cursorLink stored).execFrom
      ⟨reg, [(⟨1, by decide⟩, .dot)], .empty, .empty, .nothing⟩ (dotCalls.drop 1) := by
    rw [← hreg]
    rfl
  rw [hexec]
  exact ⟨rfl, _, rfl, rfl⟩

/-- The pixel arrives: the Deck shows it under the id it was registered with. -/
theorem mirror_in_step_dot : ((cursorLink stored).exec (dotCalls ++ [.commit])).deck.shows =
      .image ⟨1, by decide⟩ .dot 0 1 := by
  obtain ⟨hiss, record, hr, hf⟩ := exec_dotCalls
  have hdeco : ∀ id wire, (id, wire) ∈ ((cursorLink stored).exec dotCalls).issued → wire.Decodes stored := by
    intro id wire hwire
    rw [hiss, mem_singleton] at hwire
    cases hwire
    rfl
  have hmirr := mirror_in_step stored dotCalls (by rw [hiss]; decide) hdeco
  have hshows := (hmirr.2.2 record hr).2.2
  rw [hshows, hf]
  rfl

end CursorLink
end Arcen
