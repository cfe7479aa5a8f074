import Arcen.LruCache
import Arcen.CursorRegistry

/-! The two ends of the cursor's lane (`shared/input/src/cursor.rs`): the Pier's outbox of an attachment
and the Deck's state. An image crosses the link once. The Pier keeps only a mirror of the ids the Deck
holds and inlines the PNG exactly when its mirror does not have the id. -/

namespace Arcen

def cursorCacheEntries : Nat := 32

def cursorCacheBytes : Nat := 2 * 1024 * 1024

abbrev CursorImageCache (V : Type) := LruCache CursorImageId V

namespace CursorImageCache

variable {V : Type}

def weight (width height : UInt16) : Nat := width.toNat * height.toNat * 4

def insert (cache : CursorImageCache V) (id : CursorImageId) (weight : Nat) (value : V) : CursorImageCache V :=
  LruCache.insert cursorCacheEntries cursorCacheBytes cache id weight value

end CursorImageCache

/-- The current cursor of a desktop. -/
inductive CursorFacts where
  | hidden (output generation : UInt32)
  | image (output generation : UInt32) (id : CursorImageId) (wire : WireCursorImage)
  deriving DecidableEq

/-! ### The Pier's outbox -/

/-- A record ready to send, and what sending it commits. -/
structure PreparedCursorUpdate where
  bytes : List UInt8
  inlineImage : Bool
  sequence : UInt64
  facts : CursorFacts
  image : Option (CursorImageId × Nat)

/-- The newest cursor state for one attachment's input/cursor lane. -/
structure CursorLaneOutbox where
  mirror : CursorImageCache Unit
  sequence : UInt64
  latest : Option CursorFacts
  sent : Option CursorFacts

/-- The record of a state, whether its image travels inline, and the cache entry it stands for. -/
structure CursorRecord where
  update : CursorUpdate
  image : Option (CursorImageId × Nat)
  inlineImage : Bool

/-- `dimension` of `prepare`. -/
def cursorDimension (value : Nat) : Except CursorUpdateError UInt16 :=
  match u16TryFrom value with
  | some value => .ok value
  | none => .error .dimensions

/-- The match of `prepare`: the record of a state, for a receiver that holds its image or not. -/
def CursorFacts.record (facts : CursorFacts) (sequence : UInt64) (held : CursorImageId → Bool) :
    Except CursorUpdateError CursorRecord :=
  match facts with
  | .hidden output generation => .ok ⟨⟨sequence, output, generation, .hidden, .hidden⟩, none, false⟩
  | .image output generation id wire => do
      let width ← cursorDimension wire.image.width
      let height ← cursorDimension wire.image.height
      let hotspotX ← cursorDimension wire.image.hotspot.1
      let hotspotY ← cursorDimension wire.image.hotspot.2
      let isInline := !held id
      return ⟨⟨sequence, output, generation, .default,
        .image ⟨id, width, height, hotspotX, hotspotY, if isInline then some wire.png else none⟩⟩,
        some (id, CursorImageCache.weight width height), isInline⟩

namespace CursorLaneOutbox

def empty : CursorLaneOutbox := ⟨LruCache.empty, 0, none, none⟩

variable (outbox : CursorLaneOutbox)

/-- Records the desktop's current cursor. -/
def set (facts : CursorFacts) : CursorLaneOutbox := { outbox with latest := some facts }

def isPending : Bool := outbox.latest.isSome && outbox.latest != outbox.sent

/-- The lane was (re)opened: the Deck holds no image, and the current state is sent again. -/
def resetLane : CursorLaneOutbox := { outbox with mirror := LruCache.empty, sent := none }

/-- Builds the record for the pending state. The outer `none` is the panic of `self.sequence + 1` on
overflow. -/
def prepare : Option (Except CursorUpdateError (Option PreparedCursorUpdate)) :=
  if outbox.isPending then
    match outbox.latest with
    | none => some (.ok none)
    | some facts =>
      if outbox.sequence = 0xffffffffffffffff then none
      else
        let sequence := outbox.sequence + 1
        match facts.record sequence outbox.mirror.contains with
        | .error error => some (.error error)
        | .ok record =>
          match encodeCursorUpdate record.update with
          | .error error => some (.error error)
          | .ok bytes => some (.ok (some ⟨bytes, record.inlineImage, sequence, facts, record.image⟩))
  else some (.ok none)

def commit (prepared : PreparedCursorUpdate) : CursorLaneOutbox := { outbox with
    sequence := prepared.sequence
    mirror :=
      match prepared.image with
      | none => outbox.mirror
      | some (id, weight) =>
        match outbox.mirror.touch id with
        | (touched, some ()) => touched
        | (untouched, none) => CursorImageCache.insert untouched id weight ()
    sent := some prepared.facts }

def mirroredIds : List CursorImageId := outbox.mirror.keys

end CursorLaneOutbox

/-! ### The Deck -/

inductive DeckCursor where
  | default
  | hidden
  | image (id : CursorImageId) (image : CursorImage) (output generation : UInt32)
  | named (shape : CursorShapeKind)
  deriving DecidableEq

inductive DeckCursorError where
  | record (error : CursorUpdateError)

/-- The Deck's side: applies `CursorUpdate` records in lane order. -/
structure DeckCursorState where
  cache : CursorImageCache (Option CursorImage)
  lastSequence : UInt64
  current : Option DeckCursor
  undecodableImages : Nat
  unknownImages : Nat

namespace DeckCursorState

def empty : DeckCursorState := ⟨LruCache.empty, 0, none, 0, 0⟩

variable (codec : PngCodec)

/-- The image a visible record refers to: decoded and cached when it is inline, looked up otherwise. -/
def resolveImage (deck : DeckCursorState) (reference : CursorImageRef) : DeckCursorState × Option CursorImage :=
  match reference.inlinePng with
  | some png =>
    let decoded := (CursorImage.fromWirePng codec png reference.width.toNat reference.height.toNat
      (reference.hotspotX.toNat, reference.hotspotY.toNat)).toOption
    let undecodable := if decoded.isNone then deck.undecodableImages + 1 else deck.undecodableImages
    let weight := CursorImageCache.weight reference.width reference.height
    ({ deck with
        undecodableImages := undecodable
        cache := CursorImageCache.insert deck.cache reference.id weight decoded }, decoded)
  | none =>
    match deck.cache.touch reference.id with
    | (touched, some held) => ({ deck with cache := touched }, held)
    | (untouched, none) => ({ deck with cache := untouched, unknownImages := deck.unknownImages + 1 }, none)

/-- What a record shows, with the cache following it even when it is stale. -/
def resolve (deck : DeckCursorState) (update : CursorUpdate) : DeckCursorState × DeckCursor :=
  match update.appearance with
  | .hidden => (deck, .hidden)
  | .image reference =>
    match deck.resolveImage codec reference with
    | (deck, some image) => (deck, .image reference.id image update.output update.generation)
    | (deck, none) => (deck, .named update.fallback)

/-- Applies one record; returns whether what the Deck shows changed. -/
def apply (deck : DeckCursorState) (bytes : List UInt8) : DeckCursorState × Except DeckCursorError Bool :=
  match decodeCursorUpdate bytes with
  | .error error => (deck, .error (.record error))
  | .ok update =>
    let (deck, shown) := deck.resolve codec update
    if update.sequence ≤ deck.lastSequence then (deck, .ok false)
    else
      ({ deck with lastSequence := update.sequence, current := some shown }, .ok (deck.current != some shown))

variable (deck : DeckCursorState)

def resetLane : DeckCursorState := { deck with cache := LruCache.empty, lastSequence := 0 }

/-- What to show: the client's ordinary arrow until the first record. -/
def shows : DeckCursor := deck.current.getD .default

def cachedIds : List CursorImageId := deck.cache.keys

end DeckCursorState

end Arcen
