import Arcen.Utf8

/-! Which native clipboard names carry the two wire kinds, what the host policy and the client's request let cross,
and the checks on a complete payload. The PNG decoder is not part of this repository: whether bytes are a PNG within
a size is a parameter. -/

namespace Arcen

/-! ### Policy and negotiation -/

inductive ClipboardDirection where
  | both
  | clientToHost
  | hostToClient
  | disabled
  deriving DecidableEq

inductive ClipboardContent where
  | all
  | text
  | image
  deriving DecidableEq

inductive ClipboardFlow where
  | clientToHost
  | hostToClient

inductive ClipboardKind where
  | textUtf8
  | imagePng
  deriving DecidableEq

structure ClipboardPolicy where
  direction : ClipboardDirection
  content : ClipboardContent
  maxBytes : Nat
  deriving DecidableEq

inductive ClipboardPolicyError where
  | invalidMaximum (maxBytes : Nat)
  | disabled
  | directionNotAllowed
  | contentNotAllowed
  | tooLarge (bytes maximum : Nat)

namespace ClipboardPolicy

variable (policy : ClipboardPolicy)

def directionAllowed (flow : ClipboardFlow) : Bool :=
  match policy.direction, flow with
  | .both, _ => true
  | .clientToHost, .clientToHost => true
  | .hostToClient, .hostToClient => true
  | _, _ => false

def contentAllowed (kind : ClipboardKind) : Bool :=
  match policy.content, kind with
  | .all, _ => true
  | .text, .textUtf8 => true
  | .image, .imagePng => true
  | _, _ => false

def allows (flow : ClipboardFlow) (kind : ClipboardKind) : Bool :=
  policy.directionAllowed flow && policy.contentAllowed kind

def checkSize (flow : ClipboardFlow) (kind : ClipboardKind) (bytes : Nat) : Except ClipboardPolicyError Unit :=
  if policy.direction = .disabled then .error .disabled
  else if !policy.directionAllowed flow then .error .directionNotAllowed
  else if !policy.contentAllowed kind then .error .contentNotAllowed
  else if policy.maxBytes < bytes then .error (.tooLarge bytes policy.maxBytes)
  else .ok ()

end ClipboardPolicy

/-- Which way one kind of clipboard content may travel. -/
structure ClipboardDirections where
  clientToHost : Bool
  hostToClient : Bool
  deriving DecidableEq

def ClipboardDirections.allows (directions : ClipboardDirections) : ClipboardFlow → Bool
  | .clientToHost => directions.clientToHost
  | .hostToClient => directions.hostToClient

structure ClipboardRequest where
  protocolVersion : UInt16
  text : ClipboardDirections
  image : ClipboardDirections

/-- A host policy narrowed by what the client asked for. -/
structure ClipboardNegotiation where
  policy : ClipboardPolicy
  text : ClipboardDirections
  image : ClipboardDirections
  deriving DecidableEq

def clipboardProtocolVersion : UInt16 := 1

namespace ClipboardNegotiation

def allows (negotiation : ClipboardNegotiation) (flow : ClipboardFlow) (kind : ClipboardKind) : Bool :=
  negotiation.policy.allows flow kind && match kind with
    | .textUtf8 => negotiation.text.allows flow
    | .imagePng => negotiation.image.allows flow

def resolve (policy : ClipboardPolicy) (eligible : Bool) (request : ClipboardRequest) : Option ClipboardNegotiation :=
  if !eligible || request.protocolVersion != clipboardProtocolVersion || policy.direction = .disabled then none
  else
    let resolved : ClipboardNegotiation := ⟨policy, request.text, request.image⟩
    if resolved.allows .clientToHost .textUtf8 || resolved.allows .clientToHost .imagePng ||
        resolved.allows .hostToClient .textUtf8 || resolved.allows .hostToClient .imagePng then some resolved
    else none

theorem resolve_eq_some {policy : ClipboardPolicy} {eligible : Bool}
    (h : resolve policy eligible req = some nego) :
    nego = ⟨policy, req.text, req.image⟩ := by
  simp only [resolve] at h
  split_ifs at h
  exact (Option.some.inj h).symm

end ClipboardNegotiation

/-! ### Names -/

inductive HostFormat where
  | utf8Text
  | plainText
  | latin1Text
  | png
  deriving DecidableEq

def HostFormat.kind : HostFormat → ClipboardKind
  | .utf8Text => .textUtf8
  | .plainText => .textUtf8
  | .latin1Text => .textUtf8
  | .png => .imagePng

def utf8String : String := "UTF8_STRING"
def textPlainUtf8 : String := "text/plain;charset=utf-8"
def textPlain : String := "text/plain"
def x11Text : String := "TEXT"
def x11String : String := "STRING"
def imagePng : String := "image/png"

/-- Text names in the order a host reads them. -/
def textPreference : List (String × HostFormat) :=
  [(utf8String, .utf8Text), (textPlainUtf8, .utf8Text), (textPlain, .plainText), (x11Text, .plainText),
    (x11String, .latin1Text)]

/-- `str::replace`: the occurrences from the left, none inside another. `skip` characters of the last one are left. -/
def replaceFrom (pattern replacement : List Char) : Nat → List Char → List Char
  | _, [] => []
  | skip + 1, _ :: text => replaceFrom pattern replacement skip text
  | 0, first :: text =>
    if pattern.isPrefixOf (first :: text) then
      replacement ++ replaceFrom pattern replacement (pattern.length - 1) text
    else first :: replaceFrom pattern replacement 0 text

/-- Tab, line feed, form feed, carriage return and space. -/
def isAsciiWhitespace (character : Char) : Bool := [9, 10, 12, 13, 32].contains character.toNat

def toAsciiLowercase (character : Char) : Char :=
  if 65 ≤ character.toNat ∧ character.toNat ≤ 90 then Char.ofNat (character.toNat + 32) else character

def canonical (name : String) : String :=
  let characters := (name.toList.filter fun character => !isAsciiWhitespace character).map toAsciiLowercase
  String.ofList (replaceFrom "charset=\"utf-8\"".toList "charset=utf-8".toList 0 characters)

def hostFormat (name : String) : Option HostFormat :=
  if name = utf8String ∨ name = x11Text ∨ name = x11String then
    (textPreference.find? fun known => known.1 == name).map Prod.snd
  else if canonical name = imagePng then some .png
  else if canonical name = textPlainUtf8 then some .utf8Text
  else if canonical name = textPlain then some .plainText
  else none

def sameName (offered preferred : String) : Bool :=
  if '/' ∈ preferred.toList then canonical offered == canonical preferred else offered == preferred

def firstText (offered : List (String × HostFormat)) : Option (String × HostFormat) :=
  textPreference.findSome? fun preferred =>
    offered.find? fun found => found.2.kind = .textUtf8 && sameName found.1 preferred.1

def chooseHostFormat (allows : ClipboardKind → Bool) (names : List String) : Option (String × HostFormat) :=
  let offered := names.filterMap fun name => (hostFormat name).map fun format => (name, format)
  match if allows .textUtf8 then firstText offered else none with
  | some found => some found
  | none => if allows .imagePng then offered.find? fun found => found.2 == .png else none

/-! ### Payloads -/

/-- `u8::try_from(u32::from(character))`. -/
def latin1OfChar (character : Char) : Option UInt8 :=
  if character.toNat < 256 then some (UInt8.ofNat character.toNat) else none

def latin1FromUtf8 (bytes : List UInt8) : Option (List UInt8) :=
  match strFromUtf8 bytes with
  | none => none
  | some text => text.toList.mapM latin1OfChar

def utf8FromLatin1 (bytes : List UInt8) : List UInt8 :=
  strBytes (String.ofList (bytes.map fun byte => Char.ofNat byte.toNat))

def offeredNames (kind : ClipboardKind) (bytes : List UInt8) : List String :=
  match kind with
  | .textUtf8 =>
    [textPlainUtf8, utf8String, textPlain, x11Text] ++ if (latin1FromUtf8 bytes).isSome then [x11String] else []
  | .imagePng => [imagePng]

def renderForHost (name : String) (kind : ClipboardKind) (bytes : List UInt8) : Option (List UInt8) :=
  match hostFormat name with
  | none => none
  | some format =>
    if format.kind ≠ kind then none
    else
      match format with
      | .latin1Text => latin1FromUtf8 bytes
      | _ => some bytes

inductive ClipboardPayloadError where
  | refused (error : ClipboardPolicyError)
  | malformed
  | empty

section Payload

-- The decoder: whether bytes are a PNG within the image limits and an encoded size.
variable (validatePng : List UInt8 → Nat → Bool)

variable (policy : ClipboardPolicy)

def validatePayload (flow : ClipboardFlow) (kind : ClipboardKind) (bytes : List UInt8) :
    Except ClipboardPayloadError Unit :=
  if bytes.isEmpty then .error .empty
  else
    match policy.checkSize flow kind bytes.length with
    | .error error => .error (.refused error)
    | .ok () =>
      let valid := match kind with
        | .textUtf8 => (strFromUtf8 bytes).isSome
        | .imagePng => validatePng bytes policy.maxBytes
      if valid then .ok () else .error .malformed

def decodeHostPayload (format : HostFormat) (bytes : List UInt8) :
    Except ClipboardPayloadError (ClipboardKind × List UInt8) :=
  let bytes := match format with
    | .latin1Text => utf8FromLatin1 bytes
    | _ => bytes
  match validatePayload validatePng policy .hostToClient format.kind bytes with
  | .error error => .error error
  | .ok () => .ok (format.kind, bytes)

variable {validatePng}

variable {policy : ClipboardPolicy} {kind : ClipboardKind} {bytes : List UInt8}

theorem decodeHostPayload_eq_ok {format : HostFormat} {read : List UInt8}
    (h : decodeHostPayload validatePng policy format read = .ok (kind, bytes)) :
    bytes ≠ [] ∧ bytes.length ≤ policy.maxBytes := by
  simp only [decodeHostPayload] at h
  split at h
  · cases h
  · next hval =>
    obtain ⟨rfl, rfl⟩ := Prod.mk.inj (Except.ok.inj h)
    unfold validatePayload at hval
    split_ifs at hval with hemp
    refine ⟨fun hnil => hemp (by rw [hnil]; rfl), ?_⟩
    unfold ClipboardPolicy.checkSize at hval
    split_ifs at hval with _ _ _ hsize
    exact not_lt.mp hsize

end Payload

end Arcen
