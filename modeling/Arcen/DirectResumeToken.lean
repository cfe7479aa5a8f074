import Arcen.DirectResumeGrant
import Arcen.Hex

/-! Direct-resume tokens. A token is the hex text of a JSON envelope around the claims and their signature; a
Host authenticates it against its key and its own bindings. The key signs canonical bytes, so what it accepts
is exactly the claims it signed. -/

namespace Arcen

def directResumeTokenPrefix : String := "v1."
def maxDirectResumeTokenBytes : Nat := 8192

structure SignedDirectResumeEnvelope where
  claims : DirectResumeGrantClaims
  signature : FixedBytes 32
  deriving DecidableEq

/-- JSON coding of the envelope: what is written reads back. -/
structure EnvelopeCodec where
  toVec : SignedDirectResumeEnvelope → Option (List UInt8)
  fromSlice : List UInt8 → Option SignedDirectResumeEnvelope
  lossless : ∀ envelope bytes, toVec envelope = some bytes → fromSlice bytes = some envelope

/-- The adapters of one Host key, and the byte strings it signed: these verify, under their signature, and no
others. -/
structure ExactKey (ε δ : Type) where
  sign : List UInt8 → Except ε (FixedBytes 32)
  verify : List UInt8 → FixedBytes 32 → Except δ Unit
  signed : List UInt8 → Prop
  verifies : ∀ bytes signature, verify bytes signature = .ok () ↔ signed bytes ∧ sign bytes = .ok signature

inductive DirectResumeSigningError (ε : Type) where
  | claims (error : DirectResumeError)
  | signer (error : ε)
  | serialization
  deriving DecidableEq

inductive DirectResumeValidationError (ε : Type) where
  | claims (error : DirectResumeError)
  | signature (error : ε)

def encodeHex (bytes : List UInt8) : String := String.ofList (bytes.flatMap hexPair)

def decodeHex (value : List UInt8) : Except DirectResumeError (List UInt8) := do
  refuseWhen (value.length % 2 ≠ 0) .malformedToken
  orError .malformedToken (parseHex value)

structure DirectResumeGrantToken where
  text : String
  deriving DecidableEq

namespace DirectResumeGrantToken

def parse (value : String) : Except DirectResumeError DirectResumeGrantToken := do
  refuseWhen (maxDirectResumeTokenBytes < (strBytes value).length) .tokenTooLong
  refuseWhen (¬ strBytes directResumeTokenPrefix <+: strBytes value)
    (if 46 ∈ strBytes value then .unsupportedTokenVersion else .malformedToken)
  refuseWhen ((strBytes value).length = (strBytes directResumeTokenPrefix).length) .malformedToken
  return ⟨value⟩

def decode (codec : EnvelopeCodec) (token : DirectResumeGrantToken) :
    Except DirectResumeError SignedDirectResumeEnvelope := do
  let encoded ← orError .unsupportedTokenVersion
    (stripPrefix (strBytes directResumeTokenPrefix) (strBytes token.text))
  let bytes ← decodeHex encoded
  orError .malformedToken (codec.fromSlice bytes)

end DirectResumeGrantToken

/-! ### Signing -/

variable (claims : DirectResumeGrantClaims)

/-- What `sign_direct_resume_grant` hands to the signer: the canonical bytes of valid, currently issuable
claims. -/
def signingBytes (nowEpochSeconds : UInt64) : Except DirectResumeError (List UInt8) := do
  validateClaimStructure claims
  validateTiming claims nowEpochSeconds
  claims.canonicalSigningBytes

def signDirectResumeGrant {ε : Type} (codec : EnvelopeCodec) (sign : List UInt8 → Except ε (FixedBytes 32))
    (claims : DirectResumeGrantClaims) (nowEpochSeconds : UInt64) :
    Except (DirectResumeSigningError ε) DirectResumeGrantToken := do
  let canonical ← (signingBytes claims nowEpochSeconds).mapError .claims
  let signature ← (sign canonical).mapError .signer
  let bytes ← orError .serialization (codec.toVec ⟨claims, signature⟩)
  let token := directResumeTokenPrefix ++ encodeHex bytes
  refuseWhen (maxDirectResumeTokenBytes < (strBytes token).length) (.claims .tokenTooLong)
  return ⟨token⟩

/-! ### Validation -/

/-- Immutable local bindings for authenticating a direct-resume candidate. -/
structure DirectResumeBindingContext where
  expectedHostIdentity : HostIdentity
  expectedActiveSessionId : ActiveHostSessionId
  expectedNativePrincipal : NativePrincipal
  expectedHolderNonce : DeckHolderNonce
  expectedDisclaimerDigest : DisclaimerDigest
  expectedDisclaimerVersion : DisclaimerVersion
  nowEpochSeconds : UInt64

structure DirectResumeValidationContext extends DirectResumeBindingContext where
  expectedGeneration : UInt64
  expectedNonce : DirectResumeNonce

structure ValidatedDirectResumeGrant where
  claims : DirectResumeGrantClaims

def validateImmutableBindings (context : DirectResumeBindingContext) : Except DirectResumeError Unit := do
  refuseWhen (claims.hostIdentity ≠ context.expectedHostIdentity) .hostIdentityMismatch
  refuseWhen (claims.activeSessionId ≠ context.expectedActiveSessionId) .activeSessionMismatch
  refuseWhen (claims.nativePrincipal ≠ context.expectedNativePrincipal) .nativePrincipalMismatch
  refuseWhen (claims.holderNonce ≠ context.expectedHolderNonce) .holderNonceMismatch
  refuseWhen (¬ claims.disclaimerDigest.matches context.expectedDisclaimerDigest) .disclaimerDigestMismatch
  refuseWhen (claims.disclaimerVersion ≠ context.expectedDisclaimerVersion) .disclaimerVersionMismatch

def validateSlotBinding (expectedGeneration : UInt64)
    (expectedNonce : DirectResumeNonce) : Except DirectResumeError Unit := do
  refuseWhen (claims.generation ≠ expectedGeneration) .generationMismatch
  refuseWhen (claims.nonce ≠ expectedNonce) .nonceMismatch

section Validation

variable {δ : Type} (codec : EnvelopeCodec) (verify : List UInt8 → FixedBytes 32 → Except δ Unit)
  (token : DirectResumeGrantToken)

/-- Authenticates a direct-resume candidate without comparing mutable slot data. -/
def validateDirectResumeGrantCandidate (context : DirectResumeBindingContext) :
    Except (DirectResumeValidationError δ) ValidatedDirectResumeGrant := do
  let envelope ← (token.decode codec).mapError .claims
  (validateClaimStructure envelope.claims).mapError .claims
  let canonical ← envelope.claims.canonicalSigningBytes.mapError .claims
  (verify canonical envelope.signature).mapError .signature
  (validateImmutableBindings envelope.claims context).mapError .claims
  (validateTiming envelope.claims context.nowEpochSeconds).mapError .claims
  return ⟨envelope.claims⟩

def validateDirectResumeGrant (context : DirectResumeValidationContext) :
    Except (DirectResumeValidationError δ) ValidatedDirectResumeGrant := do
  let validated ← validateDirectResumeGrantCandidate codec verify token context.toDirectResumeBindingContext
  (validateSlotBinding validated.claims context.expectedGeneration context.expectedNonce).mapError .claims
  return validated

/-! ### What validation accepts -/

variable {claims : DirectResumeGrantClaims} {context : DirectResumeBindingContext} {u : Unit}

theorem validateImmutableBindings_eq_ok : validateImmutableBindings claims context = .ok u ↔
      claims.hostIdentity = context.expectedHostIdentity ∧ claims.activeSessionId = context.expectedActiveSessionId ∧
      claims.nativePrincipal = context.expectedNativePrincipal ∧ claims.holderNonce = context.expectedHolderNonce ∧
      claims.disclaimerDigest = context.expectedDisclaimerDigest ∧
      claims.disclaimerVersion = context.expectedDisclaimerVersion := by
  simp only [validateImmutableBindings, exceptBind_eq_ok, refuseWhen_eq_ok, not_not, exists_const,
    DisclaimerDigest.matches_iff]

variable {codec verify token}

/-- A candidate passes when its envelope is signed, its claims carry the bindings of the context and the time of
the context is in its window. -/
theorem validateDirectResumeGrantCandidate_eq_ok {validated : ValidatedDirectResumeGrant} :
    validateDirectResumeGrantCandidate codec verify token context = .ok validated ↔
      ∃ sig canon, token.decode codec = .ok ⟨validated.claims, sig⟩ ∧
        validated.claims.canonicalSigningBytes = .ok canon ∧ verify canon sig = .ok () ∧
        validateImmutableBindings validated.claims context = .ok () ∧
        validated.claims.issuedAt ≤ context.nowEpochSeconds ∧
        context.nowEpochSeconds < validated.claims.expiresAt := by
  unfold validateDirectResumeGrantCandidate
  simp only [exceptBind_eq_ok, exceptMapError_eq_ok, exceptPure_eq_ok, validateTiming_eq_ok]
  constructor
  · rintro ⟨⟨_, sig⟩, hd, -, -, canon, hc, _, hv, _, hb, -, hw, rfl⟩
    exact ⟨sig, canon, hd, hc, hv, hb, hw.2⟩
  · rintro ⟨_, canon, hd, hc, hv, hb, hiss, hexp⟩
    obtain ⟨_, hstru, -⟩ := exceptBind_eq_ok.mp hc
    exact ⟨_, hd, (), hstru, canon, hc, (), hv, (), hb, (), ⟨validateLifetime_of_structure hstru, hiss, hexp⟩, rfl⟩

end Validation

/-! ### What signing makes -/

theorem strBytes_append (first second : String) : strBytes (first ++ second) = strBytes first ++ strBytes second := by
  simp [strBytes]

theorem decodeHex_encodeHex (bytes : List UInt8) : decodeHex (strBytes (encodeHex bytes)) = .ok bytes := by
  obtain ⟨hlen, hprs⟩ := parseHex_strBytes_ofList bytes
  refine exceptBind_eq_ok.mpr ⟨(), refuseWhen_eq_ok.mpr ?_, orError_eq_ok.mpr hprs⟩
  rw [encodeHex]
  omega

/-- A signed token carries the claims it was signed for, with the signature of their canonical bytes. -/
theorem decode_of_signDirectResumeGrant {ε : Type} {codec : EnvelopeCodec}
    {sign : List UInt8 → Except ε (FixedBytes 32)} {claims : DirectResumeGrantClaims} {now : UInt64}
    {token : DirectResumeGrantToken} (h : signDirectResumeGrant codec sign claims now = .ok token) :
    ∃ canon sig, signingBytes claims now = .ok canon ∧ sign canon = .ok sig ∧
      token.decode codec = .ok ⟨claims, sig⟩ := by
  simp only [signDirectResumeGrant, exceptBind_eq_ok, exceptMapError_eq_ok, orError_eq_ok, exceptPure_eq_ok] at h
  obtain ⟨canon, hc, sig, hs, bytes, hby, -, -, rfl⟩ := h
  have henco : stripPrefix (strBytes directResumeTokenPrefix)
      (strBytes (directResumeTokenPrefix ++ encodeHex bytes)) = some (strBytes (encodeHex bytes)) := by
    rw [strBytes_append, stripPrefix, if_pos (List.prefix_append _ _), List.drop_left]
  refine ⟨canon, sig, hc, hs, exceptBind_eq_ok.mpr ⟨_, orError_eq_ok.mpr henco, ?_⟩⟩
  exact exceptBind_eq_ok.mpr ⟨bytes, decodeHex_encodeHex bytes, orError_eq_ok.mpr (codec.lossless _ _ hby)⟩

/-! ### Tokens bind every claim -/

def DirectResumeGrantClaims.matchingContext (claims : DirectResumeGrantClaims) (nowEpochSeconds : UInt64) :
    DirectResumeValidationContext where
  expectedHostIdentity := claims.hostIdentity
  expectedActiveSessionId := claims.activeSessionId
  expectedNativePrincipal := claims.nativePrincipal
  expectedHolderNonce := claims.holderNonce
  expectedDisclaimerDigest := claims.disclaimerDigest
  expectedDisclaimerVersion := claims.disclaimerVersion
  nowEpochSeconds := nowEpochSeconds
  expectedGeneration := claims.generation
  expectedNonce := claims.nonce

section Binding

variable {ε δ : Type} {codec : EnvelopeCodec} {key : ExactKey ε δ} {token : DirectResumeGrantToken}

theorem validateDirectResumeGrant_eq_ok {context : DirectResumeValidationContext}
    {validated : ValidatedDirectResumeGrant} :
    validateDirectResumeGrant codec key.verify token context = .ok validated ↔
      validateDirectResumeGrantCandidate codec key.verify token context.toDirectResumeBindingContext = .ok validated ∧
        validated.claims.generation = context.expectedGeneration ∧
        validated.claims.nonce = context.expectedNonce := by
  simp only [validateDirectResumeGrant, exceptBind_eq_ok, exceptMapError_eq_ok, exceptPure_eq_ok,
    validateSlotBinding, refuseWhen_eq_ok, not_not, exists_const]
  constructor
  · rintro ⟨_, hcand, hslot, rfl⟩
    exact ⟨hcand, hslot⟩
  · rintro ⟨hcand, hslot⟩
    exact ⟨_, hcand, hslot, rfl⟩

/-- A signed token validates in the matching context exactly within its window, and gives its claims back. -/
theorem validate_of_sign {claims : DirectResumeGrantClaims} {now : UInt64}
    (hs : signDirectResumeGrant codec key.sign claims now = .ok token)
    (hsgd : ∀ bytes, claims.canonicalSigningBytes = .ok bytes → key.signed bytes) (time : UInt64)
    (validated : ValidatedDirectResumeGrant) :
    validateDirectResumeGrant codec key.verify token (claims.matchingContext time) = .ok validated ↔
      validated = ⟨claims⟩ ∧ claims.issuedAt ≤ time ∧ time < claims.expiresAt := by
  obtain ⟨canonical, sig, hsigni, hsig, hd⟩ := decode_of_signDirectResumeGrant hs
  have hc : claims.canonicalSigningBytes = .ok canonical := by
    obtain ⟨_, -, hrest⟩ := exceptBind_eq_ok.mp hsigni
    obtain ⟨_, -, hby⟩ := exceptBind_eq_ok.mp hrest
    exact hby
  rw [validateDirectResumeGrant_eq_ok, validateDirectResumeGrantCandidate_eq_ok]
  constructor
  · rintro ⟨⟨_, _, hoth, -, -, -, hw⟩, -⟩
    rw [hd, Except.ok.injEq] at hoth
    obtain ⟨rfl, -⟩ := hoth
    exact ⟨rfl, hw⟩
  · rintro ⟨rfl, hw⟩
    refine ⟨⟨sig, canonical, hd, hc, ?_, ?_, hw⟩, rfl, rfl⟩
    · exact (key.verifies canonical sig).mpr ⟨hsgd canonical hc, hsig⟩
    · exact validateImmutableBindings_eq_ok.mpr ⟨rfl, rfl, rfl, rfl, rfl, rfl⟩

end Binding

/-- **Direct-resume tokens bind every claim.** The signing bytes determine the claims; a signed token validates
in the matching context exactly within its window, with its own claims; and whatever validates was signed and
agrees with the context. -/
theorem resume_tokens_bind_claims {ε δ : Type} (codec : EnvelopeCodec) (key : ExactKey ε δ) :
    (∀ (claims other : DirectResumeGrantClaims) (bytes : List UInt8), claims.canonicalSigningBytes = .ok bytes →
      other.canonicalSigningBytes = .ok bytes → claims = other) ∧
    (∀ (claims : DirectResumeGrantClaims) (now : UInt64) (token : DirectResumeGrantToken),
      signDirectResumeGrant codec key.sign claims now = .ok token →
      (∀ bytes, claims.canonicalSigningBytes = .ok bytes → key.signed bytes) →
      ∀ (time : UInt64) (validated : ValidatedDirectResumeGrant),
        validateDirectResumeGrant codec key.verify token (claims.matchingContext time) = .ok validated ↔
          validated = ⟨claims⟩ ∧ claims.issuedAt ≤ time ∧ time < claims.expiresAt) ∧
    (∀ (token : DirectResumeGrantToken) (context : DirectResumeValidationContext)
      (validated : ValidatedDirectResumeGrant),
      validateDirectResumeGrant codec key.verify token context = .ok validated →
      (∃ bytes, validated.claims.canonicalSigningBytes = .ok bytes ∧ key.signed bytes) ∧
      validated.claims.hostIdentity = context.expectedHostIdentity ∧
      validated.claims.activeSessionId = context.expectedActiveSessionId ∧
      validated.claims.nativePrincipal = context.expectedNativePrincipal ∧
      validated.claims.holderNonce = context.expectedHolderNonce ∧
      validated.claims.generation = context.expectedGeneration ∧ validated.claims.nonce = context.expectedNonce ∧
      validated.claims.disclaimerDigest = context.expectedDisclaimerDigest ∧
      validated.claims.disclaimerVersion = context.expectedDisclaimerVersion) := by
  refine ⟨fun _ _ _ => DirectResumeGrantClaims.canonicalSigningBytes_injective,
    fun _ _ _ hs hsgd => validate_of_sign hs hsgd, ?_⟩
  intro token context validated hval
  obtain ⟨hcand, hgen, hnon⟩ := validateDirectResumeGrant_eq_ok.mp hval
  obtain ⟨sig, bytes, -, hc, hv, hb, -⟩ := validateDirectResumeGrantCandidate_eq_ok.mp hcand
  obtain ⟨hhost, hsess, hprin, hhold, hdige, hver⟩ := validateImmutableBindings_eq_ok.mp hb
  exact ⟨⟨bytes, hc, ((key.verifies bytes sig).mp hv).1⟩, hhost, hsess, hprin, hhold, hgen, hnon, hdige, hver⟩

def thirtyTwo (byte : UInt8) : FixedBytes 32 := ⟨List.replicate 32 byte, List.length_replicate⟩

/-- A grant of a Linux session, valid for six minutes. -/
def deskGrant : DirectResumeGrantClaims where
  schema := directResumeSchema
  version := directResumeVersion
  audience := directResumeAudience
  algorithm := directResumeAlgorithm
  hostIdentity := ⟨"pier"⟩
  activeSessionId := ⟨"desk", by decide⟩
  nativePrincipal := .linux 1000 ⟨"c2", by decide⟩
  holderNonce := ⟨thirtyTwo 7⟩
  generation := 1
  nonce := ⟨thirtyTwo 9⟩
  disclaimerDigest := ⟨thirtyTwo 0⟩
  disclaimerVersion := ⟨"none-v1", by decide⟩
  issuedAt := 100
  expiresAt := 460

/-- A codec for the one envelope of `deskGrant`. -/
def deskCodec : EnvelopeCodec where
  toVec envelope := if envelope = ⟨deskGrant, thirtyTwo 3⟩ then some [123] else none
  fromSlice bytes := if bytes = [123] then some ⟨deskGrant, thirtyTwo 3⟩ else none
  lossless := by
    intro envelope bytes h
    split_ifs at h with henvelope
    rw [← Option.some.inj h, henvelope, if_pos rfl]

/-- A key that has signed `deskGrant` and nothing else. -/
def deskKey : ExactKey Unit Unit where
  sign _ := .ok (thirtyTwo 3)
  verify bytes signature :=
    if deskGrant.canonicalSigningBytes = .ok bytes ∧ thirtyTwo 3 = signature then .ok () else .error ()
  signed bytes := deskGrant.canonicalSigningBytes = .ok bytes
  verifies bytes signature := by
    rw [Except.ok.injEq]
    split_ifs with h
    · exact ⟨fun _ => h, fun _ => rfl⟩
    · exact ⟨nofun, fun hsigned => absurd hsigned h⟩

theorem resume_tokens_bind_claims_desk : signDirectResumeGrant deskCodec deskKey.sign deskGrant 100 = .ok ⟨"v1.7b"⟩ ∧
      validateDirectResumeGrant deskCodec deskKey.verify ⟨"v1.7b"⟩ (deskGrant.matchingContext 459) = .ok ⟨deskGrant⟩ ∧
      validateDirectResumeGrant deskCodec deskKey.verify ⟨"v1.7b"⟩ (deskGrant.matchingContext 460) ≠
        .ok ⟨deskGrant⟩ := by
  have hs : signDirectResumeGrant deskCodec deskKey.sign deskGrant 100 = .ok ⟨"v1.7b"⟩ := by decide +kernel
  have hw := (resume_tokens_bind_claims deskCodec deskKey).2.1 deskGrant 100 ⟨"v1.7b"⟩ hs fun _ h => h
  refine ⟨hs, (hw 459 ⟨deskGrant⟩).mpr ⟨rfl, by decide, by decide⟩, fun h => ?_⟩
  exact absurd ((hw 460 ⟨deskGrant⟩).mp h).2.2 (by decide)

end Arcen
