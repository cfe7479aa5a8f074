import Arcen.Fallible
import Arcen.LengthPrefix
import Arcen.Utf8

/-! The claims of a direct-resume grant (`shared/identity/src/direct_resume.rs`). The signature of a grant
covers the claims in one canonical byte string, every part behind its length; the byte string determines the
claims. -/

namespace Arcen

open List

def directResumeSigningDomain : String := "arcen-direct-quic-resume-v1"
def directResumeSchema : String := "arcen.direct_wss_resume"
def directResumeVersion : UInt16 := 1
def directResumeAudience : String := "arcen-direct-quic"
def directResumeAlgorithm : String := "hmac-sha256"
def maxDirectResumeLifetimeSeconds : UInt64 := 14400
def maxDirectResumeSessionIdBytes : Nat := 128
def maxWindowsSidBytes : Nat := 184
def maxLogindSessionIdBytes : Nat := 128
def maxDisclaimerVersionBytes : Nat := 64
def maxGrantBindingValueBytes : Nat := 512

inductive DirectResumeError where
  | tokenTooLong
  | malformedToken
  | unsupportedTokenVersion
  | unsupportedSchema
  | unsupportedClaimsVersion
  | audienceMismatch
  | algorithmMismatch
  | emptyHostIdentity
  | hostIdentityTooLong
  | emptyActiveSession
  | activeSessionTooLong
  | invalidWindowsSid
  | windowsSidTooLong
  | emptyLogindSession
  | logindSessionTooLong
  | emptyDisclaimerVersion
  | disclaimerVersionTooLong
  | issuedInFuture
  | expired
  | invalidLifetime
  | hostIdentityMismatch
  | activeSessionMismatch
  | nativePrincipalMismatch
  | holderNonceMismatch
  | generationMismatch
  | nonceMismatch
  | disclaimerDigestMismatch
  | disclaimerVersionMismatch
  deriving DecidableEq

/-! ### Bounded strings -/

inductive DirectResumeStringKind where
  | hostIdentity
  | activeSession
  | windowsSid
  | logindSession
  | disclaimerVersion

namespace DirectResumeStringKind

def emptyError : DirectResumeStringKind → DirectResumeError
  | hostIdentity => .emptyHostIdentity
  | activeSession => .emptyActiveSession
  | windowsSid => .invalidWindowsSid
  | logindSession => .emptyLogindSession
  | disclaimerVersion => .emptyDisclaimerVersion

def tooLongError : DirectResumeStringKind → DirectResumeError
  | hostIdentity => .hostIdentityTooLong
  | activeSession => .activeSessionTooLong
  | windowsSid => .windowsSidTooLong
  | logindSession => .logindSessionTooLong
  | disclaimerVersion => .disclaimerVersionTooLong

end DirectResumeStringKind

def validateBoundedString (value : String) (maximum : Nat) (kind : DirectResumeStringKind) :
    Except DirectResumeError Unit := do
  refuseWhen ((strBytes value).length = 0) kind.emptyError
  refuseWhen (maximum < (strBytes value).length) kind.tooLongError

/-- A value of `bounded_resume_string!`. -/
structure BoundedResumeString (maximum : Nat) (kind : DirectResumeStringKind) where
  text : String
  valid : validateBoundedString text maximum kind = .ok ()
  deriving DecidableEq

def BoundedResumeString.new {maximum : Nat} {kind : DirectResumeStringKind} (value : String) :
    Except DirectResumeError (BoundedResumeString maximum kind) :=
  match h : validateBoundedString value maximum kind with
  | .ok () => .ok ⟨value, h⟩
  | .error error => .error error

abbrev ActiveHostSessionId := BoundedResumeString maxDirectResumeSessionIdBytes .activeSession
abbrev LogindSessionId := BoundedResumeString maxLogindSessionIdBytes .logindSession
abbrev DisclaimerVersion := BoundedResumeString maxDisclaimerVersionBytes .disclaimerVersion

/-- The target Host identity. Deserializing one checks nothing, so any text may arrive. -/
structure HostIdentity where
  text : String
  deriving DecidableEq

/-- What follows `lead`, as `strip_prefix`. -/
def stripPrefix (lead bytes : List UInt8) : Option (List UInt8) :=
  if lead <+: bytes then some (bytes.drop lead.length) else none

/-- One component between the dashes of a SID: not empty, digits only. -/
def isSidComponent (component : List UInt8) : Bool :=
  component ≠ [] && component.all fun byte => 48 ≤ byte && byte ≤ 57

/-- The checks of `WindowsSid::new`. -/
def validateWindowsSid (value : String) : Except DirectResumeError Unit := do
  validateBoundedString value maxWindowsSidBytes .windowsSid
  let components ← orError .invalidWindowsSid (stripPrefix (strBytes "S-") (strBytes value))
  refuseWhen (¬ (components.splitOn 45).all isSidComponent) .invalidWindowsSid
  refuseWhen ((components.splitOn 45).length < 2) .invalidWindowsSid

structure WindowsSid where
  text : String
  valid : validateWindowsSid text = .ok ()
  deriving DecidableEq

inductive NativePrincipal where
  | windows (sid : WindowsSid) (wtsSessionId : UInt32)
  | linux (uid : UInt32) (logindSessionId : LogindSessionId)
  deriving DecidableEq

/-! ### Claims -/

structure DeckHolderNonce where
  bytes : FixedBytes 32
  deriving DecidableEq

structure DirectResumeNonce where
  bytes : FixedBytes 32
  deriving DecidableEq

structure DisclaimerDigest where
  bytes : FixedBytes 32
  deriving DecidableEq

/-- Compares fixed digest bytes without data-dependent early exit. -/
def DisclaimerDigest.matches (digest other : DisclaimerDigest) : Bool :=
  (digest.bytes.val.zip other.bytes.val).foldl (fun difference pair => difference ||| (pair.1 ^^^ pair.2)) 0 == 0

structure DirectResumeGrantClaims where
  schema : String
  version : UInt16
  audience : String
  algorithm : String
  hostIdentity : HostIdentity
  activeSessionId : ActiveHostSessionId
  nativePrincipal : NativePrincipal
  holderNonce : DeckHolderNonce
  generation : UInt64
  nonce : DirectResumeNonce
  disclaimerDigest : DisclaimerDigest
  disclaimerVersion : DisclaimerVersion
  issuedAt : UInt64
  expiresAt : UInt64
  deriving DecidableEq

def validateNativePrincipal : NativePrincipal → Except DirectResumeError Unit
  | .windows sid _ => validateBoundedString sid.text maxWindowsSidBytes .windowsSid
  | .linux _ logindSessionId => validateBoundedString logindSessionId.text maxLogindSessionIdBytes .logindSession

variable (claims : DirectResumeGrantClaims)

def validateLifetime : Except DirectResumeError Unit := do
  refuseWhen (claims.expiresAt < claims.issuedAt) .invalidLifetime
  let lifetime := claims.expiresAt - claims.issuedAt
  refuseWhen (lifetime = 0 ∨ maxDirectResumeLifetimeSeconds < lifetime) .invalidLifetime

def validateClaimStructure : Except DirectResumeError Unit := do
  refuseWhen (claims.schema ≠ directResumeSchema) .unsupportedSchema
  refuseWhen (claims.version ≠ directResumeVersion) .unsupportedClaimsVersion
  refuseWhen (claims.audience ≠ directResumeAudience) .audienceMismatch
  refuseWhen (claims.algorithm ≠ directResumeAlgorithm) .algorithmMismatch
  validateBoundedString claims.hostIdentity.text maxGrantBindingValueBytes .hostIdentity
  validateBoundedString claims.activeSessionId.text maxDirectResumeSessionIdBytes .activeSession
  validateNativePrincipal claims.nativePrincipal
  validateBoundedString claims.disclaimerVersion.text maxDisclaimerVersionBytes .disclaimerVersion
  validateLifetime claims

def validateTiming (nowEpochSeconds : UInt64) : Except DirectResumeError Unit := do
  validateLifetime claims
  refuseWhen (nowEpochSeconds < claims.issuedAt) .issuedInFuture
  refuseWhen (claims.expiresAt ≤ nowEpochSeconds) .expired

namespace DirectResumeGrantClaims

def new (hostIdentity : HostIdentity) (activeSessionId : ActiveHostSessionId) (nativePrincipal : NativePrincipal)
    (holderNonce : DeckHolderNonce) (generation : UInt64) (nonce : DirectResumeNonce)
    (disclaimerDigest : DisclaimerDigest) (disclaimerVersion : DisclaimerVersion) (issuedAt expiresAt : UInt64) :
    Except DirectResumeError DirectResumeGrantClaims := do
  let claims : DirectResumeGrantClaims :=
    { schema := directResumeSchema, version := directResumeVersion, audience := directResumeAudience,
      algorithm := directResumeAlgorithm, hostIdentity, activeSessionId, nativePrincipal, holderNonce, generation,
      nonce, disclaimerDigest, disclaimerVersion, issuedAt, expiresAt }
  validateClaimStructure claims
  validateLifetime claims
  return claims

/-- The parts of the principal: its platform, then its two fields in the order of the platform. -/
def principalParts : NativePrincipal → List (List UInt8)
  | .windows sid wtsSessionId => [strBytes "windows", strBytes sid.text, u32ToBeBytes wtsSessionId]
  | .linux uid logindSessionId => [strBytes "linux", u32ToBeBytes uid, strBytes logindSessionId.text]

/-- What `canonical_signing_bytes` appends, in its order. -/
def signingParts (claims : DirectResumeGrantClaims) : List (List UInt8) :=
  [strBytes directResumeSigningDomain, strBytes claims.schema, u16ToBeBytes claims.version,
    strBytes claims.audience, strBytes claims.algorithm, strBytes claims.hostIdentity.text,
    strBytes claims.activeSessionId.text] ++ principalParts claims.nativePrincipal ++
  [claims.holderNonce.bytes.val, u64ToBeBytes claims.generation, claims.nonce.bytes.val,
    claims.disclaimerDigest.bytes.val, strBytes claims.disclaimerVersion.text, u64ToBeBytes claims.issuedAt,
    u64ToBeBytes claims.expiresAt]

def appendPart (output part : List UInt8) : Except DirectResumeError (List UInt8) := do
  let length ← orError .tokenTooLong (u32TryFrom part.length)
  return output ++ u32ToBeBytes length ++ part

def canonicalSigningBytes (claims : DirectResumeGrantClaims) : Except DirectResumeError (List UInt8) := do
  validateClaimStructure claims
  claims.signingParts.foldlM appendPart []

/-! ### The signing bytes determine the claims -/

variable {output bytes : List UInt8} {claims : DirectResumeGrantClaims}

theorem appendPart_eq_ok :
    appendPart output part = .ok bytes ↔ part.length < 2 ^ 32 ∧ output ++ frame part = bytes := by
  unfold appendPart
  rw [exceptBind_eq_ok]
  constructor
  · rintro ⟨length, hl, hby⟩
    have hlt : part.length < 2 ^ 32 := by
      by_contra hlt
      rw [u32TryFrom, if_neg hlt] at hl
      cases hl
    rw [u32TryFrom_of_lt hlt] at hl
    obtain rfl := Except.ok.inj hl
    rw [append_assoc, exceptPure_eq_ok] at hby
    exact ⟨hlt, hby⟩
  · rintro ⟨hlt, rfl⟩
    exact ⟨_, orError_eq_ok.mpr (u32TryFrom_of_lt hlt), by rw [append_assoc]; rfl⟩

/-- The parts of an accepted byte string are its frames. -/
theorem foldlM_appendPart_eq_ok {parts : List (List UInt8)} : parts.foldlM appendPart output = .ok bytes ↔
      (∀ part ∈ parts, part.length < 2 ^ 32) ∧ output ++ parts.flatMap frame = bytes := by
  induction parts generalizing output with
  | nil => simp [exceptPure_eq_ok]
  | cons part parts ih =>
    rw [foldlM_cons, exceptBind_eq_ok]
    constructor
    · rintro ⟨_, hpart, hps⟩
      obtain ⟨hlt, rfl⟩ := appendPart_eq_ok.mp hpart
      obtain ⟨hall, rfl⟩ := ih.mp hps
      exact ⟨forall_mem_cons.mpr ⟨hlt, hall⟩, by simp⟩
    · rintro ⟨hall, rfl⟩
      obtain ⟨hlt, hrest⟩ := forall_mem_cons.mp hall
      exact ⟨output ++ frame part, appendPart_eq_ok.mpr ⟨hlt, rfl⟩, ih.mpr ⟨hrest, by simp⟩⟩

theorem splitFrames_of_canonicalSigningBytes (h : claims.canonicalSigningBytes = .ok bytes)
    : splitFrames (2 ^ 32) bytes = some claims.signingParts := by
  obtain ⟨-, -, hps⟩ := exceptBind_eq_ok.mp h
  obtain ⟨hl, rfl⟩ := foldlM_appendPart_eq_ok.mp hps
  have hsplit := splitFrames_flatten frame id claims.signingParts fun part hpart =>
    ⟨framed_frame (hl part hpart), (hl part hpart).le⟩
  rwa [map_id] at hsplit

theorem principalParts_injective (h : principalParts principal = principalParts other) : principal = other := by
  have hwind : strBytes "windows" ≠ strBytes "linux" := fun h => absurd (strBytes_injective h) (by decide)
  cases principal with
  | windows sid =>
    cases other with
    | windows otherSid =>
      simp only [principalParts, List.cons.injEq, true_and, and_true] at h
      obtain ⟨sid, _⟩ := sid
      obtain ⟨otherSid, _⟩ := otherSid
      obtain rfl := strBytes_injective h.1
      rw [Function.LeftInverse.injective u32FromBeBytes_toBeBytes h.2]
    | linux => exact absurd (List.cons.inj h).1 hwind
  | linux _ logindSessionId =>
    cases other with
    | windows => exact absurd (List.cons.inj h).1.symm hwind
    | linux _ otherLogind =>
      simp only [principalParts, List.cons.injEq, true_and, and_true] at h
      obtain ⟨logindSessionId, _⟩ := logindSessionId
      obtain ⟨otherLogind, _⟩ := otherLogind
      obtain rfl := strBytes_injective h.2
      rw [Function.LeftInverse.injective u32FromBeBytes_toBeBytes h.1]

/-- **Signing bytes determine the claims.** -/
theorem canonicalSigningBytes_injective
    (hclms : claims.canonicalSigningBytes = .ok bytes) (hoth : other.canonicalSigningBytes = .ok bytes) :
    claims = other := by
  have hps : claims.signingParts = other.signingParts := by
    have hsame := splitFrames_of_canonicalSigningBytes hclms
    rw [splitFrames_of_canonicalSigningBytes hoth] at hsame
    exact (Option.some.inj hsame).symm
  have hl (principal : NativePrincipal) : (principalParts principal).length = 3 := by
    cases principal <;> rfl
  obtain ⟨hfrt, hback⟩ := append_inj hps (by simp [hl])
  obtain ⟨hhead, hprin⟩ := append_inj hfrt rfl
  obtain ⟨_, _, _, _, ⟨_⟩, ⟨_, _⟩, _, ⟨_⟩, _, ⟨_⟩, ⟨digest⟩, ⟨disclaimer, _⟩, issued, expires⟩ := claims
  obtain ⟨_, _, _, _, ⟨_⟩, ⟨_, _⟩, _, ⟨_⟩, _, ⟨_⟩, ⟨digest'⟩, ⟨disclaimer', _⟩, issued', expires'⟩ := other
  simp only [List.cons.injEq, true_and, and_true] at hhead hback
  obtain ⟨hsche, hver, haudi, halgo, hhost, hsess⟩ := hhead
  obtain ⟨hhold, hgen, hnon, hdige, hdisc, hiss, hexp⟩ := hback
  have hwide := Function.LeftInverse.injective u64FromBeBytes_toBeBytes
  obtain rfl := strBytes_injective hsche
  obtain rfl := Function.LeftInverse.injective u16FromBeBytes_toBeBytes hver
  obtain rfl := strBytes_injective haudi
  obtain rfl := strBytes_injective halgo
  obtain rfl := strBytes_injective hhost
  obtain rfl := strBytes_injective hsess
  obtain rfl := principalParts_injective hprin
  obtain rfl := Subtype.ext hhold
  obtain rfl := hwide hgen
  obtain rfl := Subtype.ext hnon
  obtain rfl := Subtype.ext hdige
  obtain rfl := strBytes_injective hdisc
  obtain rfl := hwide hiss
  obtain rfl := hwide hexp
  rfl

end DirectResumeGrantClaims

/-! ### Comparisons -/

theorem foldl_xor_eq_zero {pairs : List (UInt8 × UInt8)} :
    pairs.foldl (fun difference pair => difference ||| (pair.1 ^^^ pair.2)) difference = 0 ↔
      difference = 0 ∧ ∀ pair ∈ pairs, pair.1 = pair.2 := by
  induction pairs generalizing difference with
  | nil => simp
  | cons pair pairs ih =>
    rw [foldl_cons, ih, forall_mem_cons, UInt8.or_eq_zero_iff, UInt8.xor_eq_zero_iff, and_assoc]

theorem DisclaimerDigest.matches_iff {digest other : DisclaimerDigest} :
    digest.matches other = true ↔ digest = other := by
  rw [DisclaimerDigest.matches, beq_iff_eq, foldl_xor_eq_zero]
  constructor
  · rintro ⟨-, hsame⟩
    obtain ⟨⟨bytes, hby⟩⟩ := digest
    obtain ⟨⟨others, hoths⟩⟩ := other
    have hl : bytes.length = others.length := by rw [hby, hoths]
    have heq : bytes = others := by
      apply ext_getElem hl
      intro i hi hi'
      exact hsame (bytes[i], others[i]) (mem_iff_getElem.mpr ⟨i, by simp [hi, hi'], by simp⟩)
    simp only [heq]
  · rintro rfl
    refine ⟨rfl, fun pair hpair => ?_⟩
    rw [zip_eq_zipWith, zipWith_self] at hpair
    obtain ⟨_, -, rfl⟩ := mem_map.mp hpair
    rfl

variable {claims : DirectResumeGrantClaims}

theorem validateLifetime_of_structure (h : validateClaimStructure claims = .ok ()) :
    validateLifetime claims = .ok () := by
  simp only [validateClaimStructure, exceptBind_eq_ok] at h
  obtain ⟨_, -, _, -, _, -, _, -, _, -, _, -, _, -, _, -, hlife⟩ := h
  exact hlife

theorem validateTiming_eq_ok : validateTiming claims now = .ok u ↔
      validateLifetime claims = .ok () ∧ claims.issuedAt ≤ now ∧ now < claims.expiresAt := by
  unfold validateTiming
  simp only [exceptBind_eq_ok, refuseWhen_eq_ok, UInt64.not_lt, UInt64.not_le]
  constructor
  · rintro ⟨_, hlife, _, hiss, hexp⟩
    exact ⟨hlife, hiss, hexp⟩
  · rintro ⟨hlife, hiss, hexp⟩
    exact ⟨(), hlife, (), hiss, hexp⟩

end Arcen
