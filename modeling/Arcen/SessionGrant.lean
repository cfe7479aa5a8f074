import Arcen.DirectResumeGrant

/-! Session grants (`shared/identity/src/lib.rs`): a signed grant is validated against what a gateway expects, and the
validated grant is consumed once through a replay store that gateways share. -/

namespace Arcen

def maxSessionGrantLifetimeSeconds : Nat := 300
def sessionGrantVersionV1 : UInt16 := 1

structure ClientIdentity where
  text : String
  deriving DecidableEq

structure GrantNonce where
  text : String
  deriving DecidableEq

structure SessionGrantClaims where
  version : UInt16
  issuer : String
  audience : String
  subject : String
  tenant : Option String
  clientIdentity : ClientIdentity
  hostIdentity : HostIdentity
  sessionId : String
  nonce : GrantNonce
  issuedAt : Nat
  expiresAt : Nat

structure SignedSessionGrant where
  claims : SessionGrantClaims
  keyId : String
  algorithm : String
  signature : List UInt8

/-- Local expectations for a session grant. -/
structure GrantValidationContext where
  issuer : String
  audience : String
  expectedSubject : String
  /-- `none` requires a tenantless grant. -/
  expectedTenant : Option String
  expectedClientIdentity : ClientIdentity
  expectedHostIdentity : HostIdentity
  expectedSessionId : String
  expectedNonce : GrantNonce
  nowEpochSeconds : Nat

structure ValidatedSessionGrant where
  version : UInt16
  issuer : String
  audience : String
  subject : String
  tenant : Option String
  clientIdentity : ClientIdentity
  hostIdentity : HostIdentity
  sessionId : String
  nonce : GrantNonce
  expiresAt : Nat

structure GrantReplayKey where
  issuer : String
  nonce : GrantNonce
  deriving DecidableEq

def ValidatedSessionGrant.replayKey (grant : ValidatedSessionGrant) : GrantReplayKey := ⟨grant.issuer, grant.nonce⟩

inductive IdentityValidationError where
  | emptyIssuer
  | emptyAudience
  | issuerMismatch
  | audienceMismatch
  | emptySubject
  | tenantMismatch
  | issuedInFuture
  | expired
  | invalidLifetime
  | sessionBindingMismatch
  | emptySessionId
  | unsupportedGrantVersion
  | subjectMismatch
  | emptyClientIdentity
  | clientIdentityMismatch
  | emptyHostIdentity
  | hostIdentityMismatch
  | emptyNonce
  | nonceMismatch
  | grantBindingValueTooLong

/-! ### Validation -/

def validateGrantBindingValue (value : String) (emptyError : IdentityValidationError) :
    Except IdentityValidationError Unit := do
  refuseWhen (value = "") emptyError
  refuseWhen (maxGrantBindingValueBytes < value.utf8ByteSize) .grantBindingValueTooLong

variable (claims : SessionGrantClaims)

def validateGrantIdentityBindings (context : GrantValidationContext) : Except IdentityValidationError Unit := do
  refuseWhen (claims.version ≠ sessionGrantVersionV1) .unsupportedGrantVersion
  validateGrantBindingValue claims.issuer .emptyIssuer
  refuseWhen (claims.issuer ≠ context.issuer) .issuerMismatch
  validateGrantBindingValue claims.audience .emptyAudience
  refuseWhen (claims.audience ≠ context.audience) .audienceMismatch
  validateGrantBindingValue claims.subject .emptySubject
  refuseWhen (claims.subject ≠ context.expectedSubject) .subjectMismatch
  refuseWhen (claims.tenant = some "") .tenantMismatch
  refuseWhen (claims.tenant.any fun tenant => decide (maxGrantBindingValueBytes < tenant.utf8ByteSize))
    .grantBindingValueTooLong
  refuseWhen (claims.tenant ≠ context.expectedTenant) .tenantMismatch
  validateGrantBindingValue claims.clientIdentity.text .emptyClientIdentity
  refuseWhen (claims.clientIdentity ≠ context.expectedClientIdentity) .clientIdentityMismatch
  validateGrantBindingValue claims.hostIdentity.text .emptyHostIdentity
  refuseWhen (claims.hostIdentity ≠ context.expectedHostIdentity) .hostIdentityMismatch
  validateGrantBindingValue claims.sessionId .emptySessionId
  refuseWhen (claims.sessionId ≠ context.expectedSessionId) .sessionBindingMismatch
  validateGrantBindingValue claims.nonce.text .emptyNonce
  refuseWhen (claims.nonce ≠ context.expectedNonce) .nonceMismatch

def validateGrantTiming (nowEpochSeconds : Nat) : Except IdentityValidationError Unit := do
  refuseWhen (nowEpochSeconds < claims.issuedAt) .issuedInFuture
  refuseWhen (claims.expiresAt ≤ nowEpochSeconds) .expired
  refuseWhen (claims.expiresAt < claims.issuedAt) .invalidLifetime
  let lifetime := claims.expiresAt - claims.issuedAt
  refuseWhen (lifetime = 0 ∨ maxSessionGrantLifetimeSeconds < lifetime) .invalidLifetime

inductive GrantValidationError (δ : Type) where
  | signature (error : δ)
  | claims (error : IdentityValidationError)

def SessionGrantClaims.validated : ValidatedSessionGrant where
  version := claims.version
  issuer := claims.issuer
  audience := claims.audience
  subject := claims.subject
  tenant := claims.tenant
  clientIdentity := claims.clientIdentity
  hostIdentity := claims.hostIdentity
  sessionId := claims.sessionId
  nonce := claims.nonce
  expiresAt := claims.expiresAt

def validateSessionGrant {δ : Type} (verify : SignedSessionGrant → Except δ Unit) (grant : SignedSessionGrant)
    (context : GrantValidationContext) : Except (GrantValidationError δ) ValidatedSessionGrant := do
  (verify grant).mapError .signature
  (validateGrantIdentityBindings grant.claims context).mapError .claims
  (validateGrantTiming grant.claims context.nowEpochSeconds).mapError .claims
  pure grant.claims.validated

/-- Every binding of the claims is the one the gateway expects. -/
structure BoundTo (claims : SessionGrantClaims) (context : GrantValidationContext) : Prop where
  issuer : claims.issuer = context.issuer
  audience : claims.audience = context.audience
  subject : claims.subject = context.expectedSubject
  tenant : claims.tenant = context.expectedTenant
  clientIdentity : claims.clientIdentity = context.expectedClientIdentity
  hostIdentity : claims.hostIdentity = context.expectedHostIdentity
  sessionId : claims.sessionId = context.expectedSessionId
  nonce : claims.nonce = context.expectedNonce

variable {claims : SessionGrantClaims} {context : GrantValidationContext}

theorem boundTo_of_validate (h : validateGrantIdentityBindings claims context = .ok ()) : BoundTo claims context := by
  simp only [validateGrantIdentityBindings, exceptBind_eq_ok, refuseWhen_eq_ok, not_not] at h
  obtain ⟨-, -, -, -, -, hissu, -, -, -, haudi, -, -, -, hsubj, -, -, -, -, -, htena, -, -, -, hclie, -, -,
    -, hhost, -, -, -, hsess, -, -, hnon⟩ := h
  exact ⟨hissu, haudi, hsubj, htena, hclie, hhost, hsess, hnon⟩

/-- The time lies in the lifetime of the claims. -/
def SessionGrantClaims.LiveAt (claims : SessionGrantClaims) (now : Nat) : Prop :=
  claims.issuedAt ≤ now ∧ now < claims.expiresAt

/-- What a gateway knows of a grant it has validated. -/
structure ValidatedIn {δ : Type} (verify : SignedSessionGrant → Except δ Unit) (grant : SignedSessionGrant)
    (context : GrantValidationContext) : Prop where
  accepted : verify grant = .ok ()
  bound : BoundTo grant.claims context
  live : grant.claims.LiveAt context.nowEpochSeconds
  lifetime : 0 < grant.claims.expiresAt - grant.claims.issuedAt ∧
    grant.claims.expiresAt - grant.claims.issuedAt ≤ maxSessionGrantLifetimeSeconds

theorem validateSessionGrant_ok {δ : Type} {verify : SignedSessionGrant → Except δ Unit} {grant : SignedSessionGrant}
    (h : validateSessionGrant verify grant context = .ok validated) :
    validated = grant.claims.validated ∧ ValidatedIn verify grant context := by
  simp only [validateSessionGrant, exceptBind_eq_ok, exceptMapError_eq_ok, exceptPure_eq_ok] at h
  obtain ⟨_, hacc, _, hbd, _, htimi, rfl⟩ := h
  simp only [validateGrantTiming, exceptBind_eq_ok, refuseWhen_eq_ok] at htimi
  refine ⟨rfl, hacc, boundTo_of_validate hbd, ?_, ?_⟩
  · unfold SessionGrantClaims.LiveAt
    omega
  · omega

/-! ### Consumption -/

inductive GrantReplayConsumption where
  | consumed
  | alreadyConsumed

structure ConsumedSessionGrant where
  grant : ValidatedSessionGrant
  consumedAt : Nat

inductive GrantReplayError (ε : Type) where
  | expired
  | alreadyConsumed
  | store (error : ε)

/-- A call of `consume_once`. -/
structure ReplayCall where
  key : GrantReplayKey
  retainUntilEpochSeconds : Nat
  nowEpochSeconds : Nat

/-- What the answer of the replay store makes of a validated grant. -/
def consumptionOf {ε : Type} (grant : ValidatedSessionGrant) (nowEpochSeconds : Nat) :
    Except ε GrantReplayConsumption → Except (GrantReplayError ε) ConsumedSessionGrant
  | .ok .consumed => .ok ⟨grant, nowEpochSeconds⟩
  | .ok .alreadyConsumed => .error .alreadyConsumed
  | .error error => .error (.store error)

/-- `consume_validated_session_grant`, over a store that keeps its state. -/
def consumeValidatedSessionGrant {σ ε : Type} (consumeOnce : σ → ReplayCall → σ × Except ε GrantReplayConsumption)
    (store : σ) (grant : ValidatedSessionGrant) (nowEpochSeconds : Nat) :
    σ × Except (GrantReplayError ε) ConsumedSessionGrant :=
  if grant.expiresAt ≤ nowEpochSeconds then (store, .error .expired)
  else
    let answered := consumeOnce store ⟨grant.replayKey, grant.expiresAt, nowEpochSeconds⟩
    (answered.1, consumptionOf grant nowEpochSeconds answered.2)

end Arcen
