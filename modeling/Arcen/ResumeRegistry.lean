import Arcen.DirectReconnect
import Arcen.DirectResumeToken
import Arcen.Machine

/-! The resume registry of the Linux Pier (`hosts/linux/src/session/resume.rs`): one session slot, the grant that is
current for it, and the calls that issue, rotate, consume and revoke the grant. The signing key is ideal: it verifies
the byte strings the registry signed. The clock and the randomness a call reads are arguments of the call. -/

namespace Arcen

inductive ResumeRegistryError where
  | randomness
  | clock
  | crypto
  | claims
  | topology
  | busy
  | disabled
  | sessionUnavailable
  | sessionMismatch
  | notAttached
  | slotUnavailable
  | generationExhausted
  deriving DecidableEq

inductive ResumeErrorCode where
  | unsupported
  | expired
  | replayed
  | nativeIdentityChanged
  | topologyChanged
  | sessionGone
  | internalFailure
  deriving DecidableEq

inductive EntryState where
  | attached
  | detached
  | resuming
  | draining
  deriving DecidableEq

structure ResumeBindings where
  hostIdentity : HostIdentity
  activeSessionId : ActiveHostSessionId
  nativePrincipal : NativePrincipal
  holderNonce : DeckHolderNonce
  disclaimerDigest : DisclaimerDigest
  disclaimerVersion : DisclaimerVersion
  topology : FixedBytes 32

/-- The one session of the registry. `ω` is the channel to its owner. -/
structure RegistryEntry (ω : Type) where
  bindings : ResumeBindings
  policy : ReconnectPolicy
  slot : DirectResumeSlot
  state : EntryState
  owner : ω
  previousSessionLogId : String

structure ResumeRegistry (ω : Type) where
  /-- The byte strings the key has signed. -/
  signed : List (List UInt8)
  entry : Option (RegistryEntry ω)
  /-- Holder of the last grant invalidated by a hand-over. -/
  superseded : Option DeckHolderNonce

structure GrantRefresh where
  grant : DirectResumeGrantToken
  windowSecs : UInt32
  deriving DecidableEq

structure ResumePermit (ω : Type) where
  owner : ω
  activeSessionId : ActiveHostSessionId
  previousSessionLogId : String
  successorGrant : DirectResumeGrantToken
  windowSecs : UInt32
  deriving DecidableEq

structure ResumeRejection (ω : Type) where
  code : ResumeErrorCode
  message : String
  terminal : Bool
  owner : Option ω
  deriving DecidableEq

namespace ResumeRejection

variable {ω : Type}

variable (code : ResumeErrorCode)

def new (message : String) (terminal : Bool) : ResumeRejection ω := ⟨code, message, terminal, none⟩

def withOwner (message : String) (owner : ω) : ResumeRejection ω := ⟨code, message, true, some owner⟩

end ResumeRejection

/-- The fields of `AuthResponse` a resume reads; `τ` is what the topology binding hashes. -/
structure AuthResponse (τ : Type) where
  method : String
  username : String
  credential : String
  resumeRequested : Bool
  resumeHolderNonce : Option String
  resumeGrant : Option String
  topology : τ

def authMethodResume : String := "resume"
def takenOverReason : String := "this session was taken over by a newer sign-in of the same user"
def maxTransportIdentityBytes : Nat := 512

/-- What the registry takes from elsewhere: the JSON codec of the envelope, the tag the key computes, and the hash
of a presented topology. -/
structure ResumeEnvironment (τ : Type) where
  codec : EnvelopeCodec
  mac : List UInt8 → Except ResumeRegistryError (FixedBytes 32)
  topologyBinding : τ → Except ResumeRegistryError (FixedBytes 32)

def mapValidationRejection {ω : Type} : DirectResumeValidationError ResumeRegistryError → ResumeRejection ω
  | .claims .expired => .new .expired "resume grant expired" false
  | .claims .generationMismatch | .claims .nonceMismatch | .claims .holderNonceMismatch =>
    .new .replayed "resume grant was already used" false
  | .claims .hostIdentityMismatch => .new .topologyChanged "resume topology changed" true
  | .claims .activeSessionMismatch => .new .sessionGone "resumable session is unavailable" true
  | .claims .nativePrincipalMismatch => .new .nativeIdentityChanged "native session identity changed" true
  | .claims .disclaimerDigestMismatch | .claims .disclaimerVersionMismatch =>
    .new .internalFailure "resume policy binding changed" true
  | .claims _ | .signature _ => .new .replayed "resume grant was rejected" false

def decodeNonce (value : String) : Option (FixedBytes 32) :=
  if (strBytes value).length ≠ 64 then none else (parseHex (strBytes value)).map (readArray 32)

/-- `u64::try_from`, for the checked sums and products of the registry. -/
def u64TryFrom (n : Nat) : Option UInt64 := if n < 2 ^ 64 then some (UInt64.ofNat n) else none

inductive TransportContractError where
  | emptyIdentity
  | identityTooLong
  | hostEvidenceMismatch
  | sessionEvidenceMismatch

def validateTransportIdentity (value : String) : Except TransportContractError Unit := do
  refuseWhen ((strBytes value).length = 0) .emptyIdentity
  refuseWhen (maxTransportIdentityBytes < (strBytes value).length) .identityTooLong

/-- `DirectResumeTransportBinding::from_validated_grant` and `validate_grant` on its result. -/
def validateTransportBinding (connectionId : String) (grant : ValidatedDirectResumeGrant) :
    Except TransportContractError Unit := do
  validateTransportIdentity connectionId
  validateTransportIdentity grant.claims.hostIdentity.text
  validateTransportIdentity grant.claims.activeSessionId.text
  refuseWhen (grant.claims.hostIdentity ≠ grant.claims.hostIdentity) .hostEvidenceMismatch
  refuseWhen (grant.claims.activeSessionId ≠ grant.claims.activeSessionId) .sessionEvidenceMismatch

/-- The claims of a grant: issued now, for twice the reconnect window. -/
def ResumeBindings.claims (bindings : ResumeBindings) (generation : UInt64) (nonce : FixedBytes 32)
    (policy : ReconnectPolicy) (now : UInt64) : Except ResumeRegistryError DirectResumeGrantClaims := do
  let lifetime ← orError .clock (u64TryFrom (policy.windowSecs.toNat * 2))
  let expiresAt ← orError .clock (u64TryFrom (now.toNat + lifetime.toNat))
  (DirectResumeGrantClaims.new bindings.hostIdentity bindings.activeSessionId bindings.nativePrincipal
    bindings.holderNonce generation ⟨nonce⟩ bindings.disclaimerDigest bindings.disclaimerVersion now
    expiresAt).mapError fun _ => .claims

/-- Revokes the grant of a session and starts its drain. -/
def RegistryEntry.drain {ω : Type} (entry : RegistryEntry ω) : RegistryEntry ω :=
  { entry with slot := entry.slot.revoke, state := .draining }

namespace ResumeRegistry

variable {ω τ : Type}

def empty : ResumeRegistry ω := ⟨[], none, none⟩

/-- The ideal verifier: a byte string the key signed, under the tag of the key. -/
def verify (env : ResumeEnvironment τ) (registry : ResumeRegistry ω) (bytes : List UInt8) (signature : FixedBytes 32) :
    Except ResumeRegistryError Unit :=
  refuseWhen (¬ (bytes ∈ registry.signed ∧ env.mac bytes = .ok signature)) .crypto

def record (registry : ResumeRegistry ω) (claims : DirectResumeGrantClaims) (now : UInt64) : ResumeRegistry ω :=
  match signingBytes claims now with
  | .ok bytes => { registry with signed := registry.signed ++ [bytes] }
  | .error _ => registry

variable (env : ResumeEnvironment τ)

def signClaims (registry : ResumeRegistry ω) (bindings : ResumeBindings)
    (generation : UInt64) (nonce : FixedBytes 32) (policy : ReconnectPolicy) (now : UInt64) :
    ResumeRegistry ω × Except ResumeRegistryError DirectResumeGrantToken :=
  match bindings.claims generation nonce policy now with
  | .error error => (registry, .error error)
  | .ok claims =>
    (registry.record claims now, (signDirectResumeGrant env.codec env.mac claims now).mapError fun _ => .crypto)

def issueInitial (registry : ResumeRegistry ω) (bindings : ResumeBindings)
    (policy : ReconnectPolicy) (owner : ω) (sessionLogId : String) (randomness : Option (FixedBytes 32))
    (clock : Option UInt64) : ResumeRegistry ω × Except ResumeRegistryError DirectResumeGrantToken :=
  if policy.isDisabled then (registry, .error .disabled)
  else
    match randomness, clock with
    | none, _ => (registry, .error .randomness)
    | some _, none => (registry, .error .clock)
    | some nonce, some now =>
      match registry.signClaims env bindings 1 nonce policy now with
      | (registry, .error error) => (registry, .error error)
      | (registry, .ok token) =>
        match registry.entry with
        | some _ => (registry, .error .busy)
        | none =>
          let entry : RegistryEntry ω :=
            { bindings, policy, slot := .new 1 nonce, state := .attached, owner, previousSessionLogId := sessionLogId }
          ({ registry with entry := some entry }, .ok token)

variable (registry : ResumeRegistry ω)

/-- `mark_detached` and `mark_attached`. -/
def mark (state : EntryState) (activeSessionId : ActiveHostSessionId) :
    ResumeRegistry ω × Except ResumeRegistryError Unit :=
  match registry.entry with
  | none => (registry, .error .sessionUnavailable)
  | some entry =>
    if entry.bindings.activeSessionId ≠ activeSessionId then (registry, .error .sessionMismatch)
    else if entry.state = .draining then (registry, .error .slotUnavailable)
    else ({ registry with entry := some { entry with state } }, .ok ())

def markDetached := registry.mark .detached
def markAttached := registry.mark .attached

variable (env : ResumeEnvironment τ)

/-- The rotation of `refresh_grant`, once the clock has been read. -/
def rotateGrant (registry : ResumeRegistry ω) (entry : RegistryEntry ω)
    (generation : UInt64) (nonce nextNonce : FixedBytes 32) (now : UInt64) :
    ResumeRegistry ω × Except ResumeRegistryError GrantRefresh :=
  match entry.slot.compareAndRotate generation nonce nextNonce with
  | (slot, .replayed) =>
    ({ registry with entry := some (RegistryEntry.drain { entry with slot }) }, .error .slotUnavailable)
  | (slot, .generationExhausted) =>
    ({ registry with entry := some (RegistryEntry.drain { entry with slot }) }, .error .generationExhausted)
  | (slot, .rotated nextGeneration nextNonce) =>
    match registry.signClaims env entry.bindings nextGeneration nextNonce entry.policy now with
    | (registry, .error error) => ({ registry with entry := some (RegistryEntry.drain { entry with slot }) }, .error error)
    | (registry, .ok grant) =>
      ({ registry with entry := some { entry with slot } }, .ok ⟨grant, entry.policy.windowSecs⟩)

def refreshGrant (registry : ResumeRegistry ω) (activeSessionId : ActiveHostSessionId)
    (clock : Option UInt64) (randomness : Option (FixedBytes 32)) :
    ResumeRegistry ω × Except ResumeRegistryError GrantRefresh :=
  match registry.entry with
  | none => (registry, .error .sessionUnavailable)
  | some entry =>
    if entry.bindings.activeSessionId ≠ activeSessionId then (registry, .error .sessionMismatch)
    else if entry.state ≠ .attached then (registry, .error .notAttached)
    else
      match clock with
      | none => ({ registry with entry := some entry.drain }, .error .clock)
      | some now =>
        match entry.slot.current with
        | none =>
          ({ registry with entry := some { entry with state := .draining } }, .error .slotUnavailable)
        | some (generation, nonce) =>
          match randomness with
          | none => ({ registry with entry := some entry.drain }, .error .randomness)
          | some nextNonce => registry.rotateGrant env entry generation nonce nextNonce now

variable (registry : ResumeRegistry ω)

variable (activeSessionId : ActiveHostSessionId)

def beginDrain : ResumeRegistry ω × Except ResumeRegistryError Unit :=
  match registry.entry with
  | none => (registry, .ok ())
  | some entry =>
    if entry.bindings.activeSessionId ≠ activeSessionId then (registry, .error .sessionMismatch)
    else ({ registry with entry := some entry.drain }, .ok ())

def completeDrain : ResumeRegistry ω × Except ResumeRegistryError Unit :=
  if registry.entry.any fun entry => entry.bindings.activeSessionId ≠ activeSessionId then
    (registry, .error .sessionMismatch)
  else ({ registry with entry := none }, .ok ())

def retireForSuccessor : ResumeRegistry ω × Except ResumeRegistryError Unit :=
  let holder := (registry.entry.filter fun entry => entry.bindings.activeSessionId = activeSessionId).map
    fun entry => entry.bindings.holderNonce
  { registry with superseded := holder.or registry.superseded }.beginDrain activeSessionId

def shutdown : ResumeRegistry ω × Except ResumeRegistryError Unit :=
  ({ registry with entry := registry.entry.map RegistryEntry.drain }, .ok ())

def completeShutdown : ResumeRegistry ω × Except ResumeRegistryError Unit :=
  if registry.entry.any fun entry => entry.state = .draining then ({ registry with entry := none }, .ok ())
  else (registry, .ok ())

/-! ### Consuming a grant -/

/-- What a response presents, once its shape is checked and the clock read. -/
structure PresentedResume where
  holderNonce : DeckHolderNonce
  token : DirectResumeGrantToken
  topology : FixedBytes 32
  now : UInt64

def presentedResume (env : ResumeEnvironment τ) (response : AuthResponse τ) (clock : Option UInt64) :
    Except (ResumeRejection ω) PresentedResume := do
  refuseWhen (response.method ≠ authMethodResume ∨ response.username ≠ "" ∨ response.credential ≠ "" ∨
    response.resumeRequested) (.new .unsupported "resume authentication shape is invalid" false)
  let holderNonce ← orError (.new .replayed "resume grant was rejected" false)
    (response.resumeHolderNonce.bind decodeNonce)
  let token ← (DirectResumeGrantToken.parse (response.resumeGrant.getD "")).mapError
    fun _ => .new .replayed "resume grant was rejected" false
  let topology ← (env.topologyBinding response.topology).mapError
    fun _ => .new .topologyChanged "resume topology changed" true
  let now ← orError (.new .internalFailure "resume validation failed" false) clock
  return ⟨⟨holderNonce⟩, token, topology, now⟩

def supersededRejection (registry : ResumeRegistry ω) (holder : DeckHolderNonce) : Except (ResumeRejection ω) Unit :=
  refuseWhen (registry.superseded = some holder) (.new .sessionGone takenOverReason false)

/-- The session a presented grant authenticates against, with the generation and nonce of its slot. -/
structure ResumeCandidate (ω : Type) where
  entry : RegistryEntry ω
  generation : UInt64
  nonce : FixedBytes 32
  claims : DirectResumeGrantClaims

def bindingContext (bindings : ResumeBindings) (now : UInt64) : DirectResumeBindingContext where
  expectedHostIdentity := bindings.hostIdentity
  expectedActiveSessionId := bindings.activeSessionId
  expectedNativePrincipal := bindings.nativePrincipal
  expectedHolderNonce := bindings.holderNonce
  expectedDisclaimerDigest := bindings.disclaimerDigest
  expectedDisclaimerVersion := bindings.disclaimerVersion
  nowEpochSeconds := now

variable (env : ResumeEnvironment τ)

def resumeCandidate (registry : ResumeRegistry ω) (presented : PresentedResume)
    (sessionLogId : String) : Except (ResumeRejection ω) (ResumeCandidate ω) := do
  registry.supersededRejection presented.holderNonce
  let entry ← orError (.new .sessionGone "resumable session is unavailable" false) registry.entry
  let current ← orError (.new .replayed "resume grant was already used" false) entry.slot.current
  refuseWhen (presented.holderNonce ≠ entry.bindings.holderNonce)
    (.new .replayed "resume grant was already used" false)
  let validated ← (validateDirectResumeGrantCandidate env.codec (registry.verify env) presented.token
    (bindingContext entry.bindings presented.now)).mapError mapValidationRejection
  (validateTransportBinding sessionLogId validated).mapError
    fun _ => .new .topologyChanged "resume topology changed" true
  return ⟨entry, current.1, current.2, validated.claims⟩

/-- The rotation of `prepare_resume` and its permit. -/
def permitResume (registry : ResumeRegistry ω) (entry : RegistryEntry ω)
    (generation : UInt64) (nonce nextNonce : FixedBytes 32) (sessionLogId : String) (now : UInt64) :
    ResumeRegistry ω × Except (ResumeRejection ω) (ResumePermit ω) :=
  match entry.slot.compareAndRotate generation nonce nextNonce with
  | (slot, .replayed) =>
    ({ registry with entry := some { entry with slot } }, .error (.new .replayed "resume grant was already used" false))
  | (slot, .generationExhausted) =>
    ({ registry with entry := some { entry with slot, state := .draining } },
      .error (.new .internalFailure "resume validation failed" true))
  | (slot, .rotated nextGeneration nextNonce) =>
    match registry.signClaims env entry.bindings nextGeneration nextNonce entry.policy now with
    | (registry, .error _) =>
      ({ registry with entry := some (RegistryEntry.drain { entry with slot }) },
        .error (.withOwner .internalFailure "resume validation failed" entry.owner))
    | (registry, .ok successor) =>
      let resumed := { entry with slot, state := .resuming, previousSessionLogId := sessionLogId }
      ({ registry with entry := some resumed },
        .ok ⟨entry.owner, entry.bindings.activeSessionId, entry.previousSessionLogId, successor,
          entry.policy.windowSecs⟩)

/-- The end of `prepare_resume`, for an authenticated candidate. -/
def consumeCandidate (registry : ResumeRegistry ω) (candidate : ResumeCandidate ω)
    (presented : PresentedResume) (currentHostIdentity : HostIdentity) (sessionLogId : String)
    (randomness : Option (FixedBytes 32)) : ResumeRegistry ω × Except (ResumeRejection ω) (ResumePermit ω) :=
  let entry := candidate.entry
  let exactPredecessor : Bool := u64CheckedSucc candidate.claims.generation = some candidate.generation
  let moved : Bool := entry.bindings.hostIdentity ≠ currentHostIdentity || entry.bindings.topology ≠ presented.topology
  if !exactPredecessor && candidate.claims.generation ≠ candidate.generation then
    (registry, .error (mapValidationRejection (.claims .generationMismatch)))
  else if !exactPredecessor && candidate.claims.nonce ≠ ⟨candidate.nonce⟩ then
    (registry, .error (mapValidationRejection (.claims .nonceMismatch)))
  else if entry.state ≠ .detached then
    (registry, .error (.new .replayed "resume grant was already used" false))
  else if exactPredecessor then
    if moved then (registry, .error (.new .topologyChanged "resume topology changed" false))
    else
      ({ registry with entry := some entry.drain },
        .error (.withOwner .replayed "resume grant was already used" entry.owner))
  else if moved then
    ({ registry with entry := some entry.drain },
      .error (.withOwner .topologyChanged "resume topology changed" entry.owner))
  else
    match randomness with
    | none => (registry, .error (.new .internalFailure "resume validation failed" false))
    | some nextNonce =>
      registry.permitResume env entry candidate.generation candidate.nonce nextNonce sessionLogId presented.now

def prepareResume (registry : ResumeRegistry ω) (response : AuthResponse τ)
    (currentHostIdentity : HostIdentity) (sessionLogId : String) (clock : Option UInt64)
    (randomness : Option (FixedBytes 32)) : ResumeRegistry ω × Except (ResumeRejection ω) (ResumePermit ω) :=
  match presentedResume env response clock with
  | .error rejection => (registry, .error rejection)
  | .ok presented =>
    match registry.resumeCandidate env presented sessionLogId with
    | .error rejection => (registry, .error rejection)
    | .ok candidate =>
      registry.consumeCandidate env candidate presented currentHostIdentity sessionLogId randomness

end ResumeRegistry

/-! ### The machine -/

inductive ResumeCall (ω τ : Type) where
  | issueInitial (bindings : ResumeBindings) (policy : ReconnectPolicy) (owner : ω) (sessionLogId : String)
      (randomness : Option (FixedBytes 32)) (clock : Option UInt64)
  | markDetached (activeSessionId : ActiveHostSessionId)
  | markAttached (activeSessionId : ActiveHostSessionId)
  | refreshGrant (activeSessionId : ActiveHostSessionId) (clock : Option UInt64) (randomness : Option (FixedBytes 32))
  | retireForSuccessor (activeSessionId : ActiveHostSessionId)
  | beginDrain (activeSessionId : ActiveHostSessionId)
  | completeDrain (activeSessionId : ActiveHostSessionId)
  | shutdown
  | completeShutdown
  | prepareResume (response : AuthResponse τ) (currentHostIdentity : HostIdentity) (sessionLogId : String)
      (clock : Option UInt64) (randomness : Option (FixedBytes 32))

inductive ResumeReply (ω : Type) where
  | issued (result : Except ResumeRegistryError DirectResumeGrantToken)
  | refreshed (result : Except ResumeRegistryError GrantRefresh)
  | settled (result : Except ResumeRegistryError Unit)
  | prepared (result : Except (ResumeRejection ω) (ResumePermit ω))
  deriving DecidableEq

def resumeRegistry {τ : Type} (ω : Type) (env : ResumeEnvironment τ) :
    Machine (ResumeRegistry ω) (ResumeCall ω τ) (ResumeReply ω) where
  init := .empty
  step registry
    | .issueInitial bindings policy owner sessionLogId randomness clock =>
      (registry.issueInitial env bindings policy owner sessionLogId randomness clock).map id .issued
    | .markDetached activeSessionId => (registry.markDetached activeSessionId).map id .settled
    | .markAttached activeSessionId => (registry.markAttached activeSessionId).map id .settled
    | .refreshGrant activeSessionId clock randomness =>
      (registry.refreshGrant env activeSessionId clock randomness).map id .refreshed
    | .retireForSuccessor activeSessionId => (registry.retireForSuccessor activeSessionId).map id .settled
    | .beginDrain activeSessionId => (registry.beginDrain activeSessionId).map id .settled
    | .completeDrain activeSessionId => (registry.completeDrain activeSessionId).map id .settled
    | .shutdown => registry.shutdown.map id .settled
    | .completeShutdown => registry.completeShutdown.map id .settled
    | .prepareResume response currentHostIdentity sessionLogId clock randomness =>
      (registry.prepareResume env response currentHostIdentity sessionLogId clock randomness).map id .prepared

end Arcen
