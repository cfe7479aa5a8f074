import Arcen.ResumeRegistry

/-! What one call does to the resume registry. A call either leaves no grant behind, and then the session is kept,
drained or gone, or it issues one grant with the nonce it drew, which becomes the slot's. -/

namespace Arcen

variable {ω τ : Type}

/-- The nonce a call draws. -/
def ResumeCall.randomness : ResumeCall ω τ → Option (FixedBytes 32)
  | .issueInitial _ _ _ _ randomness _ => randomness
  | .refreshGrant _ _ randomness => randomness
  | .prepareResume _ _ _ _ randomness => randomness
  | _ => none

def ResumeReply.grant : ResumeReply ω → Option DirectResumeGrantToken
  | .issued (.ok token) => some token
  | .refreshed (.ok refresh) => some refresh.grant
  | .prepared (.ok permit) => some permit.successorGrant
  | _ => none

namespace ResumeRegistry

def SignsAtMost (randomness : Option (FixedBytes 32)) (signed signed' : List (List UInt8)) : Prop :=
  signed' = signed ∨ ∃ (claims : DirectResumeGrantClaims) (bytes : List UInt8),
    claims.canonicalSigningBytes = .ok bytes ∧ randomness = some claims.nonce.bytes ∧ signed' = signed ++ [bytes]

def Grants (env : ResumeEnvironment τ) (nonce : FixedBytes 32) (signed signed' : List (List UInt8))
    (token : DirectResumeGrantToken) : Prop :=
  ∃ claims canonical signature, token.decode env.codec = .ok ⟨claims, signature⟩ ∧
    claims.canonicalSigningBytes = .ok canonical ∧ env.mac canonical = .ok signature ∧
    claims.nonce.bytes = nonce ∧ signed' = signed ++ [canonical]

section Signing

variable {env : ResumeEnvironment τ} {reg next : ResumeRegistry ω} {bindings : ResumeBindings}
  {gen now : UInt64} {nonce : FixedBytes 32} {policy : ReconnectPolicy}

variable {claims : DirectResumeGrantClaims}

theorem nonce_of_claims (h : bindings.claims gen nonce policy now = .ok claims) : claims.nonce.bytes = nonce := by
  simp only [ResumeBindings.claims, DirectResumeGrantClaims.new, exceptBind_eq_ok, exceptMapError_eq_ok,
    exceptPure_eq_ok] at h
  obtain ⟨_, -, _, -, _, -, _, -, rfl⟩ := h
  rfl

theorem canonical_of_signingBytes (h : signingBytes claims now = .ok bytes)
    : claims.canonicalSigningBytes = .ok bytes := by
  obtain ⟨_, -, hrest⟩ := exceptBind_eq_ok.mp h
  obtain ⟨_, -, hby⟩ := exceptBind_eq_ok.mp hrest
  exact hby

/-- Signing leaves the session alone. -/
theorem signClaims_signs (h : reg.signClaims env bindings gen nonce policy now = (next, result)) :
    next.entry = reg.entry ∧ SignsAtMost (some nonce) reg.signed next.signed := by
  unfold signClaims at h
  split at h
  · cases h
    exact ⟨rfl, Or.inl rfl⟩
  · next claims hclms =>
      cases h
      rw [← nonce_of_claims hclms]
      unfold record
      split
      · next bytes hby => exact ⟨rfl, Or.inr ⟨claims, bytes, canonical_of_signingBytes hby, rfl, rfl⟩⟩
      · exact ⟨rfl, Or.inl rfl⟩

theorem signClaims_ok (h : reg.signClaims env bindings gen nonce policy now = (next, .ok token)) :
    Grants env nonce reg.signed next.signed token := by
  unfold signClaims at h
  split at h
  · cases h
  · next claims hclms =>
      obtain ⟨rfl, htok⟩ := Prod.mk.inj h
      obtain ⟨canonical, sig, hsigni, hsig, hdec⟩ := decode_of_signDirectResumeGrant (exceptMapError_eq_ok.mp htok)
      refine ⟨claims, canonical, sig, hdec, canonical_of_signingBytes hsigni, hsig, nonce_of_claims hclms, ?_⟩
      rw [record, hsigni]

end Signing

/-! ### Effects -/

/-- The session of the slot when a call leaves no grant behind. -/
inductive EntryMoves : Option (RegistryEntry ω) → Option (RegistryEntry ω) → Prop
  | same (entry : Option (RegistryEntry ω)) : EntryMoves entry entry
  | marked (entry : RegistryEntry ω) (state : EntryState) (hopen : entry.state ≠ .draining) :
      EntryMoves (some entry) (some { entry with state })
  | drained (entry next : RegistryEntry ω) (hbindings : next.bindings = entry.bindings)
      (hrevoked : next.slot.active = false) (hdraining : next.state = .draining) : EntryMoves (some entry) (some next)
  | cleared (entry : Option (RegistryEntry ω)) : EntryMoves entry none

theorem entryMoves_drain (entry : RegistryEntry ω) (slot : DirectResumeSlot) :
    EntryMoves (some entry) (some (RegistryEntry.drain { entry with slot })) := .drained _ _ rfl rfl rfl

inductive Effect (env : ResumeEnvironment τ) (registry : ResumeRegistry ω) (call : ResumeCall ω τ) :
    ResumeRegistry ω × ResumeReply ω → Prop
  | quiet {next : ResumeRegistry ω} {reply : ResumeReply ω} (hentry : EntryMoves registry.entry next.entry)
      (hsigned : SignsAtMost call.randomness registry.signed next.signed) (hreply : reply.grant = none) :
      Effect env registry call (next, reply)
  | issued {bindings : ResumeBindings} {policy : ReconnectPolicy} {owner : ω} {sessionLogId : String}
      {nonce : FixedBytes 32} {now : UInt64} {next : ResumeRegistry ω} {entry : RegistryEntry ω}
      {token : DirectResumeGrantToken}
      (hcall : call = .issueInitial bindings policy owner sessionLogId (some nonce) (some now))
      (hempty : registry.entry = none) (hentry : next.entry = some entry) (hbindings : entry.bindings = bindings)
      (hslot : entry.slot = .new 1 nonce) (hgrants : Grants env nonce registry.signed next.signed token) :
      Effect env registry call (next, .issued (.ok token))
  | refreshed {nonce : FixedBytes 32} {entry : RegistryEntry ω} {generation : UInt64} {next : ResumeRegistry ω}
      {refresh : GrantRefresh} (hcall : call.randomness = some nonce) (hbefore : registry.entry = some entry)
      (hentry : next.entry = some { entry with slot := .new generation nonce }) (hopen : entry.state ≠ .draining)
      (hgrants : Grants env nonce registry.signed next.signed refresh.grant) :
      Effect env registry call (next, .refreshed (.ok refresh))
  | permitted {response : AuthResponse τ} {host : HostIdentity} {sessionLogId : String} {clock : Option UInt64}
      {nonce : FixedBytes 32} {presented : PresentedResume} {candidate : ResumeCandidate ω} {generation : UInt64}
      {next : ResumeRegistry ω} {permit : ResumePermit ω}
      (hcall : call = .prepareResume response host sessionLogId clock (some nonce))
      (hpresented : presentedResume env response clock = (.ok presented : Except (ResumeRejection ω) _))
      (hcandidate : registry.resumeCandidate env presented sessionLogId = .ok candidate)
      (hnonce : candidate.claims.nonce = ⟨candidate.nonce⟩) (hdetached : candidate.entry.state = .detached)
      (hhost : candidate.entry.bindings.hostIdentity = host)
      (htopology : candidate.entry.bindings.topology = presented.topology)
      (hentry : next.entry = some { candidate.entry with
        slot := .new generation nonce, state := .resuming, previousSessionLogId := sessionLogId })
      (hgrants : Grants env nonce registry.signed next.signed permit.successorGrant) :
      Effect env registry call (next, .prepared (.ok permit))

theorem compareAndRotate_of_current {slot : DirectResumeSlot}
    (h : slot.current = some (gen, nonce)) (nextNonce : FixedBytes 32) :
    slot.compareAndRotate gen nonce nextNonce = match u64CheckedSucc gen with
      | none => ({ slot with active := false }, .generationExhausted)
      | some nextGeneration => (.new nextGeneration nextNonce, .rotated nextGeneration nextNonce) := by
  obtain ⟨_, _, active⟩ := slot
  cases active with
  | false => cases h
  | true =>
    cases h
    simp only [DirectResumeSlot.compareAndRotate, ne_eq]
    rfl

section Steps

variable {env : ResumeEnvironment τ} {reg : ResumeRegistry ω}

variable {call : ResumeCall ω τ} {presented : PresentedResume} {logId : String} {cand : ResumeCandidate ω}

variable {reply : ResumeReply ω} {nextNonce : FixedBytes 32} {resp : AuthResponse τ} {host : HostIdentity}
  {clock : Option UInt64}

/-- A call that hands out nothing and signs nothing. -/
theorem effect_of_entryMoves {next : ResumeRegistry ω} (hent : EntryMoves reg.entry next.entry)
    (hsgd : next.signed = reg.signed) (hrpl : reply.grant = none) : Effect env reg call (next, reply) :=
  .quiet hent (.inl hsgd) hrpl

theorem effect_same (hrpl : reply.grant = none) : Effect env reg call (reg, reply) :=
  effect_of_entryMoves (.same _) rfl hrpl

theorem issueInitial_effect (bindings : ResumeBindings) (policy : ReconnectPolicy) (owner : ω) (logId : String)
    (randomness : Option (FixedBytes 32)) (clock : Option UInt64) :
    Effect env reg (.issueInitial bindings policy owner logId randomness clock)
      ((reg.issueInitial env bindings policy owner logId randomness clock).map id .issued) := by
  unfold issueInitial
  split
  · exact effect_same rfl
  · split
    · exact effect_same rfl
    · exact effect_same rfl
    · next nonce now =>
        split
        · next next error hs =>
            obtain ⟨hent, hsgd⟩ := signClaims_signs hs
            exact .quiet (hent ▸ .same _) hsgd rfl
        · next next token hs =>
            obtain ⟨hent, hsgd⟩ := signClaims_signs hs
            split
            · exact .quiet (hent ▸ .same _) hsgd rfl
            · next hemp =>
                have hg := signClaims_ok hs
                exact .issued rfl (hent.symm.trans hemp) rfl rfl rfl hg

theorem mark_effect (state : EntryState) (sid : ActiveHostSessionId) :
    Effect env reg call ((reg.mark state sid).map id .settled) := by
  unfold mark
  split
  · exact effect_same rfl
  · next entry hent =>
      split_ifs with hsess hdrai
      · exact effect_same rfl
      · exact effect_same rfl
      · exact effect_of_entryMoves (hent ▸ .marked entry state hdrai) rfl rfl

section

variable (sid : ActiveHostSessionId)

/-- Draining a registry that has this one's session and signatures. -/
theorem beginDrain_effect {other : ResumeRegistry ω} (hent : other.entry = reg.entry) (hsgd : other.signed = reg.signed) :
    Effect env reg call ((other.beginDrain sid).map id .settled) := by
  unfold beginDrain
  split
  · exact effect_of_entryMoves (hent ▸ .same _) hsgd rfl
  · next entry hentry =>
      split_ifs
      · exact effect_of_entryMoves (hent ▸ .same _) hsgd rfl
      · exact effect_of_entryMoves ((hent.symm.trans hentry) ▸ entryMoves_drain entry entry.slot) hsgd rfl

theorem completeDrain_effect : Effect env reg call ((reg.completeDrain sid).map id .settled) := by
  unfold completeDrain
  split_ifs
  · exact effect_same rfl
  · exact effect_of_entryMoves (.cleared _) rfl rfl

end

theorem completeShutdown_effect : Effect env reg call (reg.completeShutdown.map id .settled) := by
  unfold completeShutdown
  split_ifs
  · exact effect_of_entryMoves (.cleared _) rfl rfl
  · exact effect_same rfl

theorem rotateGrant_effect {entry : RegistryEntry ω} (hent : reg.entry = some entry)
    (hcur : entry.slot.current = some (gen, nonce)) (hopen : entry.state ≠ .draining)
    (hcall : call.randomness = some nextNonce) :
    Effect env reg call ((reg.rotateGrant env entry gen nonce nextNonce now).map id .refreshed) := by
  unfold rotateGrant
  rw [compareAndRotate_of_current hcur]
  cases u64CheckedSucc gen with
  | none => exact effect_of_entryMoves (hent ▸ entryMoves_drain entry _) rfl rfl
  | some nextGeneration =>
    dsimp only
    split
    · next next error hs =>
        obtain ⟨-, hsgd⟩ := signClaims_signs hs
        exact .quiet (hent ▸ entryMoves_drain entry _) (hcall ▸ hsgd) rfl
    · next next grant hs =>
        have hg := signClaims_ok hs
        exact .refreshed hcall hent rfl hopen hg

theorem refreshGrant_effect (sid : ActiveHostSessionId) (clock : Option UInt64) (randomness : Option (FixedBytes 32))
    : Effect env reg (.refreshGrant sid clock randomness)
      ((reg.refreshGrant env sid clock randomness).map id .refreshed) := by
  unfold refreshGrant
  split
  · exact effect_same rfl
  · next entry hent =>
      split_ifs with hsess hatta
      · exact effect_same rfl
      · exact effect_same rfl
      · have hopen : entry.state ≠ .draining := by
          rw [not_not] at hatta
          rw [hatta]
          exact nofun
        split
        · exact effect_of_entryMoves (hent ▸ entryMoves_drain entry entry.slot) rfl rfl
        · split
          · next hrevo =>
              refine effect_of_entryMoves (hent ▸ .drained _ _ rfl ?_ rfl) rfl rfl
              cases hact : entry.slot.active with
              | false => rfl
              | true =>
                rw [DirectResumeSlot.current, if_pos hact] at hrevo
                cases hrevo
          · next gen nonce hcur =>
              split
              · exact effect_of_entryMoves (hent ▸ entryMoves_drain entry entry.slot) rfl rfl
              · exact rotateGrant_effect hent hcur hopen rfl

/-- What an authenticated candidate is: the session of the slot, its current grant, and claims the key signed for the
bindings of the session. -/
theorem resumeCandidate_eq_ok (h : reg.resumeCandidate env presented logId = .ok cand) : reg.entry = some cand.entry ∧
      cand.entry.slot.current = some (cand.generation, cand.nonce) ∧
      presented.holderNonce = cand.entry.bindings.holderNonce ∧
      validateDirectResumeGrantCandidate env.codec (reg.verify env) presented.token
        (bindingContext cand.entry.bindings presented.now) = .ok ⟨cand.claims⟩ := by
  simp only [resumeCandidate, exceptBind_eq_ok, exceptMapError_eq_ok, orError_eq_ok, refuseWhen_eq_ok,
    exceptPure_eq_ok, not_not] at h
  obtain ⟨-, -, _, hent, _, hcur, -, hhold, _, hval, -, -, rfl⟩ := h
  exact ⟨hent, hcur, hhold, hval⟩

section

variable (hp : presentedResume env resp clock = (.ok presented : Except (ResumeRejection ω) _))
  (hc : reg.resumeCandidate env presented logId = .ok cand)
include hp hc

theorem permitResume_effect (hnon : cand.claims.nonce = ⟨cand.nonce⟩) (hdet : cand.entry.state = .detached)
    (hhost : cand.entry.bindings.hostIdentity = host) (htopo : cand.entry.bindings.topology = presented.topology) :
    Effect env reg (.prepareResume resp host logId clock (some nextNonce))
      ((reg.permitResume env cand.entry cand.generation cand.nonce nextNonce logId
        presented.now).map id .prepared) := by
  obtain ⟨hent, hcur, -, -⟩ := resumeCandidate_eq_ok hc
  unfold permitResume
  rw [compareAndRotate_of_current hcur]
  cases u64CheckedSucc cand.generation with
  | none => exact effect_of_entryMoves (hent ▸ .drained _ _ rfl rfl rfl) rfl rfl
  | some nextGeneration =>
    dsimp only
    split
    · next next error hs =>
        obtain ⟨-, hsgd⟩ := signClaims_signs hs
        exact .quiet (hent ▸ entryMoves_drain cand.entry _) hsgd rfl
    · next next successor hs =>
        have hg := signClaims_ok hs
        exact .permitted rfl hp hc hnon hdet hhost htopo rfl hg

theorem consumeCandidate_effect : Effect env reg (.prepareResume resp host logId clock randomness)
      ((reg.consumeCandidate env cand presented host logId randomness).map id .prepared) := by
  obtain ⟨hent, -, -, -⟩ := resumeCandidate_eq_ok hc
  have hdrain : EntryMoves reg.entry (some cand.entry.drain) := by
    rw [hent]
    exact entryMoves_drain cand.entry cand.entry.slot
  unfold consumeCandidate
  dsimp only
  split_ifs with hgen hnon hdet hpred hmoved hmoved
  · exact effect_same rfl
  · exact effect_same rfl
  · exact effect_same rfl
  · exact effect_same rfl
  · exact effect_of_entryMoves hdrain rfl rfl
  · exact effect_of_entryMoves hdrain rfl rfl
  · split
    · exact effect_same rfl
    · simp only [hpred, Bool.not_false, Bool.true_and, decide_eq_true_eq, not_not,
        Bool.or_eq_true, not_or] at hnon hmoved hdet
      exact permitResume_effect hp hc hnon hdet hmoved.1 hmoved.2
end

theorem prepareResume_effect (resp : AuthResponse τ) (host : HostIdentity) (logId : String) (clock : Option UInt64)
    (randomness : Option (FixedBytes 32)) : Effect env reg (.prepareResume resp host logId clock randomness)
      ((reg.prepareResume env resp host logId clock randomness).map id .prepared) := by
  unfold prepareResume
  split
  · exact effect_same rfl
  · next presented hp =>
      split
      · exact effect_same rfl
      · next cand hc => exact consumeCandidate_effect hp hc

/-- **Step rule.** -/
theorem step_effect (env : ResumeEnvironment τ) (reg : ResumeRegistry ω) (call : ResumeCall ω τ) :
    Effect env reg call ((resumeRegistry ω env).step reg call) := by
  cases call with
  | issueInitial => exact issueInitial_effect ..
  | markDetached sid => exact mark_effect .detached sid
  | markAttached sid => exact mark_effect .attached sid
  | refreshGrant => exact refreshGrant_effect ..
  | retireForSuccessor sid | beginDrain sid => exact beginDrain_effect sid rfl rfl
  | completeDrain sid => exact completeDrain_effect sid
  | shutdown =>
    refine effect_of_entryMoves ?_ rfl rfl
    cases reg.entry with
    | none => exact .same none
    | some entry => exact entryMoves_drain entry entry.slot
  | completeShutdown => exact completeShutdown_effect
  | prepareResume => exact prepareResume_effect ..

end Steps

end ResumeRegistry
end Arcen
