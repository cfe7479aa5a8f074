import Arcen.History
import Arcen.ResumeRegistrySteps

/-! Grants of the resume registry are one-shot. Over a run in which the nonces drawn are distinct, the slot's nonce
belongs to the grant issued last and to no other claims the key signed, and no permit has consumed it; a permit
consumes it and a fresh one takes its place. -/

namespace Arcen

open ResumeCall List

variable {ω τ : Type}

abbrev ResumeLogEntry (ω τ : Type) := ResumeCall ω τ × ResumeReply ω

def AuthResponse.token (response : AuthResponse τ) : DirectResumeGrantToken := ⟨response.resumeGrant.getD ""⟩

namespace ResumeRegistry

def drawnNonces (log : List (ResumeLogEntry ω τ)) : List (FixedBytes 32) := log.filterMap fun entry => entry.1.randomness

variable (env : ResumeEnvironment τ)

def permittedClaims : ResumeLogEntry ω τ → Option DirectResumeGrantClaims
  | (.prepareResume response _ _ _ _, .prepared (.ok _)) =>
    match response.token.decode env.codec with
    | .ok envelope => some envelope.claims
    | .error _ => none
  | _ => none

def permitted (log : List (ResumeLogEntry ω τ)) : List DirectResumeGrantClaims := log.filterMap (permittedClaims env)

/-- The bindings of the session a call put into the slot. -/
def startedSession : ResumeLogEntry ω τ → Option ResumeBindings
  | (.issueInitial bindings _ _ _ _ _, .issued (.ok _)) => some bindings
  | _ => none

def startedSessions (log : List (ResumeLogEntry ω τ)) : List ResumeBindings := log.filterMap startedSession

def IssuedLast (token : DirectResumeGrantToken) (log : List (ResumeLogEntry ω τ)) : Prop :=
  Since (fun entry => entry.2.grant = some token) (fun entry => entry.2.grant = none) log

def StartedLast (bindings : ResumeBindings) (log : List (ResumeLogEntry ω τ)) : Prop :=
  Since (fun entry => startedSession entry = some bindings) (fun entry => startedSession entry = none) log

variable {env} {log : List (ResumeLogEntry ω τ)} {entry : ResumeLogEntry ω τ} {reg : ResumeRegistry ω}
  {call : ResumeCall ω τ} {out : ResumeRegistry ω × ResumeReply ω} {resp : AuthResponse τ} {clock : Option UInt64}
  {logId : String}

section Concat

theorem drawnNonces_concat : drawnNonces (log ++ [entry]) = drawnNonces log ++ entry.1.randomness.toList :=
  filterMap_concat _ log entry

theorem permitted_concat : permitted env (log ++ [entry]) = permitted env log ++ (permittedClaims env entry).toList :=
  filterMap_concat _ log entry

theorem startedSessions_concat : startedSessions (log ++ [entry]) = startedSessions log ++ (startedSession entry).toList :=
  filterMap_concat _ log entry

theorem permittedClaims_of_quiet (h : entry.2.grant = none) : permittedClaims env entry = none := by
  obtain ⟨call, reply⟩ := entry
  cases reply with
  | issued | refreshed | settled => cases call <;> rfl
  | prepared result =>
    cases result with
    | error => cases call <;> rfl
    | ok => cases h

theorem startedSession_of_quiet (h : entry.2.grant = none) : startedSession entry = none := by
  obtain ⟨call, reply⟩ := entry
  cases reply with
  | issued result =>
    cases result with
    | error => cases call <;> rfl
    | ok => cases h
  | refreshed | settled | prepared => cases call <;> rfl

variable {result : Except ResumeRegistryError GrantRefresh}

theorem startedSession_refreshed : startedSession (call, .refreshed result) = none := by
  cases call <;> rfl

theorem permittedClaims_refreshed : permittedClaims env (call, .refreshed result) = none := by
  cases call <;> rfl

theorem mem_startedSessions (h : StartedLast bindings log) : bindings ∈ startedSessions log := by
  obtain ⟨_, start, _, rfl, hstart, -⟩ := h
  exact mem_filterMap.mpr ⟨start, by simp, hstart⟩

end Concat

/-! ### The current grant -/

/-- The nonce belongs to the grant issued last, to no other signed claims, and no permit has consumed it. -/
structure CurrentGrant (env : ResumeEnvironment τ) (log : List (ResumeLogEntry ω τ)) (signed : List (List UInt8))
    (nonce : FixedBytes 32) (token : DirectResumeGrantToken) (claims : DirectResumeGrantClaims)
    (canonical : List UInt8) (signature : FixedBytes 32) : Prop where
  issued : IssuedLast token log
  decodes : token.decode env.codec = .ok ⟨claims, signature⟩
  signs : claims.canonicalSigningBytes = .ok canonical
  tags : env.mac canonical = .ok signature
  carries : claims.nonce.bytes = nonce
  drawn : nonce ∈ drawnNonces log
  only : ∀ (other : DirectResumeGrantClaims) (bytes : List UInt8), other.canonicalSigningBytes = .ok bytes →
    bytes ∈ signed → other.nonce.bytes = nonce → other = claims
  unused : ∀ consumed ∈ permitted env log, consumed.nonce.bytes ≠ nonce

/-- What a run has accounted for when it leaves a registry. -/
structure Accounted (env : ResumeEnvironment τ) (log : List (ResumeLogEntry ω τ)) (registry : ResumeRegistry ω) :
    Prop where
  signed : ∀ bytes ∈ registry.signed, ∃ claims : DirectResumeGrantClaims,
    claims.canonicalSigningBytes = .ok bytes ∧ claims.nonce.bytes ∈ drawnNonces log
  consumed : ∀ claims ∈ permitted env log, claims.nonce.bytes ∈ drawnNonces log
  started : ∀ entry, registry.entry = some entry → StartedLast entry.bindings log
  current : ∀ entry, registry.entry = some entry → entry.slot.active = true → ∃ token claims canonical signature,
      CurrentGrant env log registry.signed entry.slot.nonce token claims canonical signature

section Steps

variable {signed signed' : List (List UInt8)} {nonce : FixedBytes 32} {token : DirectResumeGrantToken}
  {claims : DirectResumeGrantClaims} {canon : List UInt8} {sig : FixedBytes 32}

theorem fresh_of_nodup (h : (drawnNonces (log ++ [entry])).Nodup) (hdraw : entry.1.randomness = some nonce) :
    nonce ∉ drawnNonces log := by
  rw [drawnNonces_concat, hdraw] at h
  exact fun hmem => (nodup_append.mp h).2.2 nonce hmem nonce (by simp) rfl

theorem drawn_concat (h : drawn ∈ drawnNonces log) : drawn ∈ drawnNonces (log ++ [entry]) := by
  rw [drawnNonces_concat]
  exact mem_append_left _ h

/-- A call that hands out nothing leaves the current grant as it is, whatever it signs with a fresh nonce. -/
theorem CurrentGrant.keep (h : CurrentGrant env log signed nonce token claims canon sig)
    (hquiet : entry.2.grant = none) (hs : SignsAtMost entry.1.randomness signed signed')
    (hnd : (drawnNonces (log ++ [entry])).Nodup) :
    CurrentGrant env (log ++ [entry]) signed' nonce token claims canon sig where
  issued := h.issued.step hquiet
  decodes := h.decodes
  signs := h.signs
  tags := h.tags
  carries := h.carries
  drawn := drawn_concat h.drawn
  only := by
    intro other bytes hoth hby hnon
    rcases hs with rfl | ⟨newer, newBytes, hnewer, hdraw, rfl⟩
    · exact h.only other bytes hoth hby hnon
    · rcases mem_append.mp hby with ho | hn
      · exact h.only other bytes hoth ho hnon
      · obtain rfl := mem_singleton.mp hn
        obtain rfl := DirectResumeGrantClaims.canonicalSigningBytes_injective hoth hnewer
        exact absurd (hnon ▸ h.drawn) (fresh_of_nodup hnd hdraw)
  unused := by
    rw [permitted_concat, permittedClaims_of_quiet hquiet, Option.toList_none, append_nil]
    exact h.unused

/-- A grant issued with a fresh nonce is the current one. -/
theorem Accounted.grants (h : Accounted env log reg)
    (hgs : Grants env nonce reg.signed signed' token) (hent : entry.2.grant = some token)
    (hdraw : entry.1.randomness = some nonce) (hnd : (drawnNonces (log ++ [entry])).Nodup)
    (hcons : ∀ consumed ∈ permitted env (log ++ [entry]), consumed.nonce.bytes ∈ drawnNonces log) :
    ∃ token claims canon signature, CurrentGrant env (log ++ [entry]) signed' nonce token claims canon signature := by
  obtain ⟨claims, canon, signature, hdec, hcanon, hsig, hnon, rfl⟩ := hgs
  have hf := fresh_of_nodup hnd hdraw
  refine ⟨token, claims, canon, signature, .now log hent, hdec, hcanon, hsig, hnon, ?_, ?_, ?_⟩
  · rw [drawnNonces_concat, hdraw]
    simp
  · intro other bytes hoth hby hsame
    rcases mem_append.mp hby with ho | hn
    · obtain ⟨_, hearly, hdrawn⟩ := h.signed bytes ho
      obtain rfl := DirectResumeGrantClaims.canonicalSigningBytes_injective hoth hearly
      exact absurd (hsame ▸ hdrawn) hf
    · obtain rfl := mem_singleton.mp hn
      exact DirectResumeGrantClaims.canonicalSigningBytes_injective hoth hcanon
  · intro consumed hmem hsame
    exact absurd (hsame ▸ hcons consumed hmem) hf

theorem Effect.signs (h : Effect env reg call out) : SignsAtMost call.randomness reg.signed out.1.signed := by
  cases h with
  | quiet _ hs => exact hs
  | issued hcall _ _ _ _ hgs
  | permitted hcall _ _ _ _ _ _ _ hgs =>
    obtain ⟨claims, canon, -, -, hcanon, -, hnon, hs⟩ := hgs
    exact .inr ⟨claims, canon, hcanon, by rw [hcall, hnon]; rfl, hs⟩
  | refreshed hcall _ _ _ hgs =>
    obtain ⟨claims, canon, -, -, hcanon, -, hnon, hs⟩ := hgs
    exact .inr ⟨claims, canon, hcanon, by rw [hcall, hnon], hs⟩

theorem EntryMoves.bindings {before after : Option (RegistryEntry ω)} (h : EntryMoves before after)
    {next : RegistryEntry ω} (ha : after = some next) :
    ∃ entry, before = some entry ∧ next.bindings = entry.bindings ∧
      (next.slot.active = true → next.slot = entry.slot) := by
  cases h with
  | same entry => exact ⟨next, ha, rfl, fun _ => rfl⟩
  | marked entry => cases ha; exact ⟨entry, rfl, rfl, fun _ => rfl⟩
  | drained entry _ hb hrevo =>
    cases ha
    refine ⟨entry, rfl, hb, fun hact => ?_⟩
    rw [hrevo] at hact
    cases hact
  | cleared => cases ha

end Steps

/-! ### What a permit means -/

section Permits

variable {presented : PresentedResume} {cand : ResumeCandidate ω}

theorem presentedResume_eq_ok
    (h : presentedResume env resp clock = (.ok presented : Except (ResumeRejection ω) PresentedResume)) :
    resp.resumeHolderNonce.bind decodeNonce = some presented.holderNonce.bytes ∧
      presented.token = resp.token ∧ env.topologyBinding resp.topology = .ok presented.topology ∧
      clock = some presented.now := by
  simp only [presentedResume, DirectResumeGrantToken.parse, exceptBind_eq_ok, exceptMapError_eq_ok, orError_eq_ok, exceptPure_eq_ok] at h
  obtain ⟨-, -, _, hh, _, ⟨-, -, -, -, -, -, rfl⟩, _, ht, _, hnow, rfl⟩ := h
  exact ⟨hh, rfl, ht, hnow⟩

section

variable (hpresented : presentedResume env resp clock = (.ok presented : Except (ResumeRejection ω) PresentedResume))
include hpresented

section

variable (hcandidate : reg.resumeCandidate env presented logId = .ok cand)
include hcandidate

/-- The token of an authenticated candidate carries its claims, which the key signed for the session. -/
theorem candidate_signed : ∃ sig canon, resp.token.decode env.codec = .ok ⟨cand.claims, sig⟩ ∧
      cand.claims.canonicalSigningBytes = .ok canon ∧ canon ∈ reg.signed ∧ env.mac canon = .ok sig ∧
      cand.claims.holderNonce = cand.entry.bindings.holderNonce ∧
      cand.claims.issuedAt ≤ presented.now ∧ presented.now < cand.claims.expiresAt := by
  obtain ⟨-, htok, -, -⟩ := presentedResume_eq_ok hpresented
  obtain ⟨-, -, -, hval⟩ := resumeCandidate_eq_ok hcandidate
  obtain ⟨sig, canon, hdec, hcanon, hveri, hb, hwin⟩ := validateDirectResumeGrantCandidate_eq_ok.mp hval
  rw [htok] at hdec
  have hs := refuseWhen_eq_ok.mp hveri
  rw [not_not] at hs
  obtain ⟨-, -, -, hh, -⟩ := validateImmutableBindings_eq_ok.mp hb
  exact ⟨sig, canon, hdec, hcanon, hs.1, hs.2, hh, hwin⟩

theorem permittedClaims_permit {host : HostIdentity} {randomness : Option (FixedBytes 32)} {permit : ResumePermit ω} :
    permittedClaims env (ResumeCall.prepareResume resp host logId clock randomness,
      ResumeReply.prepared (.ok permit)) = some cand.claims := by
  obtain ⟨_, -, hdec, -⟩ := candidate_signed hpresented hcandidate
  simp only [permittedClaims, hdec]

end

end

/-- The candidate of a permit holds the current grant. -/
theorem Accounted.candidate_grant (h : Accounted env log reg)
    (hcandidate : reg.resumeCandidate env presented logId = .ok cand) :
    ∃ token claims canon signature, CurrentGrant env log reg.signed cand.nonce token claims canon signature := by
  obtain ⟨hent, hcur, -, -⟩ := resumeCandidate_eq_ok hcandidate
  unfold DirectResumeSlot.current at hcur
  split_ifs at hcur with hact
  have hgrant := h.current cand.entry hent hact
  rw [Option.some.injEq, Prod.mk.injEq] at hcur
  rwa [hcur.2] at hgrant

end Permits

section Runs

section

variable (h : Accounted env log reg)
include h

section

variable (heff : Effect env reg call out)
include heff

theorem Accounted.consumes :
    ∀ claims ∈ permitted env (log ++ [(call, out.2)]), claims.nonce.bytes ∈ drawnNonces log := by
  rw [permitted_concat]
  intro claims hclms
  rcases mem_append.mp hclms with ho | hn
  · exact h.consumed claims ho
  · cases heff with
    | quiet _ _ hr =>
      rw [permittedClaims_of_quiet hr] at hn
      cases hn
    | issued hcall =>
      rw [hcall] at hn
      cases hn
    | refreshed =>
      rw [permittedClaims_refreshed] at hn
      cases hn
    | permitted hcall hpresented hcandidate hnon =>
      rw [hcall, permittedClaims_permit hpresented hcandidate] at hn
      obtain rfl := mem_singleton.mp hn
      obtain ⟨_, _, _, _, hcur⟩ := h.candidate_grant hcandidate
      rw [hnon]
      exact hcur.drawn

theorem Accounted.starts {entry : RegistryEntry ω} (ha : out.1.entry = some entry) :
    StartedLast entry.bindings (log ++ [(call, out.2)]) := by
  cases heff with
  | quiet hent _ hr =>
    obtain ⟨before, hpre, hb, -⟩ := hent.bindings ha
    rw [hb]
    exact (h.started before hpre).step (startedSession_of_quiet hr)
  | issued hcall _ hent hb =>
    cases hent.symm.trans ha
    refine .now log ?_
    rw [hcall, hb]
    rfl
  | refreshed _ hpre hent =>
    cases hent.symm.trans ha
    exact (h.started _ hpre).step startedSession_refreshed
  | permitted hcall _ hcandidate _ _ _ _ hent =>
    cases hent.symm.trans ha
    refine (h.started _ (resumeCandidate_eq_ok hcandidate).1).step ?_
    rw [hcall]
    rfl

variable (hnd : (drawnNonces (log ++ [(call, out.2)])).Nodup)
include hnd

theorem Accounted.holds {entry : RegistryEntry ω} (ha : out.1.entry = some entry) (hact : entry.slot.active = true) :
    ∃ token claims canon signature, CurrentGrant env (log ++ [(call, out.2)]) out.1.signed entry.slot.nonce token
      claims canon signature := by
  have hconsu := h.consumes heff
  cases heff with
  | quiet hent hs hr =>
    obtain ⟨before, hpre, -, hslot⟩ := hent.bindings ha
    have hsame := hslot hact
    rw [hsame] at hact ⊢
    obtain ⟨token, claims, canon, signature, hcur⟩ := h.current before hpre hact
    exact ⟨token, claims, canon, signature, hcur.keep hr hs hnd⟩
  | issued hcall _ hent _ hslot hgs =>
    cases hent.symm.trans ha
    rw [hslot]
    exact h.grants hgs rfl (by rw [hcall]; rfl) hnd hconsu
  | refreshed hcall _ hent _ hgs =>
    cases hent.symm.trans ha
    exact h.grants hgs rfl hcall hnd hconsu
  | permitted hcall _ _ _ _ _ _ hent hgs =>
    cases hent.symm.trans ha
    exact h.grants hgs rfl (by rw [hcall]; rfl) hnd hconsu

theorem Accounted.step : Accounted env (log ++ [(call, out.2)]) out.1 where
  signed := by
    intro bytes hby
    rcases heff.signs with hsame | ⟨claims, newBytes, hclms, hdraw, hs⟩
    · rw [hsame] at hby
      obtain ⟨claims, hclms, hdrawn⟩ := h.signed bytes hby
      exact ⟨claims, hclms, drawn_concat hdrawn⟩
    · rw [hs] at hby
      rcases mem_append.mp hby with ho | hn
      · obtain ⟨earlier, hearly, hdrawn⟩ := h.signed bytes ho
        exact ⟨earlier, hearly, drawn_concat hdrawn⟩
      · obtain rfl := mem_singleton.mp hn
        refine ⟨claims, hclms, ?_⟩
        rw [drawnNonces_concat, hdraw]
        simp
  consumed := fun claims hclms => drawn_concat (h.consumes heff claims hclms)
  started := fun _ => h.starts heff
  current := fun _ => h.holds heff hnd

end

end

theorem accounted_empty (env : ResumeEnvironment τ) : Accounted env [] (empty : ResumeRegistry ω) :=
  ⟨nofun, nofun, nofun, nofun⟩

variable (env) (calls : List (ResumeCall ω τ))

theorem drawnNonces_log : drawnNonces ((resumeRegistry ω env).log calls) = calls.filterMap randomness := by
  conv_rhs => rw [← (resumeRegistry ω env).map_fst_log calls]
  rw [filterMap_map]
  rfl

theorem accounted_log (hf : (calls.filterMap randomness).Nodup) :
    Accounted env ((resumeRegistry ω env).log calls) ((resumeRegistry ω env).exec calls) := by
  have hrun := (resumeRegistry ω env).log_invariant
    (P := fun log reg => (drawnNonces log).Nodup → Accounted env log reg) (fun _ => accounted_empty env)
    (fun log reg call h hnd => (h ?_).step (step_effect env reg call) hnd) calls
  · rw [drawnNonces_log] at hrun
    exact hrun hf
  · rw [drawnNonces_concat] at hnd
    exact (nodup_append.mp hnd).1

end Runs

structure PermitSound (env : ResumeEnvironment τ) (log : List (ResumeLogEntry ω τ)) (registry : ResumeRegistry ω)
    (response : AuthResponse τ) (host : HostIdentity) (clock : Option UInt64) (entry : RegistryEntry ω)
    (claims : DirectResumeGrantClaims) : Prop where
  slot : registry.entry = some entry
  detached : entry.state = .detached
  started : StartedLast entry.bindings log
  issued : ∃ token signature, IssuedLast token log ∧ token.decode env.codec = .ok ⟨claims, signature⟩ ∧
    response.token.decode env.codec = .ok ⟨claims, signature⟩
  unused : claims ∉ permitted env log
  /-- The window of the token contains the current time. -/
  window : ∃ now, clock = some now ∧ claims.issuedAt ≤ now ∧ now < claims.expiresAt
  /-- Holder, host and topology are those of the session. -/
  holder : response.resumeHolderNonce.bind decodeNonce = some entry.bindings.holderNonce.bytes ∧
    claims.holderNonce = entry.bindings.holderNonce
  host : entry.bindings.hostIdentity = host
  topology : env.topologyBinding response.topology = .ok entry.bindings.topology

section Permit

variable {host : HostIdentity} {randomness : Option (FixedBytes 32)} {permit : ResumePermit ω}

theorem Accounted.permitSound (h : Accounted env log reg) (hperm : ((resumeRegistry ω env).step reg
      (.prepareResume resp host logId clock randomness)).2 = .prepared (.ok permit)) :
    ∃ entry claims, PermitSound env log reg resp host clock entry claims ∧
      permittedClaims env (ResumeCall.prepareResume resp host logId clock randomness,
        ResumeReply.prepared (.ok permit)) = some claims := by
  have heff := step_effect env reg (.prepareResume resp host logId clock randomness)
  rw [← Prod.mk.eta (p := (resumeRegistry ω env).step reg _), hperm] at heff
  cases heff with
  | quiet _ _ hr => cases hr
  | permitted hcall hpresented hcandidate hnon hd hhost ht =>
    cases hcall
    obtain ⟨hh, -, htopologyHash, hclock⟩ := presentedResume_eq_ok hpresented
    obtain ⟨hslot, -, hsameHolder, -⟩ := resumeCandidate_eq_ok hcandidate
    obtain ⟨signature, canonical, hdec, hcanon, hs, hsig, hclaimsHolder, hwin⟩ :=
      candidate_signed hpresented hcandidate
    obtain ⟨token, _, issuedBytes, issuedSignature, hcur⟩ := h.candidate_grant hcandidate
    have hcarr := congrArg DirectResumeNonce.bytes hnon
    have hsame := hcur.only _ canonical hcanon hs hcarr
    have htag : issuedSignature = signature := by
      have hby : issuedBytes = canonical := Except.ok.inj (hcur.signs.symm.trans (hsame ▸ hcanon))
      exact Except.ok.inj (hcur.tags.symm.trans (hby ▸ hsig))
    refine ⟨_, _, ⟨hslot, hd, h.started _ hslot, ?_, ?_, ⟨_, hclock, hwin⟩, ?_, hhost, ?_⟩,
      permittedClaims_permit hpresented hcandidate⟩
    · refine ⟨token, signature, hcur.issued, ?_, hdec⟩
      rw [hsame, ← htag]
      exact hcur.decodes
    · exact fun hmem => hcur.unused _ hmem hcarr
    · rw [← hsameHolder, hclaimsHolder]
      exact ⟨hh, hsameHolder.symm⟩
    · rw [ht]
      exact htopologyHash

end Permit

variable {claims : DirectResumeGrantClaims}

theorem exists_permit (h : permittedClaims env (call, reply) = some claims) :
    ∃ resp host logId clock randomness permit,
      call = .prepareResume resp host logId clock randomness ∧ reply = .prepared (.ok permit) := by
  cases call with
  | prepareResume resp host logId clock randomness =>
    cases reply with
    | prepared result =>
      cases result with
      | ok permit => exact ⟨resp, host, logId, clock, randomness, permit, rfl, rfl⟩
      | error => cases h
    | _ => cases h
  | _ => cases h

/-- What a call permits has not been permitted before, and names the detached session of the slot. -/
theorem Accounted.permits (h : Accounted env log reg)
    (hclms : permittedClaims env (call, ((resumeRegistry ω env).step reg call).2) = some claims) :
    claims ∉ permitted env log ∧ ∃ entry, reg.entry = some entry ∧ entry.state = .detached ∧
      claims.holderNonce = entry.bindings.holderNonce := by
  obtain ⟨_, _, _, _, _, _, rfl, hr⟩ := exists_permit hclms
  obtain ⟨entry, _, hsound, hfnd⟩ := h.permitSound hr
  rw [hr, hfnd] at hclms
  obtain rfl := Option.some.inj hclms
  exact ⟨hsound.unused, entry, hsound.slot, hsound.detached, hsound.holder.2⟩

theorem nodup_permitted (env : ResumeEnvironment τ) (calls : List (ResumeCall ω τ))
    (hf : (calls.filterMap randomness).Nodup) : (permitted env ((resumeRegistry ω env).log calls)).Nodup := by
  induction calls using reverseRecOn with
  | nil => exact nodup_nil
  | append_singleton calls call ih =>
    rw [filterMap_append] at hf
    have hpre := (nodup_append.mp hf).1
    rw [Machine.log_concat, permitted_concat]
    cases hclms : permittedClaims env (call, ((resumeRegistry ω env).step _ call).2) with
    | none => simpa using ih hpre
    | some claims =>
      have hunus := ((accounted_log env calls hpre).permits hclms).1
      refine nodup_append.mpr ⟨ih hpre, pairwise_singleton _ claims, ?_⟩
      rintro consumed hcons other hoth rfl
      exact hunus (mem_singleton.mp hoth ▸ hcons)

/-! ### Drained sessions -/

/-- The session of this holder was started, and is draining or has left the slot. -/
def Drained (holder : DeckHolderNonce) (log : List (ResumeLogEntry ω τ)) (registry : ResumeRegistry ω) : Prop :=
  holder ∈ (startedSessions log).map ResumeBindings.holderNonce ∧
    ∀ entry, registry.entry = some entry → entry.bindings.holderNonce = holder → entry.state = .draining

section Drained

variable {holder : DeckHolderNonce}

theorem EntryMoves.drained_or_open {before after : Option (RegistryEntry ω)} (h : EntryMoves before after)
    {next : RegistryEntry ω} (ha : after = some next) :
    next.state = .draining ∨ ∃ entry, before = some entry ∧ next.bindings = entry.bindings ∧ entry.state ≠ .draining := by
  cases h with
  | same entry =>
    by_cases hdrain : next.state = .draining
    · exact .inl hdrain
    · exact .inr ⟨next, ha, rfl, hdrain⟩
  | marked entry _ hopen => cases ha; exact .inr ⟨entry, rfl, rfl, hopen⟩
  | drained _ _ _ _ hdrain => cases ha; exact .inl hdrain
  | cleared => cases ha

/-- A drained session stays drained: its slot is not opened again, and no other session has its holder. -/
theorem Drained.step (h : Drained holder log reg) (heff : Effect env reg call out)
    (hholde : ((startedSessions (log ++ [(call, out.2)])).map ResumeBindings.holderNonce).Nodup) :
    Drained holder (log ++ [(call, out.2)]) out.1 := by
  rw [startedSessions_concat, map_append] at hholde
  refine ⟨?_, fun entry ha hh => ?_⟩
  · rw [startedSessions_concat, map_append]
    exact mem_append_left _ h.1
  · cases heff with
    | quiet hent =>
      rcases hent.drained_or_open ha with hdrain | ⟨before, hpre, hb, hopen⟩
      · exact hdrain
      · exact absurd (h.2 before hpre (hb ▸ hh)) hopen
    | issued hcall _ hent hb =>
      cases hent.symm.trans ha
      rw [hcall] at hholde
      refine absurd hh ((nodup_append.mp hholde).2.2 holder h.1 _ ?_).symm
      rw [hb]
      exact mem_singleton_self _
    | refreshed _ hpre hent hopen =>
      cases hent.symm.trans ha
      exact absurd (h.2 _ hpre hh) hopen
    | permitted _ _ hcandidate _ hd _ _ hent =>
      cases hent.symm.trans ha
      have hdrain := h.2 _ (resumeCandidate_eq_ok hcandidate).1 hh
      exact absurd (hd.symm.trans hdrain) nofun

/-- From a drained session on, no permit is for its holder. -/
theorem Drained.never_permitted (before after : List (ResumeCall ω τ))
    (h : Drained holder ((resumeRegistry ω env).log before) ((resumeRegistry ω env).exec before))
    (hf : ((before ++ after).filterMap randomness).Nodup)
    (hholde : ((startedSessions ((resumeRegistry ω env).log (before ++ after))).map
      ResumeBindings.holderNonce).Nodup) :
    Drained holder ((resumeRegistry ω env).log (before ++ after)) ((resumeRegistry ω env).exec (before ++ after)) ∧
      ∀ claims ∈ permitted env ((resumeRegistry ω env).logFrom ((resumeRegistry ω env).exec before) after),
        claims.holderNonce ≠ holder := by
  induction after using reverseRecOn with
  | nil =>
    rw [append_nil]
    exact ⟨h, fun _ hclms => absurd hclms not_mem_nil⟩
  | append_singleton after call ih =>
    rw [← append_assoc] at hf hholde ⊢
    rw [filterMap_append] at hf
    rw [Machine.log_concat] at hholde
    have hholdersBefore := hholde
    rw [startedSessions_concat, map_append] at hholdersBefore
    obtain ⟨hdrai, hnever⟩ := ih (nodup_append.mp hf).1 (nodup_append.mp hholdersBefore).1
    rw [Machine.log_concat, Machine.exec_concat]
    refine ⟨hdrai.step (step_effect env _ call) hholde, fun claims hclms => ?_⟩
    rw [Machine.logFrom_append, ← Machine.exec_append, Machine.logFrom_cons, Machine.logFrom_nil, permitted_concat]
      at hclms
    rcases mem_append.mp hclms with ho | hn
    · exact hnever claims ho
    · rw [Option.mem_toList] at hn
      obtain ⟨-, entry, hent, hd, hsame⟩ := (accounted_log env (before ++ after) (nodup_append.mp hf).1).permits hn
      intro hh
      exact absurd (hd.symm.trans (hdrai.2 entry hent (hsame ▸ hh))) nofun

end Drained

/-- **Resume grants are one-shot.** In a run that draws distinct nonces and whose sessions have distinct holders, a
permit is returned only for the token issued last, to the detached session of the slot, within the window and with
its bindings; no token gets two permits; a session that has drained gets none again; and presenting the exact
predecessor of the current grant drains the session. -/
theorem resume_grants_one_shot (env : ResumeEnvironment τ) (calls : List (ResumeCall ω τ))
    (hfresh : (calls.filterMap randomness).Nodup)
    (hholders : ((startedSessions ((resumeRegistry ω env).log calls)).map ResumeBindings.holderNonce).Nodup) :
    (∀ before after response host sessionLogId clock randomness permit,
      calls = before ++ .prepareResume response host sessionLogId clock randomness :: after →
      ((resumeRegistry ω env).step ((resumeRegistry ω env).exec before)
        (.prepareResume response host sessionLogId clock randomness)).2 = .prepared (.ok permit) →
      ∃ entry claims, PermitSound env ((resumeRegistry ω env).log before) ((resumeRegistry ω env).exec before) response
        host clock entry claims) ∧
    (permitted env ((resumeRegistry ω env).log calls)).Nodup ∧ (∀ before after holder, calls = before ++ after →
      Drained holder ((resumeRegistry ω env).log before) ((resumeRegistry ω env).exec before) →
      ∀ claims ∈ permitted env ((resumeRegistry ω env).logFrom ((resumeRegistry ω env).exec before) after),
        claims.holderNonce ≠ holder) ∧
    (∀ before after response sessionLogId clock randomness presented (candidate : ResumeCandidate ω),
      calls = before ++ .prepareResume response candidate.entry.bindings.hostIdentity sessionLogId clock randomness ::
        after → presentedResume env response clock = (.ok presented : Except (ResumeRejection ω) PresentedResume) →
      ((resumeRegistry ω env).exec before).resumeCandidate env presented sessionLogId = .ok candidate →
      u64CheckedSucc candidate.claims.generation = some candidate.generation →
      candidate.entry.state = .detached → candidate.entry.bindings.topology = presented.topology →
      Drained candidate.entry.bindings.holderNonce
        ((resumeRegistry ω env).log (before ++ [.prepareResume response candidate.entry.bindings.hostIdentity
          sessionLogId clock randomness]))
        ((resumeRegistry ω env).exec (before ++ [.prepareResume response candidate.entry.bindings.hostIdentity
          sessionLogId clock randomness]))) := by
  have hacco (before after : List (ResumeCall ω τ)) (hsplit : calls = before ++ after) :
      Accounted env ((resumeRegistry ω env).log before) ((resumeRegistry ω env).exec before) := by
    rw [hsplit, filterMap_append] at hfresh
    exact accounted_log env before (nodup_append.mp hfresh).1
  refine ⟨?_, nodup_permitted env calls hfresh, ?_, ?_⟩
  · intro before after response host sessionLogId clock randomness permit hsplit hperm
    obtain ⟨entry, claims, hsound, -⟩ := (hacco before _ hsplit).permitSound hperm
    exact ⟨entry, claims, hsound⟩
  · rintro before after holder rfl hdrai
    exact (hdrai.never_permitted before after hfresh hholders).2
  · intro before after response sessionLogId clock randomness presented candidate hsplit hpresented hcandidate
      hpred hd ht
    have hslot := (resumeCandidate_eq_ok hcandidate).1
    have hstar := mem_startedSessions ((hacco before _ hsplit).started _ hslot)
    have hent : (((resumeRegistry ω env).exec before).prepareResume env response
        candidate.entry.bindings.hostIdentity sessionLogId clock randomness).1.entry = some candidate.entry.drain := by
      simp only [prepareResume, hpresented, hcandidate, consumeCandidate, hpred, hd, ht, decide_true, Bool.not_true,
        Bool.false_and, Bool.false_eq_true, if_false, ne_eq, not_true_eq_false, decide_false, Bool.or_self, if_true]
    rw [Machine.log_concat, Machine.exec_concat]
    refine ⟨?_, fun entry ha _ => ?_⟩
    · rw [startedSessions_concat, map_append]
      exact mem_append_left _ (mem_map_of_mem hstar)
    · cases hent.symm.trans ha
      rfl

/-- The grant that follows `deskGrant` when it is consumed at second 200. -/
def deskSuccessor : DirectResumeGrantClaims :=
  { deskGrant with generation := 2, nonce := ⟨thirtyTwo 11⟩, issuedAt := 200, expiresAt := 560 }

/-- A codec for the envelopes of `deskGrant` and `deskSuccessor`. -/
def deskPairCodec : EnvelopeCodec where
  toVec envelope :=
    if envelope = ⟨deskGrant, thirtyTwo 3⟩ then some [1]
    else if envelope = ⟨deskSuccessor, thirtyTwo 3⟩ then some [2]
    else none
  fromSlice bytes :=
    if bytes = [1] then some ⟨deskGrant, thirtyTwo 3⟩
    else if bytes = [2] then some ⟨deskSuccessor, thirtyTwo 3⟩
    else none
  lossless := by
    intro envelope bytes h
    split_ifs at h with hfirst hsecond
    · rw [← Option.some.inj h, hfirst, if_pos rfl]
    · rw [← Option.some.inj h, hsecond, if_neg (by decide), if_pos rfl]

def deskEnvironment : ResumeEnvironment Unit where
  codec := deskPairCodec
  mac _ := .ok (thirtyTwo 3)
  topologyBinding _ := .ok (thirtyTwo 5)

def deskBindings : ResumeBindings where
  hostIdentity := deskGrant.hostIdentity
  activeSessionId := deskGrant.activeSessionId
  nativePrincipal := deskGrant.nativePrincipal
  holderNonce := deskGrant.holderNonce
  disclaimerDigest := deskGrant.disclaimerDigest
  disclaimerVersion := deskGrant.disclaimerVersion
  topology := thirtyTwo 5

/-- The session is opened at second 100 and detaches. -/
def deskDetached : List (ResumeCall Unit Unit) :=
  [.issueInitial deskBindings .default () "log-1" (some (thirtyTwo 9)) (some 100),
    .markDetached deskGrant.activeSessionId]

/-- It comes back at second 200 with its grant. -/
def deskResponse : AuthResponse Unit where
  method := "resume"
  username := ""
  credential := ""
  resumeRequested := false
  resumeHolderNonce := some "0707070707070707070707070707070707070707070707070707070707070707"
  resumeGrant := some "v1.01"
  topology := ()

theorem resume_grants_one_shot_desk :
    ∃ entry claims, PermitSound deskEnvironment ((resumeRegistry Unit deskEnvironment).log deskDetached)
      ((resumeRegistry Unit deskEnvironment).exec deskDetached) deskResponse ⟨"pier"⟩ (some 200) entry claims := by
  refine (resume_grants_one_shot deskEnvironment
    (deskDetached ++ [.prepareResume deskResponse ⟨"pier"⟩ "log-2" (some 200) (some (thirtyTwo 11))])
    (by decide) (by decide +kernel)).1 deskDetached [] deskResponse ⟨"pier"⟩ "log-2" (some 200)
    (some (thirtyTwo 11)) ⟨(), deskGrant.activeSessionId, "log-1", ⟨"v1.02"⟩, 180⟩ rfl ?_
  decide +kernel

end ResumeRegistry
end Arcen
