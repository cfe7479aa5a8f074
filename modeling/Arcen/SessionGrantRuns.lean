import Arcen.History
import Arcen.SessionGrant

/-! Gateways that share a replay store: grants are validated in any contexts and with any verifiers, and evidence of a
validated grant may be consumed by anyone any number of times. -/

namespace Arcen

open List

variable {σ δ ε : Type}

/-- A replay store, with its state and its answers. -/
abbrev GrantReplayConsumer (σ ε : Type) := Machine σ ReplayCall (Except ε GrantReplayConsumption)

/-- A key that was consumed is protected through the time it is retained until. -/
def Protects (first second : ReplayCall × Except ε GrantReplayConsumption) : Prop :=
  first.2 = .ok .consumed → second.1.key = first.1.key →
    second.1.nowEpochSeconds ≤ first.1.retainUntilEpochSeconds → second.2 ≠ .ok .consumed

/-- The documented contract: at non-decreasing times every consumed key is protected. -/
def GrantReplayConsumer.MeetsContract (consumer : GrantReplayConsumer σ ε) : Prop :=
  ∀ calls, (calls.map ReplayCall.nowEpochSeconds).Pairwise (· ≤ ·) → (consumer.log calls).Pairwise Protects

inductive GatewayCall (δ : Type) where
  | validate (verify : SignedSessionGrant → Except δ Unit) (grant : SignedSessionGrant)
      (context : GrantValidationContext)
  /-- Consumes the evidence of one of the validations so far. -/
  | consume (evidence : Nat) (nowEpochSeconds : Nat)

inductive GatewayReply (δ ε : Type) where
  | validated (result : Except (GrantValidationError δ) ValidatedSessionGrant)
  | consumed (result : Except (GrantReplayError ε) ConsumedSessionGrant)
  | noEvidence

def GatewayCall.time : GatewayCall δ → Nat
  | .validate _ _ context => context.nowEpochSeconds
  | .consume _ nowEpochSeconds => nowEpochSeconds

structure Gateways (σ : Type) where
  store : σ
  evidence : List ValidatedSessionGrant

def Gateways.validate (gateways : Gateways σ) (result : Except (GrantValidationError δ) ValidatedSessionGrant) :
    Gateways σ :=
  match result with
  | .ok validated => { gateways with evidence := gateways.evidence ++ [validated] }
  | .error _ => gateways

def Gateways.consume (consumer : GrantReplayConsumer σ ε) (gateways : Gateways σ) (evidence nowEpochSeconds : Nat) :
    Gateways σ × GatewayReply δ ε :=
  match gateways.evidence[evidence]? with
  | some grant =>
    let consumed := consumeValidatedSessionGrant consumer.step gateways.store grant nowEpochSeconds
    ({ gateways with store := consumed.1 }, .consumed consumed.2)
  | none => (gateways, .noEvidence)

def gatewaysMachine (δ : Type) (consumer : GrantReplayConsumer σ ε) :
    Machine (Gateways σ) (GatewayCall δ) (GatewayReply δ ε) where
  init := ⟨consumer.init, []⟩
  step gateways
    | .validate verify grant context =>
      (gateways.validate (validateSessionGrant verify grant context),
        .validated (validateSessionGrant verify grant context))
    | .consume evidence nowEpochSeconds => gateways.consume consumer evidence nowEpochSeconds

/-! ### What a run has validated and consumed -/

def openingCall : GatewayCall δ × GatewayReply δ ε → Option (ReplayCall × Except ε GrantReplayConsumption)
  | (.consume _ nowEpochSeconds, .consumed (.ok consumed)) =>
    some (⟨consumed.grant.replayKey, consumed.grant.expiresAt, nowEpochSeconds⟩, .ok .consumed)
  | _ => none

/-- The evidence comes from a validation of the log. -/
def Validated (log : List (GatewayCall δ × GatewayReply δ ε)) (evidence : ValidatedSessionGrant) : Prop :=
  ∃ verify grant context, (.validate verify grant context, .validated (.ok evidence)) ∈ log ∧
    evidence = grant.claims.validated ∧ ValidatedIn verify grant context

structure GatewaysRun (consumer : GrantReplayConsumer σ ε) (log : List (GatewayCall δ × GatewayReply δ ε))
    (gateways : Gateways σ) : Prop where
  validated : ∀ evidence ∈ gateways.evidence, Validated log evidence
  /-- The store was called at times of the run, and every consumed grant stands in its log. -/
  store : ∃ calls, gateways.store = consumer.exec calls ∧
    (calls.map ReplayCall.nowEpochSeconds).Sublist (log.map fun entry => entry.1.time) ∧
    (log.filterMap openingCall).Sublist (consumer.log calls)
  unexpired : ∀ opening ∈ log.filterMap openingCall, opening.1.nowEpochSeconds < opening.1.retainUntilEpochSeconds

variable {consumer : GrantReplayConsumer σ ε} {log : List (GatewayCall δ × GatewayReply δ ε)} {gateways : Gateways σ}

theorem Validated.concat (h : Validated log evidence) (entry : GatewayCall δ × GatewayReply δ ε)
    : Validated (log ++ [entry]) evidence := by
  obtain ⟨verify, grant, context, hmem, hevid⟩ := h
  exact ⟨verify, grant, context, mem_append_left _ hmem, hevid⟩

theorem consume_cases (consumer : GrantReplayConsumer σ ε) (store : σ) (grant : ValidatedSessionGrant) (now : Nat) :
    consumeValidatedSessionGrant consumer.step store grant now = (store, .error .expired) ∨
      now < grant.expiresAt ∧ ∃ answer, (consumer.step store ⟨grant.replayKey, grant.expiresAt, now⟩).2 = answer ∧
        consumeValidatedSessionGrant consumer.step store grant now =
          ((consumer.step store ⟨grant.replayKey, grant.expiresAt, now⟩).1, consumptionOf grant now answer) := by
  unfold consumeValidatedSessionGrant
  split_ifs with hexpi
  · exact .inl rfl
  · exact .inr ⟨Nat.not_le.mp hexpi, _, rfl, rfl⟩

theorem Gateways.consume_ok {evidence now : Nat}
    (h : (gateways.consume (δ := δ) consumer evidence now).2 = .consumed (.ok consumed)) :
    ∃ grant ∈ gateways.evidence, now < grant.expiresAt ∧ consumed = ⟨grant, now⟩ := by
  unfold consume at h
  split at h
  · next grant hg =>
      rcases consume_cases consumer gateways.store grant now with
        hexpi | ⟨hl, answer, -, hc⟩
      · rw [hexpi] at h
        cases h
      · rw [hc] at h
        match answer with
        | .ok .consumed =>
          cases h
          exact ⟨grant, mem_of_getElem? hg, hl, rfl⟩
        | .ok .alreadyConsumed | .error _ => cases h
  · cases h

namespace GatewaysRun

theorem start (consumer : GrantReplayConsumer σ ε) :
    GatewaysRun consumer ([] : List (GatewayCall δ × GatewayReply δ ε)) ⟨consumer.init, []⟩ :=
  ⟨fun _ hmem => absurd hmem not_mem_nil, ⟨[], rfl, .slnil, .slnil⟩, fun _ hmem => absurd hmem not_mem_nil⟩

section

variable (h : GatewaysRun consumer log gateways)
include h

/-- An entry that consumed nothing and left the store. -/
theorem idle {next : Gateways σ} (hevid : ∀ evidence ∈ next.evidence, Validated (log ++ [entry]) evidence)
    (hstore : next.store = gateways.store) (hent : openingCall entry = none) :
    GatewaysRun consumer (log ++ [entry]) next := by
  have hopeni : (log ++ [entry]).filterMap openingCall = log.filterMap openingCall := by
    rw [filterMap_concat, hent, Option.toList_none, append_nil]
  obtain ⟨calls, hcs, htm, _⟩ := h.store
  refine ⟨hevid, ⟨calls, hstore.trans hcs, ?_, by rwa [hopeni]⟩, by rw [hopeni]; exact h.unexpired⟩
  rw [map_append]
  exact htm.trans (sublist_append_left _ _)

theorem consume {evidence now : Nat} (hg : gateways.evidence[evidence]? = some grant)
    : GatewaysRun consumer (log ++ [(.consume evidence now, (gateways.consume consumer evidence now).2)])
      (gateways.consume (δ := δ) consumer evidence now).1 := by
  have hkept (entry : GatewayCall δ × GatewayReply δ ε) (other : ValidatedSessionGrant)
      (hoth : other ∈ gateways.evidence) : Validated (log ++ [entry]) other := (h.validated other hoth).concat entry
  unfold Gateways.consume
  simp only [hg]
  rcases consume_cases consumer gateways.store grant now with
    hexpi | ⟨hl, answer, hansw, hc⟩
  · rw [hexpi]
    exact h.idle (hkept _) rfl rfl
  · rw [hc]
    obtain ⟨calls, hcs, htm, hlog⟩ := h.store
    have hstore := hcs ▸ hansw
    refine ⟨hkept _, ⟨calls ++ [⟨grant.replayKey, grant.expiresAt, now⟩], ?_, ?_, ?_⟩, ?_⟩
    · rw [Machine.exec_concat, hcs]
    · rw [map_append, map_append]
      exact htm.append (List.Sublist.refl _)
    · rw [filterMap_concat, Machine.log_concat, hstore]
      refine hlog.append ?_
      match answer with
      | .ok .consumed => exact List.Sublist.refl _
      | .ok .alreadyConsumed | .error _ => exact nil_sublist _
    · rw [filterMap_concat]
      intro opening hopening
      rcases mem_append.mp hopening with hp | hn
      · exact h.unexpired opening hp
      · match answer with
        | .ok .consumed =>
          rw [mem_singleton.mp hn]
          exact hl
        | .ok .alreadyConsumed | .error _ => exact absurd hn not_mem_nil

theorem step (call : GatewayCall δ) :
    GatewaysRun consumer (log ++ [(call, ((gatewaysMachine δ consumer).step gateways call).2)])
      ((gatewaysMachine δ consumer).step gateways call).1 := by
  cases call with
  | validate verify grant context =>
    refine h.idle (fun evidence hmem => ?_) ?_ rfl
    · simp only [gatewaysMachine] at hmem ⊢
      cases hres : validateSessionGrant verify grant context with
      | error =>
        rw [hres] at hmem
        exact (h.validated evidence hmem).concat _
      | ok validated =>
        rw [hres] at hmem
        rcases mem_append.mp hmem with hp | hnew
        · exact (h.validated evidence hp).concat _
        · obtain rfl := mem_singleton.mp hnew
          exact ⟨verify, grant, context, by simp, validateSessionGrant_ok hres⟩
    · simp only [gatewaysMachine, Gateways.validate]
      split <;> rfl
  | consume evidence =>
    cases hg : gateways.evidence[evidence]? with
    | some => exact h.consume hg
    | none =>
      simp only [gatewaysMachine, Gateways.consume, hg]
      exact h.idle (fun other hoth => (h.validated other hoth).concat _) rfl rfl

end

end GatewaysRun

theorem gatewaysRun (consumer : GrantReplayConsumer σ ε) (calls : List (GatewayCall δ)) :
    GatewaysRun consumer ((gatewaysMachine δ consumer).log calls) ((gatewaysMachine δ consumer).exec calls) :=
  (gatewaysMachine δ consumer).log_invariant (P := GatewaysRun consumer) (.start consumer)
    (fun _ _ call h => h.step call) calls

def OpensSession (grant : SignedSessionGrant) (entry : GatewayCall δ × GatewayReply δ ε) : Prop :=
  ∃ evidence now consumed, entry = (.consume evidence now, .consumed (.ok consumed)) ∧
    consumed.grant = grant.claims.validated

/-- **A session grant opens at most one session.** Over any replay store that meets its contract, for any gateways that
share it and any calls at non-decreasing times: of all calls at most one yields a consumed grant for a signed grant, and
a consumed grant comes from a validation in which the verifier accepted the grant, every binding was the expected one
and the lifetime was in bounds, with the times of the validation and of the consumption both in the lifetime. -/
theorem session_grant_opens_once (consumer : GrantReplayConsumer σ ε) (hcontract : consumer.MeetsContract)
    (calls : List (GatewayCall δ)) (htimes : (calls.map GatewayCall.time).Pairwise (· ≤ ·)) :
    (∀ grant, ((gatewaysMachine δ consumer).log calls).Pairwise fun first second =>
      ¬(OpensSession grant first ∧ OpensSession grant second)) ∧ Throughout
        (fun before entry => ∀ evidence now consumed, entry = (.consume evidence now, .consumed (.ok consumed)) →
          ∃ verify grant context, (.validate verify grant context, .validated (.ok consumed.grant)) ∈ before ∧
            consumed = ⟨grant.claims.validated, now⟩ ∧ ValidatedIn verify grant context ∧ grant.claims.LiveAt now)
        ((gatewaysMachine δ consumer).log calls) := by
  constructor
  · intro grant
    have hr := gatewaysRun consumer calls
    obtain ⟨storeCalls, -, hsubl, hlog⟩ := hr.store
    have hsort : (storeCalls.map ReplayCall.nowEpochSeconds).Pairwise (· ≤ ·) := by
      refine List.Pairwise.sublist hsubl ?_
      rwa [show (fun entry : GatewayCall δ × GatewayReply δ ε => entry.1.time) = GatewayCall.time ∘ Prod.fst from rfl,
        ← map_map, Machine.map_fst_log]
    have hprot := pairwise_filterMap.mp ((hcontract storeCalls hsort).sublist hlog)
    refine hprot.imp_of_mem fun {first second} hfst hs hprote => ?_
    rintro ⟨⟨_, earlier, _, rfl, hopen⟩, _, _, _, rfl, hreop⟩
    have hunex := hr.unexpired _ (mem_filterMap.mpr ⟨_, hs, rfl⟩)
    refine hprote _ rfl _ rfl rfl ?_ ?_ rfl
    · rw [hopen, hreop]
    · rw [hopen]
      rw [hreop] at hunex
      exact Nat.le_of_lt hunex
  · rintro before entry after hsplit evidence now consumed rfl
    obtain ⟨hcs, hlog, hrpl⟩ := Machine.log_split _ hsplit
    have hr := gatewaysRun consumer (before.map Prod.fst)
    rw [hlog] at hr
    have hp (earlier : GatewayCall δ × GatewayReply δ ε) (hmem : earlier ∈ before) : earlier.1.time ≤ now := by
      rw [hcs, map_append, pairwise_append] at htimes
      exact htimes.2.2 _ (mem_map_of_mem (mem_map_of_mem hmem)) now mem_cons_self
    obtain ⟨grant, hg, hl, rfl⟩ := Gateways.consume_ok (δ := δ) hrpl.symm
    obtain ⟨verify, signed, context, hmem, rfl, hval⟩ := hr.validated grant hg
    exact ⟨verify, signed, context, hmem, rfl, hval, Nat.le_trans hval.live.1 (hp _ hmem), hl⟩

/-! ### A store that keeps every key -/

/-- Remembers every consumed key and the time it is retained until. -/
def rememberingConsumer : GrantReplayConsumer (List (GrantReplayKey × Nat)) Unit where
  init := []
  step kept call :=
    if kept.any fun entry => entry.1 == call.key && decide (call.nowEpochSeconds ≤ entry.2) then
      (kept, .ok .alreadyConsumed)
    else ((call.key, call.retainUntilEpochSeconds) :: kept, .ok .consumed)

theorem rememberingConsumer_meetsContract : rememberingConsumer.MeetsContract := by
  intro calls _
  have hkept := rememberingConsumer.log_invariant (P := fun log kept => (∀ entry ∈ log, entry.2 = .ok .consumed →
      (entry.1.key, entry.1.retainUntilEpochSeconds) ∈ kept) ∧ log.Pairwise Protects)
    ⟨fun _ hmem => absurd hmem not_mem_nil, .nil⟩
    (fun log kept call h => by
      simp only [rememberingConsumer]
      split_ifs with hany
      · refine ⟨fun entry hmem hc => ?_, pairwise_append.mpr ⟨h.2, pairwise_singleton _ _, ?_⟩⟩
        · rcases mem_append.mp hmem with hp | hn
          · exact h.1 entry hp hc
          · rw [mem_singleton.mp hn] at hc
            cases hc
        · intro first _ second hs _ _ _
          rw [mem_singleton.mp hs]
          nofun
      · refine ⟨fun entry hmem hc => ?_, pairwise_append.mpr ⟨h.2, pairwise_singleton _ _, ?_⟩⟩
        · rcases mem_append.mp hmem with hp | hn
          · exact mem_cons_of_mem _ (h.1 entry hp hc)
          · rw [mem_singleton.mp hn]
            exact mem_cons_self
        · intro first hfst second hs hc hkey htime
          rw [mem_singleton.mp hs] at hkey htime
          refine absurd (any_eq_true.mpr ⟨_, h.1 first hfst hc, ?_⟩) hany
          simp only [Bool.and_eq_true, beq_iff_eq, decide_eq_true_eq]
          exact ⟨hkey.symm, htime⟩)
    calls
  exact hkept.2

def exampleGrant : SignedSessionGrant where
  claims := ⟨1, "arcen", "gateway", "human", none, ⟨"client"⟩, ⟨"host"⟩, "session", ⟨"nonce"⟩, 100, 200⟩
  keyId := "key"
  algorithm := "ed25519"
  signature := [1, 2, 3]

/-- Two gateways race for one grant. -/
theorem raced_grant_opens_once : ((gatewaysMachine Unit rememberingConsumer).log
      [.validate (fun _ => .ok ()) exampleGrant ⟨"arcen", "gateway", "human", none, ⟨"client"⟩, ⟨"host"⟩, "session",
          ⟨"nonce"⟩, 110⟩, .consume 0 120, .consume 0 130]).Pairwise fun first second =>
      ¬(OpensSession exampleGrant first ∧ OpensSession exampleGrant second) :=
  (session_grant_opens_once rememberingConsumer rememberingConsumer_meetsContract _
    (by simp [GatewayCall.time])).1 exampleGrant

end Arcen
