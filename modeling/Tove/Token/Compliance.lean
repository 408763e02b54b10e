import Tove.Gating
import Tove.Token.Configuration

/-!
# Compliance

The token runs beside the gating contracts, whose sets change between any two of its calls, and
its admin replaces the gating contracts it is configured with. Whatever moves units after the
distribution is checked against the sets of the contracts that are configured at that moment.
-/

namespace Token

open Soroban Ledgers Transition

/-! ### The token with its gating contracts -/

/-- The token, and the gating contracts on the chain. -/
structure Regulated where
  token : World
  gating : Address → Option Gating.Contract

/-- What the gating contract at an address answers. -/
def Regulated.invokeGate (r : Regulated) (gating : Address) (fn : GateFn) (party : Address) :
    Option Bool :=
  match r.gating gating, fn with
  | some (.freezeSet s), .isFrozen => some (Gating.isFrozen s party)
  | some (.kycAllowlist s), .isAllowed => some (Gating.isAllowed s party)
  | _, _ => none

/-- The call of a step meets the gating contracts as they are. -/
def Label.Meets (r : Regulated) : Label → Prop
  | .call host _ _ | .failed host _ _ => host.invokeGate = r.invokeGate
  | .outside => True

/-- A step of the token, a call of a gating contract, or the deployment of a gating contract. -/
inductive RegulatedLabel where
  | token (l : Label)
  | gating (address : Address) (env : Soroban.Env) (c : Gating.Call) (events : List Gating.Event)
  | deploy (address : Address) (contract : Gating.Contract)

/-- The steps of the token among the gating contracts. -/
inductive RegulatedStep (pkg : Packages) : Regulated → RegulatedLabel → Regulated → Prop where
  | token {r : Regulated} {l : Label} {token : World} :
    l.Meets r → Step pkg r.token l token → RegulatedStep pkg r (.token l) { r with token }
  | gating {r : Regulated} {address : Address} {env : Soroban.Env} {c : Gating.Call}
      {contract contract' : Gating.Contract} {events : List Gating.Event} :
    r.gating address = some contract → Gating.perform env c contract = .ok (contract', events) →
      RegulatedStep pkg r (.gating address env c events)
        { r with gating := Function.update r.gating address (some contract') }
  | deploy {r : Regulated} {address : Address} {contract : Gating.Contract} :
    r.gating address = none →
      (∃ admin, contract = .freezeSet (Gating.construct admin)
        ∨ contract = .kycAllowlist (Gating.construct admin)) →
      RegulatedStep pkg r (.deploy address contract)
        { r with gating := Function.update r.gating address (some contract) }

/-- The token among the gating contracts, as a transition system. -/
def regulated (pkg : Packages) (init : TokenInit) : System Regulated RegulatedLabel where
  init r := (system pkg init).init r.token ∧ ∀ address, r.gating address = none
  step := RegulatedStep pkg

/-- What compliance demands of a movement out of an account: no migration is pending, neither
party is a member of the configured freeze set, and the recipient is a member of the configured
allowlist. -/
structure Compliant (r : Regulated) (m : Movement Address) : Prop where
  notPending : r.token.storage.migrationPending = none
  notFrozen : ∃ freezeSet s, r.token.storage.freezeSet = some freezeSet
    ∧ r.gating freezeSet = some (.freezeSet s)
    ∧ (∀ a, m.source = some a → s.members a = false)
    ∧ ∀ a, m.target = some a → s.members a = false
  allowed : ∀ a, m.target = some a → ∃ kyc s, r.token.storage.kycAllowlist = some kyc
    ∧ r.gating kyc = some (.kycAllowlist s) ∧ s.members a = true

/-! ### The checks of a movement -/

section Movements

variable {r : Regulated} {gating party : Address} {b : Bool}

theorem isFrozen_of_invokeGate (h : r.invokeGate gating .isFrozen party = some b) :
  ∃ s, r.gating gating = some (.freezeSet s) ∧ s.members party = b
  := by
  rw [Regulated.invokeGate.eq_def] at h
  split at h
  · rename_i s hs _
    exact ⟨s, hs, Option.some.inj h⟩
  · rename_i hfn
    cases hfn
  · cases h

theorem isAllowed_of_invokeGate (h : r.invokeGate gating .isAllowed party = some b) :
  ∃ s, r.gating gating = some (.kycAllowlist s) ∧ s.members party = b
  := by
  rw [Regulated.invokeGate.eq_def] at h
  split at h
  · rename_i hfn
    cases hfn
  · rename_i s hs _
    exact ⟨s, hs, Option.some.inj h⟩
  · cases h

/-- A movement that passes the guard is compliant. -/
theorem Cleared.compliant {host : Host} {m : Movement Address} (h : Cleared host r.token m)
    (hsource : ∃ a, m.source = some a) (hhost : host.invokeGate = r.invokeGate) :
  Compliant r m
  := by
  obtain ⟨a, ha⟩ := hsource
  obtain ⟨freezeSet, hfreezeSet, hfrozen⟩ := h.source a ha
  rw [hhost] at hfrozen
  obtain ⟨s, hs, hmember⟩ := isFrozen_of_invokeGate hfrozen
  refine ⟨h.notPending, ⟨freezeSet, s, hfreezeSet, hs, ?_, ?_⟩, ?_⟩
  · intro c hc
    obtain rfl := Option.some.inj (ha.symm.trans hc)
    apply hmember
  · intro c hc
    obtain ⟨freezeSet', hfreezeSet', _, _, hfrozen', _⟩ := h.target c hc
    obtain rfl := Option.some.inj (hfreezeSet.symm.trans hfreezeSet')
    rw [hhost] at hfrozen'
    obtain ⟨s', hs', hmember'⟩ := isFrozen_of_invokeGate hfrozen'
    rw [hs] at hs'
    cases hs'
    apply hmember'
  · intro c hc
    obtain ⟨_, _, kyc, hkyc, _, hallowed⟩ := h.target c hc
    rw [hhost] at hallowed
    obtain ⟨s', hs', hmember'⟩ := isAllowed_of_invokeGate hallowed
    exact ⟨kyc, s', hkyc, hs', hmember'⟩

end Movements

/-! ### Runs -/

section Runs

variable {pkg : Packages} (laws : pkg.base.Lawful) {init : TokenInit} {r r' : Regulated}
  {l : RegulatedLabel}

include laws

/-- A step after the distribution leaves the balances alone, or it is a compliant movement. -/
theorem RegulatedStep.balances (hminted : r.token.storage.mintDone.isSome = true)
    (hstep : RegulatedStep pkg r l r') :
  r'.token.holdings.balances = r.token.holdings.balances
    ∨ ∃ m a, m.source = some a ∧ r.token.holdings.Moved m r'.token.holdings ∧ Compliant r m
  := by
  cases hstep with
  | token hmeets hstep =>
    cases hstep with
    | call hok =>
      rcases (change_of_perform laws hok).balances hminted with hsame | hmoves
      · exact .inl hsame
      · obtain ⟨m, _, hsource, hcleared, hmoved⟩ := hmoves
        obtain ⟨a, ha⟩ := hsource
        exact .inr ⟨m, a, ha, hmoved, hcleared.compliant ⟨a, ha⟩ hmeets⟩
    | failed => exact .inl rfl
    | outside => exact .inl rfl
  | gating => exact .inl rfl
  | deploy => exact .inl rfl

/-- A call that asks for a movement succeeds only when the movement is compliant. -/
theorem RegulatedStep.compliant {host : Host} {c : Call} {events : List Event}
    {m : Movement Address}
    (hstep : RegulatedStep pkg r (.token (.call host c events)) r') (hc : c.movement = some m) :
  Compliant r m
  := by
  cases hstep with
  | token hmeets hstep =>
    cases hstep with
    | call hok =>
      obtain ⟨hsource, hcleared, _⟩ := (change_of_perform laws hok).cleared hc
      apply hcleared.compliant hsource hmeets

/-- In every step after the distribution, whatever changes a balance is a compliant movement, a
call that asks for a movement succeeds only when the movement is compliant, and so every account
that is debited and every account that is credited has passed the checks. -/
theorem compliance_funnel :
  (regulated pkg init).EveryStep fun r l r' => r.token.storage.mintDone.isSome = true →
    (r'.token.holdings.balances = r.token.holdings.balances
      ∨ ∃ m a, m.source = some a ∧ r.token.holdings.Moved m r'.token.holdings ∧ Compliant r m)
    ∧ (∀ host c events m, l = .token (.call host c events) → c.movement = some m → Compliant r m)
    ∧ (∀ a, r'.token.holdings.balances a < r.token.holdings.balances a →
        ∃ m, m.source = some a ∧ Compliant r m)
    ∧ ∀ a, r.token.holdings.balances a < r'.token.holdings.balances a →
        ∃ m, m.target = some a ∧ Compliant r m
  := by
  intro r l r' _ hstep hminted
  have hbalances := hstep.balances laws hminted
  refine ⟨hbalances, ?_, ?_, ?_⟩
  · rintro host c events m rfl hc
    apply hstep.compliant laws hc
  · intro a hlt
    rcases hbalances with hsame | ⟨m, _, _, hmoved, hcompliant⟩
    · rw [hsame] at hlt
      cases lt_irrefl _ hlt
    · refine ⟨m, ?_, hcompliant⟩
      by_contra hsource
      rw [hmoved.balances] at hlt
      exact absurd (m.le_post hmoved.nonneg hsource) hlt.not_ge
  · intro a hlt
    rcases hbalances with hsame | ⟨m, _, _, hmoved, hcompliant⟩
    · rw [hsame] at hlt
      cases lt_irrefl _ hlt
    · refine ⟨m, ?_, hcompliant⟩
      by_contra htarget
      rw [hmoved.balances] at hlt
      exact absurd (m.post_le hmoved.nonneg htarget) hlt.not_ge

end Runs

/-! ### A small token -/

/-- A freeze set and an allowlist, which are empty. -/
def sampleDeployed : Regulated where
  token := sampleToken (.account 11)
  gating := Function.update (Function.update (fun _ => none) (.contract 2)
    (some (.kycAllowlist (Gating.construct (.account 1))))) (.contract 3)
    (some (.freezeSet (Gating.construct (.account 1))))

/-- The allowlist with one member. -/
def sampleAllowlist : Gating.Contract :=
  .kycAllowlist ⟨.account 1, Function.update (fun _ => false) (.account 20) true⟩

/-- The small token beside its gating contracts, once the allowlist has its member. -/
def sampleRegulated (token : World) : Regulated where
  token
  gating := Function.update sampleDeployed.gating (.contract 2) (some sampleAllowlist)

/-- A host that asks these gating contracts. -/
def sampleGates : Host :=
  { sampleHost with invokeGate := (sampleRegulated (sampleToken (.account 11))).invokeGate }

theorem sampleRegulated_reachable :
  (regulated plainPackages (sampleInit (.account 11))).Reachable
    (sampleRegulated (sampleMinted (.account 11) (.account 10)))
  := by
  have hkyc : (regulated plainPackages (sampleInit (.account 11))).Reachable
      { token := sampleToken (.account 11)
        gating := Function.update (fun _ => none) (.contract 2)
          (some (.kycAllowlist (Gating.construct (.account 1)))) } :=
    (System.Reachable.init (S := regulated plainPackages (sampleInit (.account 11)))
      (s := ⟨sampleToken (.account 11), fun _ => none⟩)
      ⟨⟨fun _ _ => 0, rfl⟩, fun _ => rfl⟩).step (.deploy rfl ⟨.account 1, .inr rfl⟩)
  have hdeployed : (regulated plainPackages (sampleInit (.account 11))).Reachable sampleDeployed :=
    hkyc.step (.deploy rfl ⟨.account 1, .inl rfl⟩)
  have hadd : RegulatedStep plainPackages sampleDeployed
      (.gating (.contract 2) sampleHost.toEnv (.add (.account 20)) [.KycAdded (.account 20)])
      (sampleRegulated (sampleToken (.account 11))) :=
    .gating (show sampleDeployed.gating (.contract 2)
      = some (.kycAllowlist (Gating.construct (.account 1))) from rfl) rfl
  have hadded : (regulated plainPackages (sampleInit (.account 11))).Reachable
      (sampleRegulated (sampleToken (.account 11))) := hdeployed.step hadd
  apply hadded.step (.token (l := .call sampleGates (.mintSettle (.contract 5) [(.account 10, 7)])
    [.Mint (.account 10) 7]) rfl (.call rfl))

/-- The artist of the small token sends five units to the member of the allowlist. -/
theorem compliance_funnel_sampleRegulated :
  Compliant (sampleRegulated (sampleMinted (.account 11) (.account 10)))
    ⟨some (.account 10), some (.account 20), 5⟩
  := by
  have hstep : RegulatedStep plainPackages
      (sampleRegulated (sampleMinted (.account 11) (.account 10)))
      (.token (.call sampleGates (.transfer (.account 10) ⟨.account 20, none⟩ 5)
        [.Transfer (.account 10) (.account 20) none 5]))
      (sampleRegulated { sampleMinted (.account 11) (.account 10) with
        holdings := ⟨Movement.post ⟨some (.account 10), some (.account 20), 5⟩
          (sampleMinted (.account 11) (.account 10)).holdings.balances, 7 + 0, fun _ _ => (0, 0)⟩ }) :=
    .token rfl (.call rfl)
  exact (compliance_funnel plainBase_lawful _ _ _ sampleRegulated_reachable hstep rfl).2.1
    _ _ _ _ rfl rfl

end Token
