import Tove.Base.Changelog
import Tove.Token.Compliance

/-!
# What the events tell

The gating contracts publish an event for each change of their sets, and the token publishes one
when its admin replaces a gating contract. An observer who reads these events, and nothing else,
knows at every moment which contracts are configured and who is a member of their sets; so it
knows which accounts may send units, and which may receive them.
-/

namespace Gating

open Soroban Changelog

/-- The set of a contract, with its admin. -/
def Contract.registry : Contract → Registry
  | .freezeSet r | .kycAllowlist r => r

/-- What an event says about an address. -/
def Event.change : Event → Entry Address Bool
  | .FreezeAdded addr _ | .KycAdded addr => ⟨addr, true⟩
  | .FreezeRemoved addr _ | .KycRemoved addr => ⟨addr, false⟩

/-- The admin after a call. -/
def Call.admin : Call → Address → Address
  | .setAdmin newAdmin, _ => newAdmin
  | _, admin => admin

/-- What a successful call does: the admin has authorised it, and the events report what it has
changed. -/
structure Carried (env : Env) (c : Call) (r : Registry) (events : List Event) (r' : Registry) :
    Prop where
  authorised : env.auth r.admin = true
  admin : r'.admin = c.admin r.admin
  logs : Logs (· ≠ ·) r.members (events.map Event.change) r'.members

section Calls

variable {env : Env} {addr : Address} {member : Bool} {event : Event} {events : List Event}
  {r r' : Registry} {c : Call} {contract contract' : Contract}

theorem carried_of_setMember (hevent : event.change = ⟨addr, member⟩) (hc : ∀ a, c.admin a = a)
    (h : setMember env addr member event r = .ok (r', events)) :
  Carried env c r events r'
  := by
  rw [setMember, Checks.check_bind_eq_ok, requireAuth_eq_ok] at h
  obtain ⟨hauth, h⟩ := h
  split at h
  · obtain ⟨rfl, rfl⟩ := Prod.mk.inj (Except.ok.inj h)
    exact ⟨hauth, (hc _).symm, .nil⟩
  · rename_i hne
    obtain ⟨rfl, rfl⟩ := Prod.mk.inj (Except.ok.inj h)
    refine ⟨hauth, (hc _).symm, ?_⟩
    rw [List.map_singleton, hevent]
    apply Logs.single hne

theorem carried_of_setAdmin {newAdmin : Address}
    (h : setAdmin env newAdmin r = .ok (r', events)) :
  Carried env (.setAdmin newAdmin) r events r'
  := by
  rw [setAdmin, Checks.check_bind_eq_ok, requireAuth_eq_ok] at h
  obtain ⟨hauth, h⟩ := h
  obtain ⟨rfl, rfl⟩ := Prod.mk.inj (Except.ok.inj h)
  exact ⟨hauth, rfl, .nil⟩

/-- A call of a contract is one on its set. -/
theorem carried_of_perform (h : perform env c contract = .ok (contract', events)) :
  Carried env c contract.registry events contract'.registry
  := by
  cases c <;> cases contract <;>
    simp only [perform, Checks.bind_eq_ok, Checks.pure_eq_ok, Prod.mk.injEq, Prod.exists] at h
  case freeze.freezeSet | unfreeze.freezeSet | add.kycAllowlist | remove.kycAllowlist =>
    obtain ⟨r', events', hok, rfl, rfl⟩ := h
    refine carried_of_setMember ?_ (fun _ => rfl) hok
    rfl
  case setAdmin.freezeSet | setAdmin.kycAllowlist =>
    obtain ⟨r', events', hok, rfl, rfl⟩ := h
    apply carried_of_setAdmin hok
  all_goals cases h

end Calls

end Gating

namespace Token

open Soroban Ledgers Transition Changelog

/-! ### What the events say -/

/-- The gating contracts of a configuration. -/
def Storage.gating (s : Storage) : GatingKind → Option Address
  | .kyc => s.kycAllowlist
  | .freeze => s.freezeSet

/-- The gating contracts that the constructor is given. -/
def TokenInit.gating (init : TokenInit) : GatingKind → Option Address
  | .kyc => some init.kycAllowlist
  | .freeze => some init.freezeSet

/-- What an event says about the configuration. -/
def Event.configuration : Event → Option (Entry GatingKind (Option Address))
  | .GatingUpdated kind _ new => some ⟨kind, some new⟩
  | _ => none

/-- What the events of a step say about the configuration. -/
def RegulatedLabel.configuration : RegulatedLabel → List (Entry GatingKind (Option Address))
  | .token (.call _ _ events) => events.filterMap Event.configuration
  | _ => []

/-- What the events of a step say about the members of the sets. -/
def RegulatedLabel.changes : RegulatedLabel → List (Entry (Address × Address) Bool)
  | .gating address _ _ events => events.map fun e => ⟨(address, e.change.key), e.change.value⟩
  | _ => []

/-- The members of the sets, by the addresses of the contracts. -/
def Regulated.members (r : Regulated) (address : Address) : Address → Bool :=
  (r.gating address).elim (fun _ => false) fun contract => contract.registry.members

/-- What an observer knows: the gating contracts that are configured, and who is a member of which
set. -/
structure Observer where
  gating : GatingKind → Option Address
  members : Address × Address → Bool

/-- What an observer knows who has read the events of a run. -/
def observe (init : TokenInit) (ls : List RegulatedLabel) : Observer where
  gating := replay init.gating (ls.flatMap RegulatedLabel.configuration)
  members := replay (fun _ => false) (ls.flatMap RegulatedLabel.changes)

/-- The account is a member of the set that is configured, as far as the observer knows. -/
def Observer.lists (o : Observer) (kind : GatingKind) (a : Address) : Bool :=
  (o.gating kind).any fun address => o.members (address, a)

/-- The admin of a gating contract after a step. -/
def RegulatedLabel.admin (address : Address) : RegulatedLabel → Option Address → Option Address
  | .token _, admin => admin
  | .gating a _ c _, admin => if a = address then admin.map c.admin else admin
  | .deploy a contract, admin => if a = address then some contract.registry.admin else admin

/-- The admin of a gating contract after a run: the one it was deployed with, or the last one that
a call has named. -/
def adminAfter (address : Address) (ls : List RegulatedLabel) : Option Address :=
  ls.foldl (fun admin l => l.admin address admin) none

/-! ### The logs -/

section Logs

variable {pkg : Packages} {init : TokenInit} {host : Host} {c : Call} {w w' : World}
  {events : List Event} {r r' : Regulated} {l : RegulatedLabel}

/-- A call that leaves the configuration alone reports nothing of it. -/
theorem logs_of_quiet (hgating : w'.storage.gating = w.storage.gating)
    (hevents : events.filterMap Event.configuration = []) :
  Logs (fun _ _ => True) w.storage.gating (events.filterMap Event.configuration) w'.storage.gating
  := by
  rw [hgating, hevents]
  apply Logs.nil

theorem logs_of_guarded {source target : Option Address} {amount : ℤ}
    {move : Holdings → Outcome (Holdings × List Event)}
    (hmove : ∀ {h' es}, move w.holdings = .ok (h', es) → es.filterMap Event.configuration = [])
    (h : guarded host source target amount move w = .ok (w', events)) :
  Logs (fun _ _ => True) w.storage.gating (events.filterMap Event.configuration) w'.storage.gating
  := by
  simp only [guarded, Checks.bind_eq_ok, Checks.pure_eq_ok, Prod.mk.injEq, Prod.exists] at h
  obtain ⟨_, _, holdings, es, hok, rfl, rfl⟩ := h
  apply logs_of_quiet rfl (hmove hok)

/-- A setter reports the address that it stores. -/
theorem logs_of_setter {kind : GatingKind} {old new : Address}
    (h : w'.storage.gating = Function.update w.storage.gating kind (some new)) :
  Logs (fun _ _ => True) w.storage.gating
    (([.GatingUpdated kind old new] : List Event).filterMap Event.configuration) w'.storage.gating
  := by
  rw [h]
  apply Logs.single (c := ⟨kind, some new⟩) trivial

/-- The events of a successful call report what it has changed of the configuration. -/
theorem logs_of_perform (laws : pkg.base.Lawful) (h : perform pkg host c w = .ok (w', events)) :
  Logs (fun _ _ => True) w.storage.gating (events.filterMap Event.configuration) w'.storage.gating
  := by
  cases c with
  | mintSettle operator recipients =>
    obtain ⟨_, _, hissued, hw⟩ := mintSettle_of_ok laws h
    apply logs_of_quiet
    · rw [hw]
      rfl
    · rw [hissued.events, List.filterMap_map, List.filterMap_eq_nil_iff]
      intro r _
      rfl
  | recordAbsorbedLeftover operator amount =>
    simp only [perform, recordAbsorbedLeftover, Checks.bind_eq_ok, Checks.pure_eq_ok,
      Prod.mk.injEq] at h
    obtain ⟨_, _, _, _, _, _, rfl, rfl⟩ := h
    apply logs_of_quiet rfl rfl
  | settleTrade buyer seller count gross =>
    simp only [perform, settleTrade, Checks.bind_eq_ok, Checks.pure_eq_ok, Prod.mk.injEq] at h
    obtain ⟨_, _, _, _, _, _, _, _, _, _, _, _, _, _, _, _, rfl, rfl⟩ := h
    apply logs_of_quiet rfl rfl
  | transfer source target amount =>
    apply logs_of_guarded _ h
    intro h' es hok
    rw [(laws.transfer hok).2]
    rfl
  | transferFrom spender source target amount =>
    apply logs_of_guarded _ h
    intro h' es hok
    rw [(laws.transferFrom hok).2]
    rfl
  | burn source amount =>
    apply logs_of_guarded _ h
    intro h' es hok
    rw [(laws.burn hok).2]
    rfl
  | burnFrom spender source amount =>
    apply logs_of_guarded _ h
    intro h' es hok
    rw [(laws.burnFrom hok).2]
    rfl
  | approve owner spender amount live =>
    simp only [perform, approve, Checks.bind_eq_ok, Checks.pure_eq_ok, Prod.mk.injEq,
      Prod.exists] at h
    obtain ⟨holdings, es, hok, rfl, rfl⟩ := h
    obtain ⟨_, rfl⟩ := laws.approve hok
    apply logs_of_quiet rfl rfl
  | upgrade newWasmHash =>
    simp only [perform, upgrade, Checks.bind_eq_ok, Checks.pure_eq_ok, Prod.mk.injEq] at h
    obtain ⟨_, _, _, _, storage, hstorage, rfl, rfl⟩ := h
    apply logs_of_quiet _ rfl
    rcases recordSnapshot_cases hstorage with ⟨_, rfl⟩ | ⟨_, snapshot, _, rfl⟩
    · rfl
    · rfl
  | migrate =>
    simp only [perform, migrate] at h
    rw [Checks.check_bind_eq_ok] at h
    obtain ⟨_, h⟩ := h
    split at h
    · simp only [Checks.bind_eq_ok, Checks.pure_eq_ok, Prod.mk.injEq] at h
      obtain ⟨_, _, _, _, _, _, rfl, rfl⟩ := h
      apply logs_of_quiet rfl rfl
    · simp only [Checks.bind_eq_ok, Checks.pure_eq_ok, Prod.mk.injEq] at h
      obtain ⟨_, _, _, _, rfl, rfl⟩ := h
      apply Logs.nil
  | setProxyAdmin newAdmin =>
    simp only [perform, setProxyAdmin, Checks.bind_eq_ok, Checks.pure_eq_ok, Prod.mk.injEq] at h
    obtain ⟨_, _, rfl, rfl⟩ := h
    apply logs_of_quiet rfl rfl
  | setKycAllowlist new =>
    simp only [perform, setKycAllowlist, Checks.bind_eq_ok, Checks.pure_eq_ok,
      Prod.mk.injEq] at h
    obtain ⟨_, _, _, _, rfl, rfl⟩ := h
    apply logs_of_setter
    funext kind
    cases kind <;> rfl
  | setFreezeSet new =>
    simp only [perform, setFreezeSet, Checks.bind_eq_ok, Checks.pure_eq_ok, Prod.mk.injEq] at h
    obtain ⟨_, _, _, _, rfl, rfl⟩ := h
    apply logs_of_setter
    funext kind
    cases kind <;> rfl

/-- The events of a step report what it has changed of the configuration. -/
theorem RegulatedStep.configuration (laws : pkg.base.Lawful) (h : RegulatedStep pkg r l r') :
  Logs (fun _ _ => True) r.token.storage.gating l.configuration r'.token.storage.gating
  := by
  cases h with
  | token _ hstep =>
    cases hstep with
    | call hok => apply logs_of_perform laws hok
    | failed => apply Logs.nil
    | outside => apply Logs.nil
  | gating => apply Logs.nil
  | deploy => apply Logs.nil

/-- The events of a step report what it has changed of the sets. -/
theorem RegulatedStep.changes (h : RegulatedStep pkg r l r') :
  Logs (· ≠ ·) (Function.uncurry r.members) l.changes (Function.uncurry r'.members)
  := by
  cases h with
  | token => apply Logs.nil
  | @gating address env c contract contract' events hcontract hok =>
    have hlogs := (Gating.carried_of_perform hok).logs
    have hbefore : contract.registry.members = r.members address := by
      rw [Regulated.members, hcontract, Option.elim_some]
    rw [hbefore] at hlogs
    have hfamily := hlogs.family
    rw [List.map_map] at hfamily
    convert hfamily using 2
    · rfl
    · funext a
      by_cases ha : a = address
      · subst ha
        simp [Regulated.members]
      · simp [Regulated.members, ha]
  | @deploy address contract hnone hnew =>
    have hsame : Regulated.members { r with
        gating := Function.update r.gating address (some contract) } = r.members := by
      funext a
      by_cases ha : a = address
      · subst ha
        obtain ⟨admin, rfl | rfl⟩ := hnew
        · simp [Regulated.members, hnone, Gating.Contract.registry, Gating.construct]
        · simp [Regulated.members, hnone, Gating.Contract.registry, Gating.construct]
      · simp [Regulated.members, ha]
    rw [hsame]
    apply Logs.nil

/-- The admin of a contract is known from the calls. -/
theorem RegulatedStep.admin (h : RegulatedStep pkg r l r') (address : Address) :
  (r'.gating address).map (fun contract => contract.registry.admin)
    = l.admin address ((r.gating address).map fun contract => contract.registry.admin)
  := by
  cases h with
  | token => rfl
  | @gating a env c contract contract' events hcontract hok =>
    rw [RegulatedLabel.admin]
    split
    · rename_i ha
      subst ha
      simp [hcontract, (Gating.carried_of_perform hok).admin]
    · rename_i ha
      simp [Function.update_of_ne (Ne.symm ha)]
  | @deploy a contract hnone =>
    rw [RegulatedLabel.admin]
    split
    · rename_i ha
      subst ha
      simp
    · rename_i ha
      simp [Function.update_of_ne (Ne.symm ha)]

end Logs

/-! ### Runs -/

section Runs

variable {pkg : Packages} {init : TokenInit} {r₀ r r' : Regulated} {ls ls' : List RegulatedLabel}
  {l : RegulatedLabel}

theorem members_of_init (hinit : (regulated pkg init).init r₀) :
  Function.uncurry r₀.members = fun _ => false
  := by
  funext ⟨address, party⟩
  simp [Regulated.members, hinit.2 address]

/-- The log of the sets, from the deployment of the token on. -/
theorem members_logs (hinit : (regulated pkg init).init r₀)
    (hrun : (regulated pkg init).Run r₀ ls r) :
  Logs (· ≠ ·) (fun _ => false) (ls.flatMap RegulatedLabel.changes) (Function.uncurry r.members)
  := by
  rw [← members_of_init hinit]
  apply logs_of_run (fun r => Function.uncurry (Regulated.members r)) _ _ hrun
  intro s l t hstep
  apply hstep.changes

theorem adminAfter_of_run (hinit : (regulated pkg init).init r₀)
    (hrun : (regulated pkg init).Run r₀ ls r) (address : Address) :
  adminAfter address ls = (r.gating address).map fun contract => contract.registry.admin
  := by
  induction hrun with
  | nil =>
    rw [hinit.2 address]
    rfl
  | @snoc r r' ls l _ hstep ih =>
    have hadmin := RegulatedStep.admin (h := hstep) address
    rw [hadmin, ← ih, adminAfter, List.foldl_append]
    rfl

/-- What the observer knows is so. -/
theorem observe_of_run (laws : pkg.base.Lawful) (hinit : (regulated pkg init).init r₀)
    (hrun : (regulated pkg init).Run r₀ ls r) :
  (observe init ls).gating = r.token.storage.gating
    ∧ (observe init ls).members = Function.uncurry r.members
  := by
  constructor
  · obtain ⟨⟨usdc, hconstruct⟩, _⟩ := hinit
    have hstart : r₀.token.storage.gating = init.gating := by
      rw [← hconstruct]
      funext kind
      cases kind <;> rfl
    have hlogs := logs_of_run (fun r => r.token.storage.gating)
      RegulatedLabel.configuration (fun s l t (hstep : RegulatedStep pkg s l t) => hstep.configuration laws) hrun
    beta_reduce at hlogs
    rw [hstart] at hlogs
    apply hlogs.eq_replay.symm
  · apply (members_logs hinit hrun).eq_replay.symm

/-- The observer knows whether an account is a member of the set of a contract. -/
theorem lists_eq {kind : GatingKind} {address a : Address} (laws : pkg.base.Lawful)
    (hinit : (regulated pkg init).init r₀) (hrun : (regulated pkg init).Run r₀ ls r)
    (haddress : r.token.storage.gating kind = some address) :
  (observe init ls).lists kind a = r.members address a
  := by
  obtain ⟨hgating, hmembers⟩ := observe_of_run laws hinit hrun
  rw [Observer.lists, hgating, hmembers, haddress]
  rfl

/-- What a compliant movement demands, the observer sees. -/
theorem Compliant.observed {m : Movement Address} {a : Address} (h : Compliant r m)
    (laws : pkg.base.Lawful) (hinit : (regulated pkg init).init r₀)
    (hrun : (regulated pkg init).Run r₀ ls r) :
  (m.source = some a → (observe init ls).lists .freeze a = false)
    ∧ (m.target = some a → (observe init ls).lists .freeze a = false
      ∧ (observe init ls).lists .kyc a = true)
  := by
  obtain ⟨freezeSet, s, hfreezeSet, hs, hsource, htarget⟩ := h.notFrozen
  have hlists : (observe init ls).lists .freeze a = s.members a := by
    rw [lists_eq laws hinit hrun (show r.token.storage.gating .freeze = _ from hfreezeSet),
      Regulated.members, hs]
    rfl
  constructor
  · intro ha
    rw [hlists]
    apply hsource a ha
  · intro ha
    obtain ⟨kyc, s', hkyc, hs', hmember⟩ := h.allowed a ha
    constructor
    · rw [hlists]
      apply htarget a ha
    · rw [lists_eq laws hinit hrun (show r.token.storage.gating .kyc = _ from hkyc),
        Regulated.members, hs']
      apply hmember

/-- In a step after the distribution, only an account is debited that the events do not say is
frozen, and only one is credited that they say is not frozen, and allowed. -/
theorem RegulatedStep.observed (laws : pkg.base.Lawful) (hinit : (regulated pkg init).init r₀)
    (hrun : (regulated pkg init).Run r₀ ls r) (hminted : r.token.storage.mintDone.isSome = true)
    (hstep : RegulatedStep pkg r l r') (a : Address) :
  (r'.token.holdings.balances a < r.token.holdings.balances a →
      (observe init ls).lists .freeze a = false)
    ∧ (r.token.holdings.balances a < r'.token.holdings.balances a →
      (observe init ls).lists .freeze a = false ∧ (observe init ls).lists .kyc a = true)
  := by
  rcases hstep.balances laws hminted with hsame | ⟨m, _, _, hmoved, hcompliant⟩
  · rw [hsame]
    exact ⟨fun hlt => absurd hlt (lt_irrefl _), fun hlt => absurd hlt (lt_irrefl _)⟩
  · obtain ⟨hsource, htarget⟩ := hcompliant.observed (a := a) laws hinit hrun
    rw [hmoved.balances]
    constructor
    · intro hlt
      apply hsource
      by_contra hne
      exact absurd (m.le_post hmoved.nonneg hne) hlt.not_ge
    · intro hlt
      apply htarget
      by_contra hne
      exact absurd (m.post_le hmoved.nonneg hne) hlt.not_ge

/-- The distribution stays done. -/
theorem RegulatedStep.minted (laws : pkg.base.Lawful) (hstep : RegulatedStep pkg r l r')
    (hminted : r.token.storage.mintDone.isSome = true) :
  r'.token.storage.mintDone.isSome = true
  := by
  cases hstep with
  | token _ hstep => exact (hstep.minted laws hminted).1
  | gating => apply hminted
  | deploy => apply hminted

/-- In every run of the token among the gating contracts, the events of a contract say who is a
member of its set: what they say of an address alternates, and the last event decides; without an
event, the address is no member. Only calls publish events that the admin has authorised, who is
the one of the deployment, or the one that the last call of `set_admin` has named. -/
theorem membership_by_events (hinit : (regulated pkg init).init r₀)
    (hrun : (regulated pkg init).Run r₀ ls r) :
  (∀ address party,
      (false :: valuesOf (ls.flatMap RegulatedLabel.changes) (address, party)).IsChain (· ≠ ·)
        ∧ (false :: valuesOf (ls.flatMap RegulatedLabel.changes) (address, party)).getLast?
          = some (r.members address party))
    ∧ ∀ address env c events pre post, ls = pre ++ .gating address env c events :: post →
      ∃ admin, adminAfter address pre = some admin ∧ env.auth admin = true
  := by
  have hlogs := members_logs hinit hrun
  refine ⟨fun address party => ⟨hlogs.isChain _, hlogs.getLast _⟩, ?_⟩
  intro address env c events pre post hls
  obtain ⟨s, hpre, hpost⟩ := hrun.of_append hls
  obtain ⟨t, hcall, _⟩ := hpost.of_append
    (show _ = [RegulatedLabel.gating address env c events] ++ post from rfl)
  cases hcall.of_singleton rfl with
  | gating hcontract hok =>
    rw [adminAfter_of_run hinit hpre, hcontract]
    exact ⟨_, rfl, (Gating.carried_of_perform hok).authorised⟩

/-- The gating contracts of the small token are deployed, the allowlist gets its member, and units
are issued. -/
def sampleLabels : List RegulatedLabel :=
  [.deploy (.contract 2) (.kycAllowlist (Gating.construct (.account 1))),
    .deploy (.contract 3) (.freezeSet (Gating.construct (.account 1))),
    .gating (.contract 2) sampleHost.toEnv (.add (.account 20)) [.KycAdded (.account 20)],
    .token (.call sampleGates (.mintSettle (.contract 5) [(.account 10, 7)])
      [.Mint (.account 10) 7])]

theorem sampleLabels_run :
  (regulated plainPackages (sampleInit (.account 11))).Run
    ⟨sampleToken (.account 11), fun _ => none⟩ sampleLabels
    (sampleRegulated (sampleMinted (.account 11) (.account 10)))
  := by
  have hkyc : RegulatedStep plainPackages ⟨sampleToken (.account 11), fun _ => none⟩
      (.deploy (.contract 2) (.kycAllowlist (Gating.construct (.account 1))))
      ⟨sampleToken (.account 11), Function.update (fun _ => none) (.contract 2)
        (some (.kycAllowlist (Gating.construct (.account 1))))⟩ :=
    .deploy rfl ⟨.account 1, .inr rfl⟩
  have hfreeze : RegulatedStep plainPackages
      ⟨sampleToken (.account 11), Function.update (fun _ => none) (.contract 2)
        (some (.kycAllowlist (Gating.construct (.account 1))))⟩
      (.deploy (.contract 3) (.freezeSet (Gating.construct (.account 1)))) sampleDeployed :=
    .deploy rfl ⟨.account 1, .inl rfl⟩
  have hadd : RegulatedStep plainPackages sampleDeployed
      (.gating (.contract 2) sampleHost.toEnv (.add (.account 20)) [.KycAdded (.account 20)])
      (sampleRegulated (sampleToken (.account 11))) :=
    .gating (show sampleDeployed.gating (.contract 2)
      = some (.kycAllowlist (Gating.construct (.account 1))) from rfl) rfl
  have hmint : RegulatedStep plainPackages (sampleRegulated (sampleToken (.account 11)))
      (.token (.call sampleGates (.mintSettle (.contract 5) [(.account 10, 7)])
        [.Mint (.account 10) 7]))
      (sampleRegulated (sampleMinted (.account 11) (.account 10))) :=
    .token rfl (.call rfl)
  apply (((System.Run.nil _).snoc hkyc).snoc hfreeze).snoc hadd |>.snoc hmint

/-- The member of the allowlist was added by a call. -/
theorem membership_by_events_sampleLabels :
  (false :: valuesOf (sampleLabels.flatMap RegulatedLabel.changes)
    (.contract 2, .account 20)).getLast? = some true
  := ((membership_by_events ⟨⟨fun _ _ => 0, rfl⟩, fun _ => rfl⟩ sampleLabels_run).1
    (.contract 2) (.account 20)).2

/-- An observer of the events can supervise the token. After the distribution, an account is
debited only when the events do not say that it is frozen, and credited only when they say that it
is not frozen, and allowed. So as long as they say that an account is frozen, its balance stays as
it is. -/
theorem compliance_by_events (laws : pkg.base.Lawful) (hinit : (regulated pkg init).init r₀)
    (hrun : (regulated pkg init).Run r₀ ls r) (hminted : r.token.storage.mintDone.isSome = true)
    (a : Address) :
  (∀ l r', RegulatedStep pkg r l r' →
      (r'.token.holdings.balances a < r.token.holdings.balances a →
        (observe init ls).lists .freeze a = false)
      ∧ (r.token.holdings.balances a < r'.token.holdings.balances a →
        (observe init ls).lists .freeze a = false ∧ (observe init ls).lists .kyc a = true))
    ∧ ∀ ls' r', (regulated pkg init).Run r ls' r' →
      (∀ pre l post, ls' = pre ++ l :: post → (observe init (ls ++ pre)).lists .freeze a = true) →
      r'.token.holdings.balances a = r.token.holdings.balances a
  := by
  refine ⟨fun l r' hstep => hstep.observed laws hinit hrun hminted a, ?_⟩
  intro ls' r' hrun'
  suffices hboth : (∀ pre l post, ls' = pre ++ l :: post →
      (observe init (ls ++ pre)).lists .freeze a = true) →
      r'.token.storage.mintDone.isSome = true
        ∧ r'.token.holdings.balances a = r.token.holdings.balances a from fun h => (hboth h).2
  induction hrun' with
  | nil => exact fun _ => ⟨hminted, rfl⟩
  | @snoc t t' ls' l hrun' hstep ih =>
    intro hfrozen
    obtain ⟨hminted', hbalance⟩ := ih fun pre l' post hls => hfrozen pre l' (post ++ [l]) (by
      rw [hls, List.append_assoc, List.cons_append])
    have hstill := hfrozen ls' l [] rfl
    obtain ⟨hdebit, hcredit⟩ :=
      RegulatedStep.observed laws hinit (hrun.trans hrun') hminted' hstep a
    refine ⟨RegulatedStep.minted laws hstep hminted', ?_⟩
    rw [← hbalance]
    apply le_antisymm
    · by_contra hlt
      rw [(hcredit (lt_of_not_ge hlt)).1] at hstill
      cases hstill
    · by_contra hlt
      rw [hdebit (lt_of_not_ge hlt)] at hstill
      cases hstill

/-- The artist of the small token sends units, to an account that the events say is allowed. -/
theorem compliance_by_events_sampleLabels :
  (observe (sampleInit (.account 11)) sampleLabels).lists .kyc (.account 20) = true
  := by
  have hstep : RegulatedStep plainPackages
      (sampleRegulated (sampleMinted (.account 11) (.account 10)))
      (.token (.call sampleGates (.transfer (.account 10) ⟨.account 20, none⟩ 5)
        [.Transfer (.account 10) (.account 20) none 5]))
      (sampleRegulated { sampleMinted (.account 11) (.account 10) with
        holdings := ⟨Movement.post ⟨some (.account 10), some (.account 20), 5⟩
          (sampleMinted (.account 11) (.account 10)).holdings.balances, 7 + 0, fun _ _ => (0, 0)⟩ }) :=
    .token rfl (.call rfl)
  exact (((compliance_by_events plainBase_lawful ⟨⟨fun _ _ => 0, rfl⟩, fun _ => rfl⟩
    sampleLabels_run rfl (.account 20)).1 _ _ hstep).2 (by decide +kernel)).2

end Runs

end Token
