import Tove.Escrow.Conservation
import Tove.Escrow.Lifecycle
import Tove.Token.Conservation
import Tove.Token.Lockup

/-!
# The initial distribution

An offering escrow together with its fraction token. The escrow is the minter of the token: a
settlement calls `mint_settle` of the token that is bound, in the same transaction. The floors
of the token are meant to hold what the settlement mints as retentions, the leftover of the
artist included; but the escrow never calls `record_absorbed_leftover`, and nobody else is the
minter.

Both contracts keep their own view of the USDC balances, which move in any way between the steps.
-/

namespace Distribution

open Soroban Ledgers Totals Transition

/-- The two contracts. -/
structure World where
  escrow : Escrow.World
  token : Token.World

/-- The token is the one of the offering: it is minted by the escrow, and has the artist, the
treasury and the retentions of the offering. -/
structure Canonical (selfAddr : Address) (init : Token.TokenInit) (params : Escrow.Params) :
    Prop where
  minter : init.minter = selfAddr
  artist : init.artist = params.artist
  treasury : init.treasury = params.treasury
  artistRetention : (init.artistRetention : ℤ) = params.artistRetention
  treasuryRetention : (init.treasuryRetention : ℤ) = params.treasuryRetention

/-- The recipients of the calls of `mint_settle` at an address. -/
def mintsAt (tokenAddr : Address) (effects : List Escrow.Effect) : List (List (Address × ℤ)) :=
  effects.filterMap fun
    | .mintSettle token recipients => if token = tokenAddr then some recipients else none
    | _ => none

/-- The token after a call of `mint_settle` by the escrow. -/
def mintSettle (pkg : Token.Packages) (host : Token.Host) (selfAddr : Address) (token : Token.World)
    (recipients : List (Address × ℤ)) : Token.Outcome Token.World := do
  let (token, _) ← Token.mintSettle pkg host selfAddr recipients token
  return token

/-- A step of the escrow, with the host that the token sees, or a step of the token. -/
inductive Label where
  | escrow (host : Token.Host) (l : Escrow.Label)
  | token (l : Token.Label)

/-- The escrow has not authorised a call of the token. It authorises the calls that it makes,
and no others. -/
def Unauthorised (selfAddr : Address) : Token.Label → Prop
  | .call host _ _ | .failed host _ _ => host.auth selfAddr = false
  | .outside => True

/-- The steps of the two contracts. A call of the escrow succeeds together with the calls of the
token that it makes. -/
inductive Step (pkg : Token.Packages) (selfAddr tokenAddr : Address) :
    World → Label → World → Prop where
  | escrow {host : Token.Host} {l : Escrow.Label} {w : World} {escrow : Escrow.World}
      {token : Token.World} :
    Escrow.Step selfAddr w.escrow l escrow →
      (mintsAt tokenAddr l.effects).foldlM (mintSettle pkg host selfAddr) w.token = .ok token →
        Step pkg selfAddr tokenAddr w (.escrow host l) ⟨escrow, token⟩
  | token {l : Token.Label} {w : World} {token : Token.World} :
    Token.Step pkg w.token l token → Unauthorised selfAddr l →
      Step pkg selfAddr tokenAddr w (.token l) ⟨w.escrow, token⟩

/-- An offering escrow at the address `selfAddr` with its token at the address `tokenAddr`, both
newly deployed. -/
def system (pkg : Token.Packages) (selfAddr tokenAddr : Address) (init : Token.TokenInit) :
    System World Label where
  init w := (Escrow.system selfAddr).init w.escrow ∧ (Token.system pkg init).init w.token
    ∧ Canonical selfAddr init w.escrow.params
  step := Step pkg selfAddr tokenAddr

/-- The time at which a step calls the token. -/
def Label.time : Label → Option ℕ
  | .escrow host _ => some host.timestamp
  | .token l => l.time

/-- What was minted as retentions is locked: the floors of the token are the retentions, with
the leftover of the artist, and the artist keeps its retention and its leftover as long as its
lockup is running. -/
structure Locked (pkg : Token.Packages) (selfAddr tokenAddr : Address) (init : Token.TokenInit)
    (w : World) : Prop where
  artistFloor : w.token.storage.artistFloor
    = w.escrow.params.artistRetention + w.escrow.params.leftoverToArtist
  treasuryFloor : w.token.storage.treasuryFloor = w.escrow.params.treasuryRetention
  kept : ∀ ls w', (system pkg selfAddr tokenAddr init).Run w ls w' →
    (∀ l ∈ ls, ∀ time ∈ l.time, time < init.artistLockupUntil) →
    w.escrow.params.artistRetention + w.escrow.params.leftoverToArtist
      ≤ w'.token.holdings.balances w.escrow.params.artist

variable {pkg : Token.Packages} {selfAddr tokenAddr : Address} {init : Token.TokenInit}
  {host : Token.Host} {w w' : World} {l : Label}

/-! ### The calls of the token that a settlement makes -/

theorem mintsAt_eq_nil {effects : List Escrow.Effect} (h : Escrow.mints effects = []) :
  mintsAt tokenAddr effects = []
  := by
  rw [Escrow.mints, List.filterMap_eq_nil_iff] at h
  rw [mintsAt, List.filterMap_eq_nil_iff]
  intro e he
  cases e with
  | mintSettle token recipients => cases h _ he
  | usdcTransfer | event => rfl

/-- A settlement calls the token once, with the winners and the retentions. -/
theorem mintsAt_of_settlement {env : Env} {clearingPrice : ℤ} {allocations : List (ℕ × ℤ)}
    {escrow escrow' : Escrow.World} {effects : List Escrow.Effect}
    (hs : Escrow.Settlement selfAddr env clearingPrice allocations tokenAddr escrow escrow'
      effects) :
  mintsAt tokenAddr effects = [Escrow.winners escrow.bids allocations
    ++ Escrow.retentions escrow.params
      (escrow.params.artistRetention + escrow.params.leftoverToArtist)]
  := by
  have hmints := hs.mints_eq
  rw [hs.effects_eq] at hmints ⊢
  simp only [List.cons_append, Escrow.mints_mintSettle_cons, List.cons.injEq, true_and] at hmints
  simp only [List.cons_append]
  rw [mintsAt, List.filterMap_cons]
  simp only [if_pos]
  rw [← mintsAt, mintsAt_eq_nil hmints]

/-- A label of a successful call of `record_absorbed_leftover`. -/
def Absorbs : Token.Label → Prop
  | .call _ c _ => c.Absorbs
  | .failed _ _ _ | .outside => False

/-- The calls of `mint_settle` by the escrow are a run of the token. -/
theorem run_of_mintSettle {recipients : List (List (Address × ℤ))} {token token' : Token.World}
    (h : recipients.foldlM (mintSettle pkg host selfAddr) token = .ok token') :
  ∃ ls, ((Token.system pkg init).restrict fun _ l _ => ¬ Absorbs l).Run token ls token'
    ∧ ∀ l ∈ ls, l.time = some host.timestamp
  := by
  apply Checks.foldlM_invariant (motive := fun _ t =>
    ∃ ls, ((Token.system pkg init).restrict fun _ l _ => ¬ Absorbs l).Run token ls t
      ∧ ∀ l ∈ ls, l.time = some host.timestamp) ?_ ?_ h
  · exact ⟨[], .nil token, fun _ hl => nomatch hl⟩
  rintro _ r t t' _ ⟨ls, hrun, htime⟩ hround
  simp only [mintSettle, Checks.bind_eq_ok, Checks.pure_eq_ok, Prod.exists] at hround
  obtain ⟨t', events, hmint, rfl⟩ := hround
  have hstep : Token.Step pkg t (.call host (.mintSettle selfAddr r) events) t' := .call hmint
  refine ⟨_, hrun.snoc ⟨hstep, id⟩, ?_⟩
  intro l hl
  rcases List.mem_append.mp hl with hl | hl
  · exact htime l hl
  · rw [List.mem_singleton.mp hl]
    rfl

section Runs

variable (laws : pkg.base.Lawful)

include laws

/-- What the token sees of a step: a run in which nothing is absorbed. -/
theorem Step.tokenRun (h : Step pkg selfAddr tokenAddr w l w')
    (hw : Token.Configured init w.token.storage) (hminter : init.minter = selfAddr) :
  ∃ ls, ((Token.system pkg init).restrict fun _ l _ => ¬ Absorbs l).Run w.token ls w'.token
    ∧ ∀ l' ∈ ls, l'.time = l.time
  := by
  cases h with
  | escrow _ hmints => apply run_of_mintSettle hmints
  | @token l _ _ hstep hunauthorised =>
    refine ⟨[l], .single ⟨hstep, ?_⟩, fun l' hl' => by rw [List.mem_singleton.mp hl']; rfl⟩
    intro habsorbs
    cases hstep with
    | @call host c _ _ _ hok =>
      cases c with
      | recordAbsorbedLeftover operator amount =>
        cases Token.change_of_perform laws hok with
        | record hmay =>
          have hoperator : operator = selfAddr :=
            (Option.some.inj (hmay.minter.symm.trans hw.minter)).trans hminter
          have hauth := hmay.auth
          rw [hoperator, hunauthorised] at hauth
          cases hauth
        | move hc => cases hc
        | configure hc => cases hc
      | _ => cases habsorbs
    | failed => cases habsorbs
    | outside => cases habsorbs

/-- A token that is configured, and whose artist has absorbed nothing. As long as nothing is
minted, nobody has anything. -/
structure Unabsorbed (init : Token.TokenInit) (token : Token.World) : Prop where
  configured : Token.Configured init token.storage
  leftover : token.storage.artistAbsorbedLeftover = none
  unminted : token.storage.mintDone = none → ∀ a, token.holdings.balances a = 0

theorem Unabsorbed.step {token token' : Token.World} {l : Token.Label} (h : Unabsorbed init token)
    (hstep : Token.Step pkg token l token') (hl : ¬ Absorbs l) :
  Unabsorbed init token'
  := by
  constructor
  · apply Token.Step.configured laws hstep h.configured
  · cases hstep with
    | call hok => rw [(Token.change_of_perform laws hok).unabsorbed hl, h.leftover]
    | failed => apply h.leftover
    | outside => apply h.leftover
  · intro hnone
    rcases hstep.issues_or_burns laws with ⟨_, hdone, _⟩ | hburns
    · rw [hnone] at hdone
      cases hdone
    · apply (hburns.of_zero (h.unminted (hburns.mintDone.symm.trans hnone))).2

theorem Unabsorbed.run {token token' : Token.World} {ls : List Token.Label}
    (h : Unabsorbed init token)
    (hrun : ((Token.system pkg init).restrict fun _ l _ => ¬ Absorbs l).Run token ls token') :
  Unabsorbed init token'
  := hrun.preserves (fun _ _ _ ht hstep => ht.step laws hstep.1 hstep.2) h

/-- The token is the one of the offering, and has absorbed nothing. -/
structure Linked (selfAddr : Address) (init : Token.TokenInit) (w : World) : Prop where
  canonical : Canonical selfAddr init w.escrow.params
  token : Unabsorbed init w.token

omit laws in
/-- The token of the offering does not depend on the binding. -/
theorem Canonical.of_unbound {p p' : Escrow.Params} (h : Canonical selfAddr init p)
    (heq : p'.unbound = p.unbound) :
  Canonical selfAddr init p'
  := by
  have hartist : p'.unbound.artist = p.unbound.artist := by rw [heq]
  have htreasury : p'.unbound.treasury = p.unbound.treasury := by rw [heq]
  have hretention : p'.unbound.artistRetention = p.unbound.artistRetention := by rw [heq]
  have hretention' : p'.unbound.treasuryRetention = p.unbound.treasuryRetention := by rw [heq]
  exact ⟨h.minter, h.artist.trans hartist.symm, h.treasury.trans htreasury.symm,
    h.artistRetention.trans hretention.symm, h.treasuryRetention.trans hretention'.symm⟩

theorem Linked.step (h : Linked selfAddr init w) (hstep : Step pkg selfAddr tokenAddr w l w') :
  Linked selfAddr init w'
  := by
  obtain ⟨ls, hrun, _⟩ := hstep.tokenRun laws h.token.configured h.canonical.minter
  constructor
  · cases hstep with
    | escrow hescrow _ => apply h.canonical.of_unbound hescrow.unbound
    | token => apply h.canonical
  · apply h.token.run laws hrun

omit laws in
/-- The floor of the artist is its retention, without the leftover of the offering. -/
theorem Linked.artistFloor (h : Linked selfAddr init w) :
  w.token.storage.artistFloor = w.escrow.params.artistRetention
  := by
  rw [Token.Storage.artistFloor, h.token.leftover, h.token.configured.artistRetention,
    ← h.canonical.artistRetention]
  exact add_zero _

omit laws in
theorem Linked.treasuryFloor (h : Linked selfAddr init w) :
  w.token.storage.treasuryFloor = w.escrow.params.treasuryRetention
  := by rw [h.token.configured.treasuryFloor, h.canonical.treasuryRetention]

theorem linked_of_reachable (h : (system pkg selfAddr tokenAddr init).Reachable w) :
  Linked selfAddr init w
  := by
  apply h.invariant (I := Linked selfAddr init)
  · rintro w ⟨_, hinit, hcanonical⟩
    use hcanonical, Token.configured_of_reachable laws (.init hinit)
    · obtain ⟨_, heq⟩ := hinit
      rw [← heq]
      rfl
    · obtain ⟨_, heq⟩ := hinit
      rw [← heq]
      exact fun _ _ => rfl
  · intro w l w' hw hstep
    apply hw.step laws hstep

/-- What the token sees of a run. -/
theorem tokenRun_of_run {ls : List Label} (hw : Linked selfAddr init w)
    (hrun : (system pkg selfAddr tokenAddr init).Run w ls w') :
  ∃ ls', (Token.system pkg init).Run w.token ls' w'.token
    ∧ ∀ l' ∈ ls', ∃ l ∈ ls, l'.time = l.time
  := by
  have h : Linked selfAddr init w' ∧ ∃ ls', (Token.system pkg init).Run w.token ls' w'.token
      ∧ ∀ l' ∈ ls', ∃ l ∈ ls, l'.time = l.time := by
    induction hrun with
    | nil => exact ⟨hw, [], .nil _, fun _ hl => nomatch hl⟩
    | @snoc w w' ls l _ hstep ih =>
      obtain ⟨hw', ls', hrun', htime⟩ := ih
      obtain ⟨ls'', hrun'', htime'⟩ :=
        Step.tokenRun laws hstep hw'.token.configured hw'.canonical.minter
      refine ⟨hw'.step laws hstep, ls' ++ ls'', hrun'.trans (hrun''.of_restrict _), ?_⟩
      intro l' hl'
      rcases List.mem_append.mp hl' with hl' | hl'
      · obtain ⟨l₀, hl₀, heq⟩ := htime l' hl'
        exact ⟨l₀, List.mem_append_left _ hl₀, heq⟩
      · exact ⟨l, List.mem_append_right _ (List.mem_singleton.mpr rfl), htime' l' hl'⟩
  exact h.2

/-! ### A settlement -/

/-- A settlement that mints at the token mints the winners and the retentions there. -/
theorem issued_of_settlement {env : Env} {clearingPrice : ℤ} {allocations : List (ℕ × ℤ)}
    {effects : List Escrow.Effect} (hbound : w.escrow.params.fractionToken = some tokenAddr)
    (hstep : Step pkg selfAddr tokenAddr w
      (.escrow host (.call env (.closeAndSettle clearingPrice allocations) effects)) w') :
  Escrow.Settlement selfAddr env clearingPrice allocations tokenAddr w.escrow w'.escrow effects
    ∧ Token.MayMint host selfAddr w.token.storage
    ∧ w'.token.storage.mintDone.isSome = true
    ∧ ∃ events, Token.Issued w.token.holdings
      (Escrow.winners w.escrow.bids allocations ++ Escrow.retentions w.escrow.params
        (w.escrow.params.artistRetention + w.escrow.params.leftoverToArtist))
      w'.token.holdings events
  := by
  cases hstep with
  | escrow hescrow hmints =>
    cases hescrow with
    | call _ hcall =>
      obtain ⟨token, hs⟩ := Escrow.settlement_of_eq_ok hcall
      obtain rfl : token = tokenAddr := Option.some.inj (hs.token_eq.symm.trans hbound)
      simp only [Escrow.Label.effects, mintsAt_of_settlement hs, List.foldlM_cons,
        List.foldlM_nil, mintSettle, Checks.bind_eq_ok, Checks.pure_eq_ok, Prod.exists] at hmints
      obtain ⟨_, ⟨token', events, hmint, rfl⟩, rfl⟩ := hmints
      obtain ⟨hmay, _, hissued, hworld⟩ := Token.mintSettle_of_ok laws hmint
      refine ⟨hs, hmay, ?_, events, hissued⟩
      rw [hworld]
      rfl

omit laws in
/-- The artist has what is minted to it as its retention. -/
theorem le_balance_of_issued {token token' : Token.World} {recipients : List (Address × ℤ)}
    {params : Escrow.Params} {amount : ℤ} {events : List Token.Event}
    (hzero : ∀ a, token.holdings.balances a = 0)
    (hissued : Token.Issued token.holdings (recipients ++ Escrow.retentions params amount)
      token'.holdings events) :
  amount ≤ token'.holdings.balances params.artist
  := by
  obtain ⟨hmono, hcredits⟩ := hissued.le_balances
  by_cases hpos : 0 < amount
  · have hmem : (params.artist, amount) ∈ recipients ++ Escrow.retentions params amount := by
      simp [Escrow.retentions, hpos]
    have hcredit := hcredits _ hmem
    rwa [hzero, zero_add] at hcredit
  · have hnonneg := hmono params.artist
    rw [hzero] at hnonneg
    omega

/-- After every settlement, what it mints as retentions is locked in the token if and only if
the artist absorbs no leftover. -/
theorem locked_iff {env : Env} {clearingPrice : ℤ} {allocations : List (ℕ × ℤ)}
    {effects : List Escrow.Effect} (h : (system pkg selfAddr tokenAddr init).Reachable w)
    (hbound : w.escrow.params.fractionToken = some tokenAddr)
    (hstep : Step pkg selfAddr tokenAddr w
      (.escrow host (.call env (.closeAndSettle clearingPrice allocations) effects)) w') :
  mintsAt tokenAddr effects = [Escrow.winners w.escrow.bids allocations
      ++ Escrow.retentions w.escrow.params
        (w.escrow.params.artistRetention + w.escrow.params.leftoverToArtist)]
    ∧ (Locked pkg selfAddr tokenAddr init w' ↔ w.escrow.params.leftoverToArtist = 0)
  := by
  have hw := linked_of_reachable laws h
  have hw' := hw.step laws hstep
  obtain ⟨hs, hmay, hminted, events, hissued⟩ := issued_of_settlement laws hbound hstep
  have hparams : w'.escrow.params = w.escrow.params := by rw [hs.world_eq]
  refine ⟨mintsAt_of_settlement hs, ?_, ?_⟩
  · intro hlocked
    have hfloor := hlocked.artistFloor
    rw [hw'.artistFloor, hparams] at hfloor
    omega
  · intro hleftover
    have hsum : w'.escrow.params.artistRetention + w'.escrow.params.leftoverToArtist
        = w'.token.storage.artistFloor := by
      rw [hw'.artistFloor, hparams, hleftover, add_zero]
    have hbalance : w'.token.storage.artistFloor
        ≤ w'.token.holdings.balances w'.escrow.params.artist := by
      rw [← hsum, hparams]
      apply le_balance_of_issued (hw.token.unminted hmay.notMinted) hissued
    refine ⟨hsum.symm, hw'.treasuryFloor, ?_⟩
    intro ls w'' hrun htime
    obtain ⟨ls', hrun', htime'⟩ := tokenRun_of_run laws hw' hrun
    have hkept := Token.Run.keeps_artistFloor laws hrun' hw'.token.configured hminted (by
      intro l' hl' time ht
      obtain ⟨l, hl, heq⟩ := htime' l' hl'
      exact htime l hl time (heq ▸ ht))
    rw [hsum, ← hw'.canonical.artist]
    rw [← hw'.canonical.artist] at hbalance
    exact hkept.2 (.inl hbalance)

end Runs

/-! ### A small distribution -/

/-- The token of a small offering: the artist is locked with two units and the treasury with one. -/
def sampleInit : Token.TokenInit :=
  { Token.sampleInit (.account 11) with
    treasuryRetention := ⟨1, by decide⟩
    minter := Escrow.sampleEscrow }

/-- The address of the token. -/
def sampleTokenAddr : Address := .contract 2

/-- A small offering of four fractions, with its token, newly deployed. -/
def sampleWorld (leftover : ℤ) : World where
  escrow := { Escrow.sampleWorld with
    params := ⟨none, .contract 1, 7 + leftover, .account 10, 2, .account 11, 1, leftover,
      .account 12,
      .account 13⟩ }
  token := Token.construct sampleInit fun _ _ => 0

/-- The small offering with its token bound and with a bid for all of its fractions, closed. -/
def sampleClosed (leftover : ℤ) : World :=
  let bid := (sampleWorld leftover).escrow.withBid Escrow.sampleEscrow (.account 20) 5 4 1
  { sampleWorld leftover with
    escrow := { bid with
      params := { bid.params with fractionToken := some sampleTokenAddr }
      status := .Closed } }

/-- The small offering after its settlement. -/
def sampleSettled (leftover : ℤ) : World where
  escrow := { (sampleClosed leftover).escrow with
    status := .Settled
    escrowTotal := 0
    bids := Function.update (sampleClosed leftover).escrow.bids 1
      (some ⟨.account 20, 5, 4, 20, false⟩)
    balances := (sampleClosed leftover).escrow.balances.move Escrow.sampleEscrow (.account 12) 20 }
  token := { (sampleWorld leftover).token with
    storage := { (sampleWorld leftover).token.storage with mintDone := some true }
    holdings := ⟨[(.account 20, 4), (.account 10, 2 + leftover), (.account 11, 1)].foldl
        (fun b r => (Token.issue r).post b) fun _ => 0,
      7 + leftover, fun _ _ => (0, 0)⟩ }

/-- The effects of the settlement. -/
def sampleEffects (leftover : ℤ) : List Escrow.Effect :=
  [.mintSettle sampleTokenAddr [(.account 20, 4), (.account 10, 2 + leftover), (.account 11, 1)],
    .usdcTransfer .artistNet Escrow.sampleEscrow (.account 12) 20,
    .event (.OfferingSettled 5 20 0 20)]

/-- The offering, with a leftover or without, is closed. -/
theorem sampleClosed_reachable {leftover : ℤ} (h : leftover = 0 ∨ leftover = 3) :
  (system Token.plainPackages Escrow.sampleEscrow sampleTokenAddr sampleInit).Reachable
    (sampleClosed leftover)
  := by
  have hstep : ∀ {c : Escrow.Call} {effects : List Escrow.Effect} {e e' : Escrow.World},
      c.FromOutside Escrow.sampleEscrow →
      Escrow.perform Escrow.sampleEscrow Escrow.sampleEnv c e = .ok (e', effects) →
      mintsAt sampleTokenAddr effects = [] →
      Step Token.plainPackages Escrow.sampleEscrow sampleTokenAddr
        ⟨e, (sampleWorld leftover).token⟩
        (.escrow Token.sampleHost (.call Escrow.sampleEnv c effects))
        ⟨e', (sampleWorld leftover).token⟩ := by
    intro c effects e e' houtside hcall hmints
    apply Step.escrow (.call houtside hcall)
    rw [Escrow.Label.effects, hmints]
    rfl
  have hdeployed : (system Token.plainPackages Escrow.sampleEscrow sampleTokenAddr
      sampleInit).Reachable (sampleWorld leftover) := by
    apply System.Reachable.init
    refine ⟨?_, ⟨fun _ _ => 0, rfl⟩, rfl, rfl, rfl, rfl, rfl⟩
    rcases h with rfl | rfl
    · exact ⟨{ Escrow.sampleArgs with
        totalSupply := 7, leftoverToArtist := 0, totalSupply_le := by decide }, fun _ => 1000,
        by decide, rfl⟩
    · exact ⟨{ Escrow.sampleArgs with
        totalSupply := 10, leftoverToArtist := 3, totalSupply_le := by decide }, fun _ => 1000,
        by decide, rfl⟩
  have hbid := hdeployed.step (hstep (c := .submitBid (.account 20) 5 4 1)
    (show Address.account 20 ≠ Escrow.sampleEscrow by decide) rfl rfl)
  have hbound := hbid.step (hstep (c := .bindToken sampleTokenAddr) trivial rfl rfl)
  exact hbound.step (hstep (c := .closeOffering) trivial rfl rfl)

theorem sampleSettled_step {leftover : ℤ} (h : leftover = 0 ∨ leftover = 3) :
  Step Token.plainPackages Escrow.sampleEscrow sampleTokenAddr (sampleClosed leftover)
    (.escrow Token.sampleHost
      (.call Escrow.sampleEnv (.closeAndSettle 5 [(1, 4)]) (sampleEffects leftover)))
    (sampleSettled leftover)
  := by
  rcases h with rfl | rfl
  · exact .escrow (.call trivial rfl) rfl
  · exact .escrow (.call trivial rfl) rfl

/-- Without a leftover, the retentions of the small offering are locked. -/
theorem locked_iff_sampleSettled :
  Locked Token.plainPackages Escrow.sampleEscrow sampleTokenAddr sampleInit (sampleSettled 0)
  := (locked_iff Token.plainBase_lawful (sampleClosed_reachable (.inl rfl)) rfl
    (sampleSettled_step (.inl rfl))).2.mpr rfl

/-- What a settlement mints as retentions need not be locked: the leftover of three units is not. -/
theorem not_forall_locked :
  ¬ ∀ (pkg : Token.Packages) (selfAddr tokenAddr : Address) (init : Token.TokenInit)
      (host : Token.Host) (env : Env) (clearingPrice : ℤ) (allocations : List (ℕ × ℤ))
      (effects : List Escrow.Effect) (w w' : World), pkg.base.Lawful →
      (system pkg selfAddr tokenAddr init).Reachable w →
      w.escrow.params.fractionToken = some tokenAddr →
      Step pkg selfAddr tokenAddr w
        (.escrow host (.call env (.closeAndSettle clearingPrice allocations) effects)) w' →
      Locked pkg selfAddr tokenAddr init w'
  := by
  intro hall
  have hlocked := hall _ _ _ _ _ _ _ _ _ _ _ Token.plainBase_lawful
    (sampleClosed_reachable (.inr rfl)) rfl (sampleSettled_step (.inr rfl))
  have hfloor := hlocked.artistFloor
  revert hfloor
  decide

end Distribution
