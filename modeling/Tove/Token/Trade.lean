import Tove.Relayer.AcceptInvocation
import Tove.Token.Conservation

/-!
# Secondary trades

`settle_trade` moves the units of a trade and splits its price.  It takes effect exactly when
every guard and every leg of it passes, and then every balance changes by what the trade says,
whichever of the four accounts coincide.
-/

namespace Token

open Soroban Ledgers

/-! ### The attempts of calls -/

/-- The call that a step attempts. -/
def Label.attempt : Label → Option (Host × Call)
  | .call host c _ | .failed host c _ => some (host, c)
  | .outside => none

/-- The step is a call that succeeds. -/
def Label.Succeeds : Label → Prop
  | .call .. => True
  | .failed .. | .outside => False

/-! ### What a trade is -/

/-- What an account receives of the legs of a trade. -/
def received (s : Storage) (seller : Address) (split : Relayer.UsdcSplit) (a : Address) : ℤ :=
  (if s.treasury = some a then split.platformCut else 0)
    + (if s.artistPayout = some a then split.artistCut else 0)
    + if seller = a then split.sellerNet else 0

/-- The guards and the legs of a trade pass: the settler has authorised it, its parameters are
valid, the movement of the units passes the guard, the seller has the units, the split can be
computed, and what the buyer pays to others is covered. -/
structure TradePasses (pkg : Packages) (host : Host) (buyer seller : Address) (count gross : ℤ)
    (w : World) : Prop where
  settler : ∃ settler ∈ w.storage.marketplaceSettler, host.auth settler = true
  count_pos : 0 < count
  gross_nonneg : 0 ≤ gross
  ne : buyer ≠ seller
  guard : guardMovement host (some seller) (some buyer) count w = .ok ()
  units : ∃ holdings, pkg.base.update (some seller) (some buyer) count w.holdings = .ok holdings
  inRange : InI128 (gross * 150)
  legs : 0 < gross → ∃ usdc ∈ w.storage.usdc,
    (w.storage.treasury.isSome = true ∧ w.storage.artistPayout.isSome = true)
      ∧ host.usdcAccepts = true
      ∧ gross ≤ w.usdc usdc buyer
          + received w.storage seller (Relayer.computeUsdcSplit gross) buyer

/-- The effect of a trade: the units go from the seller to the buyer, the price goes from the buyer
to the three recipients, and nothing else changes. -/
structure Traded (buyer seller : Address) (count gross : ℤ) (w w' : World) (events : List Event) :
    Prop where
  units : ∀ a, w'.holdings.balances a = w.holdings.balances a
    + (if buyer = a then count else 0) - if seller = a then count else 0
  covered : count ≤ w.holdings.balances seller
  totalSupply : w'.holdings.totalSupply = w.holdings.totalSupply
  storage : w'.storage = w.storage
  usdc : ∀ token a, w'.usdc token a = w.usdc token a + if w.storage.usdc = some token then
    received w.storage seller (Relayer.computeUsdcSplit gross) a - (if buyer = a then gross else 0)
    else 0
  sum : ∀ token, FiniteLedger (w.usdc token) → FiniteLedger (w'.usdc token)
    ∧ sumOfBalances (w'.usdc token) = sumOfBalances (w.usdc token)
  events : events = [.Transfer seller buyer none count,
    .TradeSettled buyer seller count gross (gross * 150 / 10000) (gross * 150 / 10000)
      (gross - gross * 150 / 10000 - gross * 150 / 10000)]

/-- The split of a price: the fee and the royalty are 1.5 percent, rounded down, the rest is the
seller's, and no part is negative. -/
structure SplitExact (gross : ℤ) (split : Relayer.UsdcSplit) : Prop where
  platformCut : split.platformCut = gross * 150 / 10000
  artistCut : split.artistCut = gross * 150 / 10000
  nonneg : 0 ≤ split.platformCut ∧ 0 ≤ split.artistCut ∧ 0 ≤ split.sellerNet
  sum : split.platformCut + split.artistCut + split.sellerNet = gross

theorem splitExact_of_nonneg {gross : ℤ} (h : 0 ≤ gross) :
  SplitExact gross (Relayer.computeUsdcSplit gross)
  := by
  rw [Relayer.computeUsdcSplit_of_nonneg h]
  constructor
  · rfl
  · rfl
  · dsimp only
    omega
  · dsimp only
    omega

/-! ### The legs -/

section Legs

variable {host : Host} {b b' : Ledger Address} {source target : Address} {amount : ℤ}

theorem usdcLeg_eq_ok (h : 0 ≤ amount) :
  usdcLeg host source target amount b = .ok b'
    ↔ (0 < amount → host.usdcAccepts = true ∧ amount ≤ b source)
      ∧ b.move source target amount = b'
  := by
  unfold usdcLeg
  rcases h.eq_or_lt with rfl | hpos
  · rw [if_neg (lt_irrefl 0), Checks.pure_eq_ok]
    simp [Ledger.move]
  · rw [if_pos hpos, usdcTransfer_eq_ok]
    simp [hpos, hpos.le]

/-- What the balance of an account is after a leg. -/
theorem move_apply (b : Ledger Address) (source target : Address) (amount : ℤ) (a : Address) :
  b.move source target amount a
    = b a + ((if target = a then amount else 0) - if source = a then amount else 0)
  := by
  rw [← Movement.post_of_transfer]
  simp [Movement.post, Movement.delta]

/-- A leg leaves the sum of the balances as it is. -/
theorem sumOfBalances_move (h : FiniteLedger b) (source target : Address) (amount : ℤ) :
  FiniteLedger (b.move source target amount)
    ∧ sumOfBalances (b.move source target amount) = sumOfBalances b
  := by
  rw [← Movement.post_of_transfer]
  have := sumOfBalances_post h ⟨some source, some target, amount⟩
  rwa [Movement.issued_of_transfer, add_zero] at this

end Legs

/-- The balances after the three legs of a trade. -/
def payLegs (b : Ledger Address) (buyer seller treasury artistPayout : Address)
    (split : Relayer.UsdcSplit) : Ledger Address :=
  ((b.move buyer treasury split.platformCut).move buyer artistPayout split.artistCut).move
    buyer seller split.sellerNet

section Trade

variable {pkg : Packages} {host : Host} {buyer seller : Address} {count gross : ℤ} {w w' : World}
  {events : List Event}

/-- The legs pass exactly when the buyer covers what goes to others. -/
theorem payTrade_eq_ok (hgross : 0 < gross) (hne : buyer ≠ seller)
    {usdc : Address → Ledger Address} :
  payTrade host buyer seller gross (gross * 150 / 10000) (gross * 150 / 10000)
      (gross - gross * 150 / 10000 - gross * 150 / 10000) w = .ok usdc
    ↔ ∃ token ∈ w.storage.usdc, ∃ treasury ∈ w.storage.treasury,
        ∃ artistPayout ∈ w.storage.artistPayout, host.usdcAccepts = true
        ∧ gross ≤ w.usdc token buyer
            + received w.storage seller (Relayer.computeUsdcSplit gross) buyer
        ∧ Function.update w.usdc token (payLegs (w.usdc token) buyer seller treasury artistPayout
            (Relayer.computeUsdcSplit gross)) = usdc
  := by
  have hsplit := splitExact_of_nonneg hgross.le
  have hnet : 0 < gross - gross * 150 / 10000 - gross * 150 / 10000 := by omega
  have hfee : 0 ≤ gross * 150 / 10000 := by omega
  rw [payTrade, if_pos hgross]
  simp only [Checks.bind_eq_ok, Checks.pure_eq_ok, unwrap_eq_ok, usdcLeg_eq_ok hfee,
    usdcLeg_eq_ok hnet.le, hnet, forall_const, Option.mem_def]
  constructor
  · rintro ⟨token, htoken, treasury, htreasury, artistPayout, hpayout, b₁, ⟨_, rfl⟩, b₂,
      ⟨_, rfl⟩, b₃,
      ⟨⟨haccepts, hcover⟩, rfl⟩, rfl⟩
    refine ⟨token, htoken, treasury, htreasury, artistPayout, hpayout, haccepts, ?_, ?_⟩
    · simp only [move_apply, received, htreasury, hpayout, Relayer.computeUsdcSplit_of_nonneg hgross.le,
        Option.some.injEq, if_neg hne.symm, if_true] at hcover ⊢
      omega
    · rw [payLegs, Relayer.computeUsdcSplit_of_nonneg hgross.le]
  · rintro ⟨token, htoken, treasury, htreasury, artistPayout, hpayout, haccepts, hcover, rfl⟩
    simp only [received, htreasury, hpayout, Relayer.computeUsdcSplit_of_nonneg hgross.le,
      Option.some.injEq, if_neg hne.symm, add_zero] at hcover
    have hback : ∀ target, (if target = buyer then gross * 150 / 10000 else 0) = 0
        ∨ (if target = buyer then gross * 150 / 10000 else 0) = gross * 150 / 10000 := by
      intro target
      split_ifs <;> simp
    have htreasury' := hback treasury
    have hpayout' := hback artistPayout
    refine ⟨token, htoken, treasury, htreasury, artistPayout, hpayout, _,
      ⟨fun _ => ⟨haccepts, ?_⟩, rfl⟩, _, ⟨fun _ => ⟨haccepts, ?_⟩, rfl⟩, _,
      ⟨⟨haccepts, ?_⟩, rfl⟩, ?_⟩
    · omega
    · simp only [move_apply, if_true]
      omega
    · simp only [move_apply, if_true]
      omega
    · rw [payLegs, Relayer.computeUsdcSplit_of_nonneg hgross.le]

theorem settleTrade_eq_ok :
  settleTrade pkg host buyer seller count gross w = .ok (w', events)
    ↔ (∃ settler ∈ w.storage.marketplaceSettler, host.auth settler = true)
      ∧ (0 < count ∧ 0 ≤ gross ∧ buyer ≠ seller)
      ∧ guardMovement host (some seller) (some buyer) count w = .ok ()
      ∧ ∃ holdings, pkg.base.update (some seller) (some buyer) count w.holdings = .ok holdings
        ∧ InI128 (gross * 150)
        ∧ ∃ usdc, payTrade host buyer seller gross (gross * 150 / 10000) (gross * 150 / 10000)
            (gross - gross * 150 / 10000 - gross * 150 / 10000) w = .ok usdc
          ∧ { w with holdings, usdc } = w'
          ∧ [.Transfer seller buyer none count, .TradeSettled buyer seller count gross
              (gross * 150 / 10000) (gross * 150 / 10000)
              (gross - gross * 150 / 10000 - gross * 150 / 10000)] = events
  := by
  simp only [settleTrade, errorIf, Checks.bind_eq_ok, Checks.rejectIf_eq_ok, Checks.pure_eq_ok,
    unwrap_eq_ok, requireAuth_eq_ok, i128_eq_ok, exists_const, not_or, not_le, not_lt,
    Prod.mk.injEq, PLATFORM_FEE_BPS, ROYALTY_BPS, Option.mem_def]
  constructor
  · rintro ⟨settler, hsettler, hauth, hvalid, _, hguard, holdings, hupdate, _, ⟨hrange, rfl⟩, _,
      ⟨_, rfl⟩, usdc, hpay, hw, hevents⟩
    exact ⟨⟨settler, hsettler, hauth⟩, hvalid, hguard, holdings, hupdate, hrange, usdc, hpay, hw,
      hevents⟩
  · rintro ⟨⟨settler, hsettler, hauth⟩, hvalid, hguard, holdings, hupdate, hrange, usdc, hpay, hw,
      hevents⟩
    exact ⟨settler, hsettler, hauth, hvalid, (), hguard, holdings, hupdate, _, ⟨hrange, rfl⟩, _,
      ⟨hrange, rfl⟩, usdc, hpay, hw, hevents⟩

/-- A trade goes through exactly when all its guards and legs pass. -/
theorem settleTrade_succeeds_iff :
  (∃ settled, settleTrade pkg host buyer seller count gross w = .ok settled)
    ↔ TradePasses pkg host buyer seller count gross w
  := by
  simp only [Prod.exists, settleTrade_eq_ok]
  constructor
  · rintro ⟨_, _, hsettler, ⟨hcount, hgross, hne⟩, hguard, holdings, hupdate, hrange, usdc, hpay, _⟩
    refine ⟨hsettler, hcount, hgross, hne, hguard, ⟨holdings, hupdate⟩, hrange, ?_⟩
    intro hpos
    obtain ⟨token, htoken, treasury, htreasury, artistPayout, hpayout, haccepts, hcover, _⟩ :=
      (payTrade_eq_ok hpos hne).mp hpay
    rw [Option.mem_def] at htreasury hpayout
    refine ⟨token, htoken, ?_, haccepts, hcover⟩
    rw [htreasury, hpayout]
    exact ⟨rfl, rfl⟩
  · rintro ⟨hsettler, hcount, hgross, hne, hguard, ⟨holdings, hupdate⟩, hrange, hlegs⟩
    obtain ⟨usdc, hpay⟩ : ∃ usdc, payTrade host buyer seller gross (gross * 150 / 10000)
        (gross * 150 / 10000) (gross - gross * 150 / 10000 - gross * 150 / 10000) w = .ok usdc := by
      rcases hgross.eq_or_lt with rfl | hpos
      · exact ⟨w.usdc, rfl⟩
      · obtain ⟨token, htoken, ⟨htreasury, hpayout⟩, haccepts, hcover⟩ := hlegs hpos
        obtain ⟨treasury, htreasury⟩ := Option.isSome_iff_exists.mp htreasury
        obtain ⟨artistPayout, hpayout⟩ := Option.isSome_iff_exists.mp hpayout
        exact ⟨_, (payTrade_eq_ok hpos hne).mpr ⟨token, htoken, treasury, htreasury, artistPayout,
          hpayout, haccepts, hcover, rfl⟩⟩
    exact ⟨_, _, hsettler, ⟨hcount, hgross, hne⟩, hguard, holdings, hupdate, hrange,
      usdc, hpay, rfl,
      rfl⟩

/-- The balances after the legs of a trade. -/
theorem payLegs_apply {gross : ℤ} (hgross : 0 ≤ gross) {s : Storage}
    {treasury artistPayout : Address}
    (htreasury : s.treasury = some treasury) (hpayout : s.artistPayout = some artistPayout)
    (b : Ledger Address) (a : Address) :
  payLegs b buyer seller treasury artistPayout (Relayer.computeUsdcSplit gross) a
    = b a + (received s seller (Relayer.computeUsdcSplit gross) a - if buyer = a then gross else 0)
  := by
  have hsum := (splitExact_of_nonneg hgross).sum
  simp only [payLegs, move_apply, received, htreasury, hpayout, Option.some.injEq]
  by_cases hbuyer : buyer = a
  · simp only [hbuyer, if_true]
    omega
  · simp only [hbuyer, if_false]
    omega

/-- The legs of a trade leave the sum of the balances as it is. -/
theorem sumOfBalances_payLegs {b : Ledger Address} (h : FiniteLedger b)
    (treasury artistPayout : Address) (split : Relayer.UsdcSplit) :
  FiniteLedger (payLegs b buyer seller treasury artistPayout split)
    ∧ sumOfBalances (payLegs b buyer seller treasury artistPayout split) = sumOfBalances b
  := by
  obtain ⟨h₁, hsum₁⟩ := sumOfBalances_move h buyer treasury split.platformCut
  obtain ⟨h₂, hsum₂⟩ := sumOfBalances_move h₁ buyer artistPayout split.artistCut
  obtain ⟨h₃, hsum₃⟩ := sumOfBalances_move h₂ buyer seller split.sellerNet
  exact ⟨h₃, hsum₃.trans (hsum₂.trans hsum₁)⟩

/-- What a trade that goes through does. -/
theorem traded_of_settleTrade (laws : pkg.base.Lawful)
    (h : settleTrade pkg host buyer seller count gross w = .ok (w', events)) :
  Traded buyer seller count gross w w' events
  := by
  obtain ⟨_, ⟨hcount, hgross, hne⟩, _, holdings, hupdate, _, usdc, hpay, rfl, rfl⟩ :=
    settleTrade_eq_ok.mp h
  have hmoved := laws.update hupdate
  have husdc : ∀ token,
      (∀ a, usdc token a = w.usdc token a + if w.storage.usdc = some token then
        received w.storage seller (Relayer.computeUsdcSplit gross) a
          - (if buyer = a then gross else 0) else 0)
      ∧ (FiniteLedger (w.usdc token) → FiniteLedger (usdc token)
        ∧ sumOfBalances (usdc token) = sumOfBalances (w.usdc token)) := by
    intro token
    rcases hgross.eq_or_lt with rfl | hpos
    · obtain rfl : w.usdc = usdc := Except.ok.inj hpay
      constructor
      · intro a
        simp [received, Relayer.computeUsdcSplit]
      · intro hfinite
        exact ⟨hfinite, rfl⟩
    · obtain ⟨stored, hstored, treasury, htreasury, artistPayout, hpayout, _, _, rfl⟩ :=
        (payTrade_eq_ok hpos hne).mp hpay
      rw [Option.mem_def] at hstored htreasury hpayout
      by_cases htoken : stored = token
      · rw [htoken, Function.update_self]
        constructor
        · intro a
          rw [hstored, if_pos (congrArg some htoken)]
          apply payLegs_apply hgross htreasury hpayout
        · intro hfinite
          apply sumOfBalances_payLegs hfinite
      · rw [Function.update_of_ne (Ne.symm htoken)]
        constructor
        · intro a
          rw [hstored, if_neg (fun h => htoken (Option.some.inj h)), add_zero]
        · intro hfinite
          exact ⟨hfinite, rfl⟩
  constructor
  · intro a
    rw [hmoved.balances]
    simp only [Movement.post, Movement.delta, Option.some.injEq]
    omega
  · apply hmoved.covered seller rfl
  · rw [hmoved.totalSupply, Movement.issued_of_transfer, add_zero]
  · rfl
  · intro token
    apply (husdc token).1
  · intro token
    apply (husdc token).2
  · rfl

end Trade

/-! ### The main result -/

section Atomic

variable {pkg : Packages} {host : Host} {buyer seller : Address} {count gross : ℤ} {w w' : World}
  {l : Label}

/-- A trade is exact and atomic: the step of a trade succeeds exactly when all its guards and legs
pass; then the units and the price are moved as the trade says, in parts that are split without
remainder as the relayer splits them; otherwise nothing changes, and nothing is logged. -/
theorem trade_exact (laws : pkg.base.Lawful) (hstep : Step pkg w l w')
    (hattempt : l.attempt = some (host, .settleTrade buyer seller count gross)) :
  (l.Succeeds ↔ TradePasses pkg host buyer seller count gross w)
    ∧ (l.Succeeds → SplitExact gross (Relayer.computeUsdcSplit gross)
      ∧ Traded buyer seller count gross w w' l.events)
    ∧ (¬ l.Succeeds → w' = w ∧ l.events = [])
  := by
  cases hstep with
  | call hok =>
    obtain ⟨rfl, rfl⟩ := Prod.mk.inj (Option.some.inj hattempt)
    have hpasses := settleTrade_succeeds_iff.mp ⟨_, hok⟩
    refine ⟨iff_of_true trivial hpasses, fun _ => ⟨?_, ?_⟩, fun h => absurd trivial h⟩
    · apply splitExact_of_nonneg hpasses.gross_nonneg
    · apply traded_of_settleTrade laws hok
  | failed herror =>
    obtain ⟨rfl, rfl⟩ := Prod.mk.inj (Option.some.inj hattempt)
    refine ⟨iff_of_false id ?_, fun h => h.elim, fun _ => ⟨rfl, rfl⟩⟩
    intro hpasses
    obtain ⟨settled, hok⟩ := settleTrade_succeeds_iff.mpr hpasses
    cases herror.symm.trans hok
  | outside => cases hattempt

end Atomic

/-- The small token, when every account has a thousand units of USDC. -/
def sampleFunded : World := { sampleMinted (.account 11) (.account 20) with usdc := fun _ _ => 1000 }

/-- The small token after the treasury has bought three units for a thousand. -/
def sampleTraded : World :=
  { sampleFunded with
    holdings := { sampleFunded.holdings with
      balances := (⟨some (.account 20), some (.account 11), 3⟩ : Movement Address).post
        sampleFunded.holdings.balances }
    usdc := Function.update sampleFunded.usdc (.contract 6)
      (payLegs (fun _ => 1000) (.account 11) (.account 20) (.account 11) (.account 12)
        ⟨15, 15, 970⟩) }

/-- The purchase of the treasury. -/
def sampleTrade : Label :=
  .call sampleHost (.settleTrade (.account 11) (.account 20) 3 1000)
    [.Transfer (.account 20) (.account 11) none 3,
      .TradeSettled (.account 11) (.account 20) 3 1000 15 15 970]

theorem sampleTrade_step :
  Step plainPackages sampleFunded sampleTrade sampleTraded
  := .call rfl

/-- The treasury gets its fee back. -/
theorem trade_exact_sampleTrade :
  (sampleTrade.Succeeds
      ↔ TradePasses plainPackages sampleHost (.account 11) (.account 20) 3 1000 sampleFunded)
    ∧ (sampleTrade.Succeeds → SplitExact 1000 (Relayer.computeUsdcSplit 1000)
      ∧ Traded (.account 11) (.account 20) 3 1000 sampleFunded sampleTraded sampleTrade.events)
    ∧ (¬ sampleTrade.Succeeds → sampleTraded = sampleFunded ∧ sampleTrade.events = [])
  := trade_exact plainBase_lawful sampleTrade_step rfl

end Token
