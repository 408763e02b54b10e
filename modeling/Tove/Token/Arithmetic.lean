import Tove.Token.Trade

/-!
# The arithmetic of a trade

`settle_trade` over any arithmetic.  What the contract computes from the number of units and from
the price of the trade goes through the arithmetic; the floor of the artist, which depends on
neither, is computed as it is in the contract.
-/

namespace Token

open Soroban Ledgers

section Arithmetic

variable (arith : Arithmetic Error)

/-- `check_lockup_floor`. -/
def checkLockupFloorWith (host : Host) (source : Address) (amount : ℤ) (w : World) :
    Outcome Unit := do
  let artist ← unwrap w.storage.artist
  let treasury ← unwrap w.storage.treasury
  if source = artist then
    let lockupUntil ← unwrap w.storage.artistLockupUntil
    if host.timestamp < lockupUntil then
      let retention ← unwrap w.storage.artistRetention
      let leftover : ℤ := (w.storage.artistAbsorbedLeftover.map Subtype.val).getD 0
      let rest ← arith (w.holdings.balances source - amount)
      let floor ← i128 (retention + leftover)
      errorIf (rest < floor) .ArtistLockupViolated
  else if source = treasury then
    let lockupUntil ← unwrap w.storage.treasuryLockupUntil
    if host.timestamp < lockupUntil then
      let retention ← unwrap w.storage.treasuryRetention
      let rest ← arith (w.holdings.balances source - amount)
      errorIf (rest < retention) .TreasuryLockupViolated

/-- `guard_movement` of a movement between two accounts. -/
def guardMovementWith (host : Host) (source target : Address) (amount : ℤ) (w : World) :
    Outcome Unit := do
  errorIf (migrationPending w.storage = true) .MigrationPending
  let freezeSet ← unwrap w.storage.freezeSet
  let frozen ← gateCheck host freezeSet .isFrozen source
  errorIf (frozen = true) .Frozen
  checkRecipient host freezeSet w.storage (some target)
  checkLockupFloorWith arith host source amount w

/-- `settle_trade`. -/
def settleTradeWith (pkg : Packages) (host : Host) (buyer seller : Address) (count gross : ℤ)
    (w : World) : Outcome (World × List Event) := do
  let settler ← unwrap w.storage.marketplaceSettler
  requireAuth host.toEnv settler
  errorIf (count ≤ 0 ∨ gross < 0 ∨ buyer = seller) .InvalidTrade
  guardMovementWith arith host seller buyer count w
  let holdings ← pkg.base.update (some seller) (some buyer) count w.holdings
  let platformFee ← arith (gross * PLATFORM_FEE_BPS)
  let platformCut ← arith (platformFee / 10000)
  let royalty ← arith (gross * ROYALTY_BPS)
  let artistCut ← arith (royalty / 10000)
  let rest ← arith (gross - platformCut)
  let sellerNet ← arith (rest - artistCut)
  let usdc ← payTrade host buyer seller gross platformCut artistCut sellerNet w
  return ({ w with holdings, usdc }, [.Transfer seller buyer none count,
    .TradeSettled buyer seller count gross platformCut artistCut sellerNet])

end Arithmetic

section Agreement

variable {arith : Arithmetic Error} (hright : arith.Right) {host : Host} {w : World}
  {buyer seller : Address} {count gross : ℤ}
  (hbalances : ∀ a, 0 ≤ w.holdings.balances a ∧ w.holdings.balances a ≤ MAX_I128)
  (hcount : 0 ≤ count) (hcountLe : count ≤ MAX_I128)

include hright hbalances hcount hcountLe

/-- The guard of a movement of no more units than an amount can be. -/
theorem guardMovement_agrees :
  guardMovementWith arith host seller buyer count w
    = guardMovement host (some seller) (some buyer) count w
  := by
  obtain ⟨hnonneg, hle⟩ := hbalances seller
  have hrest : InI128 (w.holdings.balances seller - count) := by
    simp only [InI128, MIN_I128, MAX_I128] at *
    omega
  simp only [guardMovementWith, guardMovement, checkLockupFloorWith, checkLockupFloor,
    hright _ hrest, i128_right _ hrest, Checks.ok_bind]

/-- A trade of which the fee can be computed has the same outcome in every right arithmetic. -/
theorem settleTrade_agrees (hgross : 0 ≤ gross) (hfee : gross * 150 ≤ MAX_I128) (pkg : Packages) :
  settleTradeWith arith pkg host buyer seller count gross w
    = settleTrade pkg host buyer seller count gross w
  := by
  have hfeeRange : InI128 (gross * 150) := by
    apply inI128_of_nonneg <;> omega
  have hcutRange : InI128 (gross * 150 / 10000) := by
    apply inI128_of_nonneg <;> omega
  have hcut : 0 ≤ gross * 150 / 10000 := by omega
  have hrestRange : InI128 (gross - gross * 150 / 10000) := by
    apply inI128_of_nonneg <;> omega
  have hnetRange : InI128 (gross - gross * 150 / 10000 - gross * 150 / 10000) := by
    apply inI128_of_nonneg <;> omega
  simp only [settleTradeWith, settleTrade, PLATFORM_FEE_BPS, ROYALTY_BPS,
    guardMovement_agrees hright hbalances hcount hcountLe, hright _ hfeeRange,
    i128_right _ hfeeRange, hright _ hcutRange, hright _ hrestRange, hright _ hnetRange,
    Checks.ok_bind]

end Agreement

end Token
