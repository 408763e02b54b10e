import Tove.Agreement
import Tove.Clearing.Belt
import Tove.Escrow.Arithmetic
import Tove.Marketplace.AcceptSafety
import Tove.Marketplace.Quotes
import Tove.Token.Arithmetic

/-!
# The amounts that the API admits

The contracts compute in 128 bits, and an overflow stops a call without an error of its own.  The
API therefore checks the amounts that it admits.  A clearing of admitted bids leaves room for all
that `close_and_settle` computes; the price of an admitted quote leaves room for the basis points
of `settle_trade` only when it is small enough.
-/

namespace Amounts

open Js Soroban Totals Clearing UniformPrice

/-! ### What is admitted -/

/-- `computeEscrowStroops`. -/
def computeEscrowStroops (price qty : ℤ) : Except RangeError ℤ := do
  throwIf (price ≤ 0 ∨ qty ≤ 0) "price and count must be positive"
  let escrow := price * qty
  throwIf (escrow > MAX_STROOPS) "escrow amount exceeds MAX_STROOPS"
  return escrow

/-- The greatest `OFFERING_MAX_BIDS_PER_OFFERING` that the configuration may set. -/
def MAX_BIDS_CEILING : ℤ := 500

/-- `Number.MAX_SAFE_INTEGER`, the greatest count of a quote. -/
def MAX_SAFE_INTEGER : ℤ := 2 ^ 53 - 1

/-- A clearing result that the belt accepts, over a snapshot of admitted bids. -/
structure AdmittedClearing (r : ClearingResult) (publicFloat : ℤ) : Prop where
  nodup : (r.bidsSnapshot.map ClearingBidSnapshotRow.chainBidId).Nodup
  admitted : ∀ b ∈ r.bidsSnapshot,
    ∃ escrow, computeEscrowStroops b.priceStroops b.count = .ok escrow
  accepted : ∃ band maxBids, maxBids ≤ MAX_BIDS_CEILING
    ∧ assertClearingInvariants r band publicFloat r.bidsSnapshot.length maxBids = .ok ()

/-- A quote with a count in range that passes the checks of `QuotesService.submit`. -/
structure AdmittedQuote (req : Marketplace.QuoteRequest) : Prop where
  count_pos : 1 ≤ req.fractionCount
  count_le : req.fractionCount ≤ MAX_SAFE_INTEGER
  accepted : ∃ parties columns rfqs now validUntil,
    Marketplace.checkQuote parties columns rfqs now req = .ok validUntil

/-! ### What fits -/

/-- Nothing overflows when the offering is settled as a clearing says: the call has the same
outcome in every arithmetic that is right on 128-bit integers. -/
def SettlementFits (r : ClearingResult) (publicFloat : ℤ) : Prop :=
  ∀ P args, r.clearingPriceStroops = some P →
    Agreement.encodeAllocations (Agreement.allocationArgs r) = .ok args →
    ∀ selfAddr env w, (Escrow.system selfAddr).Reachable w → w.params.publicFloat = publicFloat →
      ∀ arith : Arithmetic Escrow.Error, arith.Right →
        Escrow.closeAndSettleWith arith selfAddr env P args w
          = Escrow.closeAndSettle selfAddr env P args w

/-- The balances of the token are amounts. -/
def AreAmounts (w : Token.World) : Prop :=
  ∀ a, 0 ≤ w.holdings.balances a ∧ w.holdings.balances a ≤ Soroban.MAX_I128

/-- Nothing overflows when a trade is settled. -/
def TradeFits (count gross : ℤ) : Prop :=
  ∀ pkg host buyer seller w, AreAmounts w → ∀ arith : Arithmetic Token.Error, arith.Right →
    Token.settleTradeWith arith pkg host buyer seller count gross w
      = Token.settleTrade pkg host buyer seller count gross w

/-! ### Clearings -/

theorem computeEscrowStroops_eq_ok {price qty escrow : ℤ} :
  computeEscrowStroops price qty = .ok escrow
    ↔ (0 < price ∧ 0 < qty) ∧ price * qty ≤ MAX_STROOPS ∧ price * qty = escrow
  := by
  simp only [computeEscrowStroops, throwIf, Checks.bind_eq_ok, Checks.rejectIf_eq_ok,
    Checks.pure_eq_ok, exists_const, not_or, not_le, gt_iff_lt, not_lt]

section Clearing

variable {r : ClearingResult} {publicFloat P : ℤ}

/-- The proceeds of an accepted result are no more than what its bids can have in escrow. -/
theorem proceeds_le (hnodup : (r.bidsSnapshot.map ClearingBidSnapshotRow.chainBidId).Nodup)
    (hadmitted : ∀ b ∈ r.bidsSnapshot,
      ∃ escrow, computeEscrowStroops b.priceStroops b.count = .ok escrow)
    (h : Accepted r publicFloat P) :
  P * publicFloat ≤ MAX_STROOPS * r.bidsSnapshot.length
  := by
  have hcount : ∀ b ∈ r.bidsSnapshot, 0 < b.count := by
    intro b hb
    obtain ⟨_, hescrow⟩ := hadmitted b hb
    apply (computeEscrowStroops_eq_ok.mp hescrow).1.2
  have hkey : (r.bidsSnapshot.map rowTerms.key).Nodup := by
    apply List.Nodup.of_map (fun k => (ofLex k).2)
    rw [List.map_map]
    apply hnodup
  calc P * publicFloat
      = total (fun b => P * rowTerms.allocation r.bidsSnapshot publicFloat P b) r.bidsSnapshot := by
        rw [total_mul_left, h.clears.total_allocation hkey]
    _ ≤ total (fun _ => MAX_STROOPS * 1) r.bidsSnapshot := by
        apply total_le_total
        intro b hb
        obtain ⟨_, hescrow⟩ := hadmitted b hb
        obtain ⟨⟨hprice, _⟩, hmax, _⟩ := computeEscrowStroops_eq_ok.mp hescrow
        obtain ⟨hnonneg, hle⟩ := h.clears.allocation_mem_Icc hcount hb
        rcases le_or_gt P b.priceStroops with hP | hgt
        · have : P * rowTerms.allocation r.bidsSnapshot publicFloat P b
              ≤ b.priceStroops * b.count := mul_le_mul hP hle hnonneg hprice.le
          omega
        · rw [show rowTerms.allocation r.bidsSnapshot publicFloat P b = 0 from
            Terms.allocation_of_gt hgt, mul_zero]
          decide
    _ = MAX_STROOPS * r.bidsSnapshot.length := by rw [total_mul_left, total_one]

/-- The belt accepts no more bids than the ceiling. -/
theorem bidCount_le {band : ClearingBand} {bidCount maxBids : ℤ}
    (h : assertClearingInvariants r band publicFloat bidCount maxBids = .ok ()) :
  bidCount ≤ maxBids
  := by
  rw [assertClearingInvariants, Checks.check_bind_eq_ok, throwIf, Checks.rejectIf_eq_ok] at h
  omega

/-- Whatever the belt accepts over admitted bids can be settled without overflow. -/
theorem settlementFits (h : AdmittedClearing r publicFloat) :
  SettlementFits r publicFloat
  := by
  obtain ⟨hnodup, hadmitted, band, maxBids, hceiling, hbelt⟩ := h
  have hcount : ∀ b ∈ r.bidsSnapshot, 0 < b.count := by
    intro b hb
    obtain ⟨_, hescrow⟩ := hadmitted b hb
    apply (computeEscrowStroops_eq_ok.mp hescrow).1.2
  obtain ⟨P, haccepted⟩ := accepted_of_eq_ok hnodup hcount hbelt
  have hproceeds := proceeds_le hnodup hadmitted haccepted
  have hbids := bidCount_le hbelt
  intro P' args hprice hencode selfAddr env w hreachable hfloat arith hright
  obtain rfl : P = P' := Option.some.inj (haccepted.price_eq.symm.trans hprice)
  rw [Agreement.encodeAllocations, Checks.bind_eq_ok] at hencode
  obtain ⟨_, _, hargs⟩ := hencode
  obtain rfl := Checks.pure_eq_ok.mp hargs
  have htotal : total Prod.snd ((Agreement.allocationArgs r).map
      fun a => (a.bidId.toNat, a.allocated)) = publicFloat := by
    rw [total_map, Agreement.allocationArgs, total_map, ← haccepted.sold]
    rfl
  apply Escrow.closeAndSettle_agrees hright (Escrow.solvent_of_reachable hreachable)
    haccepted.price_pos.le
  · intro entry hentry
    obtain ⟨a, ha, rfl⟩ := List.mem_map.mp hentry
    obtain ⟨x, hx, rfl⟩ := List.mem_map.mp ha
    apply (haccepted.allocated_pos x hx).le
  · rw [htotal, hfloat]
  · rw [htotal, Escrow.PLATFORM_FEE_BPS, Soroban.MAX_I128]
    rw [MAX_STROOPS] at hproceeds
    rw [MAX_BIDS_CEILING] at hceiling
    omega

end Clearing

/-! ### Quotes -/

section Quote

variable {req : Marketplace.QuoteRequest}

theorem AdmittedQuote.limits (h : AdmittedQuote req) :
  1 ≤ req.pricePerFractionStroops
    ∧ req.pricePerFractionStroops * req.fractionCount ≤ Soroban.MAX_I128
  := by
  obtain ⟨parties, columns, rfqs, now, validUntil, hcheck⟩ := h.accepted
  simp only [Marketplace.checkQuote, Checks.bind_eq_ok, Checks.rejectIf_eq_ok, exists_const, not_or,
    not_lt, gt_iff_lt] at hcheck
  obtain ⟨_, _, _, _, ⟨hprice, _⟩, hgross, _⟩ := hcheck
  exact ⟨hprice, hgross⟩

/-- The trade of a quote fits when its price leaves room for the basis points. -/
theorem tradeFits {count gross : ℤ} (hcount : 0 ≤ count) (hcountLe : count ≤ Soroban.MAX_I128)
    (hgross : 0 ≤ gross) (hfee : gross * 150 ≤ Soroban.MAX_I128) :
  TradeFits count gross
  := by
  intro pkg host buyer seller w hbalances arith hright
  apply Token.settleTrade_agrees hright hbalances hcount hcountLe hgross hfee

/-- An arithmetic that reports an overflow as an error of the contract. -/
def reporting : Arithmetic Token.Error :=
  fun x => if InI128 x then .ok x else throw (.error .InvariantViolated)

theorem reporting_right :
  reporting.Right
  := fun _ hx => if_pos hx

/-- The small token, when an account holds units that the treasury may buy. -/
def stocked (count : ℤ) : Token.World :=
  { Token.sampleFunded with
    holdings := ⟨(Token.issue (.account 20, count)).post fun _ => 0, count, fun _ _ => (0, 0)⟩ }

theorem stocked_areAmounts {count : ℤ} (hcount : 0 ≤ count) (hle : count ≤ Soroban.MAX_I128) :
  AreAmounts (stocked count)
  := by
  intro a
  simp only [stocked, Token.issue, Ledgers.Movement.post, Ledgers.Movement.delta, zero_add,
    reduceCtorEq, if_false, sub_zero]
  split
  · exact ⟨hcount, hle⟩
  · exact ⟨le_refl 0, by decide⟩

/-- A trade whose fee overflows does not fit. -/
theorem not_tradeFits {count gross : ℤ} (hcount : 0 < count) (hle : count ≤ Soroban.MAX_I128)
    (hgross : 0 ≤ gross) (hfee : Soroban.MAX_I128 < gross * 150) :
  ¬ TradeFits count gross
  := by
  intro hfits
  have hagree := hfits Token.plainPackages Token.sampleHost (.account 11) (.account 20)
    (stocked count) (stocked_areAmounts hcount.le hle) reporting reporting_right
  have hover : ¬ InI128 (gross * 150) := fun h => absurd h.2 hfee.not_ge
  have hvalid : ¬ (count ≤ 0 ∨ gross < 0 ∨ Address.account 11 = .account 20) := by
    simp only [not_or]
    use by omega, by omega, by decide
  have hguard : Token.guardMovement Token.sampleHost (some (.account 20)) (some (.account 11)) count
      (stocked count) = .ok () := rfl
  have hguardWith : Token.guardMovementWith reporting Token.sampleHost (.account 20) (.account 11)
      count (stocked count) = .ok () := rfl
  obtain ⟨holdings, hupdate⟩ : ∃ holdings, Token.plainPackages.base.update (some (.account 20))
      (some (.account 11)) count (stocked count).holdings = .ok holdings := by
    refine ⟨_, Checks.bind_eq_ok.mpr ⟨(), Checks.rejectIf_eq_ok.mpr ?_, rfl⟩⟩
    simp only [not_or, not_lt, not_exists, not_and]
    use hcount.le
    rintro a ha
    obtain rfl := Option.some.inj ha
    simp [stocked, Token.issue, Ledgers.Movement.post, Ledgers.Movement.delta]
  have hsettler : (stocked count).storage.marketplaceSettler = some (.contract 4) := rfl
  simp only [Token.settleTradeWith, Token.settleTrade, hsettler, Token.unwrap, hguard,
    hguardWith, hupdate, Token.PLATFORM_FEE_BPS, reporting, hover, if_false, i128, trapIf,
    Checks.rejectIf, hvalid, not_false_eq_true, if_true] at hagree
  cases hagree

/-- The trade of an admitted quote fits exactly when its price leaves room for the basis points. -/
theorem AdmittedQuote.tradeFits_iff (h : AdmittedQuote req) :
  TradeFits req.fractionCount (req.pricePerFractionStroops * req.fractionCount)
    ↔ req.pricePerFractionStroops * req.fractionCount * 150 ≤ Soroban.MAX_I128
  := by
  have hcount : 0 < req.fractionCount := h.count_pos
  have hcountLe : req.fractionCount ≤ Soroban.MAX_I128 := h.count_le.trans (by decide)
  have hgross : 0 ≤ req.pricePerFractionStroops * req.fractionCount :=
    mul_nonneg (by have := h.limits.1; omega) hcount.le
  constructor
  · intro hfits
    by_contra hfee
    apply not_tradeFits hcount hcountLe hgross (not_le.mp hfee) hfits
  · apply tradeFits hcount.le hcountLe hgross

end Quote

/-! ### The main result -/

/-- What the API admits fits into the 128 bits of the contracts exactly when the price of the quote
leaves room for the basis points; clearings always fit. -/
theorem fits_iff {r : ClearingResult} {publicFloat : ℤ} {req : Marketplace.QuoteRequest}
    (hclearing : AdmittedClearing r publicFloat) (hquote : AdmittedQuote req) :
  (SettlementFits r publicFloat
      ∧ TradeFits req.fractionCount (req.pricePerFractionStroops * req.fractionCount))
    ↔ req.pricePerFractionStroops * req.fractionCount * 150 ≤ Soroban.MAX_I128
  := by
  rw [hquote.tradeFits_iff]
  apply and_iff_right (settlementFits hclearing)

/-- A quote on an open RFQ. -/
def sampleQuote (pricePerFractionStroops fractionCount : ℤ) : Marketplace.QuoteRequest where
  userId := 2
  rfqId := 1
  pricePerFractionStroops
  fractionCount
  validUntil := 1

theorem tieResult_admitted :
  AdmittedClearing tieResult 5
  where
  nodup := by decide
  admitted := by
    intro b hb
    refine ⟨_, computeEscrowStroops_eq_ok.mpr ⟨?_, ?_, rfl⟩⟩ <;> revert b <;> decide
  accepted := ⟨⟨1, 10⟩, 100, by decide, assertClearingInvariants_tieResult⟩

/-- Twenty-five fractions at fifteen USDC each. -/
theorem sampleQuote_admitted :
  AdmittedQuote (sampleQuote 150000000 25)
  where
  count_pos := by decide
  count_le := by decide
  accepted := ⟨Marketplace.sampleParties, fun _ => ⟨1, 1⟩, fun _ => some Marketplace.sampleRfq, 0, 1,
    rfl⟩

/-- Twenty million fractions at the greatest price. -/
theorem sampleOverflow_admitted :
  AdmittedQuote (sampleQuote (2 ^ 96 - 1) 20000000)
  where
  count_pos := by decide
  count_le := by decide
  accepted := ⟨Marketplace.sampleParties, fun _ => ⟨1, 1⟩, fun _ => some Marketplace.sampleRfq, 0, 1,
    rfl⟩

theorem fits_iff_sample :
  (SettlementFits tieResult 5 ∧ TradeFits 25 (150000000 * 25))
    ↔ 150000000 * 25 * 150 ≤ Soroban.MAX_I128
  := fits_iff tieResult_admitted sampleQuote_admitted

/-- The fee on twenty million fractions at the greatest price overflows. -/
theorem not_forall_fits :
  ¬ ∀ r publicFloat req, AdmittedClearing r publicFloat → AdmittedQuote req →
    SettlementFits r publicFloat
      ∧ TradeFits req.fractionCount (req.pricePerFractionStroops * req.fractionCount)
  := by
  intro hall
  have hfits := (hall _ _ _ tieResult_admitted sampleOverflow_admitted).2
  apply absurd (sampleOverflow_admitted.tradeFits_iff.mp hfits) (by decide)

end Amounts
