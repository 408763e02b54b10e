import Tove.Escrow.Exit

/-!
# The arithmetic of a settlement

`close_and_settle` over any arithmetic.  When nothing overflows it does not matter which
arithmetic it is: all that are right on 128-bit integers have the outcome of checked arithmetic,
whatever that outcome is.
-/

namespace Escrow

open Soroban Ledgers Totals

/-! ### The settlement over an arithmetic -/

section Arithmetic

variable (arith : Arithmetic Error)

/-- One round of step 1. -/
def validateWith (clearingPrice : ℤ) (bids : ℕ → Option Bid) (v : Validated) (entry : ℕ × ℤ) :
    Outcome Validated :=
  let bidId := entry.1
  let allocated := entry.2
  match bids bidId with
  | none => throw (.error .InvalidAllocation)
  | some bid => do
    errorIf (bid.active = false) .InvalidAllocation
    errorIf (allocated < 0 ∨ allocated > bid.count) .InvalidAllocation
    errorIf (v.alloc bidId ≠ none) .InvalidAllocation
    errorIf (allocated > 0 ∧ (clearingPrice ≤ 0 ∨ clearingPrice > bid.price)) .InvalidAllocation
    let paid ← arith (clearingPrice * allocated)
    let refund ← arith (bid.escrow - paid)
    errorIf (refund < 0) .InvalidAllocation
    let sumAllocated ← arith (v.sumAllocated + allocated)
    let proceeds ← arith (v.proceeds + paid)
    return ⟨Function.update v.alloc bidId (some allocated), sumAllocated, proceeds⟩

/-- The mint invariant. -/
def checkSupplyWith (params : Params) (sumAllocated : ℤ) : Outcome Unit := do
  let s ← arith (sumAllocated + params.artistRetention)
  let s ← arith (s + params.treasuryRetention)
  let s ← arith (s + params.leftoverToArtist)
  errorIf (s ≠ params.totalSupply) .InvalidAllocation

/-- One round of step 3. -/
def refundBidWith (selfAddr : Address) (env : Env) (clearingPrice : ℤ) (alloc : ℕ → Option ℤ)
    (r : Refunded) (id : ℕ) : Outcome Refunded :=
  match r.bids id with
  | none => throw (.error .BidNotFound)
  | some bid =>
    if bid.active = false then return r
    else do
      let allocated := (alloc id).getD 0
      let cost ← arith (clearingPrice * allocated)
      let refund ← arith (bid.escrow - cost)
      let paid ← payOut selfAddr env (.settleRefund id) bid.bidder refund r.paid
      let sumRefund ← arith (r.sumRefund + refund)
      let sumEscrow ← arith (r.sumEscrow + bid.escrow)
      return {
        bids := Function.update r.bids id (some { bid with active := false })
        paid
        sumRefund
        sumEscrow }

/-- `close_and_settle`. -/
def closeAndSettleWith (selfAddr : Address) (env : Env) (clearingPrice : ℤ)
    (allocations : List (ℕ × ℤ)) (w : World) : Outcome (World × List Effect) := do
  requireAuth env w.params.admin
  requireClosed w
  let token ← boundToken w
  let v ← allocations.foldlM (validateWith arith clearingPrice w.bids) ⟨fun _ => none, 0, 0⟩
  checkSupplyWith arith w.params v.sumAllocated
  let winners ← allocations.foldlM (pushWinner w.bids) []
  let artistAmount ← arith (w.params.artistRetention + w.params.leftoverToArtist)
  let recipients := winners ++ retentions w.params artistAmount
  trapIf (env.mintSettleAccepts = false)
  let r ← (List.range' 1 w.bidSeq).foldlM (refundBidWith arith selfAddr env clearingPrice v.alloc)
    ⟨w.bids, (w.balances, [.mintSettle token recipients]), 0, 0⟩
  let fee ← arith (v.proceeds * PLATFORM_FEE_BPS)
  let platformFee := fee.tdiv 10000
  let artistNet ← arith (v.proceeds - platformFee)
  let paid ← payOut selfAddr env .platformFee w.params.treasury platformFee r.paid
  let paid ← payOut selfAddr env .artistNet w.params.artistPayout artistNet paid
  let outflow ← arith (r.sumRefund + platformFee)
  let outflow ← arith (outflow + artistNet)
  errorIf (outflow ≠ r.sumEscrow) .UsdcAccounting
  let delta ← arith (w.balances selfAddr - paid.1 selfAddr)
  errorIf (delta ≠ r.sumEscrow) .UsdcAccounting
  return ({ w with status := .Settled, escrowTotal := 0, bids := r.bids, balances := paid.1 },
    paid.2 ++ [.event (.OfferingSettled clearingPrice v.proceeds platformFee artistNet)])

end Arithmetic

/-- With checked arithmetic it is the contract. -/
theorem closeAndSettleWith_i128 :
  closeAndSettleWith i128 = closeAndSettle
  := rfl

/-! ### Nothing overflows -/

section Agreement

variable {arith : Arithmetic Error} (hright : arith.Right) {selfAddr : Address} {env : Env}
  {clearingPrice : ℤ} {allocations : List (ℕ × ℤ)} {w : World} (h : Solvent selfAddr w)

include hright h

/-- The validation of allocations whose cost is in range. -/
theorem validate_agrees (hprice : 0 ≤ clearingPrice) (hnonneg : ∀ entry ∈ allocations, 0 ≤ entry.2)
    (htotal : total Prod.snd allocations ≤ MAX_I128)
    (hcost : clearingPrice * total Prod.snd allocations ≤ MAX_I128) :
  allocations.foldlM (validateWith arith clearingPrice w.bids) ⟨fun _ => none, 0, 0⟩
    = allocations.foldlM (validate clearingPrice w.bids) ⟨fun _ => none, 0, 0⟩
  := by
  apply Checks.foldlM_congr (motive := ValidatedSoFar clearingPrice w.bids) ValidatedSoFar.nil
  · rintro pre ⟨id, allocated⟩ v hpre hsofar
    have hmem : (id, allocated) ∈ allocations := hpre.mem (by simp)
    have hallocated : 0 ≤ allocated := hnonneg _ hmem
    have hsum : 0 ≤ total Prod.snd pre :=
      total_nonneg fun entry hentry => hnonneg _ (hpre.mem (List.mem_append_left _ hentry))
    have hpart := total_part_le hpre hnonneg
    have hpaid : 0 ≤ clearingPrice * allocated := mul_nonneg hprice hallocated
    have hproceeds : 0 ≤ clearingPrice * total Prod.snd pre := mul_nonneg hprice hsum
    have hcostPart := (mul_le_mul_of_nonneg_left hpart hprice).trans hcost
    rw [total_append, total_cons, total_nil, add_zero] at hpart hcostPart
    dsimp only at hcostPart
    rw [mul_add] at hcostPart
    rw [← hsofar.sum_eq] at hsum hpart
    rw [← hsofar.proceeds_eq] at hproceeds hcostPart
    cases hbid : w.bids id with
    | none => simp only [validateWith, validate, hbid]
    | some bid =>
      have hescrow := (h.bid_sound id bid hbid).escrow_le
      have hescrowPos := (h.bid_sound id bid hbid).escrow_pos
      have h₁ : InI128 (clearingPrice * allocated) := by
        apply inI128_of_nonneg <;> omega
      have h₂ : InI128 (bid.escrow - clearingPrice * allocated) := by
        simp only [InI128, MIN_I128, MAX_I128] at *
        omega
      have h₃ : InI128 (v.sumAllocated + allocated) := by
        apply inI128_of_nonneg <;> omega
      have h₄ : InI128 (v.proceeds + clearingPrice * allocated) := by
        apply inI128_of_nonneg <;> omega
      simp only [validateWith, validate, hbid, hright _ h₁, hright _ h₂, hright _ h₃, hright _ h₄,
        i128_right _ h₁, i128_right _ h₂, i128_right _ h₃, i128_right _ h₄, Checks.ok_bind]
  · rintro pre ⟨id, allocated⟩ v v' _ hsofar hstep
    apply hsofar.snoc hstep

omit h in
theorem checkSupply_agrees {params : Params} (hparams : params.Sound) {sumAllocated : ℤ}
    (hnonneg : 0 ≤ sumAllocated) (hle : sumAllocated ≤ params.publicFloat) :
  checkSupplyWith arith params sumAllocated = checkSupply params sumAllocated
  := by
  obtain ⟨_, hsupply, hartist, htreasury, hleftover, _⟩ := hparams
  rw [Params.publicFloat] at hle
  have h₁ : InI128 (sumAllocated + params.artistRetention) := by
    apply inI128_of_nonneg <;> omega
  have h₂ : InI128 (sumAllocated + params.artistRetention + params.treasuryRetention) := by
    apply inI128_of_nonneg <;> omega
  have h₃ : InI128 (sumAllocated + params.artistRetention + params.treasuryRetention
      + params.leftoverToArtist) := by
    apply inI128_of_nonneg <;> omega
  simp only [checkSupplyWith, checkSupply, hright _ h₁, hright _ h₂, hright _ h₃, i128_right _ h₁,
    i128_right _ h₂, i128_right _ h₃, Checks.ok_bind]

/-- The refunds of valid allocations. -/
theorem refunds_agree (hvalid : ValidAllocations clearingPrice w.bids allocations)
    (start : Ledger Address × List Effect) :
  w.ids.foldlM (refundBidWith arith selfAddr env clearingPrice (allocOf allocations))
      ⟨w.bids, start, 0, 0⟩
    = w.ids.foldlM (refundBid selfAddr env clearingPrice (allocOf allocations))
      ⟨w.bids, start, 0, 0⟩
  := by
  apply Checks.foldlM_congr (motive := RefundedSoFar selfAddr clearingPrice (allocOf allocations)
    w.bids start) RefundedSoFar.nil
  · intro pre id r hpre hsofar
    have hid : id ∉ pre := not_mem_of_concat w.ids_nodup hpre
    have hcurrent : r.bids id = w.bids id := by rw [hsofar.bids_eq, deactivate, if_neg hid]
    cases hbid : w.bids id with
    | none => simp only [refundBidWith, refundBid, hcurrent, hbid]
    | some bid =>
      cases hactive : bid.active with
      | false => simp only [refundBidWith, refundBid, hcurrent, hbid, hactive, if_true]
      | true =>
        have hdue : refundDue clearingPrice (allocOf allocations) w.bids id
            = bid.escrow - clearingPrice * (allocOf allocations id).getD 0 := by
          rw [refundDue, activeBid_of_active hbid hactive, Option.elim_some]
        have hescrow : activeEscrow w.bids id = bid.escrow := activeEscrow_of_active hbid hactive
        have hrefund := hvalid.refundDue_nonneg h id
        have hcost := hvalid.cost_nonneg id
        have hescrowLe := (h.bid_sound id bid hbid).escrow_le
        have hescrowPos := (h.bid_sound id bid hbid).escrow_pos
        have hpaid : 0 ≤ total (refundDue clearingPrice (allocOf allocations) w.bids) pre :=
          total_nonneg fun k _ => hvalid.refundDue_nonneg h k
        have hheld : 0 ≤ total (activeEscrow w.bids) pre :=
          total_nonneg fun k _ => activeEscrow_nonneg (h.bid_sound k)
        have hdues := total_part_le hpre fun k _ => hvalid.refundDue_nonneg h k
        have hescrows := total_part_le hpre fun k _ => activeEscrow_nonneg (h.bid_sound k)
        have haccounting := hvalid.accounting h
        have hproceeds := hvalid.proceeds_nonneg
        have htotal := h.escrowTotal_le
        rw [total_append, total_cons, total_nil, add_zero, hdue, ← hsofar.sumRefund_eq] at hdues
        rw [total_append, total_cons, total_nil, add_zero, hescrow, ← hsofar.sumEscrow_eq,
          ← h.escrowTotal_eq] at hescrows
        rw [← hsofar.sumRefund_eq] at hpaid
        rw [← hsofar.sumEscrow_eq] at hheld
        rw [hdue] at hrefund
        have h₁ : InI128 (clearingPrice * (allocOf allocations id).getD 0) := by
          apply inI128_of_nonneg <;> omega
        have h₂ : InI128 (bid.escrow - clearingPrice * (allocOf allocations id).getD 0) := by
          apply inI128_of_nonneg <;> omega
        have h₃ : InI128 (r.sumRefund
            + (bid.escrow - clearingPrice * (allocOf allocations id).getD 0)) := by
          apply inI128_of_nonneg <;> omega
        have h₄ : InI128 (r.sumEscrow + bid.escrow) := by
          apply inI128_of_nonneg <;> omega
        simp only [refundBidWith, refundBid, hcurrent, hbid, hactive, hright _ h₁, hright _ h₂,
          hright _ h₃, hright _ h₄, i128_right _ h₁, i128_right _ h₂, i128_right _ h₃,
          i128_right _ h₄, Checks.ok_bind]
  · intro pre id r r' hpre hsofar hstep
    apply hsofar.snoc (not_mem_of_concat w.ids_nodup hpre) hstep

end Agreement

/-- A settlement whose allocations are not more than the float, and whose proceeds leave room for
the fee, has the same outcome in every right arithmetic. -/
theorem closeAndSettle_agrees {arith : Arithmetic Error} (hright : arith.Right) {selfAddr : Address}
    {env : Env} {clearingPrice : ℤ} {allocations : List (ℕ × ℤ)} {w : World}
    (h : Solvent selfAddr w) (hprice : 0 ≤ clearingPrice)
    (hnonneg : ∀ entry ∈ allocations, 0 ≤ entry.2)
    (hfloat : total Prod.snd allocations ≤ w.params.publicFloat)
    (hfee : clearingPrice * total Prod.snd allocations * PLATFORM_FEE_BPS ≤ MAX_I128) :
  closeAndSettleWith arith selfAddr env clearingPrice allocations w
    = closeAndSettle selfAddr env clearingPrice allocations w
  := by
  have hsum : 0 ≤ total Prod.snd allocations := total_nonneg hnonneg
  have hproceeds : 0 ≤ clearingPrice * total Prod.snd allocations := mul_nonneg hprice hsum
  obtain ⟨hfeeNonneg, hfeeLe⟩ := platformFee_mem_Icc hproceeds
  obtain ⟨_, hsupply, hartist, htreasury, hleftover, _⟩ := h.params_sound
  have hfloatLe : w.params.publicFloat ≤ MAX_I128 := by
    rw [Params.publicFloat]
    omega
  have hfeeRange : InI128 (clearingPrice * total Prod.snd allocations * PLATFORM_FEE_BPS) :=
    inI128_of_nonneg (mul_nonneg hproceeds (by decide)) hfee
  rw [PLATFORM_FEE_BPS] at hfee
  have hartistRange : InI128 (w.params.artistRetention + w.params.leftoverToArtist) := by
    apply inI128_of_nonneg <;> omega
  have hnetRange : InI128 (clearingPrice * total Prod.snd allocations
      - platformFee (clearingPrice * total Prod.snd allocations)) := by
    apply inI128_of_nonneg <;> omega
  rw [closeAndSettleWith, closeAndSettle, validate_agrees hright h hprice hnonneg (by omega)
    (by omega)]
  apply Checks.bind_congr_ok
  intro _ _
  apply Checks.bind_congr_ok
  intro _ _
  apply Checks.bind_congr_ok
  intro token _
  apply Checks.bind_congr_ok
  intro v hv
  have hvalidated := validatedSoFar_of_eq_ok hv
  rw [checkSupply_agrees hright h.params_sound (by rw [hvalidated.sum_eq]; apply hsum)
    (by rw [hvalidated.sum_eq]; apply hfloat)]
  apply Checks.bind_congr_ok
  intro _ _
  apply Checks.bind_congr_ok
  intro winners _
  rw [hright _ hartistRange, i128_right _ hartistRange, Checks.ok_bind, Checks.ok_bind]
  apply Checks.bind_congr_ok
  intro _ _
  rw [hvalidated.alloc_eq, hvalidated.proceeds_eq]
  have hvalid := hvalidated.toValidAllocations
  set proceeds := clearingPrice * total Prod.snd allocations
  change (w.ids.foldlM _ _ >>= _) = (w.ids.foldlM _ _ >>= _)
  rw [refunds_agree hright h hvalid]
  apply Checks.bind_congr_ok
  intro r hr
  have hrefunded := refundedSoFar_of_eq_ok w.ids_nodup hr
  have hbalance : r.paid.1 selfAddr = w.balances selfAddr - _ :=
    hrefunded.balance_eq h.bidder_ne fun k _ => hvalid.refundDue_nonneg h k
  have haccounting := hvalid.accounting h
  have hrefund : 0 ≤ r.sumRefund := by
    rw [hrefunded.sumRefund_eq]
    apply total_nonneg fun k _ => hvalid.refundDue_nonneg h k
  have htotal := h.escrowTotal_le
  rw [← hrefunded.sumRefund_eq] at hbalance haccounting
  rw [hright _ hfeeRange, i128_right _ hfeeRange, Checks.ok_bind, Checks.ok_bind]
  change (arith (proceeds - platformFee proceeds) >>= _)
    = (i128 (proceeds - platformFee proceeds) >>= _)
  rw [hright _ hnetRange, i128_right _ hnetRange, Checks.ok_bind, Checks.ok_bind]
  apply Checks.bind_congr_ok
  intro paid hpaid
  apply Checks.bind_congr_ok
  intro paid' hpaid'
  have houtflowRange : InI128 (r.sumRefund + platformFee proceeds) := by
    apply inI128_of_nonneg <;> omega
  have hbeltRange : InI128 (r.sumRefund + platformFee proceeds
      + (proceeds - platformFee proceeds)) := by
    apply inI128_of_nonneg <;> omega
  have hdeltaRange : InI128 (w.balances selfAddr - paid'.1 selfAddr) := by
    have : r.paid.1 selfAddr - platformFee proceeds ≤ paid.1 selfAddr :=
      balance_ge_of_payOut hpaid hfeeNonneg
    have := balance_ge_of_payOut hpaid' (by omega)
    have := balance_le_of_payOut hpaid
    have := balance_le_of_payOut hpaid'
    apply inI128_of_nonneg <;> omega
  change (arith (r.sumRefund + platformFee proceeds) >>= _)
    = (i128 (r.sumRefund + platformFee proceeds) >>= _)
  simp only [hright _ houtflowRange, i128_right _ houtflowRange, hright _ hbeltRange,
    i128_right _ hbeltRange, hright _ hdeltaRange, i128_right _ hdeltaRange, Checks.ok_bind]

end Escrow
