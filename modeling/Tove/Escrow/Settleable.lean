import Tove.Escrow.Effects

/-!
# When a settlement succeeds

A settlement of a solvent contract succeeds exactly when its allocations are valid, the supply
adds up, the proceeds leave room for the fee, and neither the treasury nor the artist is the
contract itself, unless they are paid nothing.
-/

namespace Escrow

open Soroban Ledgers Totals

/-! ### The loops succeed -/

section Loops

variable {selfAddr : Address} {env : Env} {clearingPrice : ℤ} {allocations : List (ℕ × ℤ)}
  {w : World} (h : Solvent selfAddr w)
  (hvalid : ValidAllocations clearingPrice w.bids allocations)

include hvalid

/-- The winners of valid allocations can be collected. -/
theorem ValidAllocations.winners_eq_ok :
  allocations.foldlM (pushWinner w.bids) [] = .ok (winners w.bids allocations)
  := by
  have hok : ∃ recipients, allocations.foldlM (pushWinner w.bids) [] = .ok recipients := by
    apply Checks.foldlM_succeeds (motive := fun _ _ => True) trivial
    · intro pre entry recipients hpre _
      have hmem : entry ∈ allocations := hpre.mem (by simp)
      obtain ⟨bid, hbid⟩ := hvalid.valid entry hmem
      exact ⟨_, pushWinner_eq_ok.mpr ⟨fun _ => by simp [hbid.bid_eq], rfl⟩⟩
    · intros
      trivial
  obtain ⟨recipients, hrecipients⟩ := hok
  rw [hrecipients, winners_of_eq_ok hrecipients]

/-- A part of valid allocations allots no more than all of them. -/
theorem ValidAllocations.total_part {pre : List (ℕ × ℤ)} (hpre : pre <+: allocations) :
  0 ≤ total Prod.snd pre ∧ total Prod.snd pre ≤ total Prod.snd allocations
  := by
  have hnonneg : ∀ entry ∈ allocations, 0 ≤ entry.2 := by
    intro entry hentry
    obtain ⟨bid, hbid⟩ := hvalid.valid entry hentry
    apply hbid.nonneg
  constructor
  · apply total_nonneg fun entry hentry => hnonneg entry (hpre.mem hentry)
  · apply total_part_le hpre hnonneg

/-- A part of valid allocations costs no more than all of them. -/
theorem ValidAllocations.cost_part {pre : List (ℕ × ℤ)} (hpre : pre <+: allocations) :
  0 ≤ clearingPrice * total Prod.snd pre
    ∧ clearingPrice * total Prod.snd pre ≤ clearingPrice * total Prod.snd allocations
  := by
  have hnonneg : ∀ entry ∈ allocations, 0 ≤ clearingPrice * entry.2 := by
    intro entry hentry
    obtain ⟨bid, hbid⟩ := hvalid.valid entry hentry
    apply hbid.cost_nonneg
  rw [← total_mul_left, ← total_mul_left]
  constructor
  · apply total_nonneg fun entry hentry => hnonneg entry (hpre.mem hentry)
  · apply total_part_le hpre hnonneg

include h

/-- What valid allocations cost is covered by the running total. -/
theorem ValidAllocations.proceeds_le :
  clearingPrice * total Prod.snd allocations ≤ w.escrowTotal
  := by
  have haccounting := hvalid.accounting h
  have hrefunds : 0 ≤ total (refundDue clearingPrice (allocOf allocations) w.bids) w.ids :=
    total_nonneg fun id _ => hvalid.refundDue_nonneg h id
  omega

/-- Valid allocations of no more than the supply pass the validation. -/
theorem ValidAllocations.validate_eq_ok (hsupply : total Prod.snd allocations ≤ MAX_I128) :
  allocations.foldlM (validate clearingPrice w.bids) ⟨fun _ => none, 0, 0⟩
    = .ok ⟨allocOf allocations, total Prod.snd allocations,
        clearingPrice * total Prod.snd allocations⟩
  := by
  have hok : ∃ v, allocations.foldlM (validate clearingPrice w.bids) ⟨fun _ => none, 0, 0⟩
      = .ok v := by
    apply Checks.foldlM_succeeds (motive := ValidatedSoFar clearingPrice w.bids) ValidatedSoFar.nil
    · rintro pre ⟨id, allocated⟩ v hpre hsofar
      have hmem : (id, allocated) ∈ allocations := hpre.mem (by simp)
      obtain ⟨bid, hbid⟩ := hvalid.valid _ hmem
      have hnone : v.alloc id = none := by
        have hnodup := (hpre.sublist.map Prod.fst).nodup hvalid.nodup
        rw [List.map_append, List.nodup_append] at hnodup
        rw [hsofar.alloc_eq, allocOf, List.lookup_eq_none_iff]
        intro entry hentry
        rw [bne_iff_ne]
        apply (hnodup.2.2 _ (List.mem_map_of_mem hentry) id (by simp)).symm
      obtain ⟨hsum, hsumLe⟩ := hvalid.total_part hpre
      obtain ⟨hpaid, hpaidLe⟩ := hvalid.cost_part hpre
      rw [total_append, total_cons, total_nil, add_zero, ← hsofar.sum_eq] at hsum hsumLe
      simp only [total_append, total_cons, total_nil, add_zero, mul_add, ← hsofar.proceeds_eq]
        at hpaid hpaidLe
      have hescrow := (h.bid_sound id bid hbid.bid_eq).escrow_le
      have hcost : 0 ≤ clearingPrice * allocated := hbid.cost_nonneg
      have hrefund : 0 ≤ bid.escrow - clearingPrice * allocated := hbid.refund_nonneg
      have hproceeds := hvalid.proceeds_le h
      have htotal := h.escrowTotal_le
      refine ⟨_, Escrow.validate_eq_ok.mpr ⟨bid, hbid, hnone, ?_, ?_, ?_, ?_, rfl⟩⟩
      · apply inI128_of_nonneg <;> omega
      · apply inI128_of_nonneg <;> omega
      · apply inI128_of_nonneg <;> omega
      · apply inI128_of_nonneg <;> omega
    · rintro pre ⟨id, allocated⟩ v v' _ hsofar hstep
      apply hsofar.snoc hstep
  obtain ⟨v, hv⟩ := hok
  have hsofar := validatedSoFar_of_eq_ok hv
  rw [hv, ← hsofar.proceeds_eq, ← hsofar.alloc_eq, ← hsofar.sum_eq]

/-- The refunds of valid allocations go through. -/
theorem ValidAllocations.refunds_eq_ok (husdc : env.usdcAccepts = true) (effects : List Effect) :
  ∃ r, w.ids.foldlM (refundBid selfAddr env clearingPrice (allocOf allocations))
    ⟨w.bids, (w.balances, effects), 0, 0⟩ = .ok r
  := by
  apply Checks.foldlM_succeeds (motive := RefundedSoFar selfAddr clearingPrice
    (allocOf allocations) w.bids (w.balances, effects)) RefundedSoFar.nil
  · intro pre id r hpre hsofar
    have hmem : id ∈ w.ids := hpre.mem (by simp)
    have hid : id ∉ pre := not_mem_of_concat w.ids_nodup hpre
    obtain ⟨bid, hbid⟩ := (h.bids_iff id).mpr hmem
    have hcurrent : r.bids id = some bid := by rw [hsofar.bids_eq, deactivate, if_neg hid, hbid]
    cases hactive : bid.active with
    | false => exact ⟨r, refundBid_eq_ok.mpr ⟨bid, hcurrent, .inl ⟨hactive, rfl⟩⟩⟩
    | true =>
      have hdue : refundDue clearingPrice (allocOf allocations) w.bids id
          = bid.escrow - clearingPrice * (allocOf allocations id).getD 0 := by
        rw [refundDue, activeBid_of_active hbid hactive, Option.elim_some]
      have hescrow : activeEscrow w.bids id = bid.escrow := activeEscrow_of_active hbid hactive
      have hdues := total_part_le hpre fun k _ => hvalid.refundDue_nonneg h k
      have hescrows := total_part_le hpre fun k _ => activeEscrow_nonneg (h.bid_sound k)
      have hpaid : 0 ≤ total (refundDue clearingPrice (allocOf allocations) w.bids) pre :=
        total_nonneg fun k _ => hvalid.refundDue_nonneg h k
      have hheld : 0 ≤ total (activeEscrow w.bids) pre :=
        total_nonneg fun k _ => activeEscrow_nonneg (h.bid_sound k)
      rw [total_append, total_cons, total_nil, add_zero, hdue, ← hsofar.sumRefund_eq] at hdues
      rw [total_append, total_cons, total_nil, add_zero, hescrow, ← hsofar.sumEscrow_eq,
        ← h.escrowTotal_eq] at hescrows
      rw [← hsofar.sumRefund_eq] at hpaid
      rw [← hsofar.sumEscrow_eq] at hheld
      have hbalance : r.paid.1 selfAddr = w.balances selfAddr - _ :=
        hsofar.balance_eq h.bidder_ne fun k _ => hvalid.refundDue_nonneg h k
      rw [← hsofar.sumRefund_eq] at hbalance
      have haccounting := hvalid.accounting h
      have hproceeds := hvalid.proceeds_nonneg
      have hcost := hvalid.cost_nonneg id
      have hrefund := hvalid.refundDue_nonneg h id
      have hcovered := h.balance_ge
      have htotal := h.escrowTotal_le
      have hpos := (h.bid_sound id bid hbid).escrow_pos
      rw [hdue] at hrefund
      refine ⟨_, refundBid_eq_ok.mpr ⟨bid, hcurrent, .inr ⟨hactive, ?_, ?_, _,
        payOut_eq_ok.mpr ⟨fun _ => ⟨husdc, ?_⟩, rfl⟩, ?_, ?_, rfl⟩⟩⟩
      · apply inI128_of_nonneg <;> omega
      · apply inI128_of_nonneg <;> omega
      · omega
      · apply inI128_of_nonneg <;> omega
      · apply inI128_of_nonneg <;> omega
  · intro pre id r r' hpre hsofar hstep
    apply hsofar.snoc (not_mem_of_concat w.ids_nodup hpre) hstep

end Loops

/-! ### The settlement succeeds -/

/-- What a settlement at a clearing price needs, beside the acceptance of its calls: the
allocations are valid and make up the supply, the fee can be computed, and whatever is paid to
the treasury and to the artist leaves the contract. -/
structure Balanced (selfAddr : Address) (clearingPrice : ℤ) (allocations : List (ℕ × ℤ))
    (w : World) : Prop extends ValidAllocations clearingPrice w.bids allocations where
  supply : total Prod.snd allocations + w.params.artistRetention + w.params.treasuryRetention
    + w.params.leftoverToArtist = w.params.totalSupply
  fee_le : clearingPrice * total Prod.snd allocations * PLATFORM_FEE_BPS ≤ MAX_I128
  treasury_ne : w.params.treasury = selfAddr →
    platformFee (clearingPrice * total Prod.snd allocations) = 0
  payout_ne : w.params.artistPayout = selfAddr →
    clearingPrice * total Prod.snd allocations
      - platformFee (clearingPrice * total Prod.snd allocations) = 0

/-- The host lets a settlement go through. -/
structure AcceptsSettlement (env : Env) (w : World) : Prop where
  auth : env.auth w.params.admin = true
  usdcAccepts : env.usdcAccepts = true
  mintSettleAccepts : env.mintSettleAccepts = true

section Settling

variable {selfAddr : Address} {env : Env} {clearingPrice : ℤ} {allocations : List (ℕ × ℤ)}
  {w : World} (h : Solvent selfAddr w)

include h

/-- Without the retentions, the supply is what is allocated. -/
theorem Balanced.total_mem_Icc (hb : Balanced selfAddr clearingPrice allocations w) :
  0 ≤ total Prod.snd allocations ∧ total Prod.snd allocations ≤ MAX_I128
  := by
  have hsupply := hb.supply
  obtain ⟨_, hle, hartist, htreasury, hleftover, _⟩ := h.params_sound
  use (hb.total_part (List.prefix_refl allocations)).1
  omega

/-- A balanced settlement of a closed contract succeeds. -/
theorem Balanced.closeAndSettle_succeeds (hb : Balanced selfAddr clearingPrice allocations w)
    (hclosed : w.status = .Closed) {token : Address}
    (htoken : w.params.fractionToken = some token) (henv : AcceptsSettlement env w) :
  ∃ w' effects, closeAndSettle selfAddr env clearingPrice allocations w = .ok (w', effects)
  := by
  obtain ⟨_, hle⟩ := hb.total_mem_Icc h
  set proceeds := clearingPrice * total Prod.snd allocations with hproceeds
  obtain ⟨r, hr⟩ := hb.refunds_eq_ok h henv.usdcAccepts
    [.mintSettle token (winners w.bids allocations
      ++ retentions w.params (w.params.artistRetention + w.params.leftoverToArtist))]
  have hrefunded := refundedSoFar_of_eq_ok w.ids_nodup hr
  have hbalance : r.paid.1 selfAddr = w.balances selfAddr - _ :=
    hrefunded.balance_eq h.bidder_ne fun k _ => hb.refundDue_nonneg h k
  rw [← hrefunded.sumRefund_eq] at hbalance
  have haccounting := hb.accounting h
  rw [← hrefunded.sumRefund_eq, ← hproceeds] at haccounting
  have hescrow := hrefunded.sumEscrow_eq
  rw [← h.escrowTotal_eq] at hescrow
  have hrefund : 0 ≤ r.sumRefund := by
    rw [hrefunded.sumRefund_eq]
    apply total_nonneg fun k _ => hb.refundDue_nonneg h k
  have hnonneg : 0 ≤ proceeds := hb.proceeds_nonneg
  obtain ⟨hfee, hfeeLe⟩ := platformFee_mem_Icc hnonneg
  have hcovered := h.balance_ge
  have htotal := h.escrowTotal_le
  have hfeePaid : ∃ paid, payOut selfAddr env .platformFee w.params.treasury (platformFee proceeds)
      r.paid = .ok paid ∧ paid.1 selfAddr = r.paid.1 selfAddr - platformFee proceeds :=
    payOut_succeeds henv.usdcAccepts (by omega) hb.treasury_ne hfee
  obtain ⟨paid, hpaid, hpaidBalance⟩ := hfeePaid
  have hnetPaid : ∃ paid', payOut selfAddr env .artistNet w.params.artistPayout
      (proceeds - platformFee proceeds) paid = .ok paid'
      ∧ paid'.1 selfAddr = paid.1 selfAddr - (proceeds - platformFee proceeds) :=
    payOut_succeeds henv.usdcAccepts (by omega) hb.payout_ne (by omega)
  obtain ⟨paid', hpaid', hpaidBalance'⟩ := hnetPaid
  obtain ⟨_, hsupplyLe, hartist, htreasury, hleftover, _⟩ := h.params_sound
  have hsupply := hb.supply
  have hfeeRange : InI128 (proceeds * PLATFORM_FEE_BPS) :=
    inI128_of_nonneg (mul_nonneg hnonneg (by decide)) hb.fee_le
  have hnetRange : InI128 (proceeds - platformFee proceeds) := by
    apply inI128_of_nonneg <;> omega
  have houtflow : InI128 (r.sumRefund + platformFee proceeds) := by
    apply inI128_of_nonneg <;> omega
  have hbelt : r.sumRefund + platformFee proceeds + (proceeds - platformFee proceeds)
      = r.sumEscrow := by omega
  have hdelta : w.balances selfAddr - paid'.1 selfAddr = r.sumEscrow := by omega
  have hescrowRange : InI128 r.sumEscrow := by
    apply inI128_of_nonneg <;> omega
  have hsupplyOk : checkSupply w.params (total Prod.snd allocations) = .ok () := by
    apply checkSupply_eq_ok.mpr
    refine ⟨?_, ?_, ?_, hsupply⟩ <;> apply inI128_of_nonneg <;> omega
  have hartistRange : InI128 (w.params.artistRetention + w.params.leftoverToArtist) := by
    apply inI128_of_nonneg <;> omega
  exact ⟨_, _, closeAndSettle_eq_ok.mpr ⟨henv.auth, hclosed, token, htoken, _,
    hb.validate_eq_ok h hle, hsupplyOk, _, hb.winners_eq_ok, hartistRange, henv.mintSettleAccepts,
    r, hr, hfeeRange, hnetRange, paid, hpaid, paid', hpaid', houtflow, hbelt ▸ hescrowRange, hbelt,
    hdelta ▸ hescrowRange, hdelta, rfl, rfl⟩⟩

/-- A settlement that has succeeded is balanced. -/
theorem balanced_of_eq_ok {w' : World} {effects : List Effect}
    (hcall : closeAndSettle selfAddr env clearingPrice allocations w = .ok (w', effects)) :
  Balanced selfAddr clearingPrice allocations w
  := by
  obtain ⟨_, hs⟩ := settlement_of_eq_ok hcall
  obtain ⟨_, _, token, _, v, hv, _, recipients, _, _, _, r, hr, hfee, _, paid, hpaid, paid', hpaid',
    _, _, _, _, hdelta, _⟩ := closeAndSettle_eq_ok.mp hcall
  have hvalidated := validatedSoFar_of_eq_ok hv
  have hrefunded := refundedSoFar_of_eq_ok w.ids_nodup hr
  rw [hvalidated.alloc_eq] at hrefunded
  have hbalance : r.paid.1 selfAddr = w.balances selfAddr - _ :=
    hrefunded.balance_eq h.bidder_ne fun k _ => hs.refundDue_nonneg h k
  rw [← hrefunded.sumRefund_eq] at hbalance
  have haccounting := hs.accounting h
  rw [h.escrowTotal_eq, ← hrefunded.sumRefund_eq, ← hrefunded.sumEscrow_eq,
    ← hvalidated.proceeds_eq] at haccounting
  have hnonneg := hs.proceeds_nonneg
  rw [← hvalidated.proceeds_eq] at hnonneg
  obtain ⟨hfeeNonneg, hfeeLe⟩ := platformFee_mem_Icc hnonneg
  constructor
  · apply hs.toValidAllocations
  · apply hs.supply
  · rw [← hvalidated.proceeds_eq]
    apply hfee.2
  · intro htreasury
    rw [← hvalidated.proceeds_eq]
    rw [htreasury] at hpaid
    have hkept := balance_eq_of_payOut_self hpaid
    have hle := balance_ge_of_payOut hpaid' (by omega)
    omega
  · intro hpayout
    rw [← hvalidated.proceeds_eq]
    rw [hpayout] at hpaid'
    have hkept := balance_eq_of_payOut_self hpaid'
    have hle := balance_ge_of_payOut hpaid (by omega)
    omega

end Settling

end Escrow
