import Tove.Escrow.Contract

/-!
# What the calls of the escrow do

One lemma for each call says when the call succeeds, what the new world is, and which effects
it has.
-/

namespace Escrow

open Soroban Ledgers Totals

variable {selfAddr : Address} {env : Env} {w w' : World} {effects : List Effect}

/-! ### Deployment -/

/-- The parameters of an offering describe one that can settle: the supply is a positive 128-bit
integer, and the retentions are part of it. -/
structure Params.Sound (p : Params) : Prop where
  supply_pos : 0 < p.totalSupply
  supply_le : p.totalSupply ≤ MAX_I128
  artistRetention_nonneg : 0 ≤ p.artistRetention
  treasuryRetention_nonneg : 0 ≤ p.treasuryRetention
  leftover_nonneg : 0 ≤ p.leftoverToArtist
  retained_le : p.artistRetention + p.treasuryRetention + p.leftoverToArtist ≤ p.totalSupply

/-- A new contract is open, and has no bids. -/
theorem construct_eq_ok {args : ConstructorArgs} {balances : Ledger Address}
    (h : construct args balances = .ok w) :
  w = ⟨w.params, .Open, 0, 0, fun _ => none, fun _ => none, balances⟩ ∧ w.params.Sound
  := by
  simp only [construct, errorIf, Checks.bind_eq_ok, Checks.rejectIf_eq_ok, i128_eq_ok,
    Checks.pure_eq_ok, exists_const] at h
  obtain ⟨hargs, _, ⟨_, rfl⟩, _, ⟨_, rfl⟩, hle, rfl⟩ := h
  have := args.totalSupply_le
  use rfl
  constructor <;> simp only <;> omega

theorem bindToken_eq_ok {token : Address} :
  bindToken env token w = .ok (w', effects)
    ↔ env.auth w.params.admin = true
      ∧ w.params.fractionToken = none
      ∧ { w with params := { w.params with fractionToken := some token } } = w'
      ∧ [.event (.TokenBound token)] = effects
  := by
  simp only [bindToken, errorIf, Checks.bind_eq_ok, Checks.rejectIf_eq_ok, requireAuth_eq_ok,
    Checks.pure_eq_ok, exists_const, Prod.mk.injEq, ne_eq, not_not]

/-! ### Bidding -/

theorem requireOpen_eq_ok {x : Unit} :
  requireOpen w = .ok x ↔ w.status = .Open
  := by simp [requireOpen]

/-- The world after a bid has been recorded, and its escrow has been pulled. -/
def World.withBid (w : World) (selfAddr bidder : Address) (price count : ℤ) (key : BytesN32) :
    World where
  params := w.params
  status := w.status
  bidSeq := w.bidSeq + 1
  escrowTotal := w.escrowTotal + price * count
  bids := Function.update w.bids (w.bidSeq + 1) (some ⟨bidder, price, count, price * count, true⟩)
  idem := Function.update w.idem key (some (w.bidSeq + 1))
  balances := w.balances.move bidder selfAddr (price * count)

theorem submitBid_eq_ok {bidder : Address} {price count : ℤ} {key : BytesN32} {id : ℕ} :
  submitBid selfAddr env bidder price count key w = .ok (id, w', effects)
    ↔ env.auth bidder = true
      ∧ w.status = .Open
      ∧ (0 < price ∧ 0 < count)
      ∧ w.idem key = none
      ∧ InI128 (price * count)
      ∧ w.bidSeq + 1 ≤ MAX_U32
      ∧ InI128 (w.escrowTotal + price * count)
      ∧ (env.usdcAccepts = true ∧ 0 ≤ price * count ∧ price * count ≤ w.balances bidder)
      ∧ w.bidSeq + 1 = id
      ∧ w.withBid selfAddr bidder price count key = w'
      ∧ [.usdcTransfer (.escrow (w.bidSeq + 1)) bidder selfAddr (price * count),
          .event (.BidSubmitted bidder (w.bidSeq + 1) price count (price * count))] = effects
  := by
  simp only [submitBid, errorIf, Checks.bind_eq_ok, Checks.rejectIf_eq_ok, requireAuth_eq_ok,
    requireOpen_eq_ok, i128_eq_ok, u32_eq_ok, usdcTransfer_eq_ok, Checks.pure_eq_ok, exists_const,
    and_assoc, exists_and_left, exists_eq_left', Prod.mk.injEq, not_or, not_le, ne_eq, not_not]
  rfl

/-- The world after a bid has been cancelled, and its escrow has been returned. -/
def World.withoutBid (w : World) (selfAddr : Address) (id : ℕ) (bid : Bid) : World :=
  { w with
    escrowTotal := w.escrowTotal + -bid.escrow
    bids := Function.update w.bids id (some { bid with active := false })
    balances := w.balances.move selfAddr bid.bidder bid.escrow }

theorem loadBid_eq_ok {id : ℕ} {bid : Bid} :
  loadBid w id = .ok bid ↔ w.bids id = some bid
  := by
  unfold loadBid
  cases w.bids id <;> simp

theorem cancelBid_eq_ok {caller : Address} {id : ℕ} :
  cancelBid selfAddr env caller id w = .ok (w', effects)
    ↔ env.auth caller = true
      ∧ w.status = .Open
      ∧ ∃ bid, w.bids id = some bid
        ∧ bid.bidder = caller
        ∧ bid.active = true
        ∧ InI128 (-bid.escrow)
        ∧ InI128 (w.escrowTotal + -bid.escrow)
        ∧ (env.usdcAccepts = true ∧ 0 ≤ bid.escrow ∧ bid.escrow ≤ w.balances selfAddr)
        ∧ w.withoutBid selfAddr id bid = w'
        ∧ [.usdcTransfer (.cancelRefund id) selfAddr bid.bidder bid.escrow,
            .event (.BidCancelled bid.bidder id bid.escrow)] = effects
  := by
  simp only [cancelBid, errorIf, Checks.bind_eq_ok, Checks.rejectIf_eq_ok, requireAuth_eq_ok,
    requireOpen_eq_ok, loadBid_eq_ok, i128_eq_ok, usdcTransfer_eq_ok, Checks.pure_eq_ok,
    exists_const, and_assoc, exists_and_left, exists_eq_left', Prod.mk.injEq, ne_eq, not_not,
    Bool.not_eq_false]
  rfl

/-! ### The lifecycle -/

theorem closeOffering_eq_ok :
  closeOffering env w = .ok (w', effects)
    ↔ env.auth w.params.admin = true
      ∧ w.status = .Open
      ∧ { w with status := .Closed } = w'
      ∧ [.event .OfferingClosed] = effects
  := by
  simp only [closeOffering, Checks.bind_eq_ok, requireAuth_eq_ok, requireOpen_eq_ok,
    Checks.pure_eq_ok, exists_const, Prod.mk.injEq]

theorem cancelOffering_eq_ok :
  cancelOffering env w = .ok (w', effects)
    ↔ env.auth w.params.admin = true
      ∧ w.status ≠ .Settled
      ∧ w.escrowTotal ≤ 0
      ∧ { w with status := .Cancelled } = w'
      ∧ [.event .OfferingCancelled] = effects
  := by
  simp only [cancelOffering, errorIf, Checks.bind_eq_ok, Checks.rejectIf_eq_ok, requireAuth_eq_ok,
    Checks.pure_eq_ok, exists_const, Prod.mk.injEq, not_lt, gt_iff_lt, ne_eq]

end Escrow
