import Tove.Escrow.Conservation
import Tove.Relay.Safety

/-!
# The cancel worker

`OfferingBidCancelProcessor` relays the `cancel_bid` of a bid, and takes its row from
`canceling` to `canceled`, or back to `escrowed` once it holds that no refund has been sent. It
has the defect of the escrow worker: a refund that has landed unseen is followed by an expired
signature, and the row goes back to `escrowed` although the bid has been refunded.
-/

namespace Bids

open Soroban Ledgers Escrow Relay Transition

/-! ### The job -/

/-- A `cancel_bid` of a row, by the address of the contract, the bidder and the id of the bid on
chain. -/
structure CancelRow where
  escrowContract : Address
  caller : Address
  chainBidId : ℕ

/-- The contract, and the effects of its calls since the job was queued. -/
structure Chain where
  world : World
  effects : List Effect

/-- The job of the cancel worker for a row.  Nobody else cancels the bid of the row. -/
def cancelJob (row : CancelRow) (verdict : Option TransferErrorReason)
    (signatureExpirationLedger : ℕ) : Job Chain where
  expects := .canceling
  succeeds := .canceled
  fails := .escrowed
  succeeds_ne := nofun
  fails_ne := nofun
  fails_ne_succeeds := nofun
  verdict
  signatureExpirationLedger
  call env c :=
    match cancelBid row.escrowContract env row.caller row.chainBidId c.world with
    | .ok (w', effects) => some ⟨w', c.effects ++ effects⟩
    | .error _ => none
  others c c' := ∃ l, Escrow.Step row.escrowContract c.world l c'.world
    ∧ c'.effects = c.effects ++ l.effects
    ∧ ∀ env caller effects, l ≠ .call env (.cancelBid caller row.chainBidId) effects

/-- The bid of the row is held by the contract. -/
def StillActive (row : CancelRow) (c : Chain) : Prop :=
  ∃ bid, c.world.bids row.chainBidId = some bid ∧ bid.active = true

/-- When the job is queued, the bid of the row is held by the contract. -/
def Held (row : CancelRow) (c : Chain) : Prop :=
  (Escrow.system row.escrowContract).Reachable c.world ∧ c.effects = [] ∧ StillActive row c

section Job

variable {row : CancelRow} {verdict : Option TransferErrorReason} {expiry : ℕ}

/-- The bid of a row is on record, and it is active unless the offering has been settled. -/
def Kept (row : CancelRow) (w : World) : Prop :=
  ∃ bid, w.bids row.chainBidId = some bid ∧ (w.status ≠ .Settled → bid.active = true)

/-- A step that does not cancel the bid of a row keeps it. -/
theorem Kept.step {w w' : World} {l : Escrow.Label} (h : Kept row w)
    (hsolvent : Solvent row.escrowContract w)
    (hstep : Escrow.Step row.escrowContract w l w')
    (hother : ∀ env caller effects, l ≠ .call env (.cancelBid caller row.chainBidId) effects) :
  Kept row w'
  := by
  obtain ⟨bid, hbid, hactive⟩ := h
  cases hstep with
  | failed _ => exact ⟨bid, hbid, hactive⟩
  | outside _ => exact ⟨bid, hbid, hactive⟩
  | call _ hcall =>
    rename_i env c effects _
    cases c with
    | bindToken token =>
      obtain ⟨_, _, rfl, _⟩ := bindToken_eq_ok.mp hcall
      exact ⟨bid, hbid, hactive⟩
    | submitBid bidder price count key =>
      rw [perform, Checks.bind_eq_ok] at hcall
      obtain ⟨⟨id, w₁, effects₁⟩, hcall, heq⟩ := hcall
      obtain ⟨_, _, _, _, _, _, _, _, _, rfl, _⟩ := submitBid_eq_ok.mp hcall
      obtain ⟨rfl, _⟩ := Prod.mk.inj (Checks.pure_eq_ok.mp heq)
      have hne : row.chainBidId ≠ w.bidSeq + 1 := by
        intro hnext
        rw [hnext, hsolvent.bids_next] at hbid
        cases hbid
      exact ⟨bid, (Function.update_of_ne hne ..).trans hbid, hactive⟩
    | cancelBid caller id =>
      obtain ⟨_, _, _, _, _, _, _, _, _, rfl, _⟩ := cancelBid_eq_ok.mp hcall
      have hne : row.chainBidId ≠ id := by
        rintro rfl
        apply hother _ _ _ rfl
      exact ⟨bid, (Function.update_of_ne hne ..).trans hbid, hactive⟩
    | closeOffering =>
      obtain ⟨_, hopen, rfl, _⟩ := closeOffering_eq_ok.mp hcall
      exact ⟨bid, hbid, fun _ => hactive (by simp [hopen])⟩
    | cancelOffering =>
      obtain ⟨_, hunsettled, _, rfl, _⟩ := cancelOffering_eq_ok.mp hcall
      exact ⟨bid, hbid, fun _ => hactive hunsettled⟩
    | closeAndSettle clearingPrice allocations =>
      obtain ⟨_, hs⟩ := settlement_of_eq_ok hcall
      have hmem : row.chainBidId ∈ w.ids := (hsolvent.bids_iff _).mp ⟨bid, hbid⟩
      rw [hs.world_eq]
      refine ⟨{ bid with active := false }, ?_, fun hunsettled => absurd rfl hunsettled⟩
      simp only [deactivate, if_pos hmem, hbid, Option.map_some]

end Job

/-! ### A cancel in the small offering -/

/-- The cancel of the bid of the small offering. -/
def sampleCancel : CancelRow where
  escrowContract := sampleEscrow
  caller := .account 20
  chainBidId := 1

end Bids
