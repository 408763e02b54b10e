import Tove.Marketplace.AcceptSafety

/-!
# When a failed trade has not been settled

A trade that has failed may be followed by another one for the same quote, when its failure has left
the quote open. The settler then has no marker for either in the runs in which the work on the
trades for every quote is careful.
-/

namespace Marketplace

open Soroban Settler Relay Transition

/-! ### Failed trades -/

/-- The work on the trades for every quote is careful. -/
def QuoteCareful (m : Market) (l : MarketLabel) (m' : Market) : Prop :=
  match l with
  | .settle l => Careful byQuote m.settlement l m'.settlement
  | .insert _ _ | .other => True

section Failed

variable {parties : Parties} {reconcileGraceMs : ℕ} {m m' : Market} {l : MarketLabel} {id : ℕ}
  {row : SecondaryTrade}

/-- A trade that is no longer pending stays as it is. -/
theorem MarketStep.kept (hstep : MarketStep parties reconcileGraceMs m l m')
    (hrow : m.settlement.db.trades[id]? = some row) (hfinal : row.status ≠ .pending) :
  m'.settlement.db.trades[id]? = some row
  := by
  cases hstep with
  | settle hsettle => exact hsettle.updates.kept hrow hfinal
  | insert _ hrecord =>
    obtain ⟨_, rfl⟩ := recordTrade_eq_some hrecord
    exact getElem?_concat_eq_some.mpr (.inl hrow)
  | request _ => exact hrow
  | enqueue _ _ _ => exact hrow
  | rows _ _ => exact hrow

/-- When a trade has failed, the settler has no marker for its quote. -/
theorem MarketInvariant.unsettled (h : MarketInvariant byQuote m)
    (hrow : m.settlement.db.trades[id]? = some row) (hfailed : row.status = .failed) :
  isSettled m.settlement.world row.rfqId row.quoteId = false
  := by
  by_contra hsettled
  rw [Bool.not_eq_false] at hsettled
  obtain ⟨k, row', hrow', hrfq, hquote, hlanded⟩ := h.settlement.landed _ _ hsettled
  have hended := (h.settlement.sound id row hrow).failed hfailed
  have hin : m.settlement.In byQuote (byQuote.of id row.rfqId row.quoteId) k :=
    ⟨row', hrow', by rw [hrfq, hquote]; rfl⟩
  apply (hended k hin).1 hlanded

/-- A trade that has failed has not been settled, and it never will be, in the runs whose steps
meet the condition; nor is any other trade for its quote. -/
theorem failed_not_settled {ls : List MarketLabel}
    (h : ((market parties reconcileGraceMs).restrict QuoteCareful).Reachable m)
    (hrow : m.settlement.db.trades[id]? = some row) (hfailed : row.status = .failed)
    (hrun : ((market parties reconcileGraceMs).restrict QuoteCareful).Run m ls m') :
  isSettled m'.settlement.world row.rfqId row.quoteId = false
  := by
  have hI : MarketInvariant byQuote m' := by
    apply (h.run hrun).invariant
    · intro m₀ hopened
      apply Opened.invariant hopened
    · rintro m₀ l m₁ hI ⟨hstep, hcare⟩
      apply hI.step hstep
      rintro i rfl
      apply hcare
  have hkept : m'.settlement.db.trades[id]? = some row := by
    apply hrun.preserves (I := fun t => t.settlement.db.trades[id]? = some row) _ hrow
    rintro t l t' ht ⟨hstep, _⟩
    apply hstep.kept ht
    rw [hfailed]
    nofun
  apply hI.unsettled hkept hfailed

end Failed

/-! ### A buyer with the money for one trade -/

/-- The buyer has what a trade costs. -/
def sampleWorld : World where
  settled _ _ := false
  usdc := fun a => if a = .account 20 then 100 else 0

/-- An RFQ with two quotes, of a buyer who can pay for one. -/
def sampleShort : Market where
  settlement := { sampleOpened.settlement with world := sampleWorld }
  requests := sampleOpened.requests

theorem acceptQuote_sampleWorld :
  acceptQuote sampleHost (settleJob (sampleRequest 1) (sampleContext 3) ⟨1000⟩ none).terms
    sampleWorld = .ok (sampleTraded sampleWorld 1 (.account 30))
  := rfl

/-- The buyer has accepted the first quote, and the job of the trade has been queued. -/
def sampleBought : Market :=
  (sampleShort.goto 0 (.unexpired (sampleRequest 1) (sampleContext 3))).accept 0 (sampleRequest 1)
    (sampleContext 3) ⟨1000⟩

/-- A request records its trade, when no trade of the RFQ is in flight. -/
theorem reachable_accept {parties : Parties} {reconcileGraceMs : ℕ} {m : Market}
    (h : ((market parties reconcileGraceMs).restrict QuoteCareful).Reachable m) {r : ℕ}
    {req : AcceptRequest} {rfq : Rfq} {ctx : AcceptContext} {entry : SellerAuthEntry}
    (hidle : m.requests r = .idle) (hrfq : resolveRfq req m.settlement.db.rfqs = .ok rfq)
    (hquote : resolveQuote parties req rfq m.settlement.db.quotes m.settlement.now = .ok ctx)
    (hfresh : ¬ Lapsed m.settlement.ledger req.signatureExpirationLedger)
    (hrecord : recordTrade m.settlement.db.trades req m.settlement.now
      = some (m.settlement.db.trades ++ [newTrade req m.settlement.now]))
    (hentry : ctx.quote.sellerAuthEntry = some entry) :
  ((market parties reconcileGraceMs).restrict QuoteCareful).Reachable
    ((m.goto r (.unexpired req ctx)).accept r req ctx entry)
  := by
  obtain ⟨_, hrun⟩ : ∃ ls, ((market parties reconcileGraceMs).restrict QuoteCareful).Run m ls
      (m.goto r (.unexpired req ctx)) :=
    run_request (fun _ _ => trivial) hidle hrfq hquote hfresh
  obtain ⟨_, hinsert, hqueue⟩ := @accept_steps parties reconcileGraceMs _ r req ctx entry
    (m.goto_self r (.unexpired req ctx)) hrecord hentry
  exact ((h.run hrun).step ⟨hinsert, trivial⟩).step ⟨hqueue, trivial⟩

theorem sampleBought_reachable :
  ((market sampleParties 180000).restrict QuoteCareful).Reachable sampleBought
  := by
  have hopened : ((market sampleParties 180000).restrict QuoteCareful).Reachable sampleShort :=
    .init ⟨rfl, fun _ => rfl, fun _ _ => rfl, fun _ => rfl⟩
  have hrfq : resolveRfq (sampleRequest 1) sampleShort.settlement.db.rfqs = .ok sampleRfq := rfl
  exact reachable_accept hopened rfl hrfq rfl (by decide) rfl rfl

/-- The first attempt has sent a transaction, and has not seen what becomes of it. -/
def sampleRetried : Market where
  settlement := (sampleBought.settlement.sent 0 .pending).setWork 0
    { (sampleBought.settlement.sent 0 .pending).works 0 with attemptsMade := 1 }
  requests := sampleBought.requests

theorem sampleRetried_reachable :
  ((market sampleParties 180000).restrict QuoteCareful).Reachable sampleRetried
  := by
  have hcalm : ∀ k, sampleBought.settlement.Unfailed k := by
    intro k
    cases k with
    | zero =>
      constructor
      · intro row hrow
        rw [← Option.some.inj hrow]
        nofun
      · exact fun _ => rfl
    | succ k =>
      constructor
      · intro row hrow
        cases hrow
      · exact fun _ => rfl
  obtain ⟨_, hsent⟩ : ∃ ls, ((working 180000).restrict (Careful byQuote)).Run
      sampleBought.settlement ls
      ((sampleBought.settlement.sent 0 .pending).goto 0 0 (.polling 0)) := by
    apply sends_undisturbed (d := settleJob (sampleRequest 1) (sampleContext 3) ⟨1000⟩ none)
    · rfl
    · rfl
    · exact fun _ => rfl
    · rfl
    · rfl
    · exact fun _ _ k _ => hcalm k
    · rfl
    · decide
    · decide
    · exact acceptQuote_sampleWorld
  obtain ⟨_, hretried⟩ : ∃ ls, ((working 180000).restrict (Careful byQuote)).Run
      sampleBought.settlement ls sampleRetried.settlement :=
    run_retry (run_advance ⟨_, hsent⟩ rfl .timedOut) rfl rfl rfl rfl
  apply sampleBought_reachable.run
  exact run_work (fun _ _ _ hcare => hcare) hretried sampleBought.requests

/-- The buyer accepts the quote again. -/
def sampleAgain : AcceptRequest :=
  { sampleRequest 1 with idempotencyKeyHash := 2, signatureExpirationLedger := 500 }

/-- The first trade, whose second attempt has found the signature of the buyer expired. -/
def sampleFailed : SecondaryTrade :=
  { newTrade (sampleRequest 1) 0 with
    status := .failed
    failureReason := some .buyer_signature_expired }

/-- The transaction of the first attempt is dropped, and the signature of the buyer expires, so that
the second attempt fails the trade. The buyer accepts the quote again, and neither trade has been
settled. -/
theorem failed_not_settled_sampleAgain :
  ∃ (m : Market) (row row' : SecondaryTrade),
    ((market sampleParties 180000).restrict QuoteCareful).Reachable m
    ∧ m.settlement.db.trades = [row, row'] ∧ row.status = .failed ∧ row'.status = .pending
    ∧ row'.rfqId = row.rfqId ∧ row'.quoteId = row.quoteId
    ∧ isSettled m.settlement.world row.rfqId row.quoteId = false
  := by
  have h₀ := sampleRetried_reachable
  have h₁ := h₀.step ⟨.settle (.work (.spent (i := 0) (show _[0]? = some TxStatus.pending from rfl)
    (.inr rfl))), trivial⟩
  have h₂ := h₁.step ⟨.settle (.work (.tick (show 0 ≤ 130 by decide) (le_refl 0))),
    trivial⟩
  have h₃ := h₂.step ⟨.settle (.work (.load (i := 0) (a := 0) rfl (by decide) rfl rfl rfl)), trivial⟩
  have h₄ := h₃.step ⟨.settle (.work (.advance (i := 0) (a := 0) rfl (.unsettled rfl))), trivial⟩
  have h₅ := h₄.step ⟨.settle (.work (.advance (i := 0) (a := 0) rfl .balanceUnread)), trivial⟩
  have h₆ := h₅.step ⟨.settle (.work (.advance (i := 0) (a := 0) rfl (.verified rfl))), trivial⟩
  have h₇ := h₆.step ⟨.settle (.work (.advance (i := 0) (a := 0) rfl (.buyerExpired (le_refl 130)
    (show ¬ Lapsed 130 1000 by decide) (show Lapsed 130 120 by decide)))), trivial⟩
  have h₈ := h₇.step ⟨.settle (.work (.terminal (i := 0) (a := 0) rfl rfl rfl rfl)), by
    rintro g - k - ⟨hpending, -⟩
    cases k with
    | zero => cases hpending with
      | tail _ hpending => cases hpending
    | succ k => cases hpending⟩
  have h₉ := h₈.step ⟨.settle (.fail (i := 0) (a := 0) rfl rfl), trivial⟩
  have hrfq : resolveRfq sampleAgain sampleShort.settlement.db.rfqs = .ok sampleRfq := rfl
  have hrecord : recordTrade [sampleFailed] sampleAgain 0
      = some ([sampleFailed] ++ [newTrade sampleAgain 0]) := rfl
  have h₁₀ := @reachable_accept sampleParties 180000 _ h₉ 1 sampleAgain sampleRfq (sampleContext 3)
    ⟨1000⟩ rfl hrfq rfl (show ¬ Lapsed 130 500 by decide) hrecord rfl
  have hunsettled := @failed_not_settled sampleParties 180000 _ _ 0 sampleFailed _ h₁₀ rfl rfl (.nil _)
  exact ⟨_, sampleFailed, newTrade sampleAgain 0, h₁₀, rfl, rfl, rfl, rfl, rfl, hunsettled⟩

/-- Not every failed trade is without a marker: the transaction of the first attempt is applied
after the second attempt has asked the settler, and the buyer, who has paid by then, is found to
be short of USDC. -/
theorem not_forall_failed_not_settled :
  ¬ ∀ (parties : Parties) (reconcileGraceMs : ℕ) (m : Market) (id : ℕ) (row : SecondaryTrade),
    (market parties reconcileGraceMs).Reachable m →
    m.settlement.db.trades[id]? = some row → row.status = .failed →
    isSettled m.settlement.world row.rfqId row.quoteId = false
  := by
  intro hall
  have h₀ := System.Reachable.of_restrict _ sampleRetried_reachable
  have h₁ := h₀.step (.settle (.work (.load (i := 0) (a := 0) rfl (by decide) rfl rfl rfl)))
  have h₂ := h₁.step (.settle (.work (.advance (i := 0) (a := 0) rfl (.unsettled rfl))))
  have h₃ := h₂.step (.settle (.work (.applied (i := 0) rfl
    (show _[0]? = some TxStatus.pending from rfl) (Nat.zero_le 120) (Nat.zero_le 1000)
    acceptQuote_sampleWorld)))
  have h₄ := h₃.step (.settle (.work (.shortfall (i := 0) (a := 0) rfl rfl
    (show (0 : ℤ) < 100 by decide))))
  have h₅ := h₄.step (.settle (.fail (i := 0) (a := 0) rfl rfl))
  cases hall _ _ _ 0 _ h₅ rfl rfl

end Marketplace
