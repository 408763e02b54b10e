import Tove.Escrow.Solvency
import Tove.Relay.Safety

/-!
# The escrow worker

`OfferingBidEscrowProcessor` relays the `submit_bid` of a bid, and takes its row from `submitted` to
`escrowed`, or to `failed` once it holds that no funds have moved.  An attempt whose transaction has
landed, but was not seen to land, is retried; when the signature has expired by then, the row
is latched as `failed` although the contract holds the escrow of the bid.
-/

namespace Bids

open Soroban Ledgers Escrow Relay Transition

/-! ### The job -/

/-- A `submit_bid` of a row, by the address of the contract, the bidder, the terms and the
idempotency key. -/
structure BidRow where
  escrowContract : Address
  bidder : Address
  price : ℤ
  count : ℤ
  idempotencyKey : BytesN32

/-- The job of the escrow worker for a row.  Nobody else submits a bid with the key of the row. -/
def escrowJob (row : BidRow) (verdict : Option TransferErrorReason)
    (signatureExpirationLedger : ℕ) : Job World where
  expects := .submitted
  succeeds := .escrowed
  fails := .failed
  succeeds_ne := nofun
  fails_ne := nofun
  fails_ne_succeeds := nofun
  verdict
  signatureExpirationLedger
  call env w :=
    match submitBid row.escrowContract env row.bidder row.price row.count row.idempotencyKey w with
    | .ok (_, w', _) => some w'
    | .error _ => none
  others w w' := ∃ l, Escrow.Step row.escrowContract w l w' ∧
    ∀ env bidder price count effects,
      l ≠ .call env (.submitBid bidder price count row.idempotencyKey) effects

/-- When the job is queued, the contract has not recorded a bid for the key of the row. -/
def Unrecorded (row : BidRow) (w : World) : Prop :=
  (Escrow.system row.escrowContract).Reachable w ∧ w.idem row.idempotencyKey = none

section Job

variable {row : BidRow} {verdict : Option TransferErrorReason} {expiry : ℕ}

/-- A call that is not a `submit_bid` with the given key leaves the entry of the key. -/
theorem idem_of_step {selfAddr : Address} {key : BytesN32} {w w' : World} {l : Escrow.Label}
    (hstep : Escrow.Step selfAddr w l w')
    (hother : ∀ env bidder price count effects,
      l ≠ .call env (.submitBid bidder price count key) effects) :
  w'.idem key = w.idem key
  := by
  cases hstep with
  | failed _ => rfl
  | outside _ => rfl
  | call _ hcall =>
    rename_i env c effects _
    cases c with
    | bindToken token =>
      obtain ⟨_, _, rfl, _⟩ := bindToken_eq_ok.mp hcall
      rfl
    | submitBid bidder price count key' =>
      rw [perform, Checks.bind_eq_ok] at hcall
      obtain ⟨⟨id, w₁, effects₁⟩, hcall, heq⟩ := hcall
      obtain ⟨_, _, _, _, _, _, _, _, _, rfl, _⟩ := submitBid_eq_ok.mp hcall
      obtain ⟨rfl, _⟩ := Prod.mk.inj (Checks.pure_eq_ok.mp heq)
      apply Function.update_of_ne
      rintro rfl
      apply hother env bidder price count effects rfl
    | cancelBid caller id =>
      obtain ⟨_, _, _, _, _, _, _, _, _, rfl, _⟩ := cancelBid_eq_ok.mp hcall
      rfl
    | closeOffering =>
      obtain ⟨_, _, rfl, _⟩ := closeOffering_eq_ok.mp hcall
      rfl
    | cancelOffering =>
      obtain ⟨_, _, _, rfl, _⟩ := cancelOffering_eq_ok.mp hcall
      rfl
    | closeAndSettle clearingPrice allocations =>
      obtain ⟨_, hs⟩ := settlement_of_eq_ok hcall
      rw [hs.world_eq]

/-- The call of the job records a bid for the key, and nothing else does. -/
theorem escrowJob_faithful :
  Faithful (escrowJob row verdict expiry) fun w => w.idem row.idempotencyKey ≠ none
  := by
  constructor
  · intro env w w' hcall
    simp only [escrowJob] at hcall
    split at hcall
    · next hsubmit =>
      obtain rfl := Option.some.inj hcall
      obtain ⟨_, _, _, _, _, _, _, _, _, rfl, _⟩ := submitBid_eq_ok.mp hsubmit
      simp [World.withBid]
    · cases hcall
  · rintro w w' ⟨l, hstep, hother⟩
    rw [idem_of_step hstep hother]

/-- A row that is latched as `failed` only when no transaction of an earlier attempt is
outstanding never hides an escrowed bid: the contract has not recorded a bid for its key. An
escrowed row has its bid on chain. -/
theorem failed_unrecorded {s : State World}
    (h : ((Relay.system (escrowJob row verdict expiry) (Unrecorded row)).restrict
      (LatchesSettled (escrowJob row verdict expiry))).Reachable s) :
  (s.status = .failed → s.chain.idem row.idempotencyKey = none)
    ∧ (s.status = .escrowed → s.chain.idem row.idempotencyKey ≠ none)
  := by
  have hfresh : ∀ w, Unrecorded row w → ¬ w.idem row.idempotencyKey ≠ none :=
    fun w hw hne => hne hw.2
  obtain ⟨hfailed, hescrowed⟩ := honest_of_reachable escrowJob_faithful hfresh h
  constructor
  · intro hstatus
    by_contra hne
    apply hfailed hstatus hne
  · apply hescrowed

end Job

/-! ### A row of the small offering -/

/-- A bid of four fractions at a price of five. -/
def sampleRow : BidRow where
  escrowContract := sampleEscrow
  bidder := .account 20
  price := 5
  count := 4
  idempotencyKey := 1

/-- The job of the row, at the given ledger. -/
def sampleQueued (ledger : ℕ) : State World :=
  ⟨ledger, sampleWorld, [], .submitted, 0, .idle, 0⟩

theorem sampleQueued_init (ledger : ℕ) :
  (Relay.system (escrowJob sampleRow none 120) (Unrecorded sampleRow)).init (sampleQueued ledger)
  := ⟨rfl, rfl, rfl, rfl, sampleWorld_reachable, rfl⟩

/-- The contract accepts the bid of the row. -/
theorem escrowJob_call_sampleWorld :
  (escrowJob sampleRow none 120).call sampleEnv sampleWorld = some sampleBid
  := rfl

/-- The simulation of the call succeeds. -/
theorem escrowJob_call_ne_none :
  (escrowJob sampleRow none 120).call sampleEnv sampleWorld ≠ none
  := by
  rw [escrowJob_call_sampleWorld]
  nofun

/-- The job of the row, latched in its third attempt. The transaction of the first attempt failed
on chain, and that of the second has expired. -/
def sampleExpired : State World :=
  ⟨200, sampleWorld, [.failed, .pending], .failed, 2, .idle, 2⟩

theorem sampleExpired_reachable :
  ((Relay.system (escrowJob sampleRow none 120) (Unrecorded sampleRow)).restrict
    (LatchesSettled (escrowJob sampleRow none 120))).Reachable sampleExpired
  := by
  have h₀ := System.Reachable.init
    (S := (Relay.system (escrowJob sampleRow none 120) (Unrecorded sampleRow)).restrict
      (LatchesSettled (escrowJob sampleRow none 120))) (sampleQueued_init 0)
  have h₁ := h₀.step ⟨.reload rfl rfl, nofun⟩
  have h₂ := h₁.step ⟨.advance (.verified rfl), nofun⟩
  have h₃ := h₂.step ⟨.advance (.fresh (le_refl 0) (by decide)), nofun⟩
  have h₄ := h₃.step ⟨.advance (.simulated escrowJob_call_ne_none), nofun⟩
  have h₅ := h₄.step ⟨.accepted rfl, nofun⟩
  have h₆ := h₅.step ⟨.advance .timedOut, nofun⟩
  have h₇ := h₆.step ⟨.retry rfl rfl, nofun⟩
  have h₈ := h₇.step ⟨.spent (show [TxStatus.pending][0]? = some .pending from rfl) (Or.inl rfl),
    nofun⟩
  have h₉ := h₈.step ⟨.reload rfl rfl, nofun⟩
  have h₁₀ := h₉.step ⟨.advance (.verified rfl), nofun⟩
  have h₁₁ := h₁₀.step ⟨.advance (.fresh (le_refl 0) (by decide)), nofun⟩
  have h₁₂ := h₁₁.step ⟨.advance (.simulated escrowJob_call_ne_none), nofun⟩
  have h₁₃ := h₁₂.step ⟨.replyLost rfl, nofun⟩
  have h₁₄ := h₁₃.step ⟨.retry rfl rfl, nofun⟩
  have h₁₅ := h₁₄.step ⟨.tick (show 0 ≤ 200 by decide), nofun⟩
  have h₁₆ := h₁₅.step ⟨.reload rfl rfl, nofun⟩
  have h₁₇ := h₁₆.step ⟨.advance (.verified rfl), nofun⟩
  have h₁₈ := h₁₇.step ⟨.advance (.expired (le_refl 200) (by decide)), nofun⟩
  apply h₁₈.step ⟨.latch rfl rfl, _⟩
  intro _ tx _
  apply not_outstanding
  · show .success ∉ [TxStatus.failed, .pending]
    decide
  · show 120 < 200
    decide

/-- A row that is latched when the earlier transactions have failed or expired has no bid on
chain. -/
theorem failed_unrecorded_sampleExpired :
  (sampleExpired.status = .failed → sampleExpired.chain.idem sampleRow.idempotencyKey = none)
    ∧ (sampleExpired.status = .escrowed →
      sampleExpired.chain.idem sampleRow.idempotencyKey ≠ none)
  := failed_unrecorded sampleExpired_reachable

/-- Not every failed row is without a bid on chain: the transaction of the first attempt lands,
its confirmation is lost, and the second attempt finds that the signature has expired. -/
theorem not_forall_failed_unrecorded :
  ¬ ∀ row verdict expiry s,
    (Relay.system (escrowJob row verdict expiry) (Unrecorded row)).Reachable s →
    s.status = .failed → s.chain.idem row.idempotencyKey = none
  := by
  intro hall
  have h₀ := System.Reachable.init (sampleQueued_init 0)
  have h₁ := h₀.step (.reload rfl rfl)
  have h₂ := h₁.step (.advance (.verified rfl))
  have h₃ := h₂.step (.advance (.fresh (le_refl 0) (by decide)))
  have h₄ := h₃.step (.advance (.simulated escrowJob_call_ne_none))
  have h₅ := h₄.step (.accepted rfl)
  have h₆ := h₅.step (.applied (show [TxStatus.pending][0]? = some .pending from rfl) (by decide)
    escrowJob_call_sampleWorld)
  have h₇ := h₆.step (.advance .timedOut)
  have h₈ := h₇.step (.retry rfl rfl)
  have h₉ := h₈.step (.tick (show 0 ≤ 116 by decide))
  have h₁₀ := h₉.step (.reload rfl rfl)
  have h₁₁ := h₁₀.step (.advance (.verified rfl))
  have h₁₂ := h₁₁.step (.advance (.expired (le_refl 116) (by decide)))
  have h₁₃ := h₁₂.step (.latch rfl rfl)
  cases hall _ _ _ _ h₁₃ rfl

end Bids
