import Tove.Soroban

/-!
# The marketplace settler

`TOVEMarketplaceSettler` carries out a secondary trade in one call, `accept_quote`: it records a
marker for the RFQ and the quote, and has the fraction token of the artwork move the fractions
and the USDC. A second call for the same RFQ and quote is refused.

Of the fraction token this file has the arguments of `settle_trade` and its USDC legs. The
compliance checks and the fraction leg are decided by the host.
-/

namespace Settler

open Soroban Ledgers

/-! ### The state of the contract -/

/-- The errors of the contract. -/
inductive Error where
  | QuoteAlreadySettled
  | TokenNotFound
  deriving DecidableEq, Repr

/-- The numeric codes of the errors. -/
def Error.code : Error → ℕ
  | .QuoteAlreadySettled => 1
  | .TokenNotFound => 2

/-- The error of the fraction token for a trade that is not well-formed. -/
inductive TokenError where
  | InvalidTrade
  deriving DecidableEq, Repr

/-- The royalty of the artist and the fee of the platform, in basis points. -/
def ROYALTY_BPS : ℕ := 150

def PLATFORM_FEE_BPS : ℕ := 150

/-- What the host decides: the token that the factory has registered for an artwork, the payees
that a token has stored, and whether its compliance checks and its fraction leg go through. -/
structure Host extends Soroban.Env where
  tokenOf : BytesN32 → Option Address
  treasury : Address → Address
  artistPayout : Address → Address
  movementAccepts : Bool

/-- The terms of a trade, all of which the buyer and the seller authorise. -/
structure Terms where
  rfqId : BytesN32
  quoteId : BytesN32
  artworkId : BytesN32
  buyer : Address
  seller : Address
  count : ℤ
  gross : ℤ

/-- The markers of the contract, by RFQ and quote, and the balances of the USDC token. -/
structure World where
  settled : BytesN32 → BytesN32 → Bool
  usdc : Ledger Address

/-- Record a marker. -/
def World.mark (w : World) (rfqId quoteId : BytesN32) : BytesN32 → BytesN32 → Bool :=
  Function.update w.settled rfqId (Function.update (w.settled rfqId) quoteId true)

/-! ### The calls -/

/-- A leg of `settle_trade`, which is left out when its amount is zero. -/
def usdcLeg (host : Host) (usdc : Ledger Address) (source target : Address) (amount : ℤ) :
    Except (Failure TokenError) (Ledger Address) :=
  if 0 < amount then usdcTransfer host.toEnv usdc source target amount else return usdc

/-- `settle_trade` of a fraction token: check the arguments, move the fractions, and split the
price. -/
def settleTrade (host : Host) (token buyer seller : Address) (count gross : ℤ)
    (usdc : Ledger Address) : Except (Failure TokenError) (Ledger Address) := do
  errorIf (count ≤ 0 ∨ gross < 0 ∨ buyer = seller) .InvalidTrade
  trapIf (host.movementAccepts = false)
  let platformFee ← i128 (gross * PLATFORM_FEE_BPS)
  let royalty ← i128 (gross * ROYALTY_BPS)
  let platformCut := platformFee / 10000
  let artistCut := royalty / 10000
  let sellerNet := gross - platformCut - artistCut
  let usdc ← usdcLeg host usdc buyer (host.treasury token) platformCut
  let usdc ← usdcLeg host usdc buyer (host.artistPayout token) artistCut
  usdcLeg host usdc buyer seller sellerNet

/-- `accept_quote`: refuse a second settlement, find the token, demand both authorisations,
record the marker, and have the token carry out the trade. When the token fails, the whole call
does. -/
def acceptQuote (host : Host) (t : Terms) (w : World) : Except (Failure Error) World := do
  errorIf (w.settled t.rfqId t.quoteId = true) .QuoteAlreadySettled
  match host.tokenOf t.artworkId with
  | none => throw (.error .TokenNotFound)
  | some token =>
    requireAuth host.toEnv t.buyer
    requireAuth host.toEnv t.seller
    match settleTrade host token t.buyer t.seller t.count t.gross w.usdc with
    | .ok usdc => return { settled := w.mark t.rfqId t.quoteId, usdc }
    | .error _ => throw .trap

/-- `is_settled`. -/
def isSettled (w : World) (rfqId quoteId : BytesN32) : Bool :=
  w.settled rfqId quoteId

/-! ### The markers -/

section Markers

variable {host : Host} {t : Terms} {w w' : World} {rfqId quoteId : BytesN32}

theorem mark_eq_true {r q : BytesN32} :
  w.mark r q rfqId quoteId = true ↔ (rfqId = r ∧ quoteId = q) ∨ w.settled rfqId quoteId = true
  := by
  rcases eq_or_ne rfqId r with rfl | hr
  · rcases eq_or_ne quoteId q with rfl | hq
    · simp [World.mark]
    · simp [World.mark, hq]
  · simp [World.mark, hr]

/-- A call succeeds for a trade that has no marker, and it records the marker. -/
theorem mark_of_acceptQuote (h : acceptQuote host t w = .ok w') :
  w.settled t.rfqId t.quoteId = false ∧ w'.settled = w.mark t.rfqId t.quoteId
  := by
  rw [acceptQuote, Checks.check_bind_eq_ok, errorIf, Checks.rejectIf_eq_ok,
    Bool.not_eq_true] at h
  obtain ⟨hfresh, h⟩ := h
  use hfresh
  split at h
  · rw [Checks.throw_eq_ok] at h
    cases h
  · rw [Checks.check_bind_eq_ok, Checks.check_bind_eq_ok] at h
    obtain ⟨_, _, h⟩ := h
    split at h
    · rw [Checks.pure_eq_ok] at h
      rw [← h]
    · rw [Checks.throw_eq_ok] at h
      cases h

/-- After a call that succeeds, the trade is settled, and nothing else has changed in the
markers. -/
theorem isSettled_of_acceptQuote (h : acceptQuote host t w = .ok w') :
  isSettled w' rfqId quoteId = true
    ↔ (rfqId = t.rfqId ∧ quoteId = t.quoteId) ∨ isSettled w rfqId quoteId = true
  := by
  rw [isSettled, (mark_of_acceptQuote h).2]
  apply mark_eq_true

end Markers

end Settler
