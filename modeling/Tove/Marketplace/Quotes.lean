import Mathlib.Algebra.BigOperators.Finprod
import Mathlib.Algebra.Order.Ring.Int
import Tove.Marketplace.Accept

/-!
# Submitting a quote

`QuotesService.submit` checks the RFQ and the quote, reads the balance of the holder on chain,
and records the quote in a transaction under a lock of the holder and the token. The transaction
first lets the holder's lapsed quotes expire. It does not look at the RFQ again, and it does not
look at the trades.
-/

namespace Marketplace

open Soroban Settler Relay Transition

/-! ### The service -/

/-- The errors of the service. -/
inductive QuoteError where
  | QUOTE_NOT_WHITELISTED
  | QUOTE_RFQ_NOT_FOUND
  | QUOTE_RFQ_NOT_OPEN
  | QUOTE_RFQ_EXPIRED
  | QUOTE_ON_OWN_RFQ
  | QUOTE_INVALID_PRICE
  | QUOTE_AMOUNT_OVERFLOW
  | QUOTE_INVALID_VALIDITY
  deriving DecidableEq, Repr

/-- The columns of `rfqs` that only submissions read.  They do not change. -/
structure RfqColumns where
  fractionContractId : ℕ
  expiresAt : ℕ

/-- A submission: the holder, the RFQ, and the quote. -/
structure QuoteRequest where
  userId : ℕ
  rfqId : BytesN32
  pricePerFractionStroops : ℤ
  fractionCount : ℤ
  validUntil : ℕ

/-- `loadQuotableRfq`: the RFQ is open and has not expired. -/
def loadQuotableRfq (columns : BytesN32 → RfqColumns) (rfqs : BytesN32 → Option Rfq) (now : ℕ)
    (rfqId : BytesN32) : Except QuoteError Rfq :=
  match rfqs rfqId with
  | none => throw .QUOTE_RFQ_NOT_FOUND
  | some rfq => do
    Checks.rejectIf (rfq.status ≠ .open) .QUOTE_RFQ_NOT_OPEN
    Checks.rejectIf ((columns rfqId).expiresAt ≤ now) .QUOTE_RFQ_EXPIRED
    return rfq

/-- The first part of `submit`: the cheap checks. The time is returned up to which the quote is
valid, which is not after the RFQ expires. -/
def checkQuote (parties : Parties) (columns : BytesN32 → RfqColumns) (rfqs : BytesN32 → Option Rfq)
    (now : ℕ) (req : QuoteRequest) : Except QuoteError ℕ := do
  Checks.rejectIf (parties.whitelisted req.userId = false) .QUOTE_NOT_WHITELISTED
  let rfq ← loadQuotableRfq columns rfqs now req.rfqId
  Checks.rejectIf (rfq.collectorSub = req.userId) .QUOTE_ON_OWN_RFQ
  Checks.rejectIf (req.pricePerFractionStroops < 1 ∨ req.pricePerFractionStroops > MAX_STROOPS)
    .QUOTE_INVALID_PRICE
  Checks.rejectIf (req.pricePerFractionStroops * req.fractionCount > MAX_I128)
    .QUOTE_AMOUNT_OVERFLOW
  Checks.rejectIf (req.validUntil ≤ now) .QUOTE_INVALID_VALIDITY
  return min req.validUntil (columns req.rfqId).expiresAt

/-- `hasOpenQuoteForRfq`: the holder has an open quote on the RFQ, which may have to be valid
still. -/
def HasOpenQuoteForRfq (quotes : BytesN32 → Option Quote) (rfqId : BytesN32) (holderSub : ℕ)
    (excludeLapsed : Option ℕ) : Prop :=
  ∃ quoteId quote, quotes quoteId = some quote ∧ quote.rfqId = rfqId ∧ quote.holderSub = holderSub
    ∧ quote.status = .open ∧ ∀ now ∈ excludeLapsed, now < quote.validUntil

/-- The quote locks a part of the balance of the holder: it is open and valid. -/
def Quote.Locks (quote : Quote) (holderSub fractionContractId now : ℕ) : Prop :=
  quote.holderSub = holderSub ∧ quote.fractionContractId = fractionContractId
    ∧ quote.status = .open ∧ now < quote.validUntil

instance (quote : Quote) (holderSub fractionContractId now : ℕ) :
    Decidable (quote.Locks holderSub fractionContractId now) :=
  inferInstanceAs (Decidable (_ ∧ _))

/-- `sumOpenLockedCount`: the sum over the rows of a table, which is a map from ids to rows. -/
noncomputable def sumOpenLockedCount (quotes : BytesN32 → Option Quote)
    (holderSub fractionContractId now : ℕ) : ℤ :=
  ∑ᶠ quoteId, (quotes quoteId).elim 0 fun quote =>
    if quote.Locks holderSub fractionContractId now then quote.fractionCount else 0

/-- `reapLapsed`: the holder's open quotes of the token that have lapsed expire. -/
def reapLapsed (quotes : BytesN32 → Option Quote) (now holderSub fractionContractId : ℕ) :
    BytesN32 → Option Quote :=
  fun quoteId => (quotes quoteId).map fun quote =>
    if quote.holderSub = holderSub ∧ quote.fractionContractId = fractionContractId
      ∧ quote.status = .open ∧ quote.validUntil ≤ now then { quote with status := .expired }
    else quote

/-- The row that is recorded for a submission. -/
def newQuote (columns : BytesN32 → RfqColumns) (req : QuoteRequest) (validUntil : ℕ) : Quote where
  rfqId := req.rfqId
  holderSub := req.userId
  fractionContractId := (columns req.rfqId).fractionContractId
  fractionCount := req.fractionCount
  pricePerFractionStroops := req.pricePerFractionStroops
  validUntil
  status := .open
  statusReason := none
  sellerAuthEntry := none
  sellerWalletContract := none

/-- `insertOpen`: add a row. -/
def insertOpen (quotes : BytesN32 → Option Quote) (quoteId : BytesN32) (quote : Quote) :
    BytesN32 → Option Quote :=
  Function.update quotes quoteId (some { quote with status := .open })

/-- `markAuthorized`: an open quote is given the signed entry and the wallet of its seller. -/
def markAuthorized (quotes : BytesN32 → Option Quote) (quoteId : BytesN32) (entry : SellerAuthEntry)
    (wallet : Address) : BytesN32 → Option Quote :=
  Function.update quotes quoteId ((quotes quoteId).map fun quote =>
    if quote.status = .open then
      { quote with sellerAuthEntry := some entry, sellerWalletContract := some wallet }
    else quote)

/-- Where a submission stands before its transaction: its quote has passed the cheap checks, the
holder has no other one on the RFQ, or the balance has been read. -/
inductive SubmitPhase where
  | idle
  | checked (req : QuoteRequest) (validUntil : ℕ)
  | unquoted (req : QuoteRequest) (validUntil : ℕ)
  | funded (req : QuoteRequest) (validUntil : ℕ) (onchain : ℤ)

/-- What a submission reads and checks before its transaction, when the tables and the time are as
given, and `balance` is what may be read as the count of a token that a holder has. -/
inductive QuoteStep (parties : Parties) (columns : BytesN32 → RfqColumns) (db : Database) (now : ℕ)
    (balance : ℕ → ℕ → ℤ → Prop) : SubmitPhase → SubmitPhase → Prop where
  | check {req : QuoteRequest} {validUntil : ℕ} :
      checkQuote parties columns db.rfqs now req = .ok validUntil →
      QuoteStep _ _ _ _ _ .idle (.checked req validUntil)
  | hasOpenQuote {req : QuoteRequest} {validUntil : ℕ} :
      ¬ HasOpenQuoteForRfq db.quotes req.rfqId req.userId (some now) →
      QuoteStep _ _ _ _ _ (.checked req validUntil) (.unquoted req validUntil)
  | readBalance {req : QuoteRequest} {validUntil : ℕ} {onchain : ℤ} :
      parties.deployed (columns req.rfqId).fractionContractId = true →
      balance (columns req.rfqId).fractionContractId req.userId onchain →
      QuoteStep _ _ _ _ _ (.unquoted req validUntil) (.funded req validUntil onchain)
  /-- A submission is refused, or it is lost. -/
  | refuse {phase : SubmitPhase} : QuoteStep _ _ _ _ _ phase .idle

end Marketplace
