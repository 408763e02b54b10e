import Tove.Base.Ledger
import Tove.Base.Table
import Tove.Marketplace.Quotes

/-!
# Authorising a quote

`AuthorizeService.authorize` has the holder of an open quote sign it, so that a buyer can settle
it later. The service reads the quote and the balance of the holder on chain, and then, in a
transaction under a lock of the holder and the token, compares the balance with what the holder's
other authorised quotes lock, and stores the signed entry.

Submissions of quotes, authorisations, requests that accept a quote, and the settlement of their
trades run at the same time. Of the work on a trade this file has what it does in the end: the trade
settles on chain, and it is persisted as settled or as failed.
-/

namespace Marketplace

open Soroban Ledgers Transition

/-! ### The service -/

/-- The errors of the service. -/
inductive AuthorizeError where
  | QUOTE_NO_SETTLEMENT_WALLET
  | QUOTE_NOT_FOUND
  | QUOTE_NOT_AUTHORIZABLE
  | QUOTE_NOT_WHITELISTED
  | QUOTE_OVER_AUTHORIZED
  deriving DecidableEq, Repr

/-- A request, with the entry that the relayer makes of the signature of the holder. -/
structure AuthorizeRequest where
  userId : ℕ
  rfqId : BytesN32
  quoteId : BytesN32
  entry : SellerAuthEntry

/-- `AuthContext`. -/
structure AuthContext where
  quote : Quote
  sellerWallet : Address
  buyerWallet : Address

/-- `resolveSellerWallet`: the wallet of the holder. -/
def resolveSellerWallet (wallets : ℕ → Option Address) (userId : ℕ) :
    Except AuthorizeError Address :=
  match wallets userId with
  | none => throw .QUOTE_NO_SETTLEMENT_WALLET
  | some wallet => return wallet

/-- `resolveContext`: the quote is the holder's, it is open and valid, the holder is whitelisted,
the buyer has a wallet, and the token is bound. -/
def resolveContext (parties : Parties) (wallets : ℕ → Option Address) (db : Database) (now : ℕ)
    (req : AuthorizeRequest) (sellerWallet : Address) : Except AuthorizeError AuthContext :=
  match db.quotes req.quoteId with
  | none => throw .QUOTE_NOT_FOUND
  | some quote => do
    Checks.rejectIf (quote.holderSub ≠ req.userId ∨ quote.rfqId ≠ req.rfqId) .QUOTE_NOT_FOUND
    Checks.rejectIf (quote.status ≠ .open ∨ quote.validUntil ≤ now) .QUOTE_NOT_AUTHORIZABLE
    Checks.rejectIf (parties.whitelisted req.userId = false) .QUOTE_NOT_WHITELISTED
    match db.rfqs quote.rfqId with
    | none => throw .QUOTE_NOT_FOUND
    | some rfq =>
      match wallets rfq.collectorSub with
      | none => throw .QUOTE_NOT_AUTHORIZABLE
      | some buyerWallet =>
        Checks.rejectIf (parties.deployed quote.fractionContractId = false) .QUOTE_NOT_AUTHORIZABLE
        return { quote, sellerWallet, buyerWallet }

/-- The quote locks a part of the balance of the holder for settlement: it is open, valid, and
authorised. -/
def Quote.LocksAuthorized (quote : Quote) (holderSub fractionContractId now : ℕ) : Prop :=
  quote.Locks holderSub fractionContractId now ∧ quote.sellerAuthEntry.isSome = true

instance (quote : Quote) (holderSub fractionContractId now : ℕ) :
    Decidable (quote.LocksAuthorized holderSub fractionContractId now) :=
  inferInstanceAs (Decidable (_ ∧ _))

/-- `sumAuthorizedLockedCount`, which leaves out one quote. -/
noncomputable def sumAuthorizedLockedCount (quotes : BytesN32 → Option Quote)
    (holderSub fractionContractId now : ℕ) (excludeQuoteId : BytesN32) : ℤ :=
  Tables.sum quotes Quote.fractionCount fun quoteId quote =>
    quote.LocksAuthorized holderSub fractionContractId now ∧ quoteId ≠ excludeQuoteId

/-- The transaction of `authorize`: the count of the quote is free, and the quote is still
open. -/
noncomputable def commitAuthorization (quotes : BytesN32 → Option Quote) (now : ℕ)
    (req : AuthorizeRequest) (ctx : AuthContext) (onchain : ℤ) :
    Except AuthorizeError (BytesN32 → Option Quote) := do
  let locked := sumAuthorizedLockedCount quotes req.userId ctx.quote.fractionContractId now req.quoteId
  Checks.rejectIf (onchain - locked < ctx.quote.fractionCount) .QUOTE_OVER_AUTHORIZED
  Checks.rejectIf ((quotes req.quoteId).all fun quote => quote.status ≠ .open)
    .QUOTE_NOT_AUTHORIZABLE
  return markAuthorized quotes req.quoteId req.entry ctx.sellerWallet

/-! ### The desk -/

/-- Where an authorisation stands: its context has been resolved, or the balance has been read.
What the settler had settled when the balance was read is not known to the service. -/
inductive AuthorizePhase where
  | idle
  | resolved (req : AuthorizeRequest) (ctx : AuthContext)
  | funded (req : AuthorizeRequest) (ctx : AuthContext) (onchain : ℤ)
      (settled : BytesN32 → BytesN32 → Bool)

/-- The time, the tables, the markers of the settler, the fractions of each contract that the
users hold on chain, and the requests that are under way. -/
structure Desk where
  now : ℕ
  db : Database
  settled : BytesN32 → BytesN32 → Bool
  fractions : ℕ → Ledger ℕ
  requests : ℕ → AcceptPhase
  submissions : ℕ → SubmitPhase
  authorizations : ℕ → AuthorizePhase

/-- The quotes have changed. -/
def Desk.withQuotes (d : Desk) (quotes : BytesN32 → Option Quote) : Desk :=
  { d with db := { d.db with quotes } }

/-- A request that accepts a quote enters a phase. -/
def Desk.accepting (d : Desk) (n : ℕ) (phase : AcceptPhase) : Desk :=
  { d with requests := Function.update d.requests n phase }

/-- A submission enters a phase. -/
def Desk.submitting (d : Desk) (n : ℕ) (phase : SubmitPhase) : Desk :=
  { d with submissions := Function.update d.submissions n phase }

/-- An authorisation enters a phase. -/
def Desk.authorizing (d : Desk) (n : ℕ) (phase : AuthorizePhase) : Desk :=
  { d with authorizations := Function.update d.authorizations n phase }

/-- The trade of a quote is carried out on chain: its marker is recorded, and the fractions move. -/
def Desk.carryOut (d : Desk) (row : SecondaryTrade) (quote : Quote) : Desk :=
  { d with
    settled := Function.update d.settled row.rfqId
      (Function.update (d.settled row.rfqId) row.quoteId true)
    fractions := Function.update d.fractions quote.fractionContractId
      ((d.fractions quote.fractionContractId).move quote.holderSub row.buyerSub quote.fractionCount) }

/-- Who takes a step: the transaction of an authorisation, or anyone else. -/
inductive DeskLabel where
  | authorize (n : ℕ)
  | other

/-- The steps of the desk.  A request may read any ledger as the latest one. -/
inductive DeskStep (parties : Parties) (wallets : ℕ → Option Address)
    (columns : BytesN32 → RfqColumns) : Desk → DeskLabel → Desk → Prop where
  | tick {d : Desk} {now : ℕ} : d.now ≤ now → DeskStep _ _ _ d .other { d with now }
  /-- An RFQ is created. -/
  | create {d : Desk} {rfqId : BytesN32} {rfq : Rfq} : d.db.rfqs rfqId = none → rfq.status = .open →
      DeskStep _ _ _ d .other
        { d with db := { d.db with rfqs := Function.update d.db.rfqs rfqId (some rfq) } }
  | submission {d : Desk} {n : ℕ} {phase : SubmitPhase} :
      QuoteStep parties columns d.db d.now
        (fun fractionContractId holder onchain => onchain = d.fractions fractionContractId holder)
        (d.submissions n) phase →
      DeskStep _ _ _ d .other (d.submitting n phase)
  /-- The table has a constraint that the count is positive. -/
  | submit {d : Desk} {n validUntil : ℕ} {req : QuoteRequest} {onchain : ℤ}
      {quotes : BytesN32 → Option Quote} {quoteId : BytesN32} :
      d.submissions n = .funded req validUntil onchain →
      reapLapsed d.db.quotes d.now req.userId (columns req.rfqId).fractionContractId = quotes →
      ¬ HasOpenQuoteForRfq quotes req.rfqId req.userId none →
      req.fractionCount ≤ onchain
        - sumOpenLockedCount quotes req.userId (columns req.rfqId).fractionContractId d.now →
      d.now < validUntil → 0 < req.fractionCount → quotes quoteId = none →
      DeskStep _ _ _ d .other
        ((d.withQuotes (insertOpen quotes quoteId (newQuote columns req validUntil))).submitting n .idle)
  /-- The quote has been recorded before. -/
  | replay {d : Desk} {n validUntil : ℕ} {req : QuoteRequest} {onchain : ℤ} :
      d.submissions n = .funded req validUntil onchain →
      DeskStep _ _ _ d .other ((d.withQuotes (reapLapsed d.db.quotes d.now req.userId
        (columns req.rfqId).fractionContractId)).submitting n .idle)
  | resolve {d : Desk} {n : ℕ} {req : AuthorizeRequest} {sellerWallet : Address}
      {ctx : AuthContext} :
      d.authorizations n = .idle → resolveSellerWallet wallets req.userId = .ok sellerWallet →
      resolveContext parties wallets d.db d.now req sellerWallet = .ok ctx →
      DeskStep _ _ _ d .other (d.authorizing n (.resolved req ctx))
  | readBalance {d : Desk} {n : ℕ} {req : AuthorizeRequest} {ctx : AuthContext} :
      d.authorizations n = .resolved req ctx →
      DeskStep _ _ _ d .other (d.authorizing n (.funded req ctx
        (d.fractions ctx.quote.fractionContractId req.userId) d.settled))
  | authorize {d : Desk} {n : ℕ} {req : AuthorizeRequest} {ctx : AuthContext} {onchain : ℤ}
      {settled : BytesN32 → BytesN32 → Bool} {quotes : BytesN32 → Option Quote} :
      d.authorizations n = .funded req ctx onchain settled →
      commitAuthorization d.db.quotes d.now req ctx onchain = .ok quotes →
      DeskStep _ _ _ d (.authorize n) ((d.withQuotes quotes).authorizing n .idle)
  /-- An authorisation is refused, or it is lost. -/
  | drop {d : Desk} {n : ℕ} : DeskStep _ _ _ d .other (d.authorizing n .idle)
  | request {d : Desk} {n ledger : ℕ} {phase : AcceptPhase} :
      AcceptStep parties d.db d.now ledger (d.requests n) phase →
      DeskStep _ _ _ d .other (d.accepting n phase)
  | record {d : Desk} {n : ℕ} {req : AcceptRequest} {ctx : AcceptContext}
      {trades : List SecondaryTrade} : d.requests n = .unexpired req ctx →
      recordTrade d.db.trades req d.now = some trades →
      DeskStep _ _ _ d .other
        (Desk.accepting { d with db := { d.db with trades } } n .idle)
  /-- `accept_quote` is called for a trade, with the terms of its quote. -/
  | settle {d : Desk} {id : ℕ} {row : SecondaryTrade} {quote : Quote} : d.db.trades[id]? = some row →
      d.db.quotes row.quoteId = some quote → d.settled row.rfqId row.quoteId = false →
      quote.fractionCount ≤ d.fractions quote.fractionContractId quote.holderSub →
      DeskStep _ _ _ d .other (d.carryOut row quote)
  | persist {d : Desk} {id : ℕ} {row : SecondaryTrade} {txHash : Option ℕ} :
      d.db.trades[id]? = some row → d.settled row.rfqId row.quoteId = true →
      DeskStep _ _ _ d .other { d with db := persistSettled id row txHash d.db }
  | fail {d : Desk} {id : ℕ} {row : SecondaryTrade} {reason : SettleFailureReason}
      {disposition : QuoteDisposition} : d.db.trades[id]? = some row →
      DeskStep _ _ _ d .other { d with db := failTrade id row reason disposition d.db }

/-- The desk before the first authorisation. -/
structure Desk.Opened (d : Desk) : Prop where
  finite : Tables.FiniteRows d.db.quotes
  positive : ∀ quoteId quote, d.db.quotes quoteId = some quote → 0 < quote.fractionCount
  unauthorized : ∀ quoteId quote, d.db.quotes quoteId = some quote → quote.sellerAuthEntry = none
  trades : d.db.trades = []
  unsettled : ∀ rfqId quoteId, d.settled rfqId quoteId = false
  requests : ∀ n, d.requests n = .idle
  submissions : ∀ n, d.submissions n = .idle
  authorizations : ∀ n, d.authorizations n = .idle

/-- The desk as a transition system. -/
def desk (parties : Parties) (wallets : ℕ → Option Address) (columns : BytesN32 → RfqColumns) :
    Transition.System Desk DeskLabel where
  init := Desk.Opened
  step := DeskStep parties wallets columns

end Marketplace
