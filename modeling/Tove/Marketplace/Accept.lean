import Tove.Marketplace.SettleProgress

/-!
# Accepting a quote

`AcceptService.accept` reads the RFQ and the quote, checks that the signature of the buyer has
not expired, and records a pending trade in a transaction under a lock of the RFQ. The
transaction looks for a trade in flight; it does not look at the RFQ and the quote again. Then
the job of the trade is queued.

Any number of requests run at the same time, beside the work on the trades that have been recorded.
-/

namespace Marketplace

open Soroban Settler Relay Transition

/-! ### The service -/

/-- The errors of the service. -/
inductive AcceptError where
  | ACCEPT_NOT_RFQ_BUYER
  | ACCEPT_RFQ_NOT_OPEN
  | ACCEPT_QUOTE_NOT_AUTHORIZED
  | ACCEPT_QUOTE_NOT_ACCEPTABLE
  | ACCEPT_NOT_WHITELISTED
  deriving DecidableEq, Repr

/-- What the service reads in other tables: the users that are whitelisted, and the fraction
contracts that are deployed with a bound token. -/
structure Parties where
  whitelisted : ℕ → Bool
  deployed : ℕ → Bool

/-- A request, with the wallet of the buyer, and the ledger at which the signature of the buyer
expires. -/
structure AcceptRequest where
  userId : ℕ
  rfqId : BytesN32
  quoteId : BytesN32
  idempotencyKeyHash : BytesN32
  buyerWallet : Address
  signatureExpirationLedger : ℕ

/-- `AcceptContext`. -/
structure AcceptContext where
  quote : Quote
  sellerWallet : Address
  artworkId : BytesN32
  count : ℤ
  gross : ℤ

/-- The first part of `resolveContext`: the RFQ is the buyer's, and it is open. -/
def resolveRfq (req : AcceptRequest) (rfqs : BytesN32 → Option Rfq) : Except AcceptError Rfq :=
  match rfqs req.rfqId with
  | none => throw .ACCEPT_NOT_RFQ_BUYER
  | some rfq => do
    Checks.rejectIf (rfq.collectorSub ≠ req.userId) .ACCEPT_NOT_RFQ_BUYER
    Checks.rejectIf (rfq.status ≠ .open) .ACCEPT_RFQ_NOT_OPEN
    return rfq

/-- Why a quote is not acceptable. -/
def notAcceptable (req : AcceptRequest) (quotes : BytesN32 → Option Quote) : AcceptError :=
  match quotes req.quoteId with
  | none => .ACCEPT_QUOTE_NOT_ACCEPTABLE
  | some quote =>
    if quote.rfqId = req.rfqId ∧ quote.status = .open ∧ quote.sellerAuthEntry.isNone then
      .ACCEPT_QUOTE_NOT_AUTHORIZED
    else .ACCEPT_QUOTE_NOT_ACCEPTABLE

/-- The second part of `resolveContext`: the quote is acceptable, the parties are whitelisted,
and the token is bound. -/
def resolveQuote (parties : Parties) (req : AcceptRequest) (rfq : Rfq)
    (quotes : BytesN32 → Option Quote) (now : ℕ) : Except AcceptError AcceptContext :=
  match findAcceptable quotes now req.rfqId req.quoteId with
  | none => throw (notAcceptable req quotes)
  | some quote => do
    Checks.rejectIf (parties.whitelisted req.userId = false) .ACCEPT_NOT_WHITELISTED
    Checks.rejectIf (parties.whitelisted quote.holderSub = false) .ACCEPT_NOT_WHITELISTED
    match quote.sellerWalletContract with
    | none => throw .ACCEPT_QUOTE_NOT_ACCEPTABLE
    | some sellerWallet =>
      Checks.rejectIf (parties.deployed quote.fractionContractId = false)
        .ACCEPT_QUOTE_NOT_ACCEPTABLE
      return {
        quote
        sellerWallet
        artworkId := rfq.artworkId
        count := quote.fractionCount
        gross := quote.fractionCount * quote.pricePerFractionStroops }

/-- The row that is recorded for a request. -/
def newTrade (req : AcceptRequest) (now : ℕ) : SecondaryTrade where
  rfqId := req.rfqId
  quoteId := req.quoteId
  buyerSub := req.userId
  idempotencyKeyHash := req.idempotencyKeyHash
  status := .pending
  failureReason := none
  txHash := none
  createdAt := now

/-- The transaction that records the trade of a request: no trade of the RFQ is in flight. -/
def recordTrade (trades : List SecondaryTrade) (req : AcceptRequest) (now : ℕ) :
    Option (List SecondaryTrade) :=
  match findPendingByRfq trades req.rfqId with
  | some _ => none
  | none => insertPending trades (newTrade req now)

/-- The job that is queued for a request, when the relayer is to find the given fault with its
entries. -/
def settleJob (req : AcceptRequest) (ctx : AcceptContext) (entry : SellerAuthEntry)
    (verdict : Option TransferErrorReason) : QuoteSettleJob where
  terms := {
    rfqId := req.rfqId
    quoteId := req.quoteId
    artworkId := ctx.artworkId
    buyer := req.buyerWallet
    seller := ctx.sellerWallet
    count := ctx.count
    gross := ctx.gross }
  verdict
  buyerSignatureExpirationLedger := req.signatureExpirationLedger
  sellerSignatureExpirationLedger := entry.signatureExpirationLedger

/-- Where a request stands. -/
inductive AcceptPhase where
  | idle
  | rfqRead (req : AcceptRequest) (rfq : Rfq)
  | resolved (req : AcceptRequest) (ctx : AcceptContext)
  | unexpired (req : AcceptRequest) (ctx : AcceptContext)
  | recorded (id : ℕ) (req : AcceptRequest) (ctx : AcceptContext)

/-- What a request reads and checks before it records its trade, when the tables, the time and
the latest ledger are as given. -/
inductive AcceptStep (parties : Parties) (db : Database) (now ledger : ℕ) :
    AcceptPhase → AcceptPhase → Prop where
  | readRfq {req : AcceptRequest} {rfq : Rfq} : resolveRfq req db.rfqs = .ok rfq →
      AcceptStep _ _ _ _ .idle (.rfqRead req rfq)
  | readQuote {req : AcceptRequest} {rfq : Rfq} {ctx : AcceptContext} :
      resolveQuote parties req rfq db.quotes now = .ok ctx →
      AcceptStep _ _ _ _ (.rfqRead req rfq) (.resolved req ctx)
  | notExpired {latest : ℕ} {req : AcceptRequest} {ctx : AcceptContext} : latest ≤ ledger →
      ¬ Lapsed latest req.signatureExpirationLedger →
      AcceptStep _ _ _ _ (.resolved req ctx) (.unexpired req ctx)
  /-- A request is refused, it is a replay of an earlier one, or it is lost. -/
  | stop {phase : AcceptPhase} : AcceptStep _ _ _ _ phase .idle

/-! ### The marketplace -/

/-- The work on the trades, and the requests. -/
structure Market where
  settlement : State
  requests : ℕ → AcceptPhase

/-- A request enters a phase. -/
def Market.goto (m : Market) (r : ℕ) (phase : AcceptPhase) : Market :=
  { m with requests := Function.update m.requests r phase }

@[simp]
theorem Market.goto_self (m : Market) (r : ℕ) (phase : AcceptPhase) :
  (m.goto r phase).requests r = phase
  := Function.update_self ..

@[simp]
theorem Market.goto_goto (m : Market) (r : ℕ) (phase phase' : AcceptPhase) :
  (m.goto r phase).goto r phase' = m.goto r phase'
  := by simp [goto]

theorem Market.goto_of_ne (m : Market) {r k : ℕ} (h : k ≠ r) (phase : AcceptPhase) :
  (m.goto r phase).requests k = m.requests k
  := Function.update_of_ne h ..

/-- The trade has been recorded, and no work has been done on it. -/
def State.record (s : State) (trades : List SecondaryTrade) : State :=
  { s with
    db := { s.db with trades }
    works := Function.update s.works s.db.trades.length .blank }

@[simp]
theorem State.record_self (s : State) (trades : List SecondaryTrade) :
  (s.record trades).works s.db.trades.length = .blank
  := Function.update_self ..

theorem State.record_of_ne (s : State) (trades : List SecondaryTrade) {k : ℕ}
    (h : k ≠ s.db.trades.length) :
  (s.record trades).works k = s.works k
  := Function.update_of_ne h ..

/-- The job of a trade has been queued. -/
def State.enqueue (s : State) (id : ℕ) (d : QuoteSettleJob) : State :=
  s.setWork id { s.works id with job := some d }

/-- What other requests may do to the quotes: a quote stays with its RFQ, and one that is not
open keeps its status. -/
def QuotesForward (quotes quotes' : BytesN32 → Option Quote) : Prop :=
  ∀ quoteId quote, quotes quoteId = some quote → ∃ quote', quotes' quoteId = some quote'
    ∧ quote'.rfqId = quote.rfqId ∧ (quote.status ≠ .open → quote'.status = quote.status)

/-- Who takes a step: the work on the trades, a request that records a trade for a quote of an
RFQ, or anyone else. -/
inductive MarketLabel where
  | settle (l : Label)
  | insert (rfqId quoteId : BytesN32)
  | other

/-- The steps of the marketplace. -/
inductive MarketStep (parties : Parties) (reconcileGraceMs : ℕ) :
    Market → MarketLabel → Market → Prop where
  | settle {m : Market} {s : State} {l : Label} : SettleStep reconcileGraceMs m.settlement l s →
      MarketStep _ _ m (.settle l) { m with settlement := s }
  | request {m : Market} {r : ℕ} {phase : AcceptPhase} :
      AcceptStep parties m.settlement.db m.settlement.now m.settlement.ledger (m.requests r) phase →
      MarketStep _ _ m .other (m.goto r phase)
  | insert {m : Market} {r : ℕ} {req : AcceptRequest} {ctx : AcceptContext}
      {trades : List SecondaryTrade} : m.requests r = .unexpired req ctx →
      recordTrade m.settlement.db.trades req m.settlement.now = some trades →
      MarketStep _ _ m (.insert req.rfqId req.quoteId)
        (Market.goto { m with settlement := m.settlement.record trades } r
          (.recorded m.settlement.db.trades.length req ctx))
  /-- The job of a trade is queued by the request that has recorded it, once. -/
  | enqueue {m : Market} {r id : ℕ} {req : AcceptRequest} {ctx : AcceptContext}
      {entry : SellerAuthEntry} {verdict : Option TransferErrorReason} :
      m.requests r = .recorded id req ctx → ctx.quote.sellerAuthEntry = some entry →
      (m.settlement.works id).job = none →
      MarketStep _ _ m .other
        (Market.goto { m with settlement := m.settlement.enqueue id (settleJob req ctx entry verdict) }
          r .idle)
  /-- RFQs and quotes are opened, authorised, canceled, or expire. -/
  | rows {m : Market} {rfqs : BytesN32 → Option Rfq} {quotes : BytesN32 → Option Quote} :
      ForwardOnly m.settlement.db.rfqs rfqs → QuotesForward m.settlement.db.quotes quotes →
      MarketStep _ _ m .other
        { m with settlement := { m.settlement with db := { m.settlement.db with rfqs, quotes } } }

/-- The marketplace before the first trade. -/
structure Opened (m : Market) : Prop where
  trades : m.settlement.db.trades = []
  works : ∀ id, m.settlement.works id = .blank
  unsettled : ∀ rfqId quoteId, isSettled m.settlement.world rfqId quoteId = false
  requests : ∀ r, m.requests r = .idle

/-- The marketplace as a transition system. -/
def market (parties : Parties) (reconcileGraceMs : ℕ) : Transition.System Market MarketLabel where
  init := Opened
  step := MarketStep parties reconcileGraceMs

end Marketplace
