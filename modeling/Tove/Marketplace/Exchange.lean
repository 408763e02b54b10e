import Tove.Base.ReadCommitted
import Tove.Marketplace.Quotes

/-!
# The statements of the marketplace

The transactions that settle a trade, fail it, and record a quote, statement by statement. The
database runs them at READ COMMITTED: a statement sees what is committed when it begins, and what
its own transaction has written, and it waits for the rows that other transactions have written.

Any number of transactions are under way at the same time, beside the requests that accept quotes
and the work on the trades. What becomes of the attempt that has begun a transaction is a step of
its work: it returns, throws or crashes, before the transaction is over or after.
-/

namespace Marketplace

open Soroban Settler Relay Transition ReadCommitted

/-! ### Transactions -/

/-- Where `persistSettled` stands: `casSettled` has affected no row, or each of its statements has
been run. The last of them has some quotes left to look at. -/
inductive PersistStage where
  | begun
  | lost
  | settled
  | filled
  | accepted
  | superseding (quoteIds : List BytesN32)

/-- Where `failTrade` stands: `casFailed` has affected no row, or it has affected one, or the quote
has been dealt with. -/
inductive FailStage where
  | begun
  | lost
  | failed
  | disposed

/-- Where the transaction of `submit` stands: it has the lock of the holder and the token, it has
some lapsed quotes left to look at, it has found no open quote of the holder, the count is free, or
the quote has been inserted, or had been before. -/
inductive SubmitStage where
  | begun
  | locked
  | reaping (quoteIds : List BytesN32)
  | unquoted
  | free
  | inserted
  | replayed

/-- A transaction, with its arguments. That of `submit` has the time at which it has begun, which is
the `now()` of its statements. -/
inductive Transaction where
  | closed
  | persist (stage : PersistStage) (id : ℕ) (trade : SecondaryTrade) (txHash : Option ℕ)
  | fail (stage : FailStage) (id : ℕ) (trade : SecondaryTrade) (reason : SettleFailureReason)
      (disposition : QuoteDisposition)
  | submit (stage : SubmitStage) (req : QuoteRequest) (validUntil : ℕ) (onchain : ℤ) (now : ℕ)

/-- The transaction may be committed. -/
def Transaction.Done : Transaction → Prop
  | .persist .lost _ _ _ | .persist (.superseding []) _ _ _ | .fail .lost _ _ _ _
  | .fail .disposed _ _ _ _ | .submit .inserted _ _ _ _ | .submit .replayed _ _ _ _ => True
  | _ => False

/-- The transaction has the lock of a holder and a token. -/
def Transaction.Holds (columns : BytesN32 → RfqColumns) (holderSub fractionContractId : ℕ) :
    Transaction → Prop
  | .submit .begun _ _ _ _ => False
  | .submit _ req _ _ _ =>
    req.userId = holderSub ∧ (columns req.rfqId).fractionContractId = fractionContractId
  | _ => False

/-! ### The exchange -/

/-- The marketplace, whose tables are what is committed, the submissions, and the transactions with
the versions of rows that they have written. -/
structure Exchange where
  market : Market
  submissions : ℕ → SubmitPhase
  transactions : ℕ → Transaction
  tradeWrites : ℕ → ℕ → Option SecondaryTrade
  rfqWrites : ℕ → BytesN32 → Option Rfq
  quoteWrites : ℕ → BytesN32 → Option Quote

namespace Exchange

/-- The tables. -/
def db (e : Exchange) : Database := e.market.settlement.db

/-- `secondary_trades`. -/
def trades (e : Exchange) : Store ℕ SecondaryTrade := ⟨fun id => e.db.trades[id]?, e.tradeWrites⟩

/-- `rfqs`. -/
def rfqs (e : Exchange) : Store BytesN32 Rfq := ⟨e.db.rfqs, e.rfqWrites⟩

/-- `rfq_quotes`. -/
def quotes (e : Exchange) : Store BytesN32 Quote := ⟨e.db.quotes, e.quoteWrites⟩

/-- What is committed has changed. -/
def withDb (e : Exchange) (db : Database) : Exchange :=
  { e with market := { e.market with settlement := { e.market.settlement with db } } }

/-- The work on the trades has gone on. -/
def withSettlement (e : Exchange) (settlement : State) : Exchange :=
  { e with market := { e.market with settlement } }

/-- A transaction has written a trade. -/
def withTrades (e : Exchange) (trades : Store ℕ SecondaryTrade) : Exchange :=
  { e with tradeWrites := trades.writes }

/-- A transaction has written an RFQ. -/
def withRfqs (e : Exchange) (rfqs : Store BytesN32 Rfq) : Exchange :=
  { e with rfqWrites := rfqs.writes }

/-- A transaction has written a quote. -/
def withQuotes (e : Exchange) (quotes : Store BytesN32 Quote) : Exchange :=
  { e with quoteWrites := quotes.writes }

/-- A submission enters a phase. -/
def goto (e : Exchange) (k : ℕ) (phase : SubmitPhase) : Exchange :=
  { e with submissions := Function.update e.submissions k phase }

/-- A transaction enters a stage. -/
def enter (e : Exchange) (n : ℕ) (transaction : Transaction) : Exchange :=
  { e with transactions := Function.update e.transactions n transaction }

/-- A transaction is over, and what it has written is dropped. -/
def abort (e : Exchange) (n : ℕ) : Exchange :=
  { e with
    transactions := Function.update e.transactions n .closed
    tradeWrites := (e.trades.abort n).writes
    rfqWrites := (e.rfqs.abort n).writes
    quoteWrites := (e.quotes.abort n).writes }

/-- What is committed when a transaction is. -/
def committed (e : Exchange) (n : ℕ) : Database where
  trades := e.db.trades.mapIdx fun id row => (e.tradeWrites n id).getD row
  rfqs := e.rfqs.view n
  quotes := e.quotes.view n

/-- A transaction is over, and what it has written is committed. -/
def commit (e : Exchange) (n : ℕ) : Exchange := (e.abort n).withDb (e.committed n)

end Exchange

/-! ### Statements -/

/-- A quote that `supersedeOpenRivals` matches. -/
def Rival (rfqId exceptQuoteId quoteId : BytesN32) (quote : Quote) : Prop :=
  quote.rfqId = rfqId ∧ quoteId ≠ exceptQuoteId ∧ quote.status = .open

/-- A quote that `reapLapsed` matches. -/
def Lapsing (holderSub fractionContractId now : ℕ) (quote : Quote) : Prop :=
  quote.holderSub = holderSub ∧ quote.fractionContractId = fractionContractId
    ∧ quote.status = .open ∧ quote.validUntil ≤ now

/-- The statements of a transaction that stands where the first index says. -/
inductive Statement (columns : BytesN32 → RfqColumns) (e : Exchange) (n : ℕ) :
    Transaction → Exchange → Prop where
  | casSettled {id : ℕ} {trade : SecondaryTrade} {txHash : Option ℕ} {won : Bool}
      {trades : Store ℕ SecondaryTrade} :
      UpdatesRow (fun row => row.status = .pending)
        (fun row => { row with status := .settled, txHash }) n id e.trades won trades →
      Statement _ _ _ (.persist .begun id trade txHash)
        ((e.withTrades trades).enter n
          (.persist (if won then .settled else .lost) id trade txHash))
  | casFilled {id : ℕ} {trade : SecondaryTrade} {txHash : Option ℕ} {filled : Bool}
      {rfqs : Store BytesN32 Rfq} :
      UpdatesRow (fun rfq => rfq.status = .open) (fun rfq => { rfq with status := .filled }) n
        trade.rfqId e.rfqs filled rfqs →
      Statement _ _ _ (.persist .settled id trade txHash)
        ((e.withRfqs rfqs).enter n (.persist .filled id trade txHash))
  | casAccepted {id : ℕ} {trade : SecondaryTrade} {txHash : Option ℕ} {accepted : Bool}
      {quotes : Store BytesN32 Quote} :
      UpdatesRow (fun quote => quote.status = .open)
        (fun quote => { quote with status := .accepted }) n trade.quoteId e.quotes accepted quotes →
      Statement _ _ _ (.persist .filled id trade txHash)
        ((e.withQuotes quotes).enter n (.persist .accepted id trade txHash))
  | supersedeOpenRivals {id : ℕ} {trade : SecondaryTrade} {txHash : Option ℕ}
      {quoteIds : List BytesN32} :
      e.quotes.Finds (Rival trade.rfqId trade.quoteId) n quoteIds →
      Statement _ _ _ (.persist .accepted id trade txHash)
        (e.enter n (.persist (.superseding quoteIds) id trade txHash))
  | supersede {id : ℕ} {trade : SecondaryTrade} {txHash : Option ℕ} {quoteId : BytesN32}
      {quoteIds : List BytesN32} {hit : Bool} {quotes : Store BytesN32 Quote} :
      UpdatesRow (Rival trade.rfqId trade.quoteId quoteId)
        (fun quote => { quote with status := .superseded }) n quoteId e.quotes hit quotes →
      Statement _ _ _ (.persist (.superseding (quoteId :: quoteIds)) id trade txHash)
        ((e.withQuotes quotes).enter n (.persist (.superseding quoteIds) id trade txHash))
  | casFailed {id : ℕ} {trade : SecondaryTrade} {reason : SettleFailureReason}
      {disposition : QuoteDisposition} {won : Bool} {trades : Store ℕ SecondaryTrade} :
      UpdatesRow (fun row => row.status = .pending)
        (fun row => { row with status := .failed, failureReason := some reason }) n id e.trades won
        trades →
      Statement _ _ _ (.fail .begun id trade reason disposition)
        ((e.withTrades trades).enter n
          (.fail (if won then .failed else .lost) id trade reason disposition))
  | keepOpen {id : ℕ} {trade : SecondaryTrade} {reason : SettleFailureReason} :
      Statement _ _ _ (.fail .failed id trade reason .keepOpen)
        (e.enter n (.fail .disposed id trade reason .keepOpen))
  | expireWithReason {id : ℕ} {trade : SecondaryTrade} {reason : SettleFailureReason}
      {expired : Bool}
      {quotes : Store BytesN32 Quote} :
      UpdatesRow (fun quote => quote.status = .open)
        (fun quote => { quote with status := .expired, statusReason := some reason }) n
        trade.quoteId e.quotes expired quotes →
      Statement _ _ _ (.fail .failed id trade reason .expire)
        ((e.withQuotes quotes).enter n (.fail .disposed id trade reason .expire))
  | lock {req : QuoteRequest} {validUntil now : ℕ} {onchain : ℤ} :
      (∀ m, ¬ (e.transactions m).Holds columns req.userId (columns req.rfqId).fractionContractId) →
      Statement _ _ _ (.submit .begun req validUntil onchain now)
        (e.enter n (.submit .locked req validUntil onchain now))
  | reapLapsed {req : QuoteRequest} {validUntil now : ℕ} {onchain : ℤ} {quoteIds : List BytesN32} :
      e.quotes.Finds (fun _ => Lapsing req.userId (columns req.rfqId).fractionContractId now) n
        quoteIds →
      Statement _ _ _ (.submit .locked req validUntil onchain now)
        (e.enter n (.submit (.reaping quoteIds) req validUntil onchain now))
  | reap {req : QuoteRequest} {validUntil now : ℕ} {onchain : ℤ} {quoteId : BytesN32}
      {quoteIds : List BytesN32} {hit : Bool} {quotes : Store BytesN32 Quote} :
      UpdatesRow (Lapsing req.userId (columns req.rfqId).fractionContractId now)
        (fun quote => { quote with status := .expired }) n quoteId e.quotes hit quotes →
      Statement _ _ _ (.submit (.reaping (quoteId :: quoteIds)) req validUntil onchain now)
        ((e.withQuotes quotes).enter n (.submit (.reaping quoteIds) req validUntil onchain now))
  | hasOpenQuoteForRfq {req : QuoteRequest} {validUntil now : ℕ} {onchain : ℤ} :
      ¬ HasOpenQuoteForRfq (e.quotes.view n) req.rfqId req.userId none →
      Statement _ _ _ (.submit (.reaping []) req validUntil onchain now)
        (e.enter n (.submit .unquoted req validUntil onchain now))
  | sumOpenLockedCount {req : QuoteRequest} {validUntil now : ℕ} {onchain : ℤ} :
      req.fractionCount ≤ onchain - sumOpenLockedCount (e.quotes.view n) req.userId
        (columns req.rfqId).fractionContractId now →
      Statement _ _ _ (.submit .unquoted req validUntil onchain now)
        (e.enter n (.submit .free req validUntil onchain now))
  | insertOpen {req : QuoteRequest} {validUntil now : ℕ} {onchain : ℤ} {quoteId : BytesN32} :
      e.market.settlement.now < validUntil → (∀ quote, ¬ e.quotes.Version quoteId quote) →
      Statement _ _ _ (.submit .free req validUntil onchain now)
        ((e.withQuotes (e.quotes.write n quoteId (newQuote columns req validUntil))).enter n
          (.submit .inserted req validUntil onchain now))
  /-- The quote has been recorded before, and nothing is inserted. -/
  | conflict {req : QuoteRequest} {validUntil now : ℕ} {onchain : ℤ} :
      e.market.settlement.now < validUntil →
      Statement _ _ _ (.submit .free req validUntil onchain now)
        (e.enter n (.submit .replayed req validUntil onchain now))

/-! ### The steps -/

/-- What is seen of a step: a request that records a trade for a quote, a transaction that is
committed, or anything else. -/
inductive ExchangeLabel where
  | insert (rfqId quoteId : BytesN32)
  | commit (n : ℕ)
  | other

/-- The steps of the exchange. The transaction of a request that records a trade is one step: it runs
under a lock of the RFQ, so that what it has found, that no trade of the RFQ is pending, is so when
it is committed. -/
inductive ExchangeStep (parties : Parties)
    (columns : BytesN32 → RfqColumns) (reconcileGraceMs : ℕ) :
    Exchange → ExchangeLabel → Exchange → Prop where
  | work {e : Exchange} {s : State} {l : Label} :
      WorkStep reconcileGraceMs e.market.settlement l s →
      ExchangeStep _ _ _ e .other (e.withSettlement s)
  /-- A request that accepts a quote goes on, or queues the job of the trade that it has
  recorded. -/
  | request {e : Exchange} {m : Market} : MarketStep parties reconcileGraceMs e.market .other m →
      m.settlement.db = e.db → ExchangeStep _ _ _ e .other { e with market := m }
  | insert {e : Exchange} {m : Market} {rfqId quoteId : BytesN32} :
      MarketStep parties reconcileGraceMs e.market (.insert rfqId quoteId) m →
      ExchangeStep _ _ _ e (.insert rfqId quoteId) { e with market := m }
  | submission {e : Exchange} {k : ℕ} {phase : SubmitPhase} :
      QuoteStep parties columns e.db e.market.settlement.now (fun _ _ onchain => 0 ≤ onchain)
        (e.submissions k) phase →
      ExchangeStep _ _ _ e .other (e.goto k phase)
  /-- A quote is authorised when nobody has written it. -/
  | authorize {e : Exchange} {quoteId : BytesN32} {entry : SellerAuthEntry} {wallet : Address} :
      (∀ n, e.quoteWrites n quoteId = none) →
      ExchangeStep _ _ _ e .other
        (e.withDb { e.db with quotes := markAuthorized e.db.quotes quoteId entry wallet })
  /-- An RFQ is created. -/
  | create {e : Exchange} {rfqId : BytesN32} {rfq : Rfq} : e.db.rfqs rfqId = none →
      rfq.status = .open →
      ExchangeStep _ _ _ e .other
        (e.withDb { e.db with rfqs := Function.update e.db.rfqs rfqId (some rfq) })
  | beginPersist {e : Exchange} {n id a : ℕ} {trade : SecondaryTrade} {txHash : Option ℕ} :
      e.transactions n = .closed →
      ((e.market.settlement.works id).actors a).adopts = some txHash →
      e.db.trades[id]? = some trade →
      ExchangeStep _ _ _ e .other (e.enter n (.persist .begun id trade txHash))
  | beginFail {e : Exchange} {n id a : ℕ} {trade : SecondaryTrade} {reason : SettleFailureReason}
      {disposition : QuoteDisposition} : e.transactions n = .closed →
      ((e.market.settlement.works id).actors a).fails = some (reason, disposition) →
      e.db.trades[id]? = some trade →
      ExchangeStep _ _ _ e .other (e.enter n (.fail .begun id trade reason disposition))
  | beginSubmit {e : Exchange} {n k validUntil : ℕ} {req : QuoteRequest} {onchain : ℤ} :
      e.transactions n = .closed → e.submissions k = .funded req validUntil onchain →
      ExchangeStep _ _ _ e .other
        ((e.enter n (.submit .begun req validUntil onchain e.market.settlement.now)).goto k .idle)
  | statement {e e' : Exchange} {n : ℕ} : Statement columns e n (e.transactions n) e' →
      ExchangeStep _ _ _ e .other e'
  | commit {e : Exchange} {n : ℕ} : (e.transactions n).Done →
      ExchangeStep _ _ _ e (.commit n) (e.commit n)
  /-- A check fails, a statement fails, or the transaction is lost. -/
  | abort {e : Exchange} {n : ℕ} : ExchangeStep _ _ _ e .other (e.abort n)

/-- The exchange before the first trade. -/
structure Exchange.Opened (e : Exchange) : Prop where
  market : Marketplace.Opened e.market
  unfilled : ∀ rfqId rfq, e.db.rfqs rfqId = some rfq → rfq.status ≠ .filled
  unaccepted : ∀ quoteId quote, e.db.quotes quoteId = some quote → quote.status ≠ .accepted
  submissions : ∀ k, e.submissions k = .idle
  transactions : ∀ n, e.transactions n = .closed
  trades : ∀ n, e.tradeWrites n = fun _ => none
  rfqs : ∀ n, e.rfqWrites n = fun _ => none
  quotes : ∀ n, e.quoteWrites n = fun _ => none

/-- The exchange as a transition system. -/
def exchange (parties : Parties) (columns : BytesN32 → RfqColumns) (reconcileGraceMs : ℕ) :
    Transition.System Exchange ExchangeLabel where
  init := Exchange.Opened
  step := ExchangeStep parties columns reconcileGraceMs

end Marketplace
