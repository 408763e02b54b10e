import Mathlib.Data.List.Basic
import Tove.Soroban

/-!
# The rows of the marketplace

A buyer opens an RFQ, holders quote on it, and the buyer accepts a quote. Each acceptance is a
row of `secondary_trades`, which is `pending` until its trade is `settled` or `failed`. The ids
of RFQs and quotes are identified with the 32-byte keys by which the settler knows them.

`SettlePersistenceService` moves the rows in database transactions, each of which is one step here.
-/

namespace Marketplace

open Soroban

/-! ### The rows -/

/-- `SECONDARY_TRADE_STATUSES`. -/
inductive SecondaryTradeStatus where
  | pending
  | settled
  | failed
  deriving DecidableEq, Repr

/-- `RFQ_STATUSES`. -/
inductive RfqStatus where
  | «open»
  | filled
  | canceled
  | expired
  deriving DecidableEq, Repr

/-- `QUOTE_STATUSES`. -/
inductive QuoteStatus where
  | «open»
  | accepted
  | canceled
  | expired
  | superseded
  deriving DecidableEq, Repr

/-- `SETTLE_FAILURE_REASONS`. -/
inductive SettleFailureReason where
  | seller_balance_insufficient
  | seller_lockup
  | seller_auth_lapsed
  | party_frozen
  | buyer_not_whitelisted
  | buyer_usdc_insufficient
  | invalid_trade
  | token_not_found
  | buyer_signature_expired
  | signature_invalid
  | settlement_reverted
  | settle_abandoned
  deriving DecidableEq, Repr

/-- `QUOTE_DISPOSITIONS`: what a failure does to the quote. -/
inductive QuoteDisposition where
  | expire
  | keepOpen
  deriving DecidableEq, Repr

/-- A row of `rfqs`. -/
structure Rfq where
  collectorSub : ℕ
  artworkId : BytesN32
  status : RfqStatus

/-- The signed entry of the seller, by the ledger at which it expires. -/
structure SellerAuthEntry where
  signatureExpirationLedger : ℕ

/-- A row of `rfq_quotes`.  The times are in milliseconds. -/
structure Quote where
  rfqId : BytesN32
  holderSub : ℕ
  fractionContractId : ℕ
  fractionCount : ℤ
  pricePerFractionStroops : ℤ
  validUntil : ℕ
  status : QuoteStatus
  statusReason : Option SettleFailureReason
  sellerAuthEntry : Option SellerAuthEntry
  sellerWalletContract : Option Address

/-- A row of `secondary_trades`. -/
structure SecondaryTrade where
  rfqId : BytesN32
  quoteId : BytesN32
  buyerSub : ℕ
  idempotencyKeyHash : BytesN32
  status : SecondaryTradeStatus
  failureReason : Option SettleFailureReason
  txHash : Option ℕ
  createdAt : ℕ

/-- The tables.  The id of a trade is its place in the list. -/
structure Database where
  rfqs : BytesN32 → Option Rfq
  quotes : BytesN32 → Option Quote
  trades : List SecondaryTrade

/-! ### The statements of the repositories -/

/-- `casSettled`: a row that is still pending becomes settled.  Otherwise no row is affected. -/
def casSettled (trades : List SecondaryTrade) (id : ℕ) (txHash : Option ℕ) :
    Option (List SecondaryTrade) := do
  let row ← trades[id]?
  if row.status = .pending then some (trades.set id { row with status := .settled, txHash }) else none

/-- `casFailed`: a row that is still pending becomes failed. -/
def casFailed (trades : List SecondaryTrade) (id : ℕ) (reason : SettleFailureReason) :
    Option (List SecondaryTrade) := do
  let row ← trades[id]?
  if row.status = .pending then
    some (trades.set id { row with status := .failed, failureReason := some reason })
  else none

/-- `casFilled`: an open RFQ is filled. -/
def casFilled (rfqs : BytesN32 → Option Rfq) (rfqId : BytesN32) : BytesN32 → Option Rfq :=
  Function.update rfqs rfqId ((rfqs rfqId).map fun rfq =>
    if rfq.status = .open then { rfq with status := .filled } else rfq)

/-- `casAccepted`: an open quote is accepted. -/
def casAccepted (quotes : BytesN32 → Option Quote) (quoteId : BytesN32) :
    BytesN32 → Option Quote :=
  Function.update quotes quoteId ((quotes quoteId).map fun quote =>
    if quote.status = .open then { quote with status := .accepted } else quote)

/-- `expireWithReason`: an open quote expires. -/
def expireWithReason (quotes : BytesN32 → Option Quote) (quoteId : BytesN32)
    (reason : SettleFailureReason) : BytesN32 → Option Quote :=
  Function.update quotes quoteId ((quotes quoteId).map fun quote =>
    if quote.status = .open then { quote with status := .expired, statusReason := some reason }
    else quote)

/-- `supersedeOpenRivals`: the other open quotes of the RFQ are superseded. -/
def supersedeOpenRivals (quotes : BytesN32 → Option Quote) (rfqId exceptQuoteId : BytesN32) :
    BytesN32 → Option Quote :=
  fun quoteId => (quotes quoteId).map fun quote =>
    if quote.rfqId = rfqId ∧ quoteId ≠ exceptQuoteId ∧ quote.status = .open then
      { quote with status := .superseded }
    else quote

/-- `findPendingByRfq`: the trade that is in flight for the RFQ. -/
def findPendingByRfq (trades : List SecondaryTrade) (rfqId : BytesN32) : Option SecondaryTrade :=
  trades.find? fun row => row.rfqId = rfqId ∧ row.status = .pending

/-- `insertPending`: add a row, unless there is one with the same idempotency key. -/
def insertPending (trades : List SecondaryTrade) (row : SecondaryTrade) :
    Option (List SecondaryTrade) :=
  if trades.any fun other => other.buyerSub = row.buyerSub ∧ other.rfqId = row.rfqId
    ∧ other.idempotencyKeyHash = row.idempotencyKeyHash then none
  else some (trades ++ [{ row with status := .pending }])

/-- `findAcceptable`: a quote of the RFQ that is open, authorised by its seller, and still valid. -/
def findAcceptable (quotes : BytesN32 → Option Quote) (now : ℕ) (rfqId quoteId : BytesN32) :
    Option Quote :=
  (quotes quoteId).filter fun quote =>
    quote.rfqId = rfqId ∧ quote.status = .open ∧ quote.sellerAuthEntry.isSome
      ∧ now < quote.validUntil

/-- `findStalePending`: the trade is still pending after the grace period. -/
def StalePending (graceMs now : ℕ) (row : SecondaryTrade) : Prop :=
  row.status = .pending ∧ row.createdAt + graceMs < now

/-! ### The transactions -/

/-- `persistSettled`: the trade is settled, its RFQ filled, its quote accepted, and the rivals
superseded. -/
def persistSettled (id : ℕ) (trade : SecondaryTrade) (txHash : Option ℕ) (db : Database) :
    Database :=
  match casSettled db.trades id txHash with
  | none => db
  | some trades =>
    { trades
      rfqs := casFilled db.rfqs trade.rfqId
      quotes := supersedeOpenRivals (casAccepted db.quotes trade.quoteId) trade.rfqId trade.quoteId }

/-- `failTrade`: the trade has failed, and its quote expires when the seller is at fault. -/
def failTrade (id : ℕ) (trade : SecondaryTrade) (reason : SettleFailureReason)
    (disposition : QuoteDisposition) (db : Database) : Database :=
  match casFailed db.trades id reason with
  | none => db
  | some trades =>
    { db with
      trades
      quotes := match disposition with
        | .expire => expireWithReason db.quotes trade.quoteId reason
        | .keepOpen => db.quotes }

/-! ### What the transactions change -/

section Changes

variable {trades trades' : List SecondaryTrade} {id : ℕ} {row trade : SecondaryTrade}
  {db : Database}

theorem casSettled_eq_some {txHash : Option ℕ} :
  casSettled trades id txHash = some trades' ↔ ∃ row, trades[id]? = some row
    ∧ row.status = .pending ∧ trades' = trades.set id { row with status := .settled, txHash }
  := by
  rw [casSettled, Option.bind_eq_bind, Option.bind_eq_some_iff]
  simp [eq_comm (a := trades')]

theorem casFailed_eq_some {reason : SettleFailureReason} :
  casFailed trades id reason = some trades' ↔ ∃ row, trades[id]? = some row
    ∧ row.status = .pending
    ∧ trades' = trades.set id { row with status := .failed, failureReason := some reason }
  := by
  rw [casFailed, Option.bind_eq_bind, Option.bind_eq_some_iff]
  simp [eq_comm (a := trades')]

/-- `persistSettled` settles a pending trade and fills its RFQ, or it changes nothing. -/
theorem persistSettled_cases (id : ℕ) (trade : SecondaryTrade) (txHash : Option ℕ) (db : Database) :
  persistSettled id trade txHash db = db
    ∨ ∃ row, db.trades[id]? = some row ∧ row.status = .pending
      ∧ (persistSettled id trade txHash db).trades
          = db.trades.set id { row with status := .settled, txHash }
      ∧ (persistSettled id trade txHash db).rfqs = casFilled db.rfqs trade.rfqId
  := by
  rw [persistSettled]
  split
  · left
    rfl
  · next hcas =>
    obtain ⟨row, hrow, hpending, rfl⟩ := casSettled_eq_some.mp hcas
    right
    exact ⟨row, hrow, hpending, rfl, rfl⟩

/-- `failTrade` fails a pending trade, or it changes nothing. -/
theorem failTrade_cases (id : ℕ) (trade : SecondaryTrade) (reason : SettleFailureReason)
    (disposition : QuoteDisposition) (db : Database) :
  failTrade id trade reason disposition db = db
    ∨ ∃ row, db.trades[id]? = some row ∧ row.status = .pending
      ∧ (failTrade id trade reason disposition db).trades
          = db.trades.set id { row with status := .failed, failureReason := some reason }
      ∧ (failTrade id trade reason disposition db).rfqs = db.rfqs
  := by
  cases hcas : casFailed db.trades id reason with
  | none =>
    left
    simp only [failTrade, hcas]
  | some trades =>
    obtain ⟨row, hrow, hpending, rfl⟩ := casFailed_eq_some.mp hcas
    right
    refine ⟨row, hrow, hpending, ?_, ?_⟩
    · simp only [failTrade, hcas]
    · simp only [failTrade, hcas]

/-- The trades have not changed, or a trade that was pending is no longer so. -/
def Updates (trades trades' : List SecondaryTrade) : Prop :=
  trades' = trades ∨ ∃ id row row', trades[id]? = some row ∧ row.status = .pending
    ∧ row'.rfqId = row.rfqId ∧ row'.quoteId = row.quoteId ∧ trades' = trades.set id row'

theorem persistSettled_updates (id : ℕ) (trade : SecondaryTrade) (txHash : Option ℕ)
    (db : Database) :
  Updates db.trades (persistSettled id trade txHash db).trades
  := by
  rcases persistSettled_cases id trade txHash db with heq | ⟨row, hrow, hpending, htrades, _⟩
  · rw [heq]
    exact .inl rfl
  · right
    refine ⟨id, row, _, hrow, hpending, ?_, ?_, htrades⟩
    · rfl
    · rfl

theorem failTrade_updates (id : ℕ) (trade : SecondaryTrade) (reason : SettleFailureReason)
    (disposition : QuoteDisposition) (db : Database) :
  Updates db.trades (failTrade id trade reason disposition db).trades
  := by
  rcases failTrade_cases id trade reason disposition db with heq | ⟨row, hrow, hpending, htrades, _⟩
  · rw [heq]
    exact .inl rfl
  · right
    refine ⟨id, row, _, hrow, hpending, ?_, ?_, htrades⟩
    · rfl
    · rfl

/-- A trade that is no longer pending stays as it is. -/
theorem Updates.kept (h : Updates trades trades') (hrow : trades[id]? = some row)
    (hfinal : row.status ≠ .pending) :
  trades'[id]? = some row
  := by
  rcases h with rfl | ⟨k, row₁, row', hrow₁, hpending, _, _, rfl⟩
  · apply hrow
  · have hne : k ≠ id := by
      rintro rfl
      obtain rfl := Option.some.inj (hrow.symm.trans hrow₁)
      apply hfinal hpending
    rw [List.getElem?_set_ne hne, hrow]

/-- A row stays with its RFQ and its quote. -/
theorem Updates.present (h : Updates trades trades') (hrow : trades[id]? = some row) :
  ∃ row', trades'[id]? = some row' ∧ row'.rfqId = row.rfqId ∧ row'.quoteId = row.quoteId
  := by
  rcases h with rfl | ⟨k, row₁, row', hrow₁, _, hrfq, hquote, rfl⟩
  · exact ⟨row, hrow, rfl, rfl⟩
  · rcases eq_or_ne k id with rfl | hne
    · obtain ⟨hlt, _⟩ := List.getElem?_eq_some_iff.mp hrow₁
      obtain rfl := Option.some.inj (hrow.symm.trans hrow₁)
      exact ⟨row', List.getElem?_set_self hlt, hrfq, hquote⟩
    · exact ⟨row, (List.getElem?_set_ne hne).trans hrow, rfl, rfl⟩

/-- Where a row comes from: it is as it was, or it was pending. -/
theorem Updates.origin (h : Updates trades trades') (hrow : trades'[id]? = some row) :
  ∃ row₀, trades[id]? = some row₀ ∧ row.rfqId = row₀.rfqId ∧ row.quoteId = row₀.quoteId
    ∧ (row = row₀ ∨ row₀.status = .pending)
  := by
  rcases h with rfl | ⟨k, row₁, row', hrow₁, hpending, hrfq, hquote, rfl⟩
  · exact ⟨row, hrow, rfl, rfl, .inl rfl⟩
  · rcases eq_or_ne k id with rfl | hne
    · obtain ⟨hlt, _⟩ := List.getElem?_eq_some_iff.mp hrow₁
      rw [List.getElem?_set_self hlt] at hrow
      obtain rfl := Option.some.inj hrow
      exact ⟨row₁, hrow₁, hrfq, hquote, .inr hpending⟩
    · rw [List.getElem?_set_ne hne] at hrow
      exact ⟨row, hrow, rfl, rfl, .inl rfl⟩

/-- Where a row comes from when a row is added at the end. -/
theorem getElem?_concat_eq_some {new : SecondaryTrade} :
  (trades ++ [new])[id]? = some row
    ↔ trades[id]? = some row ∨ (id = trades.length ∧ row = new)
  := by
  rcases lt_trichotomy id trades.length with hlt | rfl | hgt
  · rw [List.getElem?_append_left hlt]
    simp [hlt.ne]
  · simp [eq_comm]
  · have hlength : (trades ++ [new]).length ≤ id := by
      rw [List.length_append, List.length_singleton]
      exact hgt
    simp [hgt.ne', hgt.le, List.getElem?_eq_none hlength]

/-- An RFQ is not deleted, and one that is not open stays as it is. -/
def ForwardOnly (rfqs rfqs' : BytesN32 → Option Rfq) : Prop :=
  ∀ rfqId rfq, rfqs rfqId = some rfq → ∃ rfq', rfqs' rfqId = some rfq'
    ∧ (rfq.status ≠ .open → rfq'.status = rfq.status)

/-- Filling an RFQ goes forward, and the RFQ is not open afterwards. -/
theorem casFilled_spec (rfqs : BytesN32 → Option Rfq) (rfqId : BytesN32) :
  ForwardOnly rfqs (casFilled rfqs rfqId)
    ∧ ∀ rfq, casFilled rfqs rfqId rfqId = some rfq → rfq.status ≠ .open
  := by
  constructor
  · intro r rfq hrfq
    rcases eq_or_ne r rfqId with rfl | hne
    · rw [casFilled, Function.update_self, hrfq]
      refine ⟨_, rfl, ?_⟩
      intro hopen
      simp only [if_neg hopen]
    · rw [casFilled, Function.update_of_ne hne]
      exact ⟨rfq, hrfq, fun _ => rfl⟩
  · intro rfq hrfq
    rw [casFilled, Function.update_self, Option.map_eq_some_iff] at hrfq
    obtain ⟨rfq₀, _, rfl⟩ := hrfq
    split
    · nofun
    · assumption

end Changes

end Marketplace
