import Tove.Marketplace.AcceptSafety
import Tove.Marketplace.Quotes

/-!
# The statuses of trades, quotes and RFQs

A settled trade goes with an accepted quote and a filled RFQ without open quotes. What the
transactions do to the tables as a whole keeps them so, when a trade is recorded for an open quote of
an open RFQ, and the quotes change otherwise only in ways that no trade is concerned with.
-/

namespace Marketplace

open Soroban Settler Relay Transition

/-! ### The statuses -/

/-- The statuses of the trades, the quotes and the RFQs agree. -/
structure StatusesAgree (db : Database) : Prop where
  settled : ∀ (id : ℕ) (row : SecondaryTrade), db.trades[id]? = some row → row.status = .settled →
    (∃ quote, db.quotes row.quoteId = some quote ∧ quote.status = .accepted)
      ∧ (∃ rfq, db.rfqs row.rfqId = some rfq ∧ rfq.status = .filled)
      ∧ ∀ quoteId quote, db.quotes quoteId = some quote → quote.rfqId = row.rfqId →
        quoteId ≠ row.quoteId → quote.status ≠ .open
  accepted : ∀ quoteId quoteId' quote quote', db.quotes quoteId = some quote →
    db.quotes quoteId' = some quote' → quote.rfqId = quote'.rfqId → quote.status = .accepted →
    quote'.status = .accepted → quoteId = quoteId'
  filled : ∀ rfqId rfq, db.rfqs rfqId = some rfq → rfq.status = .filled →
    ∃ (id : ℕ) (row : SecondaryTrade), db.trades[id]? = some row ∧ row.rfqId = rfqId
      ∧ row.status = .settled

/-- The RFQ is open. -/
def Database.RfqOpen (db : Database) (rfqId : BytesN32) : Prop :=
  ∃ rfq, db.rfqs rfqId = some rfq ∧ rfq.status = .open

/-! ### The quote of a request -/

theorem findAcceptable_rfqId {quotes : BytesN32 → Option Quote} {now : ℕ}
    {rfqId quoteId : BytesN32} {quote : Quote}
    (h : findAcceptable quotes now rfqId quoteId = some quote) :
  quotes quoteId = some quote ∧ quote.rfqId = rfqId
  := by
  rw [findAcceptable, Option.filter_eq_some_iff] at h
  obtain ⟨hquote, hacceptable⟩ := h
  simp only [decide_eq_true_eq] at hacceptable
  exact ⟨hquote, hacceptable.1⟩

theorem resolveQuote_ok {parties : Parties} {req : AcceptRequest} {rfq : Rfq}
    {quotes : BytesN32 → Option Quote} {now : ℕ} {ctx : AcceptContext}
    (h : resolveQuote parties req rfq quotes now = .ok ctx) :
  ∃ quote, quotes req.quoteId = some quote ∧ quote.rfqId = req.rfqId
  := by
  rw [resolveQuote] at h
  split at h
  · cases h
  · next quote hfind => exact ⟨quote, findAcceptable_rfqId hfind⟩

/-- A request that goes on has found its quote, or had found it. -/
theorem AcceptStep.found {parties : Parties} {db : Database} {now ledger : ℕ}
    {phase phase' : AcceptPhase} (h : AcceptStep parties db now ledger phase phase')
    {req : AcceptRequest} {ctx : AcceptContext}
    (hphase : phase' = .resolved req ctx ∨ phase' = .unexpired req ctx) :
  phase = .resolved req ctx ∨ ∃ quote, db.quotes req.quoteId = some quote ∧ quote.rfqId = req.rfqId
  := by
  cases h with
  | readRfq _ => simp at hphase
  | readQuote hresolve =>
    obtain heq | heq := hphase
    · cases heq
      exact .inr (resolveQuote_ok hresolve)
    · cases heq
  | notExpired _ _ =>
    obtain heq | heq := hphase
    · cases heq
    · cases heq
      exact .inl rfl
  | stop => simp at hphase

/-! ### The invariant of the tables -/

/-- What holds of the tables: a pending trade is for an open quote on an open RFQ, a settled one
for an accepted quote on a filled RFQ without open quotes, and nothing else is filled or
accepted. -/
structure Consistent (db : Database) : Prop where
  pending : ∀ (id : ℕ) (row : SecondaryTrade), db.trades[id]? = some row → row.status = .pending →
    db.RfqOpen row.rfqId
      ∧ ∃ quote, db.quotes row.quoteId = some quote ∧ quote.rfqId = row.rfqId ∧ quote.status = .open
  settled : ∀ (id : ℕ) (row : SecondaryTrade), db.trades[id]? = some row → row.status = .settled →
    (∃ rfq, db.rfqs row.rfqId = some rfq ∧ rfq.status = .filled)
      ∧ (∃ quote, db.quotes row.quoteId = some quote ∧ quote.rfqId = row.rfqId
        ∧ quote.status = .accepted)
      ∧ ∀ quoteId quote, db.quotes quoteId = some quote → quote.rfqId = row.rfqId →
        quote.status ≠ .open
  filled : ∀ rfqId rfq, db.rfqs rfqId = some rfq → rfq.status = .filled →
    ∃ (id : ℕ) (row : SecondaryTrade), db.trades[id]? = some row ∧ row.rfqId = rfqId
      ∧ row.status = .settled
  accepted : ∀ quoteId quote, db.quotes quoteId = some quote → quote.status = .accepted →
    ∃ (id : ℕ) (row : SecondaryTrade), db.trades[id]? = some row ∧ row.quoteId = quoteId
      ∧ row.rfqId = quote.rfqId ∧ row.status = .settled
  single : Single db.trades

theorem Consistent.statusesAgree {db : Database} (h : Consistent db) :
  StatusesAgree db
  := by
  constructor
  · intro id row hrow hsettled
    obtain ⟨hrfq, ⟨quote, hquote, _, haccepted⟩, hclosed⟩ := h.settled id row hrow hsettled
    exact ⟨⟨quote, hquote, haccepted⟩, hrfq, fun k q hq hrfq _ => hclosed k q hq hrfq⟩
  · intro quoteId quoteId' quote quote' hquote hquote' hrfq haccepted haccepted'
    obtain ⟨i, row, hrow, rfl, hrow_rfq, hsettled⟩ := h.accepted quoteId quote hquote haccepted
    obtain ⟨j, row', hrow', rfl, hrow_rfq', hsettled'⟩ :=
      h.accepted quoteId' quote' hquote' haccepted'
    have heq : i = j := by
      apply h.single i j row row' hrow hrow'
      · rw [hrow_rfq, hrfq, hrow_rfq']
      · rw [hsettled]
        nofun
      · rw [hsettled']
        nofun
    obtain rfl := heq
    rw [Option.some.inj (hrow.symm.trans hrow')]
  · apply h.filled

section Tables

variable {db : Database} {id : ℕ} {row : SecondaryTrade}

/-- A row of the list in which one row has been replaced. -/
theorem getElem?_set_eq_some {trades : List SecondaryTrade} (hrow : trades[id]? = some row)
    {row' row₁ : SecondaryTrade} {k : ℕ} :
  (trades.set id row')[k]? = some row₁
    ↔ (k = id ∧ row₁ = row') ∨ (k ≠ id ∧ trades[k]? = some row₁)
  := by
  obtain ⟨hlt, _⟩ := List.getElem?_eq_some_iff.mp hrow
  rcases eq_or_ne k id with rfl | hne
  · rw [List.getElem?_set_self hlt]
    simp [eq_comm]
  · rw [List.getElem?_set_ne hne.symm]
    simp [hne]

/-- A trade is pending alone on its RFQ. -/
theorem Consistent.rfqId_ne (h : Consistent db) (hrow : db.trades[id]? = some row)
    (hpending : row.status = .pending) {k : ℕ} {row₁ : SecondaryTrade}
    (hrow₁ : db.trades[k]? = some row₁) (hne : k ≠ id) (hfailed : row₁.status ≠ .failed) :
  row₁.rfqId ≠ row.rfqId
  := by
  intro heq
  apply hne
  apply h.single k id row₁ row hrow₁ hrow heq hfailed
  rw [hpending]
  nofun

/-- What `persistSettled` does to a quote. -/
theorem supersedeOpenRivals_casAccepted (quotes : BytesN32 → Option Quote)
    (rfqId quoteId k : BytesN32) :
  supersedeOpenRivals (casAccepted quotes quoteId) rfqId quoteId k
    = (quotes k).map fun quote =>
      if k = quoteId then (if quote.status = .open then { quote with status := .accepted }
        else quote)
      else if quote.rfqId = rfqId ∧ quote.status = .open then { quote with status := .superseded }
      else quote
  := by
  rw [supersedeOpenRivals, casAccepted]
  by_cases hk : k = quoteId
  · rw [hk, Function.update_self, Option.map_map]
    congr 1
    funext quote
    simp
  · rw [Function.update_of_ne hk]
    simp [hk]

/-- The quotes of other RFQs stay as they are, and an accepted quote stays accepted. -/
structure Confined (rfqId : BytesN32) (quotes quotes' : BytesN32 → Option Quote) : Prop where
  present : ∀ k quote, quotes k = some quote → ∃ quote', quotes' k = some quote'
    ∧ quote'.rfqId = quote.rfqId ∧ (quote.rfqId ≠ rfqId → quote'.status = quote.status)
    ∧ (quote.status = .accepted → quote'.status = .accepted)
  origin : ∀ k quote', quotes' k = some quote' → ∃ quote, quotes k = some quote
    ∧ quote'.rfqId = quote.rfqId ∧ (quote'.status = .open → quote.status = .open)

/-- Quotes that are mapped one by one. -/
theorem confined_of_map {rfqId : BytesN32} {quotes quotes' : BytesN32 → Option Quote}
    (f : BytesN32 → Quote → Quote) (hmap : ∀ k, quotes' k = (quotes k).map (f k))
    (hrfq : ∀ k quote, (f k quote).rfqId = quote.rfqId)
    (hother : ∀ k quote, quotes k = some quote → quote.rfqId ≠ rfqId →
      (f k quote).status = quote.status)
    (haccepted : ∀ k quote, quote.status = .accepted → (f k quote).status = .accepted)
    (hopen : ∀ k quote, (f k quote).status = .open → quote.status = .open) :
  Confined rfqId quotes quotes'
  := by
  constructor
  · intro k quote hquote
    refine ⟨f k quote, ?_, hrfq k quote, hother k quote hquote, haccepted k quote⟩
    rw [hmap, hquote]
    rfl
  · intro k quote' hquote'
    rw [hmap, Option.map_eq_some_iff] at hquote'
    obtain ⟨quote, hquote, rfl⟩ := hquote'
    exact ⟨quote, hquote, hrfq k quote, hopen k quote⟩

theorem confined_persist {rfqId quoteId : BytesN32} {quotes : BytesN32 → Option Quote}
    {winner : Quote} (hwinner : quotes quoteId = some winner) (hrfq : winner.rfqId = rfqId) :
  Confined rfqId quotes (supersedeOpenRivals (casAccepted quotes quoteId) rfqId quoteId)
  := by
  apply confined_of_map _ (supersedeOpenRivals_casAccepted quotes rfqId quoteId)
  · intro k quote
    grind
  · intro k quote hquote hne
    have hk : k ≠ quoteId := by
      rintro rfl
      obtain rfl := Option.some.inj (hwinner.symm.trans hquote)
      exact hne hrfq
    simp [hk, hne]
  · intro k quote haccepted
    simp [haccepted]
  · intro k quote
    grind

/-- What `expireWithReason` does to a quote. -/
theorem expireWithReason_apply (quotes : BytesN32 → Option Quote) (quoteId : BytesN32)
    (reason : SettleFailureReason) (k : BytesN32) :
  expireWithReason quotes quoteId reason k = (quotes k).map fun quote =>
    if k = quoteId ∧ quote.status = .open then
      { quote with status := .expired, statusReason := some reason }
    else quote
  := by
  rw [expireWithReason]
  by_cases hk : k = quoteId
  · rw [hk, Function.update_self]
    simp
  · rw [Function.update_of_ne hk]
    simp [hk]

/-- What `markAuthorized` does to a quote. -/
theorem markAuthorized_apply (quotes : BytesN32 → Option Quote) (quoteId : BytesN32)
    (entry : SellerAuthEntry) (wallet : Address) (k : BytesN32) :
  markAuthorized quotes quoteId entry wallet k = (quotes k).map fun quote =>
    if k = quoteId ∧ quote.status = .open then
      { quote with sellerAuthEntry := some entry, sellerWalletContract := some wallet }
    else quote
  := by
  rw [markAuthorized]
  by_cases hk : k = quoteId
  · rw [hk, Function.update_self]
    simp
  · rw [Function.update_of_ne hk]
    simp [hk]

theorem confined_expire {rfqId quoteId : BytesN32} {quotes : BytesN32 → Option Quote}
    {quote : Quote} (hquote : quotes quoteId = some quote) (hrfq : quote.rfqId = rfqId)
    (reason : SettleFailureReason) :
  Confined rfqId quotes (expireWithReason quotes quoteId reason)
  := by
  apply confined_of_map _ (expireWithReason_apply quotes quoteId reason)
  · intro k q
    grind
  · intro k q hq hne
    have hk : k ≠ quoteId := by
      rintro rfl
      obtain rfl := Option.some.inj (hquote.symm.trans hq)
      exact hne hrfq
    simp [hk]
  · intro k q haccepted
    simp [haccepted]
  · intro k q
    grind

theorem Confined.refl (rfqId : BytesN32) (quotes : BytesN32 → Option Quote) :
  Confined rfqId quotes quotes
  := ⟨fun _ quote hquote => ⟨quote, hquote, rfl, fun _ => rfl, id⟩,
    fun _ quote hquote => ⟨quote, hquote, rfl, id⟩⟩

/-- What a transaction of one trade leaves to the others. -/
theorem Consistent.others (h : Consistent db) (hrow : db.trades[id]? = some row)
    (hpending : row.status = .pending) {db' : Database}
    (hrfqs : ∀ rfqId, rfqId ≠ row.rfqId → db'.rfqs rfqId = db.rfqs rfqId)
    (hquotes : Confined row.rfqId db.quotes db'.quotes) {k : ℕ} {row₁ : SecondaryTrade}
    (hrow₁ : db.trades[k]? = some row₁) (hne : k ≠ id) :
  (row₁.status = .pending → db'.RfqOpen row₁.rfqId
      ∧ ∃ quote, db'.quotes row₁.quoteId = some quote ∧ quote.rfqId = row₁.rfqId
        ∧ quote.status = .open)
    ∧ (row₁.status = .settled → (∃ rfq, db'.rfqs row₁.rfqId = some rfq ∧ rfq.status = .filled)
      ∧ (∃ quote, db'.quotes row₁.quoteId = some quote ∧ quote.rfqId = row₁.rfqId
        ∧ quote.status = .accepted)
      ∧ ∀ quoteId quote, db'.quotes quoteId = some quote → quote.rfqId = row₁.rfqId →
        quote.status ≠ .open)
  := by
  constructor
  · intro hpending₁
    have hrfq_ne : row₁.rfqId ≠ row.rfqId :=
      h.rfqId_ne hrow hpending hrow₁ hne (by rw [hpending₁]; nofun)
    obtain ⟨hopen, quote, hquote, hrfq, hquote_open⟩ := h.pending k row₁ hrow₁ hpending₁
    obtain ⟨quote', hquote', hrfq', hsame, _⟩ := hquotes.present _ quote hquote
    constructor
    · rw [Database.RfqOpen, hrfqs _ hrfq_ne]
      exact hopen
    · refine ⟨quote', hquote', hrfq'.trans hrfq, ?_⟩
      rw [hsame (hrfq ▸ hrfq_ne), hquote_open]
  · intro hsettled₁
    have hrfq_ne : row₁.rfqId ≠ row.rfqId :=
      h.rfqId_ne hrow hpending hrow₁ hne (by rw [hsettled₁]; nofun)
    obtain ⟨hfilled, ⟨quote, hquote, hrfq, haccepted⟩, hclosed⟩ := h.settled k row₁ hrow₁ hsettled₁
    obtain ⟨quote', hquote', hrfq', _, haccepted'⟩ := hquotes.present _ quote hquote
    refine ⟨?_, ⟨quote', hquote', hrfq'.trans hrfq, haccepted' haccepted⟩, ?_⟩
    · rw [hrfqs _ hrfq_ne]
      exact hfilled
    · intro quoteId quote₁ hquote₁ hrfq₁ hopen
      obtain ⟨quote₀, hquote₀, hrfq₀, hopen₀⟩ := hquotes.origin _ quote₁ hquote₁
      exact hclosed quoteId quote₀ hquote₀ (hrfq₀.symm.trans hrfq₁) (hopen₀ hopen)

/-- A transaction that closes a pending trade keeps the tables consistent, when only a settled
trade fills its RFQ and has its quote accepted. -/
theorem Consistent.close (h : Consistent db) (hrow : db.trades[id]? = some row)
    (hpending : row.status = .pending) {db' : Database} {row' : SecondaryTrade}
    (htrades : db'.trades = db.trades.set id row') (hclosed : row'.status ≠ .pending)
    (hrfqId : row'.rfqId = row.rfqId) (hquoteId : row'.quoteId = row.quoteId)
    (hrfqs : ∀ rfqId, rfqId ≠ row.rfqId → db'.rfqs rfqId = db.rfqs rfqId)
    (hquotes : Confined row.rfqId db.quotes db'.quotes)
    (hself : row'.status = .settled →
      (∃ rfq, db'.rfqs row.rfqId = some rfq ∧ rfq.status = .filled)
        ∧ (∃ quote, db'.quotes row.quoteId = some quote ∧ quote.rfqId = row.rfqId
          ∧ quote.status = .accepted)
        ∧ ∀ quoteId quote, db'.quotes quoteId = some quote → quote.rfqId = row.rfqId →
          quote.status ≠ .open)
    (hfilled : ∀ rfq, db'.rfqs row.rfqId = some rfq → rfq.status = .filled →
      row'.status = .settled)
    (haccepted : ∀ quoteId quote, db'.quotes quoteId = some quote → quote.status = .accepted →
      (∃ quote₀, db.quotes quoteId = some quote₀ ∧ quote.rfqId = quote₀.rfqId
        ∧ quote₀.status = .accepted)
      ∨ quoteId = row.quoteId ∧ quote.rfqId = row.rfqId ∧ row'.status = .settled) :
  Consistent db'
  := by
  have hnew : ∀ {k : ℕ} {row₁ : SecondaryTrade}, db'.trades[k]? = some row₁
      ↔ (k = id ∧ row₁ = row') ∨ (k ≠ id ∧ db.trades[k]? = some row₁) := by
    intro k row₁
    rw [htrades]
    apply getElem?_set_eq_some hrow
  have hkept : ∀ {k : ℕ} {row₁ : SecondaryTrade}, db.trades[k]? = some row₁ →
      row₁.status = .settled → db'.trades[k]? = some row₁ := by
    intro k row₁ hrow₁ hsettled₁
    refine hnew.mpr (.inr ⟨?_, hrow₁⟩)
    rintro rfl
    obtain rfl := Option.some.inj (hrow.symm.trans hrow₁)
    cases hpending.symm.trans hsettled₁
  have hupdates : Updates db.trades db'.trades :=
    .inr ⟨id, row, row', hrow, hpending, hrfqId, hquoteId, htrades⟩
  constructor
  · intro k row₁ hrow₁ hpending₁
    rcases hnew.mp hrow₁ with ⟨rfl, rfl⟩ | ⟨hne, hrow₁⟩
    · exact absurd hpending₁ hclosed
    · exact (h.others hrow hpending hrfqs hquotes hrow₁ hne).1 hpending₁
  · intro k row₁ hrow₁ hsettled₁
    rcases hnew.mp hrow₁ with ⟨rfl, rfl⟩ | ⟨hne, hrow₁⟩
    · rw [hrfqId, hquoteId]
      exact hself hsettled₁
    · exact (h.others hrow hpending hrfqs hquotes hrow₁ hne).2 hsettled₁
  · intro rfqId rfq hrfq hfilled₁
    rcases eq_or_ne rfqId row.rfqId with rfl | hne
    · exact ⟨id, row', hnew.mpr (.inl ⟨rfl, rfl⟩), hrfqId, hfilled rfq hrfq hfilled₁⟩
    · rw [hrfqs rfqId hne] at hrfq
      obtain ⟨k, row₁, hrow₁, hrow_rfq, hsettled₁⟩ := h.filled rfqId rfq hrfq hfilled₁
      exact ⟨k, row₁, hkept hrow₁ hsettled₁, hrow_rfq, hsettled₁⟩
  · intro quoteId quote hquote haccepted₁
    obtain ⟨quote₀, hquote₀, hrfq₀, haccepted₀⟩ | ⟨rfl, hrfq, hsettled⟩ :=
      haccepted quoteId quote hquote haccepted₁
    · obtain ⟨k, row₁, hrow₁, hrow_quote, hrow_rfq, hsettled₁⟩ :=
        h.accepted quoteId quote₀ hquote₀ haccepted₀
      exact ⟨k, row₁, hkept hrow₁ hsettled₁, hrow_quote, hrow_rfq.trans hrfq₀.symm, hsettled₁⟩
    · exact ⟨id, row', hnew.mpr (.inl ⟨rfl, rfl⟩), hquoteId, hrfqId.trans hrfq.symm, hsettled⟩
  · apply h.single.updates hupdates

/-- A settlement that is persisted keeps the tables consistent. -/
theorem Consistent.persist (h : Consistent db) (hrow : db.trades[id]? = some row)
    (txHash : Option ℕ) :
  Consistent (persistSettled id row txHash db)
  := by
  cases hcas : casSettled db.trades id txHash with
  | none => simpa only [persistSettled, hcas] using h
  | some trades =>
    simp only [persistSettled, hcas]
    obtain ⟨row₀, hrow₀, hpending, rfl⟩ := casSettled_eq_some.mp hcas
    obtain rfl := Option.some.inj (hrow.symm.trans hrow₀)
    obtain ⟨⟨rfq, hrfq, hopen⟩, quote, hquote, hquote_rfq, hquote_open⟩ :=
      h.pending id row hrow hpending
    apply h.close hrow hpending rfl
    · intro heq
      cases heq
    · rfl
    · rfl
    · exact fun rfqId hne => Function.update_of_ne hne ..
    · apply confined_persist hquote hquote_rfq
    · intro _
      refine ⟨⟨{ rfq with status := .filled }, ?_, rfl⟩,
        ⟨{ quote with status := .accepted }, ?_, hquote_rfq, rfl⟩, ?_⟩
      · simp [casFilled, hrfq, hopen]
      · simp [supersedeOpenRivals_casAccepted, hquote, hquote_open]
      · intro quoteId quote₁ hquote₁ hrfq₁ hopen₁
        simp only [supersedeOpenRivals_casAccepted, Option.map_eq_some_iff] at hquote₁
        obtain ⟨quote₀, _, rfl⟩ := hquote₁
        grind
    · exact fun _ _ _ => rfl
    · intro quoteId quote₁ hquote₁ haccepted
      simp only [supersedeOpenRivals_casAccepted, Option.map_eq_some_iff] at hquote₁
      obtain ⟨quote₀, hquote₀, rfl⟩ := hquote₁
      grind

/-- A trade that is failed keeps the tables consistent. -/
theorem Consistent.fail (h : Consistent db) (hrow : db.trades[id]? = some row)
    (reason : SettleFailureReason) (disposition : QuoteDisposition) :
  Consistent (failTrade id row reason disposition db)
  := by
  cases hcas : casFailed db.trades id reason with
  | none => simpa only [failTrade, hcas] using h
  | some trades =>
    obtain ⟨row₀, hrow₀, hpending, rfl⟩ := casFailed_eq_some.mp hcas
    obtain rfl := Option.some.inj (hrow.symm.trans hrow₀)
    obtain ⟨⟨rfq, hrfq, hopen⟩, quote, hquote, hquote_rfq, _⟩ := h.pending id row hrow hpending
    have hconfined : Confined row.rfqId db.quotes
        (failTrade id row reason disposition db).quotes := by
      cases disposition with
      | expire =>
        simp only [failTrade, hcas]
        apply confined_expire hquote hquote_rfq
      | keepOpen =>
        simp only [failTrade, hcas]
        apply Confined.refl
    have htrades : (failTrade id row reason disposition db).trades
        = db.trades.set id { row with status := .failed, failureReason := some reason } := by
      simp only [failTrade, hcas]
    have hrfqs : (failTrade id row reason disposition db).rfqs = db.rfqs := by
      simp only [failTrade, hcas]
    apply h.close hrow hpending htrades
    · intro heq
      cases heq
    · rfl
    · rfl
    · intro rfqId _
      rw [hrfqs]
    · apply hconfined
    · intro heq
      cases heq
    · intro rfq₁ hrfq₁ hfilled
      rw [hrfqs, hrfq] at hrfq₁
      obtain rfl := Option.some.inj hrfq₁
      cases hopen.symm.trans hfilled
    · intro quoteId quote₁ hquote₁ haccepted
      left
      cases disposition with
      | keepOpen =>
        simp only [failTrade, hcas] at hquote₁
        exact ⟨quote₁, hquote₁, rfl, haccepted⟩
      | expire =>
        simp only [failTrade, hcas, expireWithReason_apply, Option.map_eq_some_iff] at hquote₁
        obtain ⟨quote₀, hquote₀, rfl⟩ := hquote₁
        grind

/-- What a change of the quotes that no trade makes has to respect: nothing is accepted by it,
what it opens is on an open RFQ, and the open quotes of the pending trades stay open. -/
structure Neutral (db : Database) (quotes : BytesN32 → Option Quote) : Prop where
  present : ∀ k quote, db.quotes k = some quote → ∃ quote', quotes k = some quote'
    ∧ quote'.rfqId = quote.rfqId ∧ (quote.status = .accepted → quote'.status = .accepted)
  accepted : ∀ k quote', quotes k = some quote' → quote'.status = .accepted →
    ∃ quote, db.quotes k = some quote ∧ quote'.rfqId = quote.rfqId ∧ quote.status = .accepted
  opened : ∀ k quote', quotes k = some quote' → quote'.status = .open →
    (∃ quote, db.quotes k = some quote ∧ quote'.rfqId = quote.rfqId ∧ quote.status = .open)
      ∨ db.RfqOpen quote'.rfqId
  spared : ∀ (id : ℕ) (row : SecondaryTrade) (quote quote' : Quote), db.trades[id]? = some row →
    row.status = .pending → db.quotes row.quoteId = some quote → quote.status = .open →
    quotes row.quoteId = some quote' → quote'.status = .open

theorem Consistent.quotes (h : Consistent db) {quotes : BytesN32 → Option Quote}
    (hneutral : Neutral db quotes) :
  Consistent { db with quotes }
  := by
  constructor
  · intro k row₁ hrow₁ hpending₁
    obtain ⟨hopen, quote, hquote, hrfq, hquote_open⟩ := h.pending k row₁ hrow₁ hpending₁
    obtain ⟨quote', hquote', hrfq', _⟩ := hneutral.present _ quote hquote
    refine ⟨hopen, quote', hquote', hrfq'.trans hrfq, ?_⟩
    apply hneutral.spared k row₁ quote quote' hrow₁ hpending₁ hquote hquote_open hquote'
  · intro k row₁ hrow₁ hsettled₁
    obtain ⟨⟨rfq, hrfq, hfilled⟩, ⟨quote, hquote, hquote_rfq, haccepted⟩, hclosed⟩ :=
      h.settled k row₁ hrow₁ hsettled₁
    obtain ⟨quote', hquote', hrfq', haccepted'⟩ := hneutral.present _ quote hquote
    refine ⟨⟨rfq, hrfq, hfilled⟩,
      ⟨quote', hquote', hrfq'.trans hquote_rfq, haccepted' haccepted⟩, ?_⟩
    intro quoteId quote₁ hquote₁ hrfq₁ hopen
    obtain ⟨quote₀, hquote₀, hrfq₀, hopen₀⟩ | ⟨rfq', hrfq_row, hrfq_open⟩ :=
      hneutral.opened _ quote₁ hquote₁ hopen
    · exact hclosed quoteId quote₀ hquote₀ (hrfq₀.symm.trans hrfq₁) hopen₀
    · rw [hrfq₁, hrfq] at hrfq_row
      obtain rfl := Option.some.inj hrfq_row
      cases hfilled.symm.trans hrfq_open
  · apply h.filled
  · intro quoteId quote hquote haccepted
    obtain ⟨quote₀, hquote₀, hrfq₀, haccepted₀⟩ := hneutral.accepted quoteId quote hquote haccepted
    obtain ⟨k, row₁, hrow₁, hrow_quote, hrow_rfq, hsettled₁⟩ :=
      h.accepted quoteId quote₀ hquote₀ haccepted₀
    exact ⟨k, row₁, hrow₁, hrow_quote, hrow_rfq.trans hrfq₀.symm, hsettled₁⟩
  · apply h.single

/-- A change of the open quotes, which leaves those of the pending trades open. -/
theorem neutral_of_map {quotes : BytesN32 → Option Quote} (f : BytesN32 → Quote → Quote)
    (hmap : ∀ k, quotes k = (db.quotes k).map (f k))
    (hrfq : ∀ k quote, (f k quote).rfqId = quote.rfqId)
    (hclosed : ∀ k quote, quote.status ≠ .open → (f k quote).status = quote.status)
    (hopen : ∀ k quote, quote.status = .open → (f k quote).status ≠ .accepted)
    (hspared : ∀ (id : ℕ) (row : SecondaryTrade) (quote : Quote), db.trades[id]? = some row →
      row.status = .pending → db.quotes row.quoteId = some quote → quote.status = .open →
      (f row.quoteId quote).status = .open) :
  Neutral db quotes
  := by
  have horigin : ∀ {k quote'}, quotes k = some quote' →
      ∃ quote, db.quotes k = some quote ∧ quote' = f k quote := by
    intro k quote' hquote'
    rw [hmap, Option.map_eq_some_iff] at hquote'
    obtain ⟨quote, hquote, heq⟩ := hquote'
    exact ⟨quote, hquote, heq.symm⟩
  constructor
  · intro k quote hquote
    refine ⟨f k quote, ?_, hrfq k quote, ?_⟩
    · rw [hmap, hquote]
      rfl
    · intro haccepted
      rw [hclosed k quote (by rw [haccepted]; nofun), haccepted]
  · intro k quote' hquote' haccepted
    obtain ⟨quote, hquote, rfl⟩ := horigin hquote'
    have hne : quote.status ≠ .open := fun h => hopen k quote h haccepted
    exact ⟨quote, hquote, hrfq k quote, (hclosed k quote hne).symm.trans haccepted⟩
  · intro k quote' hquote' hopen'
    obtain ⟨quote, hquote, rfl⟩ := horigin hquote'
    refine .inl ⟨quote, hquote, hrfq k quote, ?_⟩
    by_contra hne
    apply hne
    rw [← hclosed k quote hne, hopen']
  · intro id row quote quote' hrow hpending hquote hopen₀ hquote'
    obtain ⟨quote₀, hquote₀, rfl⟩ := horigin hquote'
    obtain rfl := Option.some.inj (hquote.symm.trans hquote₀)
    apply hspared id row quote hrow hpending hquote hopen₀

/-- An authorisation is no trade's concern. -/
theorem neutral_markAuthorized (db : Database) (quoteId : BytesN32) (entry : SellerAuthEntry)
    (wallet : Address) :
  Neutral db (markAuthorized db.quotes quoteId entry wallet)
  := by
  have hstatus : ∀ (k : BytesN32) (quote : Quote),
      Quote.status (if k = quoteId ∧ quote.status = .open then
      { quote with sellerAuthEntry := some entry, sellerWalletContract := some wallet }
      else quote) = quote.status := by
    intro k quote
    split
    · rfl
    · rfl
  apply neutral_of_map _ (markAuthorized_apply db.quotes quoteId entry wallet)
  · intro k quote
    grind
  · exact fun k quote _ => hstatus k quote
  · intro k quote hopen
    rw [hstatus, hopen]
    nofun
  · intro id row quote _ _ _ hopen
    rw [hstatus, hopen]

/-- A trade is recorded for an open quote of an open RFQ. -/
theorem Consistent.insert (h : Consistent db) {new : SecondaryTrade} {quote : Quote}
    (hpending : new.status = .pending) (hnone : findPendingByRfq db.trades new.rfqId = none)
    (hopen : db.RfqOpen new.rfqId) (hquote : db.quotes new.quoteId = some quote)
    (hrfq : quote.rfqId = new.rfqId) (hquote_open : quote.status = .open) :
  Consistent { db with trades := db.trades ++ [new] }
  := by
  have hfailed : ∀ (k : ℕ) (row₁ : SecondaryTrade), db.trades[k]? = some row₁ →
      row₁.rfqId = new.rfqId → row₁.status = .failed := by
    intro k row₁ hrow₁ heq
    cases hstatus : row₁.status with
    | pending => cases status_ne_pending hnone hrow₁ heq hstatus
    | settled =>
      obtain ⟨⟨rfq, hrow_rfq, hfilled⟩, _⟩ := h.settled k row₁ hrow₁ hstatus
      obtain ⟨rfq', hnew_rfq, hrfq_open⟩ := hopen
      rw [heq, hnew_rfq] at hrow_rfq
      obtain rfl := Option.some.inj hrow_rfq
      cases hfilled.symm.trans hrfq_open
    | failed => rfl
  constructor
  · intro k row₁ hrow₁ hpending₁
    rcases getElem?_concat_eq_some.mp hrow₁ with hrow₁ | ⟨_, rfl⟩
    · apply h.pending k row₁ hrow₁ hpending₁
    · exact ⟨hopen, quote, hquote, hrfq, hquote_open⟩
  · intro k row₁ hrow₁ hsettled₁
    rcases getElem?_concat_eq_some.mp hrow₁ with hrow₁ | ⟨_, rfl⟩
    · apply h.settled k row₁ hrow₁ hsettled₁
    · cases hpending.symm.trans hsettled₁
  · intro rfqId rfq hrfq hfilled
    obtain ⟨k, row₁, hrow₁, hids⟩ := h.filled rfqId rfq hrfq hfilled
    exact ⟨k, row₁, getElem?_concat_eq_some.mpr (.inl hrow₁), hids⟩
  · intro quoteId quote₁ hquote₁ haccepted
    obtain ⟨k, row₁, hrow₁, hids⟩ := h.accepted quoteId quote₁ hquote₁ haccepted
    exact ⟨k, row₁, getElem?_concat_eq_some.mpr (.inl hrow₁), hids⟩
  · apply h.single.concat hfailed

/-- An RFQ is created. -/
theorem Consistent.create (h : Consistent db) {rfqId : BytesN32} {rfq : Rfq}
    (hfresh : db.rfqs rfqId = none) (hopen : rfq.status = .open) :
  Consistent { db with rfqs := Function.update db.rfqs rfqId (some rfq) }
  := by
  have hkept : ∀ {k rfq₁}, db.rfqs k = some rfq₁ →
      Function.update db.rfqs rfqId (some rfq) k = some rfq₁ := by
    intro k rfq₁ hrfq₁
    have hne : k ≠ rfqId := by
      rintro rfl
      cases hfresh.symm.trans hrfq₁
    rw [Function.update_of_ne hne, hrfq₁]
  constructor
  · intro k row₁ hrow₁ hpending₁
    obtain ⟨⟨rfq₁, hrfq₁, hopen₁⟩, hquote⟩ := h.pending k row₁ hrow₁ hpending₁
    exact ⟨⟨rfq₁, hkept hrfq₁, hopen₁⟩, hquote⟩
  · intro k row₁ hrow₁ hsettled₁
    obtain ⟨⟨rfq₁, hrfq₁, hfilled₁⟩, hquote⟩ := h.settled k row₁ hrow₁ hsettled₁
    exact ⟨⟨rfq₁, hkept hrfq₁, hfilled₁⟩, hquote⟩
  · intro k rfq₁ (hrfq₁ : Function.update db.rfqs rfqId (some rfq) k = some rfq₁) hfilled₁
    rcases eq_or_ne k rfqId with rfl | hne
    · rw [Function.update_self] at hrfq₁
      obtain rfl := Option.some.inj hrfq₁
      cases hopen.symm.trans hfilled₁
    · rw [Function.update_of_ne hne] at hrfq₁
      apply h.filled k rfq₁ hrfq₁ hfilled₁
  · apply h.accepted
  · apply h.single

end Tables

end Marketplace
