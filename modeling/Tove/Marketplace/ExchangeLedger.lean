import Tove.Marketplace.Exchange
import Tove.Marketplace.Statuses

/-!
# What the transactions have written

What a transaction has written is told by where it stands: it has written a row only over one that
matched, and it holds that row until it is over, so that what is committed of it does not change. A
quote that is recorded while the rivals of a settled trade are being superseded is missed by it;
otherwise a transaction commits what it would have done in one step.
-/

namespace Marketplace

open Soroban ReadCommitted

/-! ### The writes -/

/-- What a transaction has written over a trade. -/
def tradeWritten : Transaction → ℕ → Option SecondaryTrade → SecondaryTrade → Prop
  | .persist .begun _ _ _, _, _, _ | .persist .lost _ _ _, _, _, _ => False
  | .persist _ id _ txHash, k, before, row => k = id ∧ ∃ row₀, before = some row₀
    ∧ row₀.status = .pending ∧ row = { row₀ with status := .settled, txHash }
  | .fail .begun _ _ _ _, _, _, _ | .fail .lost _ _ _ _, _, _, _ => False
  | .fail _ id _ reason _, k, before, row => k = id ∧ ∃ row₀, before = some row₀
    ∧ row₀.status = .pending ∧ row = { row₀ with status := .failed, failureReason := some reason }
  | _, _, _, _ => False

/-- What a transaction has written over an RFQ. -/
def rfqWritten : Transaction → BytesN32 → Option Rfq → Rfq → Prop
  | .persist .filled _ trade _, k, before, row | .persist .accepted _ trade _, k, before, row
  | .persist (.superseding _) _ trade _, k, before, row => k = trade.rfqId ∧ ∃ rfq,
    before = some rfq ∧ rfq.status = .open ∧ row = { rfq with status := .filled }
  | _, _, _, _ => False

/-- What a transaction has written over a quote, or as a new one. -/
def quoteWritten : Transaction → BytesN32 → Option Quote → Quote → Prop
  | .persist .accepted _ trade _, k, before, row => k = trade.quoteId ∧ ∃ quote,
    before = some quote ∧ quote.status = .open ∧ row = { quote with status := .accepted }
  | .persist (.superseding _) _ trade _, k, before, row => ∃ quote, before = some quote
    ∧ quote.status = .open ∧ (k = trade.quoteId ∧ row = { quote with status := .accepted }
      ∨ Rival trade.rfqId trade.quoteId k quote ∧ row = { quote with status := .superseded })
  | .fail .disposed _ trade reason .expire, k, before, row => k = trade.quoteId ∧ ∃ quote,
    before = some quote ∧ quote.status = .open
    ∧ row = { quote with status := .expired, statusReason := some reason }
  | .submit .inserted req _ _ _, _, before, row => (∃ quote, before = some quote
      ∧ quote.status = .open ∧ row = { quote with status := .expired })
    ∨ before = none ∧ row.rfqId = req.rfqId ∧ row.status = .open
  | .submit _ _ _ _ _, _, before, row => ∃ quote, before = some quote
      ∧ quote.status = .open ∧ row = { quote with status := .expired }
  | _, _, _, _ => False

/-- The trade that a transaction is about. -/
def Transaction.trade : Transaction → Option (ℕ × SecondaryTrade)
  | .persist _ id trade _ | .fail _ id trade _ _ => some (id, trade)
  | _ => none

/-- The transaction supersedes the rivals on the RFQ. -/
def Transaction.Sweeps (rfqId : BytesN32) : Transaction → Prop
  | .persist (.superseding _) _ trade _ => trade.rfqId = rfqId
  | _ => False

/-- The rows that a transaction has written for certain. -/
def Held (e : Exchange) (n : ℕ) : Transaction → Prop
  | .persist .settled id _ _ | .fail .failed id _ _ _ | .fail .disposed id _ _ .keepOpen =>
    (e.tradeWrites n id).isSome
  | .persist .filled id trade _ =>
    (e.tradeWrites n id).isSome ∧ (e.rfqWrites n trade.rfqId).isSome
  | .persist .accepted id trade _ => (e.tradeWrites n id).isSome
    ∧ (e.rfqWrites n trade.rfqId).isSome ∧ (e.quoteWrites n trade.quoteId).isSome
  | .persist (.superseding quoteIds) id trade _ => (e.tradeWrites n id).isSome
    ∧ (e.rfqWrites n trade.rfqId).isSome ∧ (e.quoteWrites n trade.quoteId).isSome
    ∧ ∀ k quote, e.db.quotes k = some quote → Rival trade.rfqId trade.quoteId k quote →
      k ∈ quoteIds ∨ (e.quoteWrites n k).isSome
  | .fail .disposed id trade _ .expire =>
    (e.tradeWrites n id).isSome ∧ (e.quoteWrites n trade.quoteId).isSome
  | _ => True

/-- What is known of a transaction that stands where the last argument says. -/
structure Known (e : Exchange) (n : ℕ) (t : Transaction) : Prop where
  trades : e.trades.Changes n (tradeWritten t)
  rfqs : e.rfqs.Changes n (rfqWritten t)
  quotes : e.quotes.Changes n (quoteWritten t)
  present : ∀ id trade, t.trade = some (id, trade) → ∃ row, e.db.trades[id]? = some row
    ∧ row.rfqId = trade.rfqId ∧ row.quoteId = trade.quoteId
  held : Held e n t

section Written

variable {t : Transaction}

/-- A trade is written over a pending one, which is not pending any more. -/
theorem tradeWritten_cases {id : ℕ} {before : Option SecondaryTrade} {row : SecondaryTrade}
    (h : tradeWritten t id before row) :
  ∃ row₀, before = some row₀ ∧ row₀.status = .pending ∧ row.status ≠ .pending
    ∧ row.rfqId = row₀.rfqId ∧ row.quoteId = row₀.quoteId
  := by
  unfold tradeWritten at h
  split at h
  · cases h
  · cases h
  · obtain ⟨_, row₀, rfl, hpending, rfl⟩ := h
    exact ⟨row₀, rfl, hpending, nofun, rfl, rfl⟩
  · cases h
  · cases h
  · obtain ⟨_, row₀, rfl, hpending, rfl⟩ := h
    exact ⟨row₀, rfl, hpending, nofun, rfl, rfl⟩
  · cases h

/-- An RFQ is written over an open one. -/
theorem rfqWritten_cases {rfqId : BytesN32} {before : Option Rfq} {row : Rfq}
    (h : rfqWritten t rfqId before row) :
  ∃ rfq, before = some rfq ∧ rfq.status = .open
  := by
  unfold rfqWritten at h
  split at h
  · obtain ⟨_, rfq, rfl, hopen, _⟩ := h
    exact ⟨rfq, rfl, hopen⟩
  · obtain ⟨_, rfq, rfl, hopen, _⟩ := h
    exact ⟨rfq, rfl, hopen⟩
  · obtain ⟨_, rfq, rfl, hopen, _⟩ := h
    exact ⟨rfq, rfl, hopen⟩
  · cases h

/-- A quote is written over an open one, which is not open any more, or it is the new one of a
submission. -/
theorem quoteWritten_cases {quoteId : BytesN32} {before : Option Quote} {row : Quote}
    (h : quoteWritten t quoteId before row) :
  (∃ quote, before = some quote ∧ quote.status = .open ∧ row.status ≠ .open
      ∧ row.rfqId = quote.rfqId)
    ∨ ∃ req validUntil onchain now, t = .submit .inserted req validUntil onchain now
      ∧ before = none ∧ row.rfqId = req.rfqId ∧ row.status = .open
  := by
  unfold quoteWritten at h
  split at h
  · obtain ⟨_, quote, rfl, hopen, rfl⟩ := h
    exact .inl ⟨quote, rfl, hopen, nofun, rfl⟩
  · obtain ⟨quote, rfl, hopen, ⟨_, rfl⟩ | ⟨_, rfl⟩⟩ := h
    · exact .inl ⟨quote, rfl, hopen, nofun, rfl⟩
    · exact .inl ⟨quote, rfl, hopen, nofun, rfl⟩
  · obtain ⟨_, quote, rfl, hopen, rfl⟩ := h
    exact .inl ⟨quote, rfl, hopen, nofun, rfl⟩
  · obtain ⟨quote, rfl, hopen, rfl⟩ | ⟨rfl, hrfq, hopen⟩ := h
    · exact .inl ⟨quote, rfl, hopen, nofun, rfl⟩
    · exact .inr ⟨_, _, _, _, rfl, rfl, hrfq, hopen⟩
  · obtain ⟨quote, rfl, hopen, rfl⟩ := h
    exact .inl ⟨quote, rfl, hopen, nofun, rfl⟩
  · cases h

end Written

/-! ### What others leave alone -/

/-- A step leaves a transaction alone, and no quote that it opens is a rival that the transaction
would have to supersede. -/
structure Quiet (e e' : Exchange) (n : ℕ) : Prop where
  transaction : e'.transactions n = e.transactions n
  trades : e.trades.Keeps e'.trades n
  rfqs : e.rfqs.Keeps e'.rfqs n
  quotes : e.quotes.Keeps e'.quotes n
  present : ∀ (id : ℕ) (row : SecondaryTrade), e.db.trades[id]? = some row →
    ∃ row' : SecondaryTrade, e'.db.trades[id]? = some row' ∧ row'.rfqId = row.rfqId
      ∧ row'.quoteId = row.quoteId
  opened : ∀ k quote', e'.db.quotes k = some quote' → quote'.status = .open →
    (∃ quote, e.db.quotes k = some quote ∧ quote.rfqId = quote'.rfqId ∧ quote.status = .open)
      ∨ ¬ (e.transactions n).Sweeps quote'.rfqId

section Known

variable {columns : BytesN32 → RfqColumns} {e e' : Exchange} {m n : ℕ} {t t' : Transaction}

theorem Held.quiet (h : Held e n (e.transactions n)) (hquiet : Quiet e e' n) :
  Held e' n (e.transactions n)
  := by
  have htrades : e'.tradeWrites n = e.tradeWrites n := hquiet.trades.writes
  have hrfqs : e'.rfqWrites n = e.rfqWrites n := hquiet.rfqs.writes
  have hquotes : e'.quoteWrites n = e.quoteWrites n := hquiet.quotes.writes
  have hopened := hquiet.opened
  unfold Held at h ⊢
  rw [htrades, hrfqs, hquotes]
  split at h
  · exact h
  · exact h
  · exact h
  · exact h
  · exact h
  · next quoteIds id trade _ ht =>
    obtain ⟨htrade, hrfq, hquote, hrivals⟩ := h
    refine ⟨htrade, hrfq, hquote, ?_⟩
    intro k quote' hquote' hrival
    rw [ht] at hopened
    rcases hopened k quote' hquote' hrival.2.2 with ⟨quote, hbefore, hsame, hopen⟩ | hsweeps
    · apply hrivals k quote hbefore
      exact ⟨hsame.trans hrival.1, hrival.2.1, hopen⟩
    · exact absurd hrival.1.symm hsweeps
  · exact h
  · exact h

theorem Known.quiet (h : Known e n (e.transactions n)) (hquiet : Quiet e e' n) :
  Known e' n (e'.transactions n)
  := by
  rw [hquiet.transaction]
  constructor
  · apply h.trades.keeps hquiet.trades
  · apply h.rfqs.keeps hquiet.rfqs
  · apply h.quotes.keeps hquiet.quotes
  · intro id trade htrade
    obtain ⟨row, hrow, hrfq, hquote⟩ := h.present id trade htrade
    obtain ⟨row', hrow', hrfq', hquote'⟩ := hquiet.present id row hrow
    exact ⟨row', hrow', hrfq'.trans hrfq, hquote'.trans hquote⟩
  · apply h.held.quiet hquiet

/-- What a transaction has written certainly, it has written over a pending trade. -/
theorem Known.pending (h : Known e n t) {id : ℕ} {trade : SecondaryTrade}
    (htrade : t.trade = some (id, trade)) (hheld : (e.tradeWrites n id).isSome) :
  ∃ row, e.db.trades[id]? = some row ∧ row.status = .pending ∧ row.rfqId = trade.rfqId
    ∧ row.quoteId = trade.quoteId
  := by
  obtain ⟨row', hwrites⟩ := Option.isSome_iff_exists.mp hheld
  obtain ⟨row₀, hrow₀, hpending, _⟩ := tradeWritten_cases (h.trades id row' hwrites)
  obtain ⟨row, hrow, hids⟩ := h.present id trade htrade
  obtain rfl := Option.some.inj (hrow.symm.trans hrow₀)
  exact ⟨row, hrow, hpending, hids⟩

/-- The RFQ and the quote of the trade that a transaction has written are open. -/
theorem Known.opened (h : Known e n t) (hc : Consistent e.db) {id : ℕ} {trade : SecondaryTrade}
    (htrade : t.trade = some (id, trade)) (hheld : (e.tradeWrites n id).isSome) :
  (∃ rfq, e.db.rfqs trade.rfqId = some rfq ∧ rfq.status = .open)
    ∧ ∃ quote, e.db.quotes trade.quoteId = some quote ∧ quote.rfqId = trade.rfqId
      ∧ quote.status = .open
  := by
  obtain ⟨row, hrow, hpending, hrfq, hquote⟩ := h.pending htrade hheld
  rw [← hrfq, ← hquote]
  apply hc.pending id row hrow hpending

/-! ### Statements -/

theorem Exchange.withTrades_trades {trades : Store ℕ SecondaryTrade}
    (h : trades.committed = e.trades.committed) :
  (e.withTrades trades).trades = trades
  := by
  cases trades
  cases h
  rfl

theorem Exchange.withRfqs_rfqs {rfqs : Store BytesN32 Rfq} (h : rfqs.committed = e.rfqs.committed) :
  (e.withRfqs rfqs).rfqs = rfqs
  := by
  cases rfqs
  cases h
  rfl

theorem Exchange.withQuotes_quotes {quotes : Store BytesN32 Quote}
    (h : quotes.committed = e.quotes.committed) :
  (e.withQuotes quotes).quotes = quotes
  := by
  cases quotes
  cases h
  rfl

/-- A transaction goes on that has written nothing new. -/
theorem Known.enter (h : Known e n t) (htrades : tradeWritten t' = tradeWritten t)
    (hrfqs : rfqWritten t' = rfqWritten t)
    (hquotes : ∀ k before row, quoteWritten t k before row → quoteWritten t' k before row)
    (htrade : t'.trade = t.trade) (hheld : Held e n t') :
  Known (e.enter n t') n t'
  := by
  constructor
  · rw [htrades]
    exact h.trades
  · rw [hrfqs]
    exact h.rfqs
  · exact h.quotes.mono hquotes
  · rw [htrade]
    exact h.present
  · exact hheld

/-- A transaction has written its trade, if anything. -/
theorem Known.enterTrades (h : Known e n t) {trades : Store ℕ SecondaryTrade}
    (hcommitted : trades.committed = e.trades.committed)
    (htrades : trades.Changes n (tradeWritten t')) (hrfqs : rfqWritten t' = rfqWritten t)
    (hquotes : quoteWritten t' = quoteWritten t) (htrade : t'.trade = t.trade)
    (hheld : Held (e.withTrades trades) n t') :
  Known ((e.withTrades trades).enter n t') n t'
  := by
  constructor
  · rw [← Exchange.withTrades_trades hcommitted] at htrades
    exact htrades
  · rw [hrfqs]
    exact h.rfqs
  · rw [hquotes]
    exact h.quotes
  · rw [htrade]
    exact h.present
  · exact hheld

/-- A transaction has written a quote, if anything. -/
theorem Known.enterQuotes (h : Known e n t) {quotes : Store BytesN32 Quote}
    (hcommitted : quotes.committed = e.quotes.committed) (htrades : tradeWritten t' = tradeWritten t)
    (hrfqs : rfqWritten t' = rfqWritten t) (hquotes : quotes.Changes n (quoteWritten t'))
    (htrade : t'.trade = t.trade) (hheld : Held (e.withQuotes quotes) n t') :
  Known ((e.withQuotes quotes).enter n t') n t'
  := by
  constructor
  · rw [htrades]
    exact h.trades
  · rw [hrfqs]
    exact h.rfqs
  · rw [← Exchange.withQuotes_quotes hcommitted] at hquotes
    exact hquotes
  · rw [htrade]
    exact h.present
  · exact hheld

/-- The rivals that the statement finds are all that are open. -/
theorem Known.superseding {id : ℕ} {trade : SecondaryTrade} {txHash : Option ℕ}
    {quoteIds : List BytesN32} (h : Known e n (.persist .accepted id trade txHash))
    (hfinds : e.quotes.Finds (Rival trade.rfqId trade.quoteId) n quoteIds) :
  Known (e.enter n (.persist (.superseding quoteIds) id trade txHash)) n
    (.persist (.superseding quoteIds) id trade txHash)
  := by
  refine h.enter rfl rfl ?_ rfl ?_
  · rintro k before row ⟨hk, quote, hbefore, hopen, hrow⟩
    exact ⟨quote, hbefore, hopen, .inl ⟨hk, hrow⟩⟩
  · obtain ⟨htrade, hrfq, hquote⟩ := h.held
    refine ⟨htrade, hrfq, hquote, ?_⟩
    intro k quote hcommitted hrival
    cases hwrites : e.quoteWrites n k with
    | none => exact .inl ((hfinds k).mpr ⟨quote, (Store.view_of_none hwrites).trans hcommitted, hrival⟩)
    | some row => exact .inr rfl

/-- A rival that has been looked at is not open, or it has been superseded. -/
theorem Known.supersede {id : ℕ} {trade : SecondaryTrade} {txHash : Option ℕ} {quoteId : BytesN32}
    {quoteIds : List BytesN32} {hit : Bool} {quotes : Store BytesN32 Quote}
    (h : Known e n (.persist (.superseding (quoteId :: quoteIds)) id trade txHash))
    (hupdate : UpdatesRow (Rival trade.rfqId trade.quoteId quoteId)
      (fun quote => { quote with status := .superseded }) n quoteId e.quotes hit quotes) :
  Known ((e.withQuotes quotes).enter n (.persist (.superseding quoteIds) id trade txHash)) n
    (.persist (.superseding quoteIds) id trade txHash)
  := by
  refine h.enterQuotes hupdate.committed rfl rfl ?_ rfl ?_
  · refine hupdate.changes h.quotes ?_ ?_ ?_
    · rintro k before row hwritten ⟨_, _, hopen⟩
      rcases quoteWritten_cases hwritten with ⟨_, _, _, hclosed, _⟩ | ⟨_, _, _, _, heq, _⟩
      · exact hclosed hopen
      · cases heq
    · exact fun _ _ _ hwritten => hwritten
    · exact fun quote hrival => ⟨quote, rfl, hrival.2.2, .inr ⟨hrival, rfl⟩⟩
  · obtain ⟨htrade, hrfq, hquote, hrivals⟩ := h.held
    refine ⟨htrade, hrfq, hupdate.isSome_of_isSome hquote, ?_⟩
    intro k quote hcommitted hrival
    rcases hrivals k quote hcommitted hrival with hk | hwrites
    · rcases List.mem_cons.mp hk with rfl | hk
      · right
        cases hwrites : e.quoteWrites n k with
        | none =>
          have hview : e.quotes.view n k = some quote :=
            (Store.view_of_none hwrites).trans hcommitted
          obtain rfl := hupdate.hit_of_view hview hrival
          apply hupdate.isSome
        | some row =>
          apply hupdate.isSome_of_isSome
          exact Option.isSome_iff_exists.mpr ⟨row, hwrites⟩
      · exact .inl hk
    · exact .inr (hupdate.isSome_of_isSome hwrites)

/-- The RFQ of the trade is filled. -/
theorem Known.filled {id : ℕ} {trade : SecondaryTrade} {txHash : Option ℕ} {filled : Bool}
    {rfqs : Store BytesN32 Rfq} (h : Known e n (.persist .settled id trade txHash))
    (hc : Consistent e.db)
    (hupdate : UpdatesRow (fun rfq => rfq.status = .open) (fun rfq => { rfq with status := .filled })
      n trade.rfqId e.rfqs filled rfqs) :
  Known ((e.withRfqs rfqs).enter n (.persist .filled id trade txHash)) n
    (.persist .filled id trade txHash)
  := by
  obtain ⟨⟨rfq, hrfq, hopen⟩, _⟩ := h.opened hc rfl h.held
  have hview : e.rfqs.view n trade.rfqId = some rfq := by
    rw [Store.view_of_clean (Store.Changes.clean h.rfqs)]
    exact hrfq
  obtain rfl := hupdate.hit_of_view hview hopen
  have hchanges : rfqs.Changes n (rfqWritten (.persist .filled id trade txHash)) := by
    refine hupdate.changes h.rfqs ?_ ?_ ?_
    · exact fun _ _ _ hwritten => hwritten.elim
    · exact fun _ _ _ hwritten => hwritten.elim
    · exact fun row hrow => ⟨rfl, row, rfl, hrow, rfl⟩
  rw [← Exchange.withRfqs_rfqs hupdate.committed] at hchanges
  exact ⟨h.trades, hchanges, h.quotes, h.present, h.held, hupdate.isSome⟩

/-- The quote of the trade is accepted. -/
theorem Known.accepted {id : ℕ} {trade : SecondaryTrade} {txHash : Option ℕ} {accepted : Bool}
    {quotes : Store BytesN32 Quote} (h : Known e n (.persist .filled id trade txHash))
    (hc : Consistent e.db)
    (hupdate : UpdatesRow (fun quote => quote.status = .open)
      (fun quote => { quote with status := .accepted }) n trade.quoteId e.quotes accepted quotes) :
  Known ((e.withQuotes quotes).enter n (.persist .accepted id trade txHash)) n
    (.persist .accepted id trade txHash)
  := by
  obtain ⟨htrade, hrfq⟩ := h.held
  obtain ⟨_, quote, hquote, _, hopen⟩ := h.opened hc rfl htrade
  have hview : e.quotes.view n trade.quoteId = some quote := by
    rw [Store.view_of_clean (Store.Changes.clean h.quotes)]
    exact hquote
  obtain rfl := hupdate.hit_of_view hview hopen
  refine h.enterQuotes hupdate.committed rfl rfl ?_ rfl ?_
  · refine hupdate.changes h.quotes ?_ ?_ ?_
    · exact fun _ _ _ hwritten => hwritten.elim
    · exact fun _ _ _ hwritten => hwritten.elim
    · exact fun row hrow => ⟨rfl, row, rfl, hrow, rfl⟩
  · exact ⟨htrade, hrfq, hupdate.isSome⟩

/-- The quote of the trade expires. -/
theorem Known.expired {id : ℕ} {trade : SecondaryTrade} {reason : SettleFailureReason}
    {expired : Bool} {quotes : Store BytesN32 Quote}
    (h : Known e n (.fail .failed id trade reason .expire)) (hc : Consistent e.db)
    (hupdate : UpdatesRow (fun quote => quote.status = .open)
      (fun quote => { quote with status := .expired, statusReason := some reason }) n trade.quoteId
      e.quotes expired quotes) :
  Known ((e.withQuotes quotes).enter n (.fail .disposed id trade reason .expire)) n
    (.fail .disposed id trade reason .expire)
  := by
  obtain ⟨_, quote, hquote, _, hopen⟩ := h.opened hc rfl h.held
  have hview : e.quotes.view n trade.quoteId = some quote := by
    rw [Store.view_of_clean (Store.Changes.clean h.quotes)]
    exact hquote
  obtain rfl := hupdate.hit_of_view hview hopen
  refine h.enterQuotes hupdate.committed rfl rfl ?_ rfl ?_
  · refine hupdate.changes h.quotes ?_ ?_ ?_
    · exact fun _ _ _ hwritten => hwritten.elim
    · exact fun _ _ _ hwritten => hwritten.elim
    · exact fun row hrow => ⟨rfl, row, rfl, hrow, rfl⟩
  · exact ⟨h.held, hupdate.isSome⟩

/-- Some lapsed quotes of the holder have expired. -/
theorem Known.reap {req : QuoteRequest} {validUntil now holderSub fractionContractId : ℕ}
    {onchain : ℤ}
    {quoteId : BytesN32} {quoteIds : List BytesN32} {hit : Bool} {quotes : Store BytesN32 Quote}
    (h : Known e n (.submit (.reaping (quoteId :: quoteIds)) req validUntil onchain now))
    (hupdate : UpdatesRow (Lapsing holderSub fractionContractId now)
      (fun quote => { quote with status := .expired }) n quoteId e.quotes hit quotes) :
  Known ((e.withQuotes quotes).enter n (.submit (.reaping quoteIds) req validUntil onchain now)) n
    (.submit (.reaping quoteIds) req validUntil onchain now)
  := by
  refine h.enterQuotes hupdate.committed rfl rfl ?_ rfl ?_
  · refine hupdate.changes h.quotes ?_ ?_ ?_
    · rintro k before row hwritten ⟨_, _, hopen, _⟩
      rcases quoteWritten_cases hwritten with ⟨_, _, _, hclosed, _⟩ | ⟨_, _, _, _, heq, _⟩
      · exact hclosed hopen
      · cases heq
    · exact fun _ _ _ hwritten => hwritten
    · exact fun quote hlapsing => ⟨quote, rfl, hlapsing.2.2.1, rfl⟩
  · trivial

/-- A quote has been inserted. -/
theorem Known.inserted {req : QuoteRequest} {validUntil now : ℕ} {onchain : ℤ} {quoteId : BytesN32}
    (h : Known e n (.submit .free req validUntil onchain now))
    (hfresh : ∀ quote, ¬ e.quotes.Version quoteId quote) :
  Known ((e.withQuotes (e.quotes.write n quoteId (newQuote columns req validUntil))).enter n
      (.submit .inserted req validUntil onchain now)) n
    (.submit .inserted req validUntil onchain now)
  := by
  refine h.enterQuotes rfl rfl rfl ?_ rfl trivial
  intro k row hwrites
  rcases Store.of_write_writes hwrites with ⟨_, rfl, rfl⟩ | ⟨_, hbefore⟩
  · right
    refine ⟨?_, rfl, rfl⟩
    rw [Option.eq_none_iff_forall_ne_some]
    exact fun quote hcommitted => hfresh quote (.inl hcommitted)
  · exact .inl (h.quotes k row hbefore)

/-- A trade is settled or failed that was pending. -/
theorem Known.won {id : ℕ} {f : SecondaryTrade → SecondaryTrade} {trades : Store ℕ SecondaryTrade}
    (h : Known e n t)
    (hupdate : UpdatesRow (fun row => row.status = .pending) f n id e.trades true trades)
    (hclean : tradeWritten t = fun _ _ _ => False)
    (hset : ∀ row : SecondaryTrade, row.status = .pending → tradeWritten t' id (some row) (f row))
    (hrfqs : rfqWritten t' = rfqWritten t) (hquotes : quoteWritten t' = quoteWritten t)
    (htrade : t'.trade = t.trade)
    (hheld : (trades.writes n id).isSome → Held (e.withTrades trades) n t') :
  Known ((e.withTrades trades).enter n t') n t'
  := by
  have hbefore := h.trades
  rw [hclean] at hbefore
  refine h.enterTrades hupdate.committed ?_ hrfqs hquotes htrade (hheld hupdate.isSome)
  refine hupdate.changes hbefore ?_ ?_ ?_
  · exact fun _ _ _ hwritten => hwritten.elim
  · exact fun _ _ _ hwritten => hwritten.elim
  · exact hset

theorem Exchange.enter_self (e : Exchange) (n : ℕ) (t : Transaction) :
  (e.enter n t).transactions n = t
  := Function.update_self ..

/-- A statement leaves what is known of its transaction right. -/
theorem Known.statement (h : Known e n t) (hc : Consistent e.db)
    (hstatement : Statement columns e n t e') :
  Known e' n (e'.transactions n)
  := by
  cases hstatement with
  | casSettled hupdate =>
    rw [Exchange.enter_self]
    rename_i won _
    cases won with
    | true => exact h.won hupdate rfl (fun row hrow => ⟨rfl, row, rfl, hrow, rfl⟩) rfl rfl rfl id
    | false =>
      cases hupdate
      exact h.enter rfl rfl (fun _ _ _ hwritten => hwritten) rfl trivial
  | casFilled hupdate =>
    rw [Exchange.enter_self]
    apply h.filled hc hupdate
  | casAccepted hupdate =>
    rw [Exchange.enter_self]
    apply h.accepted hc hupdate
  | supersedeOpenRivals hfinds =>
    rw [Exchange.enter_self]
    apply h.superseding hfinds
  | supersede hupdate =>
    rw [Exchange.enter_self]
    apply h.supersede hupdate
  | casFailed hupdate =>
    rw [Exchange.enter_self]
    rename_i won _
    cases won with
    | true => exact h.won hupdate rfl (fun row hrow => ⟨rfl, row, rfl, hrow, rfl⟩) rfl rfl rfl id
    | false =>
      cases hupdate
      exact h.enter rfl rfl (fun _ _ _ hwritten => hwritten) rfl trivial
  | keepOpen =>
    rw [Exchange.enter_self]
    exact h.enter rfl rfl (fun _ _ _ hwritten => hwritten) rfl h.held
  | expireWithReason hupdate =>
    rw [Exchange.enter_self]
    apply h.expired hc hupdate
  | lock _ =>
    rw [Exchange.enter_self]
    exact h.enter rfl rfl (fun _ _ _ hwritten => hwritten) rfl trivial
  | reapLapsed _ =>
    rw [Exchange.enter_self]
    exact h.enter rfl rfl (fun _ _ _ hwritten => hwritten) rfl trivial
  | reap hupdate =>
    rw [Exchange.enter_self]
    apply h.reap hupdate
  | hasOpenQuoteForRfq _ =>
    rw [Exchange.enter_self]
    exact h.enter rfl rfl (fun _ _ _ hwritten => hwritten) rfl trivial
  | sumOpenLockedCount _ =>
    rw [Exchange.enter_self]
    exact h.enter rfl rfl (fun _ _ _ hwritten => hwritten) rfl trivial
  | insertOpen _ hfresh =>
    rw [Exchange.enter_self]
    apply h.inserted hfresh
  | conflict _ =>
    rw [Exchange.enter_self]
    exact h.enter rfl rfl (fun _ _ _ hwritten => hwritten) rfl trivial

/-- A statement acts on the rows of its own transaction. -/
theorem Statement.acts (hstatement : Statement columns e n t e') :
  Acts (fun _ => False) n e.trades e'.trades ∧ Acts (fun _ => False) n e.rfqs e'.rfqs
    ∧ Acts (fun _ => False) n e.quotes e'.quotes
  := by
  cases hstatement with
  | casSettled hupdate | casFailed hupdate =>
    refine ⟨?_, .nothing, .nothing⟩
    have hacts := hupdate.acts
    rw [← Exchange.withTrades_trades hupdate.committed] at hacts
    exact hacts
  | casFilled hupdate =>
    refine ⟨.nothing, ?_, .nothing⟩
    have hacts := hupdate.acts
    rw [← Exchange.withRfqs_rfqs hupdate.committed] at hacts
    exact hacts
  | casAccepted hupdate | supersede hupdate | expireWithReason hupdate | reap hupdate =>
    refine ⟨.nothing, .nothing, ?_⟩
    have hacts := hupdate.acts
    rw [← Exchange.withQuotes_quotes hupdate.committed] at hacts
    exact hacts
  | insertOpen _ hfresh => exact ⟨.nothing, .nothing, .write (free_of_fresh hfresh) False.elim⟩
  | _ => exact ⟨.nothing, .nothing, .nothing⟩

/-- A statement commits nothing. -/
theorem Statement.market (hstatement : Statement columns e n t e') :
  e'.market = e.market
  := by
  cases hstatement with
  | _ => rfl

theorem Statement.transactions (hstatement : Statement columns e n t e') (hm : m ≠ n) :
  e'.transactions m = e.transactions m
  := by
  cases hstatement with
  | _ => exact Function.update_of_ne hm ..

/-! ### Commits -/

/-- What is committed of the trades. -/
theorem committed_trades (e : Exchange) (n id : ℕ) :
  (e.committed n).trades[id]? = (e.db.trades[id]?).map fun row => (e.tradeWrites n id).getD row
  := by
  rw [Exchange.committed, List.getElem?_mapIdx]

/-- What is committed of the trades is what the transaction sees of them. -/
theorem Known.commit_trades (h : Known e n t) :
  (e.commit n).trades = e.trades.commit n
  := by
  have hview : ∀ id, (e.committed n).trades[id]? = e.trades.view n id := by
    intro id
    rw [committed_trades]
    cases hwrites : e.tradeWrites n id with
    | none =>
      rw [Store.view_of_none hwrites]
      exact Option.map_id' ..
    | some row' =>
      obtain ⟨row, hrow, _⟩ := tradeWritten_cases (h.trades id row' hwrites)
      have hcommitted : e.db.trades[id]? = some row := hrow
      rw [Store.view_of_writes hwrites, hcommitted]
      rfl
  exact congrArg (Store.mk · _) (funext hview)

/-- A transaction that has written one trade commits it. -/
theorem Known.committed_set (h : Known e n t) {id : ℕ} {row row' : SecondaryTrade}
    (hrow : e.db.trades[id]? = some row) (hwrites : e.tradeWrites n id = some row')
    (honly : ∀ k before row, tradeWritten t k before row → k = id) :
  (e.committed n).trades = e.db.trades.set id row'
  := by
  apply List.ext_getElem?
  intro k
  rw [committed_trades]
  rcases eq_or_ne k id with rfl | hne
  · obtain ⟨hlt, _⟩ := List.getElem?_eq_some_iff.mp hrow
    rw [List.getElem?_set_self hlt, hrow, hwrites]
    rfl
  · have hnone : e.tradeWrites n k = none := by
      rw [Option.eq_none_iff_forall_ne_some]
      exact fun row hk => hne (honly k _ row (h.trades k row hk))
    rw [List.getElem?_set_ne hne.symm, hnone]
    simp

/-- A transaction that has written no trade leaves the trades. -/
theorem committed_trades_of_clean (h : e.tradeWrites n = fun _ => none) :
  (e.committed n).trades = e.db.trades
  := by
  apply List.ext_getElem?
  intro k
  rw [committed_trades, h]
  simp

/-- A settlement that has come to its end fills the RFQ, if it was open. -/
theorem Known.committed_persist_rfqs {id : ℕ} {trade : SecondaryTrade} {txHash : Option ℕ}
    (h : Known e n (.persist (.superseding []) id trade txHash)) :
  (e.committed n).rfqs = casFilled e.db.rfqs trade.rfqId
  := by
  obtain ⟨_, hrfq, _⟩ := h.held
  funext k
  cases hk : e.rfqWrites n k with
  | some rfq' =>
    obtain ⟨rfl, rfq, hrfq₀, hopen, rfl⟩ := h.rfqs k rfq' hk
    have hcommitted : e.db.rfqs trade.rfqId = some rfq := hrfq₀
    have hview : (e.committed n).rfqs trade.rfqId = some { rfq with status := .filled } :=
      Store.view_of_writes hk
    rw [hview, casFilled, Function.update_self, hcommitted]
    simp [hopen]
  | none =>
    have hne : k ≠ trade.rfqId := by
      rintro rfl
      rw [hk] at hrfq
      cases hrfq
    have hview : (e.committed n).rfqs k = e.db.rfqs k := Store.view_of_none hk
    rw [hview, casFilled, Function.update_of_ne hne]

/-- A settlement that has come to its end accepts its quote, if it was open, and supersedes the
rivals. -/
theorem Known.committed_persist_quotes {id : ℕ} {trade : SecondaryTrade} {txHash : Option ℕ}
    (h : Known e n (.persist (.superseding []) id trade txHash)) :
  (e.committed n).quotes
    = supersedeOpenRivals (casAccepted e.db.quotes trade.quoteId) trade.rfqId trade.quoteId
  := by
  obtain ⟨_, _, hquote, hrivals⟩ := h.held
  funext k
  rw [supersedeOpenRivals_casAccepted]
  cases hk : e.quoteWrites n k with
  | some quote' =>
    have hview : (e.committed n).quotes k = some quote' := Store.view_of_writes hk
    obtain ⟨quote, hquote₀, hopen, ⟨rfl, rfl⟩ | ⟨⟨hrfq₀, hne, _⟩, rfl⟩⟩ := h.quotes k quote' hk
    · have hcommitted : e.db.quotes trade.quoteId = some quote := hquote₀
      rw [hview, hcommitted]
      simp [hopen]
    · have hcommitted : e.db.quotes k = some quote := hquote₀
      rw [hview, hcommitted]
      simp [hopen, hne, hrfq₀]
  | none =>
    have hview : (e.committed n).quotes k = e.db.quotes k := Store.view_of_none hk
    have hne : k ≠ trade.quoteId := by
      rintro rfl
      rw [hk] at hquote
      cases hquote
    rw [hview]
    cases hcommitted : e.db.quotes k with
    | none => rfl
    | some quote =>
      have hrival : ¬ Rival trade.rfqId trade.quoteId k quote := by
        intro hrival
        rcases hrivals k quote hcommitted hrival with hmem | hsome
        · cases hmem
        · rw [hk] at hsome
          cases hsome
      have hclosed : ¬ (quote.rfqId = trade.rfqId ∧ quote.status = .open) := by
        rintro ⟨hsame, hopen⟩
        exact hrival ⟨hsame, hne, hopen⟩
      simp [hne, hclosed]

/-- A settlement commits what it would have done in one step. -/
theorem Known.committed_persist {id : ℕ} {trade : SecondaryTrade} {txHash : Option ℕ}
    (h : Known e n (.persist (.superseding []) id trade txHash)) :
  e.committed n = persistSettled id trade txHash e.db
  := by
  obtain ⟨row', hwrites⟩ := Option.isSome_iff_exists.mp h.held.1
  obtain ⟨_, row, hrow, hpending, rfl⟩ := h.trades id row' hwrites
  have hcas : casSettled e.db.trades id txHash
      = some (e.db.trades.set id { row with status := .settled, txHash }) :=
    casSettled_eq_some.mpr ⟨row, hrow, hpending, rfl⟩
  have htrades : (e.committed n).trades
      = e.db.trades.set id { row with status := .settled, txHash } :=
    h.committed_set hrow hwrites fun _ _ _ hwritten => hwritten.1
  rw [persistSettled, hcas]
  simp only [← htrades, ← h.committed_persist_rfqs, ← h.committed_persist_quotes]

/-- A failure commits what it would have done in one step. -/
theorem Known.committed_fail {id : ℕ} {trade : SecondaryTrade} {reason : SettleFailureReason}
    {disposition : QuoteDisposition} (h : Known e n (.fail .disposed id trade reason disposition)) :
  e.committed n = failTrade id trade reason disposition e.db
  := by
  have htrade : (e.tradeWrites n id).isSome := by
    cases disposition with
    | expire => exact h.held.1
    | keepOpen => exact h.held
  obtain ⟨row', hwrites⟩ := Option.isSome_iff_exists.mp htrade
  obtain ⟨_, row, hrow, hpending, rfl⟩ := h.trades id row' hwrites
  have hcas : casFailed e.db.trades id reason
      = some (e.db.trades.set id { row with status := .failed, failureReason := some reason }) :=
    casFailed_eq_some.mpr ⟨row, hrow, hpending, rfl⟩
  have htrades : (e.committed n).trades
      = e.db.trades.set id { row with status := .failed, failureReason := some reason } :=
    h.committed_set hrow hwrites fun _ _ _ hwritten => hwritten.1
  have hrfqs : (e.committed n).rfqs = e.db.rfqs := Store.view_of_clean (Store.Changes.clean h.rfqs)
  cases disposition with
  | keepOpen =>
    have hquotes : (e.committed n).quotes = e.db.quotes :=
      Store.view_of_clean (Store.Changes.clean h.quotes)
    simp only [failTrade, hcas, ← htrades, ← hrfqs, ← hquotes]
  | expire =>
    have hquotes : (e.committed n).quotes = expireWithReason e.db.quotes trade.quoteId reason := by
      funext k
      rw [expireWithReason_apply]
      cases hk : e.quoteWrites n k with
      | some quote' =>
        have hview : (e.committed n).quotes k = some quote' := Store.view_of_writes hk
        obtain ⟨rfl, quote, hquote₀, hopen, rfl⟩ := h.quotes k quote' hk
        have hcommitted : e.db.quotes trade.quoteId = some quote := hquote₀
        rw [hview, hcommitted]
        simp [hopen]
      | none =>
        have hview : (e.committed n).quotes k = e.db.quotes k := Store.view_of_none hk
        have hne : k ≠ trade.quoteId := by
          rintro rfl
          have hquote := h.held.2
          rw [hk] at hquote
          cases hquote
        rw [hview]
        simp [hne]
    simp only [failTrade, hcas, ← htrades, ← hrfqs, ← hquotes]

/-- A transaction that has written no trade and no RFQ changes the quotes. -/
theorem Known.committed_quotes (h : Known e n t) (htrades : tradeWritten t = fun _ _ _ => False)
    (hrfqs : rfqWritten t = fun _ _ _ => False) :
  e.committed n = { e.db with quotes := e.quotes.view n }
  := by
  have hclean := h.trades
  have hclean' := h.rfqs
  rw [htrades] at hclean
  rw [hrfqs] at hclean'
  have hview : e.rfqs.view n = e.db.rfqs := Store.view_of_clean hclean'.clean
  have hdb : e.committed n = ⟨e.rfqs.view n, e.quotes.view n, (e.committed n).trades⟩ := rfl
  rw [hdb, committed_trades_of_clean hclean.clean, hview]

/-- A submission that has been committed is no trade's concern, when its RFQ is open and it has
written no quote of a pending trade. -/
theorem Known.neutral {stage : SubmitStage} {req : QuoteRequest} {validUntil now : ℕ} {onchain : ℤ}
    (h : Known e n (.submit stage req validUntil onchain now))
    (hopen : stage = .inserted → e.db.RfqOpen req.rfqId)
    (hspared : ∀ (id : ℕ) (row : SecondaryTrade), e.db.trades[id]? = some row →
      row.status = .pending → e.quoteWrites n row.quoteId = none) :
  Neutral e.db (e.quotes.view n)
  := by
  constructor
  · intro k quote hquote
    cases hk : e.quoteWrites n k with
    | none => exact ⟨quote, (Store.view_of_none hk).trans hquote, rfl, fun haccepted => haccepted⟩
    | some row =>
      have hwritten := h.quotes k row hk
      refine ⟨row, Store.view_of_writes hk, ?_⟩
      rcases quoteWritten_cases hwritten with ⟨quote₀, hquote₀, hopen₀, _, hrfq⟩ | ⟨_, _, _, _,
        _, hnone, _⟩
      · obtain rfl := Option.some.inj (hquote.symm.trans hquote₀)
        refine ⟨hrfq, ?_⟩
        intro haccepted
        cases hopen₀.symm.trans haccepted
      · cases hquote.symm.trans hnone
  · intro k quote' hview haccepted
    rcases Store.of_view hview with hwrites | ⟨_, hcommitted⟩
    · exfalso
      have hwritten := h.quotes k quote' hwrites
      cases stage with
      | inserted =>
        obtain ⟨quote, _, _, rfl⟩ | ⟨_, _, hopen'⟩ := hwritten
        · cases haccepted
        · cases hopen'.symm.trans haccepted
      | _ =>
        obtain ⟨quote, _, _, rfl⟩ := hwritten
        cases haccepted
    · exact ⟨quote', hcommitted, rfl, haccepted⟩
  · intro k quote' hview hopen'
    rcases Store.of_view hview with hwrites | ⟨_, hcommitted⟩
    · right
      rcases quoteWritten_cases (h.quotes k quote' hwrites) with
        ⟨_, _, _, hclosed, _⟩ | ⟨_, _, _, _, heq, _, hrfq, _⟩
      · cases hclosed hopen'
      · cases heq
        rw [hrfq]
        apply hopen rfl
    · exact .inl ⟨quote', hcommitted, rfl, hopen'⟩
  · intro id row quote quote' hrow hpending hquote hopen₀ hview
    have hnone : e.quotes.writes n row.quoteId = none := hspared id row hrow hpending
    rw [Store.view_of_none hnone] at hview
    obtain rfl := Option.some.inj (hquote.symm.trans hview)
    exact hopen₀

end Known

end Marketplace
