import Tove.Marketplace.ExchangeLedger
import Tove.Marketplace.SettleProgress

/-!
# Transactions that nothing disturbs

A transaction that is begun while no other one has written anything, and whose statements are run
one after the other, commits what it is for: a settlement is persisted, or a quote is recorded.
-/

namespace Marketplace

open Soroban ReadCommitted Transition

/-- No transaction has written anything. -/
structure Exchange.Clean (e : Exchange) : Prop where
  trades : ∀ n, e.tradeWrites n = fun _ => none
  rfqs : ∀ n, e.rfqWrites n = fun _ => none
  quotes : ∀ n, e.quoteWrites n = fun _ => none

/-- A transaction has come to where it stands by its own statements, in a run from `e₀`. The
exchange would be `base` without it. -/
structure Underway (S : System Exchange ExchangeLabel) (e₀ base e : Exchange) (n : ℕ)
    (t : Transaction) : Prop where
  run : ∃ ls, S.Run e₀ ls e
  market : e.market = base.market
  base : e.abort n = base
  transaction : e.transactions n = t
  known : Known e n t

section Undisturbed

variable {parties : Parties} {columns : BytesN32 → RfqColumns} {reconcileGraceMs : ℕ}
  {condition : Exchange → ExchangeLabel → Exchange → Prop} {e₀ base e e' : Exchange} {n : ℕ}
  {t : Transaction}

/-! ### Before the transactions -/

/-- A request comes to the point where it records its trade. -/
theorem run_accept {r : ℕ} {req : AcceptRequest} {rfq : Rfq} {ctx : AcceptContext}
    (hcondition : ∀ e e', condition e .other e') (hidle : e.market.requests r = .idle)
    (hrfq : resolveRfq req e.db.rfqs = .ok rfq)
    (hquote : resolveQuote parties req rfq e.db.quotes e.market.settlement.now = .ok ctx)
    (hfresh : ¬ Lapsed e.market.settlement.ledger req.signatureExpirationLedger) :
  ∃ ls, ((exchange parties columns reconcileGraceMs).restrict condition).Run e ls
    { e with market := e.market.goto r (.unexpired req ctx) }
  := by
  obtain ⟨hread, hresolve, hcheck⟩ :=
    @request_steps parties reconcileGraceMs _ _ _ _ _ hidle hrfq hquote hfresh
  have hfirst : ExchangeStep parties columns reconcileGraceMs e .other
      { e with market := e.market.goto r (.rfqRead req rfq) } := .request hread rfl
  have hsecond : ExchangeStep parties columns reconcileGraceMs
      { e with market := e.market.goto r (.rfqRead req rfq) } .other
      { e with market := e.market.goto r (.resolved req ctx) } := .request hresolve rfl
  have hthird : ExchangeStep parties columns reconcileGraceMs
      { e with market := e.market.goto r (.resolved req ctx) } .other
      { e with market := e.market.goto r (.unexpired req ctx) } := .request hcheck rfl
  exact ⟨_, ((System.Run.single
    (S := (exchange parties columns reconcileGraceMs).restrict condition)
    ⟨hfirst, hcondition _ _⟩).snoc ⟨hsecond, hcondition _ _⟩).snoc ⟨hthird, hcondition _ _⟩⟩

/-- The work on the trades is a part of the exchange. -/
theorem run_working {κ : Type} {group : Grouping κ} {s s' : State} {ls : List Label}
    (hcondition : ∀ e e', condition e .other e')
    (h : ((working reconcileGraceMs).restrict (Careful group)).Run s ls s') (e : Exchange) :
  ((exchange parties columns reconcileGraceMs).restrict condition).Run (e.withSettlement s)
    (ls.map fun _ => .other) (e.withSettlement s')
  := by
  refine h.map (T := (exchange parties columns reconcileGraceMs).restrict condition)
    (fun t => e.withSettlement t) (fun _ => .other) ?_
  rintro t l t' ⟨hstep, _⟩
  have hwork : ExchangeStep parties columns reconcileGraceMs (e.withSettlement t) .other
      (e.withSettlement t') := .work hstep
  exact ⟨hwork, hcondition _ _⟩

theorem Exchange.goto_goto (e : Exchange) (k : ℕ) (phase phase' : SubmitPhase) :
  (e.goto k phase).goto k phase' = e.goto k phase'
  := by
  rw [Exchange.goto, Exchange.goto, Exchange.goto]
  congr 1
  exact Function.update_idem ..

/-- A submission comes to the point where it records its quote. -/
theorem run_fund {k validUntil : ℕ} {req : QuoteRequest} {onchain : ℤ}
    (hcondition : ∀ e e', condition e .other e') (hidle : e.submissions k = .idle)
    (hcheck : checkQuote parties columns e.db.rfqs e.market.settlement.now req = .ok validUntil)
    (hunquoted : ¬ HasOpenQuoteForRfq e.db.quotes req.rfqId req.userId (some e.market.settlement.now))
    (hdeployed : parties.deployed (columns req.rfqId).fractionContractId = true)
    (honchain : 0 ≤ onchain) :
  ∃ ls, ((exchange parties columns reconcileGraceMs).restrict condition).Run e ls
    (e.goto k (.funded req validUntil onchain))
  := by
  have hself : ∀ phase, (e.goto k phase).submissions k = phase :=
    fun phase => Function.update_self ..
  have hfirst : ExchangeStep parties columns reconcileGraceMs e .other
      (e.goto k (.checked req validUntil)) := .submission (hidle ▸ .check hcheck)
  have hsecond : ExchangeStep parties columns reconcileGraceMs (e.goto k (.checked req validUntil))
      .other ((e.goto k (.checked req validUntil)).goto k (.unquoted req validUntil)) :=
    .submission (hself _ ▸ .hasOpenQuote hunquoted)
  rw [Exchange.goto_goto] at hsecond
  have hthird : ExchangeStep parties columns reconcileGraceMs (e.goto k (.unquoted req validUntil))
      .other ((e.goto k (.unquoted req validUntil)).goto k (.funded req validUntil onchain)) :=
    .submission (hself _ ▸ .readBalance hdeployed honchain)
  rw [Exchange.goto_goto] at hthird
  exact ⟨_, ((System.Run.single
    (S := (exchange parties columns reconcileGraceMs).restrict condition)
    ⟨hfirst, hcondition _ _⟩).snoc ⟨hsecond, hcondition _ _⟩).snoc ⟨hthird, hcondition _ _⟩⟩

/-! ### Statements -/

theorem Exchange.enter_abort :
  (e.enter n t).abort n = e.abort n
  := by
  rw [Exchange.abort, Exchange.abort]
  congr 1
  exact Function.update_idem ..

theorem Exchange.withTrades_abort {trades : Store ℕ SecondaryTrade}
    (h : trades.abort n = e.trades.abort n) :
  (e.withTrades trades).abort n = e.abort n
  := by
  have hwrites := congrArg Store.writes h
  rw [Exchange.abort, Exchange.abort]
  congr 1

theorem Exchange.withRfqs_abort {rfqs : Store BytesN32 Rfq} (h : rfqs.abort n = e.rfqs.abort n) :
  (e.withRfqs rfqs).abort n = e.abort n
  := by
  have hwrites := congrArg Store.writes h
  rw [Exchange.abort, Exchange.abort]
  congr 1

theorem Exchange.withQuotes_abort {quotes : Store BytesN32 Quote}
    (h : quotes.abort n = e.quotes.abort n) :
  (e.withQuotes quotes).abort n = e.abort n
  := by
  have hwrites := congrArg Store.writes h
  rw [Exchange.abort, Exchange.abort]
  congr 1

/-- A statement is undone when its transaction is. -/
theorem Statement.abort (hstatement : Statement columns e n t e') :
  e'.abort n = e.abort n
  := by
  cases hstatement with
  | casSettled hupdate | casFailed hupdate =>
    rw [Exchange.enter_abort, Exchange.withTrades_abort hupdate.abort]
  | casFilled hupdate => rw [Exchange.enter_abort, Exchange.withRfqs_abort hupdate.abort]
  | casAccepted hupdate | supersede hupdate | expireWithReason hupdate | reap hupdate =>
    rw [Exchange.enter_abort, Exchange.withQuotes_abort hupdate.abort]
  | insertOpen _ _ => rw [Exchange.enter_abort, Exchange.withQuotes_abort Store.abort_write]
  | _ => exact Exchange.enter_abort

/-- A transaction that is under way goes on. -/
theorem Underway.statement {t' : Transaction} (hcondition : ∀ e e', condition e .other e')
    (h : Underway ((exchange parties columns reconcileGraceMs).restrict condition) e₀ base e n t)
    (hconsistent : Consistent base.db) (hstatement : Statement columns e n t e')
    (ht' : e'.transactions n = t') :
  Underway ((exchange parties columns reconcileGraceMs).restrict condition) e₀ base e' n t'
  := by
  obtain ⟨ls, hrun⟩ := h.run
  have hdb : e.db = base.db := congrArg (·.settlement.db) h.market
  constructor
  · have hstep : ExchangeStep parties columns reconcileGraceMs e .other e' := by
      rw [← h.transaction] at hstatement
      exact .statement hstatement
    exact ⟨_, hrun.snoc ⟨hstep, hcondition e e'⟩⟩
  · rw [hstatement.market, h.market]
  · rw [hstatement.abort, h.base]
  · exact ht'
  · rw [← ht']
    apply h.known.statement _ hstatement
    rw [hdb]
    exact hconsistent

/-- A transaction that is under way is committed. -/
theorem Underway.commit
    (h : Underway ((exchange parties columns reconcileGraceMs).restrict condition) e₀ base e n t)
    (hdone : t.Done) (hcondition : condition e (.commit n) (e.commit n)) :
  ∃ ls, ((exchange parties columns reconcileGraceMs).restrict condition).Run e₀ ls
    (base.withDb (e.committed n))
  := by
  obtain ⟨ls, hrun⟩ := h.run
  have hstep : ExchangeStep parties columns reconcileGraceMs e (.commit n) (e.commit n) := by
    apply ExchangeStep.commit
    rw [h.transaction]
    exact hdone
  rw [← h.base]
  exact ⟨_, hrun.snoc ⟨hstep, hcondition⟩⟩

/-- The other transactions are left alone. -/
theorem Underway.others {S : System Exchange ExchangeLabel} (h : Underway S e₀ base e n t) {m : ℕ}
    (hm : m ≠ n) :
  e.transactions m = base.transactions m
  := by
  rw [← h.base]
  exact (Function.update_of_ne hm ..).symm

/-- Nobody else holds a row. -/
theorem Underway.free {S : System Exchange ExchangeLabel} (h : Underway S e₀ base e n t)
    (hclean : base.Clean) :
  (∀ k, e.trades.Free n k) ∧ (∀ k, e.rfqs.Free n k) ∧ ∀ k, e.quotes.Free n k
  := by
  have hbase := h.base
  refine ⟨?_, ?_, ?_⟩
  · intro k m hm
    have hwrites := hclean.trades m
    rw [← hbase] at hwrites
    rw [← Store.abort_writes_of_ne hm]
    exact congrFun hwrites k
  · intro k m hm
    have hwrites := hclean.rfqs m
    rw [← hbase] at hwrites
    rw [← Store.abort_writes_of_ne hm]
    exact congrFun hwrites k
  · intro k m hm
    have hwrites := hclean.quotes m
    rw [← hbase] at hwrites
    rw [← Store.abort_writes_of_ne hm]
    exact congrFun hwrites k

/-- A transaction that nobody has begun has written nothing. -/
theorem Exchange.Clean.begin (hclean : e.Clean) (hclosed : e.transactions n = .closed)
    (hpresent : ∀ id trade, t.trade = some (id, trade) → e.db.trades[id]? = some trade)
    (hheld : Held e n t) :
  (e.enter n t).abort n = e ∧ Known (e.enter n t) n t
  := by
  constructor
  · rw [Exchange.enter_abort, Exchange.abort, ← hclosed, Function.update_eq_self]
    have htrades : e.trades.abort n = e.trades := Store.abort_of_clean (hclean.trades n)
    have hrfqs : e.rfqs.abort n = e.rfqs := Store.abort_of_clean (hclean.rfqs n)
    have hquotes : e.quotes.abort n = e.quotes := Store.abort_of_clean (hclean.quotes n)
    rw [htrades, hrfqs, hquotes]
    rfl
  · exact ⟨Store.changes_of_clean (hclean.trades n) _, Store.changes_of_clean (hclean.rfqs n) _,
      Store.changes_of_clean (hclean.quotes n) _,
      fun id trade htrade => ⟨trade, hpresent id trade htrade, rfl, rfl⟩, hheld⟩

/-! ### Settlements -/

/-- The rivals are superseded one after the other. -/
theorem Underway.supersede {id : ℕ} {trade : SecondaryTrade} {txHash : Option ℕ}
    (hcondition : ∀ e e', condition e .other e') (hconsistent : Consistent base.db)
    (hclean : base.Clean) (quoteIds : List BytesN32)
    (h : Underway ((exchange parties columns reconcileGraceMs).restrict condition) e₀ base e n
      (.persist (.superseding quoteIds) id trade txHash)) :
  ∃ e', Underway ((exchange parties columns reconcileGraceMs).restrict condition) e₀ base e' n
    (.persist (.superseding []) id trade txHash)
  := by
  induction quoteIds generalizing e with
  | nil => exact ⟨e, h⟩
  | cons quoteId quoteIds ih =>
    obtain ⟨hit, quotes, hupdate⟩ := exists_updatesRow ((h.free hclean).2.2 quoteId)
      (Rival trade.rfqId trade.quoteId quoteId) fun quote => { quote with status := .superseded }
    exact ih (h.statement hcondition hconsistent (.supersede hupdate) (Exchange.enter_self ..))

/-- The rivals of an accepted quote are found. -/
theorem Underway.finds {S : System Exchange ExchangeLabel} {id : ℕ} {trade : SecondaryTrade}
    {txHash : Option ℕ} {quoteIds : List BytesN32}
    (h : Underway S e₀ base e n (.persist .accepted id trade txHash))
    (hrivals : ∀ k, k ∈ quoteIds ↔ ∃ quote, base.db.quotes k = some quote
      ∧ Rival trade.rfqId trade.quoteId k quote) :
  e.quotes.Finds (Rival trade.rfqId trade.quoteId) n quoteIds
  := by
  have hdb : e.db = base.db := congrArg (·.settlement.db) h.market
  rw [← hdb] at hrivals
  intro k
  rw [hrivals]
  constructor
  · rintro ⟨quote, hquote, hrival⟩
    have hnone : e.quotes.writes n k = none := by
      rw [Option.eq_none_iff_forall_ne_some]
      exact fun row hwrites => hrival.2.1 (h.known.quotes k row hwrites).1
    exact ⟨quote, (Store.view_of_none hnone).trans hquote, hrival⟩
  · rintro ⟨quote, hview, hrival⟩
    refine ⟨quote, (h.known.quotes.committed_of_view (p := Rival _ _ k) ?_ hview hrival).2, hrival⟩
    rintro k' before row hwritten ⟨_, _, hopen⟩
    rcases quoteWritten_cases hwritten with ⟨_, _, _, hclosed, _⟩ | ⟨_, _, _, _, heq, _⟩
    · exact hclosed hopen
    · cases heq

/-- A settlement is persisted. -/
theorem run_persist {id a : ℕ} {trade : SecondaryTrade} {txHash : Option ℕ}
    {quoteIds : List BytesN32} (hcondition : ∀ e e', condition e .other e')
    (hcommit : ∀ e, e.transactions n = .persist (.superseding []) id trade txHash →
      condition e (.commit n) (e.commit n))
    (hconsistent : Consistent e.db) (hclean : e.Clean) (hclosed : e.transactions n = .closed)
    (hadopts : ((e.market.settlement.works id).actors a).adopts = some txHash)
    (hrow : e.db.trades[id]? = some trade) (hpending : trade.status = .pending)
    (hrivals : ∀ k, k ∈ quoteIds ↔ ∃ quote, e.db.quotes k = some quote
      ∧ Rival trade.rfqId trade.quoteId k quote) :
  ∃ ls, ((exchange parties columns reconcileGraceMs).restrict condition).Run e ls
    (e.withDb (persistSettled id trade txHash e.db))
  := by
  have hstep : ExchangeStep parties columns reconcileGraceMs e .other
      (e.enter n (.persist .begun id trade txHash)) := .beginPersist hclosed hadopts hrow
  obtain ⟨hbase, hknown⟩ := hclean.begin (t := .persist .begun id trade txHash) hclosed
    (fun _ _ htrade => by cases htrade; exact hrow) trivial
  have hbegun : Underway ((exchange parties columns reconcileGraceMs).restrict condition) e e
      (e.enter n (.persist .begun id trade txHash)) n (.persist .begun id trade txHash) :=
    ⟨⟨_, .single ⟨hstep, hcondition _ _⟩⟩, rfl, hbase, Exchange.enter_self .., hknown⟩
  have hview : e.trades.view n id = some trade :=
    (Store.view_of_none (congrFun (hclean.trades n) id)).trans hrow
  have hwin : UpdatesRow (fun row => row.status = .pending)
      (fun row => { row with status := .settled, txHash }) n id e.trades true _ :=
    .hit ((hbegun.free hclean).1 id) hview hpending
  have hsettled := hbegun.statement hcondition hconsistent (.casSettled hwin)
    (Exchange.enter_self ..)
  obtain ⟨filled, rfqs, hfill⟩ := exists_updatesRow ((hsettled.free hclean).2.1 trade.rfqId)
    (fun rfq => rfq.status = .open) fun rfq => { rfq with status := .filled }
  have hfilled := hsettled.statement hcondition hconsistent (.casFilled hfill)
    (Exchange.enter_self ..)
  obtain ⟨accepted, quotes, haccept⟩ := exists_updatesRow ((hfilled.free hclean).2.2 trade.quoteId)
    (fun quote => quote.status = .open) fun quote => { quote with status := .accepted }
  have haccepted := hfilled.statement hcondition hconsistent (.casAccepted haccept)
    (Exchange.enter_self ..)
  have hsuperseding := haccepted.statement hcondition hconsistent
    (.supersedeOpenRivals (haccepted.finds hrivals)) (Exchange.enter_self ..)
  obtain ⟨e', hdone⟩ := hsuperseding.supersede hcondition hconsistent hclean
  have hdb : e'.db = e.db := congrArg (·.settlement.db) hdone.market
  rw [← hdb, ← hdone.known.committed_persist]
  exact hdone.commit trivial (hcommit e' hdone.transaction)

/-! ### Submissions -/

/-- A row that is not committed has no version, when no transaction has written anything. -/
theorem Exchange.Clean.not_version {quoteId : BytesN32} (hclean : e.Clean)
    (hfresh : e.db.quotes quoteId = none) (quote : Quote) :
  ¬ e.quotes.Version quoteId quote
  := by
  rintro (hcommitted | ⟨m, hwrites⟩)
  · cases hfresh.symm.trans hcommitted
  · cases (congrFun (hclean.quotes m) quoteId).symm.trans hwrites

/-- Nobody has a lock when a submission has begun beside transactions that are over. -/
theorem not_holds_enter {req : QuoteRequest} {validUntil now holderSub fractionContractId : ℕ}
    {onchain : ℤ} (hclosed : ∀ m, e.transactions m = .closed) (m : ℕ) :
  ¬ ((e.enter n (.submit .begun req validUntil onchain now)).transactions m).Holds columns holderSub
    fractionContractId
  := by
  rcases eq_or_ne m n with rfl | hne
  · rw [Exchange.enter_self]
    exact id
  · have hothers : (e.enter n (.submit .begun req validUntil onchain now)).transactions m
        = .closed := (Function.update_of_ne hne ..).trans (hclosed m)
    rw [hothers]
    exact id

/-- A quote is recorded. -/
theorem run_submit {k validUntil : ℕ} {req : QuoteRequest} {onchain : ℤ} {quoteId : BytesN32}
    (hcondition : ∀ e e', condition e .other e')
    (hcommit : ∀ e', Underway ((exchange parties columns reconcileGraceMs).restrict condition) e
      (e.goto k .idle) e' n (.submit .inserted req validUntil onchain e.market.settlement.now) →
      condition e' (.commit n) (e'.commit n))
    (hconsistent : Consistent e.db) (hclean : e.Clean) (hclosed : ∀ m, e.transactions m = .closed)
    (hk : e.submissions k = .funded req validUntil onchain)
    (hcurrent : ∀ quoteId quote, e.db.quotes quoteId = some quote → quote.status = .open →
      e.market.settlement.now < quote.validUntil)
    (hunquoted : ¬ HasOpenQuoteForRfq e.db.quotes req.rfqId req.userId none)
    (hunlocked : req.fractionCount ≤ onchain - sumOpenLockedCount e.db.quotes req.userId
      (columns req.rfqId).fractionContractId e.market.settlement.now)
    (hvalid : e.market.settlement.now < validUntil) (hfresh : e.db.quotes quoteId = none) :
  ∃ ls, ((exchange parties columns reconcileGraceMs).restrict condition).Run e ls
    ((e.goto k .idle).withDb
      { e.db with quotes := insertOpen e.db.quotes quoteId (newQuote columns req validUntil) })
  := by
  have hstep : ExchangeStep parties columns reconcileGraceMs e .other
      ((e.enter n (.submit .begun req validUntil onchain e.market.settlement.now)).goto k .idle) :=
    .beginSubmit (hclosed n) hk
  have hclean' : (e.goto k .idle).Clean := ⟨hclean.trades, hclean.rfqs, hclean.quotes⟩
  obtain ⟨hbase, hknown⟩ := hclean'.begin
    (t := .submit .begun req validUntil onchain e.market.settlement.now) (hclosed n)
    (fun _ _ htrade => by cases htrade) trivial
  have hbegun : Underway ((exchange parties columns reconcileGraceMs).restrict condition) e
      (e.goto k .idle) ((e.goto k .idle).enter n
        (.submit .begun req validUntil onchain e.market.settlement.now)) n
      (.submit .begun req validUntil onchain e.market.settlement.now) :=
    ⟨⟨_, .single ⟨hstep, hcondition _ _⟩⟩, rfl, hbase, Exchange.enter_self .., hknown⟩
  have hview : e.quotes.view n = e.db.quotes := Store.view_of_clean (hclean.quotes n)
  have hlapsing : e.quotes.Finds
      (fun _ => Lapsing req.userId (columns req.rfqId).fractionContractId e.market.settlement.now) n
      [] := by
    intro quoteId
    rw [hview]
    refine iff_of_false nofun ?_
    rintro ⟨quote, hquote, _, _, hopen, hlapsed⟩
    exact absurd (hcurrent quoteId quote hquote hopen) (Nat.not_lt.mpr hlapsed)
  have hlocked := hbegun.statement hcondition hconsistent
    (.lock (not_holds_enter (e := e.goto k .idle) hclosed)) (Exchange.enter_self ..)
  have hreaping := hlocked.statement hcondition hconsistent (.reapLapsed hlapsing)
    (Exchange.enter_self ..)
  have hchecked := hreaping.statement hcondition hconsistent
    (.hasOpenQuoteForRfq (hview ▸ hunquoted)) (Exchange.enter_self ..)
  have hcounted := hchecked.statement hcondition hconsistent
    (.sumOpenLockedCount (hview ▸ hunlocked)) (Exchange.enter_self ..)
  have hinserted := hcounted.statement hcondition hconsistent (.insertOpen hvalid
    (hclean.not_version hfresh)) (Exchange.enter_self ..)
  obtain ⟨ls, hrun⟩ := hinserted.commit trivial (hcommit _ hinserted)
  refine ⟨ls, ?_⟩
  rw [hinserted.known.committed_quotes rfl rfl] at hrun
  have hwritten : (e.quotes.write n quoteId (newQuote columns req validUntil)).view n
      = insertOpen e.db.quotes quoteId (newQuote columns req validUntil) := by
    rw [Store.view_write, hview]
    rfl
  rw [← hwritten]
  exact hrun

end Undisturbed

end Marketplace
