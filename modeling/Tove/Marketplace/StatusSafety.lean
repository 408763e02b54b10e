import Tove.Marketplace.ExchangeProgress

/-!
# When the statuses agree

A settled trade goes with an accepted quote and a filled RFQ without open quotes. Three things
may come between: a trade is recorded for an RFQ or a quote that is not open any more, a quote
is committed on an RFQ that has been filled since it was checked, or whose rivals are just being
superseded, and a quote expires for a new submission of its holder while its trade is pending.
-/

namespace Marketplace

open Soroban Settler Relay Transition ReadCommitted

/-! ### The condition -/

/-- The transaction has written no quote of a pending trade. -/
def Exchange.SparesPending (e : Exchange) (n : ℕ) : Prop :=
  ∀ (id : ℕ) (row : SecondaryTrade), e.db.trades[id]? = some row → row.status = .pending →
    e.quoteWrites n row.quoteId = none

/-- A trade is recorded only while its RFQ and its quote are open; a submission that has inserted its
quote is committed only while its RFQ is open, and no transaction supersedes the rivals on it; and
no submission is committed that has let the quote of a pending trade expire. -/
def Timely (e : Exchange) (l : ExchangeLabel) (_ : Exchange) : Prop :=
  match l with
  | .insert rfqId quoteId => e.db.RfqOpen rfqId
    ∧ ∃ quote, e.db.quotes quoteId = some quote ∧ quote.status = .open
  | .commit n =>
    match e.transactions n with
    | .submit .inserted req _ _ _ => e.db.RfqOpen req.rfqId
      ∧ (∀ m, ¬ (e.transactions m).Sweeps req.rfqId) ∧ e.SparesPending n
    | .submit _ _ _ _ _ => e.SparesPending n
    | _ => True
  | .other => True

/-! ### Requests -/

section Requests

variable {parties : Parties} {reconcileGraceMs : ℕ} {m m' : Market}

/-- A request that has found its quote is for a quote of its RFQ. -/
def Resolved (m : Market) : Prop :=
  ∀ r req ctx, m.requests r = .resolved req ctx ∨ m.requests r = .unexpired req ctx →
    ∃ quote, m.settlement.db.quotes req.quoteId = some quote ∧ quote.rfqId = req.rfqId

/-- The quotes stay with their RFQs. -/
theorem Resolved.forward (h : Resolved m) {s : State}
    (hpresent : ∀ k quote, m.settlement.db.quotes k = some quote →
      ∃ quote', s.db.quotes k = some quote' ∧ quote'.rfqId = quote.rfqId) :
  Resolved { m with settlement := s }
  := by
  intro r req ctx hr
  obtain ⟨quote, hquote, hrfq⟩ := h r req ctx hr
  obtain ⟨quote', hquote', hrfq'⟩ := hpresent _ quote hquote
  exact ⟨quote', hquote', hrfq'.trans hrfq⟩

theorem Resolved.goto (h : Resolved m) {r : ℕ} {phase : AcceptPhase}
    (hphase : ∀ req ctx, phase = .resolved req ctx ∨ phase = .unexpired req ctx →
      ∃ quote, m.settlement.db.quotes req.quoteId = some quote ∧ quote.rfqId = req.rfqId) :
  Resolved (m.goto r phase)
  := by
  intro k req ctx hk
  rcases eq_or_ne k r with rfl | hne
  · rw [Market.goto_self] at hk
    apply hphase req ctx hk
  · rw [Market.goto_of_ne _ hne] at hk
    apply h k req ctx hk

theorem Resolved.request (h : Resolved m) {r : ℕ} {phase : AcceptPhase}
    (hstep : AcceptStep parties m.settlement.db m.settlement.now m.settlement.ledger (m.requests r)
      phase) :
  Resolved (m.goto r phase)
  := by
  apply h.goto
  intro req ctx hphase
  rcases hstep.found hphase with hbefore | hquote
  · exact h r req ctx (.inl hbefore)
  · exact hquote

/-- A step of a request that leaves the quotes. -/
theorem Resolved.step (h : Resolved m) {l : MarketLabel}
    (hstep : MarketStep parties reconcileGraceMs m l m')
    (hquotes : m'.settlement.db.quotes = m.settlement.db.quotes) :
  Resolved m'
  := by
  have hpresent : ∀ k quote, m.settlement.db.quotes k = some quote →
      ∃ quote', m'.settlement.db.quotes k = some quote' ∧ quote'.rfqId = quote.rfqId := by
    intro k quote hquote
    rw [hquotes]
    exact ⟨quote, hquote, rfl⟩
  cases hstep with
  | settle _ => exact h.forward hpresent
  | request hrequest => exact h.request hrequest
  | insert _ _ =>
    apply (h.forward hpresent).goto
    simp
  | enqueue _ _ _ =>
    apply (h.forward hpresent).goto
    simp
  | rows _ _ => exact h.forward hpresent

end Requests

/-! ### The invariant -/

/-- What holds of the exchange. -/
structure ExchangeInvariant (e : Exchange) : Prop where
  consistent : Consistent e.db
  resolved : Resolved e.market
  trades : ReadCommitted.Consistent (fun _ => False) e.trades
  rfqs : ReadCommitted.Consistent (fun _ => False) e.rfqs
  quotes : ReadCommitted.Consistent (fun _ => False) e.quotes
  known : ∀ n, Known e n (e.transactions n)

section Invariant

variable {parties : Parties} {columns : BytesN32 → RfqColumns} {reconcileGraceMs : ℕ}
  {e e' : Exchange} {m n : ℕ} {t : Transaction}

/-- A step of no transaction. -/
theorem ExchangeInvariant.of_quiet (h : ExchangeInvariant e) (hconsistent : Consistent e'.db)
    (hresolved : Resolved e'.market) (hquiet : ∀ n, Quiet e e' n) :
  ExchangeInvariant e'
  := by
  refine ⟨hconsistent, hresolved, ?_, ?_, ?_, ?_⟩
  · apply h.trades.of_writes
    funext n
    exact (hquiet n).trades.writes
  · apply h.rfqs.of_writes
    funext n
    exact (hquiet n).rfqs.writes
  · apply h.quotes.of_writes
    funext n
    exact (hquiet n).quotes.writes
  · exact fun n => (h.known n).quiet (hquiet n)

/-- A step of one transaction. -/
theorem ExchangeInvariant.of_acts (h : ExchangeInvariant e) (hconsistent : Consistent e'.db)
    (hresolved : Resolved e'.market) (hothers : ∀ m, m ≠ n → e'.transactions m = e.transactions m)
    (htrades : Acts (fun _ => False) n e.trades e'.trades)
    (hrfqs : Acts (fun _ => False) n e.rfqs e'.rfqs)
    (hquotes : Acts (fun _ => False) n e.quotes e'.quotes)
    (hpresent : ∀ (id : ℕ) (row : SecondaryTrade), e.db.trades[id]? = some row →
      ∃ row' : SecondaryTrade, e'.db.trades[id]? = some row' ∧ row'.rfqId = row.rfqId
        ∧ row'.quoteId = row.quoteId)
    (hopened : ∀ m k quote', e'.db.quotes k = some quote' → quote'.status = .open →
      (∃ quote, e.db.quotes k = some quote ∧ quote.rfqId = quote'.rfqId ∧ quote.status = .open)
        ∨ ¬ (e.transactions m).Sweeps quote'.rfqId)
    (hknown : Known e' n (e'.transactions n)) :
  ExchangeInvariant e'
  := by
  refine ⟨hconsistent, hresolved, htrades.consistent h.trades, hrfqs.consistent h.rfqs,
    hquotes.consistent h.quotes, ?_⟩
  intro m
  rcases eq_or_ne m n with rfl | hne
  · exact hknown
  · exact (h.known m).quiet ⟨hothers m hne, htrades.keeps h.trades hne, hrfqs.keeps h.rfqs hne,
      hquotes.keeps h.quotes hne, hpresent, hopened m⟩

/-- A step of one transaction that commits nothing. -/
theorem ExchangeInvariant.of_acts_db (h : ExchangeInvariant e) (hmarket : e'.market = e.market)
    (hothers : ∀ m, m ≠ n → e'.transactions m = e.transactions m)
    (htrades : Acts (fun _ => False) n e.trades e'.trades)
    (hrfqs : Acts (fun _ => False) n e.rfqs e'.rfqs)
    (hquotes : Acts (fun _ => False) n e.quotes e'.quotes)
    (hknown : Known e' n (e'.transactions n)) :
  ExchangeInvariant e'
  := by
  have hdb : e'.db = e.db := congrArg (·.settlement.db) hmarket
  refine h.of_acts ?_ ?_ hothers htrades hrfqs hquotes ?_ ?_ hknown
  · rw [hdb]
    exact h.consistent
  · rw [hmarket]
    exact h.resolved
  · intro id row hrow
    rw [hdb]
    exact ⟨row, hrow, rfl, rfl⟩
  · intro m k quote' hquote' hopen
    rw [hdb] at hquote'
    exact .inl ⟨quote', hquote', rfl, hopen⟩

/-- A step that leaves the tables and all transactions. -/
theorem ExchangeInvariant.of_db (h : ExchangeInvariant e) {market : Market}
    {submissions : ℕ → SubmitPhase} (hdb : market.settlement.db = e.db) (hresolved : Resolved market) :
  ExchangeInvariant { e with market, submissions }
  := by
  have hexchange : ({ e with market, submissions } : Exchange).db = e.db := hdb
  apply h.of_quiet
  · rw [hexchange]
    exact h.consistent
  · exact hresolved
  · intro n
    constructor
    · rfl
    · refine Store.keeps_of_writes rfl ?_
      intro k _
      exact congrArg (fun db : Database => db.trades[k]?) hdb
    · refine Store.keeps_of_writes rfl ?_
      intro k _
      exact congrArg (fun db : Database => db.rfqs k) hdb
    · refine Store.keeps_of_writes rfl ?_
      intro k _
      exact congrArg (fun db : Database => db.quotes k) hdb
    · intro id row hrow
      rw [hexchange]
      exact ⟨row, hrow, rfl, rfl⟩
    · intro k quote' hquote' hopen
      rw [hexchange] at hquote'
      exact .inl ⟨quote', hquote', rfl, hopen⟩

/-! ### Steps of their own -/

/-- A trade is recorded for an open quote of an open RFQ. -/
theorem ExchangeInvariant.insert (h : ExchangeInvariant e) {market : Market}
    {rfqId quoteId : BytesN32}
    (hstep : MarketStep parties reconcileGraceMs e.market (.insert rfqId quoteId) market)
    (hopen : e.db.RfqOpen rfqId)
    (hquote_open : ∃ quote, e.db.quotes quoteId = some quote ∧ quote.status = .open) :
  ExchangeInvariant { e with market }
  := by
  have hresolved := fun hquotes => h.resolved.step hstep hquotes
  cases hstep with
  | insert hr hrecord =>
    rename_i r req ctx trades
    obtain ⟨hnone, rfl⟩ := recordTrade_eq_some hrecord
    obtain ⟨quote, hquote, hstatus⟩ := hquote_open
    obtain ⟨quote', hquote', hrfq⟩ := h.resolved _ _ _ (.inr hr)
    obtain rfl := Option.some.inj (hquote.symm.trans hquote')
    apply h.of_quiet
    · exact h.consistent.insert rfl hnone hopen hquote hrfq hstatus
    · exact hresolved rfl
    · intro n
      constructor
      · rfl
      · refine Store.keeps_of_writes rfl ?_
        intro k hheld
        obtain ⟨row', hwrites⟩ := Option.ne_none_iff_exists'.mp hheld
        obtain ⟨row, hrow, _⟩ := tradeWritten_cases ((h.known n).trades k row' hwrites)
        have hrow : e.db.trades[k]? = some row := hrow
        exact (getElem?_concat_eq_some.mpr (.inl hrow)).trans hrow.symm
      · exact Store.Keeps.refl _ n
      · exact Store.Keeps.refl _ n
      · exact fun id row hrow => ⟨row, getElem?_concat_eq_some.mpr (.inl hrow), rfl, rfl⟩
      · exact fun k quote' hquote' hopen' => .inl ⟨quote', hquote', rfl, hopen'⟩

/-- A quote is authorised that no transaction has written. -/
theorem ExchangeInvariant.authorize (h : ExchangeInvariant e) {quoteId : BytesN32}
    {entry : SellerAuthEntry} {wallet : Address} (hfree : ∀ n, e.quoteWrites n quoteId = none) :
  ExchangeInvariant
    (e.withDb { e.db with quotes := markAuthorized e.db.quotes quoteId entry wallet })
  := by
  apply h.of_quiet
  · apply h.consistent.quotes
    apply neutral_markAuthorized
  · apply h.resolved.forward
    intro k quote hquote
    obtain ⟨quote', hquote', hrfq, _⟩ :=
      (neutral_markAuthorized e.db quoteId entry wallet).present k quote hquote
    exact ⟨quote', hquote', hrfq⟩
  · intro n
    constructor
    · rfl
    · exact Store.Keeps.refl _ n
    · exact Store.Keeps.refl _ n
    · refine Store.keeps_of_writes rfl ?_
      intro k hheld
      have hne : k ≠ quoteId := by
        rintro rfl
        exact hheld (hfree n)
      exact Function.update_of_ne hne ..
    · exact fun id row hrow => ⟨row, hrow, rfl, rfl⟩
    · intro k quote' hquote' hopen
      have hmap := markAuthorized_apply e.db.quotes quoteId entry wallet k
      rw [show markAuthorized e.db.quotes quoteId entry wallet k = some quote' from hquote', eq_comm,
        Option.map_eq_some_iff] at hmap
      obtain ⟨quote, hquote, rfl⟩ := hmap
      left
      refine ⟨quote, hquote, ?_, ?_⟩
      · grind
      · grind

/-- An RFQ is created. -/
theorem ExchangeInvariant.create (h : ExchangeInvariant e) {rfqId : BytesN32} {rfq : Rfq}
    (hfresh : e.db.rfqs rfqId = none) (hopen : rfq.status = .open) :
  ExchangeInvariant (e.withDb { e.db with rfqs := Function.update e.db.rfqs rfqId (some rfq) })
  := by
  apply h.of_quiet
  · exact h.consistent.create hfresh hopen
  · exact h.resolved.forward fun k quote hquote => ⟨quote, hquote, rfl⟩
  · intro n
    constructor
    · rfl
    · exact Store.Keeps.refl _ n
    · refine Store.keeps_of_writes rfl ?_
      intro k hheld
      obtain ⟨row, hwrites⟩ := Option.ne_none_iff_exists'.mp hheld
      obtain ⟨rfq', hrfq', _⟩ := rfqWritten_cases ((h.known n).rfqs k row hwrites)
      have hne : k ≠ rfqId := by
        rintro rfl
        cases hfresh.symm.trans hrfq'
      exact Function.update_of_ne hne ..
    · exact Store.Keeps.refl _ n
    · exact fun id row hrow => ⟨row, hrow, rfl, rfl⟩
    · exact fun k quote' hquote' hopen' => .inl ⟨quote', hquote', rfl, hopen'⟩

/-! ### Steps of transactions -/

/-- A transaction begins, and has written nothing. -/
theorem ExchangeInvariant.begin (h : ExchangeInvariant e) (hclosed : e.transactions n = .closed)
    (htrades : tradeWritten t = tradeWritten .closed) (hrfqs : rfqWritten t = rfqWritten .closed)
    (hquotes : ∀ k before row, quoteWritten .closed k before row → quoteWritten t k before row)
    (hpresent : ∀ id trade, t.trade = some (id, trade) → e.db.trades[id]? = some trade)
    (hheld : Held e n t) :
  ExchangeInvariant (e.enter n t)
  := by
  have hknown := h.known n
  rw [hclosed] at hknown
  refine h.of_acts_db rfl (fun m hne => Function.update_of_ne hne ..) .nothing .nothing .nothing ?_
  rw [Exchange.enter_self]
  constructor
  · rw [htrades]
    exact hknown.trades
  · rw [hrfqs]
    exact hknown.rfqs
  · exact hknown.quotes.mono hquotes
  · exact fun id trade htrade => ⟨trade, hpresent id trade htrade, rfl, rfl⟩
  · exact hheld

theorem ExchangeInvariant.statement (h : ExchangeInvariant e)
    (hstatement : Statement columns e n (e.transactions n) e') :
  ExchangeInvariant e'
  := by
  obtain ⟨htrades, hrfqs, hquotes⟩ := hstatement.acts
  exact h.of_acts_db hstatement.market (fun m hne => hstatement.transactions hne) htrades hrfqs
    hquotes ((h.known n).statement h.consistent hstatement)

/-- A transaction that is over has written nothing. -/
theorem known_closed (htrades : e.tradeWrites n = fun _ => none)
    (hrfqs : e.rfqWrites n = fun _ => none) (hquotes : e.quoteWrites n = fun _ => none) :
  Known e n .closed
  := ⟨Store.changes_of_clean htrades _, Store.changes_of_clean hrfqs _,
    Store.changes_of_clean hquotes _, nofun, trivial⟩

theorem ExchangeInvariant.abort (h : ExchangeInvariant e) (n : ℕ) :
  ExchangeInvariant (e.abort n)
  := by
  refine h.of_acts_db rfl (fun m hne => Function.update_of_ne hne ..) .abort .abort .abort ?_
  have hclosed : (e.abort n).transactions n = .closed := Function.update_self ..
  rw [hclosed]
  exact known_closed Store.abort_writes Store.abort_writes Store.abort_writes

/-- What a transaction commits is consistent with the rest, when the condition is met. -/
theorem ExchangeInvariant.committed (h : ExchangeInvariant e) (hdone : (e.transactions n).Done)
    (htimely : Timely e (.commit n) e') :
  Consistent (e.committed n)
  := by
  have hknown := h.known n
  generalize ht : e.transactions n = t at hknown hdone
  have hclean : tradeWritten t = (fun _ _ _ => False) → rfqWritten t = (fun _ _ _ => False) →
      quoteWritten t = (fun _ _ _ => False) → e.committed n = e.db := by
    intro htrades hrfqs hquotes
    have hquotes' := hknown.quotes
    rw [hquotes] at hquotes'
    rw [hknown.committed_quotes htrades hrfqs, Store.view_of_clean hquotes'.clean]
    rfl
  have hnamed : ∀ {id : ℕ} {trade : SecondaryTrade}, t.trade = some (id, trade) →
      ∃ row, e.db.trades[id]? = some row ∧ row.rfqId = trade.rfqId ∧ row.quoteId = trade.quoteId :=
    fun htrade => hknown.present _ _ htrade
  cases t with
  | closed => cases hdone
  | persist stage id trade txHash =>
    obtain ⟨row, hrow, hrfq, hquote⟩ := hnamed rfl
    cases stage with
    | lost =>
      rw [hclean rfl rfl rfl]
      exact h.consistent
    | superseding quoteIds =>
      cases quoteIds with
      | cons _ _ => cases hdone
      | nil =>
        rw [hknown.committed_persist]
        have hpersist := h.consistent.persist hrow txHash
        rw [persistSettled, hrfq, hquote] at hpersist
        exact hpersist
    | _ => cases hdone
  | fail stage id trade reason disposition =>
    obtain ⟨row, hrow, hrfq, hquote⟩ := hnamed rfl
    cases stage with
    | lost =>
      rw [hclean rfl rfl rfl]
      exact h.consistent
    | disposed =>
      rw [hknown.committed_fail]
      have hfail := h.consistent.fail hrow reason disposition
      simp only [failTrade, hquote] at hfail
      exact hfail
    | _ => cases hdone
  | submit stage req validUntil onchain now =>
    rw [Timely, ht] at htimely
    rw [hknown.committed_quotes rfl]
    · apply h.consistent.quotes
      apply hknown.neutral
      · rintro rfl
        exact htimely.1
      · cases stage with
        | inserted => exact htimely.2.2
        | _ => exact htimely
    · rfl

/-- A transaction keeps the trades for what they are. -/
theorem ExchangeInvariant.committed_present (h : ExchangeInvariant e) (n : ℕ) {id : ℕ}
    {row : SecondaryTrade} (hrow : e.db.trades[id]? = some row) :
  ∃ row' : SecondaryTrade, (e.committed n).trades[id]? = some row' ∧ row'.rfqId = row.rfqId
    ∧ row'.quoteId = row.quoteId
  := by
  rw [committed_trades, hrow]
  refine ⟨_, rfl, ?_⟩
  cases hwrites : e.tradeWrites n id with
  | none => exact ⟨rfl, rfl⟩
  | some row' =>
    obtain ⟨row₀, hrow₀, _, _, hids⟩ := tradeWritten_cases ((h.known n).trades id row' hwrites)
    obtain rfl := Option.some.inj (hrow.symm.trans hrow₀)
    exact hids

/-- A transaction keeps the quotes for their RFQs. -/
theorem ExchangeInvariant.committed_quote (h : ExchangeInvariant e) (n : ℕ) {k : BytesN32}
    {quote : Quote} (hquote : e.db.quotes k = some quote) :
  ∃ quote', (e.committed n).quotes k = some quote' ∧ quote'.rfqId = quote.rfqId
  := by
  cases hwrites : e.quotes.writes n k with
  | none => exact ⟨quote, (Store.view_of_none hwrites).trans hquote, rfl⟩
  | some quote' =>
    refine ⟨quote', Store.view_of_writes hwrites, ?_⟩
    rcases quoteWritten_cases ((h.known n).quotes k quote' hwrites) with
      ⟨quote₀, hquote₀, _, _, hrfq⟩ | ⟨_, _, _, _, _, hnone, _⟩
    · obtain rfl := Option.some.inj (hquote.symm.trans hquote₀)
      exact hrfq
    · cases hquote.symm.trans hnone

/-- A quote that a transaction opens is no rival that another one supersedes. -/
theorem ExchangeInvariant.committed_opened (h : ExchangeInvariant e)
    (htimely : Timely e (.commit n) e') (m : ℕ) {k : BytesN32} {quote' : Quote}
    (hquote' : (e.committed n).quotes k = some quote') (hopen : quote'.status = .open) :
  (∃ quote, e.db.quotes k = some quote ∧ quote.rfqId = quote'.rfqId ∧ quote.status = .open)
    ∨ ¬ (e.transactions m).Sweeps quote'.rfqId
  := by
  rcases Store.of_view hquote' with hwrites | ⟨_, hcommitted⟩
  · rcases quoteWritten_cases ((h.known n).quotes k quote' hwrites) with
      ⟨_, _, _, hclosed, _⟩ | ⟨req, _, _, _, ht, _, hrfq, _⟩
    · exact absurd hopen hclosed
    · rw [Timely, ht] at htimely
      rw [hrfq]
      exact .inr (htimely.2.1 m)
  · exact .inl ⟨quote', hcommitted, rfl, hopen⟩

/-- A transaction is committed. -/
theorem ExchangeInvariant.commit (h : ExchangeInvariant e) (hdone : (e.transactions n).Done)
    (htimely : Timely e (.commit n) e') :
  ExchangeInvariant (e.commit n)
  := by
  have hclosed : (e.commit n).transactions n = .closed := Function.update_self ..
  have htrades := (h.known n).commit_trades
  apply h.of_acts
  · exact h.committed hdone htimely
  · exact h.resolved.forward fun k quote hquote => h.committed_quote n hquote
  · exact fun m hne => Function.update_of_ne hne ..
  · rw [htrades]
    exact .commit
  · exact .commit
  · exact .commit
  · exact fun id row hrow => h.committed_present n hrow
  · exact fun m k quote' hquote' hopen => h.committed_opened htimely m hquote' hopen
  · rw [hclosed]
    exact known_closed Store.commit_writes Store.commit_writes Store.commit_writes

/-- Every step that meets the condition keeps the invariant. -/
theorem ExchangeInvariant.step (h : ExchangeInvariant e) {l : ExchangeLabel}
    (hstep : ExchangeStep parties columns reconcileGraceMs e l e') (htimely : Timely e l e') :
  ExchangeInvariant e'
  := by
  cases hstep with
  | work hwork =>
    apply h.of_db hwork.db
    apply h.resolved.forward
    intro k quote hquote
    rw [hwork.db]
    exact ⟨quote, hquote, rfl⟩
  | request hrequest hdb =>
    apply h.of_db hdb
    apply h.resolved.step hrequest
    exact congrArg Database.quotes hdb
  | insert hinsert => exact h.insert hinsert htimely.1 htimely.2
  | submission _ => exact h.of_db rfl h.resolved
  | authorize hfree => exact h.authorize hfree
  | create hfresh hopen => exact h.create hfresh hopen
  | beginPersist hclosed _ hrow =>
    refine h.begin hclosed rfl rfl (fun _ _ _ hwritten => hwritten) ?_ trivial
    rintro _ _ ⟨⟩
    exact hrow
  | beginFail hclosed _ hrow =>
    refine h.begin hclosed rfl rfl (fun _ _ _ hwritten => hwritten) ?_ trivial
    rintro _ _ ⟨⟩
    exact hrow
  | @beginSubmit n _ validUntil req onchain hclosed _ =>
    have hbegun : ExchangeInvariant
        (e.enter n (.submit .begun req validUntil onchain e.market.settlement.now)) :=
      h.begin hclosed rfl rfl (fun _ _ _ hwritten => hwritten.elim)
        (fun _ _ htrade => by cases htrade) trivial
    exact hbegun.of_db rfl h.resolved
  | statement hstatement => exact h.statement hstatement
  | commit hdone => exact h.commit hdone htimely
  | abort => exact h.abort _

theorem Exchange.Opened.invariant (h : e.Opened) :
  ExchangeInvariant e
  := by
  have hnone : ∀ {id : ℕ} {row : SecondaryTrade}, e.db.trades[id]? ≠ some row := by
    intro id row
    rw [Exchange.db, h.market.trades]
    simp
  constructor
  · constructor
    · intro id row hrow
      cases hnone hrow
    · intro id row hrow
      cases hnone hrow
    · intro rfqId rfq hrfq hfilled
      cases h.unfilled rfqId rfq hrfq hfilled
    · intro quoteId quote hquote haccepted
      cases h.unaccepted quoteId quote hquote haccepted
    · intro i j row row' hrow
      cases hnone hrow
  · intro r req ctx hr
    rw [h.market.requests] at hr
    simp at hr
  · exact consistent_of_clean h.trades fun _ _ _ _ _ _ hp => hp.elim
  · exact consistent_of_clean h.rfqs fun _ _ _ _ _ _ hp => hp.elim
  · exact consistent_of_clean h.quotes fun _ _ _ _ _ _ hp => hp.elim
  · intro n
    rw [h.transactions]
    exact known_closed (h.trades n) (h.rfqs n) (h.quotes n)

theorem exchangeInvariant_of_reachable
    (h : ((exchange parties columns reconcileGraceMs).restrict Timely).Reachable e) :
  ExchangeInvariant e
  := by
  apply h.invariant
  · intro e₀ hopened
    apply Exchange.Opened.invariant hopened
  · intro e₀ l e₁ hI ⟨hstep, htimely⟩
    apply hI.step hstep htimely

/-- In the runs whose steps meet the condition, the statuses of the trades, the quotes and the
RFQs agree in every state. -/
theorem statuses_agree
    (h : ((exchange parties columns reconcileGraceMs).restrict Timely).Reachable e) :
  StatusesAgree e.db
  := (exchangeInvariant_of_reachable h).consistent.statusesAgree

end Invariant

/-! ### A submission that is late -/

def sampleColumns (_ : BytesN32) : RfqColumns := ⟨1, 1000⟩

/-- A quote by another holder. -/
def sampleSubmission (holder : ℕ) : QuoteRequest where
  userId := holder
  rfqId := 1
  pricePerFractionStroops := 25
  fractionCount := 4
  validUntil := 1000

/-- Two more holders have come to the point where their quotes are recorded. -/
def sampleFunded : Exchange where
  market := sampleOpened
  submissions := Function.update (Function.update (fun _ => .idle) 0
    (.funded (sampleSubmission 5) 1000 4)) 1 (.funded (sampleSubmission 6) 1000 4)
  transactions _ := .closed
  tradeWrites _ _ := none
  rfqWrites _ _ := none
  quoteWrites _ _ := none

/-- The quotes are for the RFQ, and are not by the new holders. -/
theorem sampleOpened_quotes {quoteId : BytesN32} {quote : Quote}
    (h : sampleOpened.settlement.db.quotes quoteId = some quote) :
  quote = sampleQuote 3 ∨ quote = sampleQuote 4
  := by
  simp only [sampleOpened] at h
  split at h
  · exact .inl (Option.some.inj h).symm
  · exact .inr (Option.some.inj (Option.ite_none_right_eq_some.mp h).2).symm

theorem sampleFunded_reachable :
  ((exchange sampleParties sampleColumns 180000).restrict Timely).Reachable sampleFunded
  := by
  have hopened : Exchange.Opened { sampleFunded with submissions := fun _ => .idle } := by
    constructor
    · apply sampleOpened_opened
    · intro rfqId rfq hrfq
      simp only [Exchange.db, sampleFunded, sampleOpened, Option.ite_none_right_eq_some] at hrfq
      rw [← Option.some.inj hrfq.2]
      nofun
    · intro quoteId quote hquote
      rcases sampleOpened_quotes hquote with rfl | rfl
      · nofun
      · nofun
    · exact fun _ => rfl
    · exact fun _ => rfl
    · exact fun _ => rfl
    · exact fun _ => rfl
    · exact fun _ => rfl
  have hunquoted : ∀ holder, 4 < holder →
      ¬ HasOpenQuoteForRfq sampleOpened.settlement.db.quotes 1 holder (some 0) := by
    rintro holder hlt ⟨quoteId, quote, hquote, _, hholder, _⟩
    rcases sampleOpened_quotes hquote with rfl | rfl
    · change 3 = holder at hholder
      omega
    · change 4 = holder at hholder
      omega
  obtain ⟨_, hfirst⟩ : ∃ ls, ((exchange sampleParties sampleColumns 180000).restrict Timely).Run
      { sampleFunded with submissions := fun _ => .idle } ls
      { sampleFunded with
        submissions := Function.update (fun _ => .idle) 0 (.funded (sampleSubmission 5) 1000 4) } :=
    run_fund (fun _ _ => trivial) rfl rfl (hunquoted 5 (by decide)) rfl (by decide)
  obtain ⟨_, hsecond⟩ : ∃ ls, ((exchange sampleParties sampleColumns 180000).restrict Timely).Run
      { sampleFunded with
        submissions := Function.update (fun _ => .idle) 0 (.funded (sampleSubmission 5) 1000 4) } ls
      sampleFunded :=
    run_fund (fun _ _ => trivial) rfl rfl (hunquoted 6 (by decide)) rfl (by decide)
  exact ((System.Reachable.init hopened).run hfirst).run hsecond

/-- The first of them has its quote recorded. -/
def sampleOffered : Exchange :=
  (sampleFunded.goto 0 .idle).withDb { sampleFunded.db with
    quotes := insertOpen sampleFunded.db.quotes 3 (newQuote sampleColumns (sampleSubmission 5) 1000) }

theorem sampleFunded_clean :
  sampleFunded.Clean
  := ⟨fun _ => rfl, fun _ => rfl, fun _ => rfl⟩

theorem sampleOffered_reachable :
  ((exchange sampleParties sampleColumns 180000).restrict Timely).Reachable sampleOffered
  := by
  have hunlocked : sumOpenLockedCount sampleFunded.db.quotes 5 1 0 = 0 := by
    apply finsum_eq_zero_of_forall_eq_zero
    intro quoteId
    cases hquote : sampleFunded.db.quotes quoteId with
    | none => rfl
    | some quote =>
      rcases sampleOpened_quotes hquote with rfl | rfl
      · rfl
      · rfl
  obtain ⟨_, hrun⟩ : ∃ ls, ((exchange sampleParties sampleColumns 180000).restrict Timely).Run
      sampleFunded ls sampleOffered := by
    apply run_submit (n := 0) (fun _ _ => trivial)
    · intro e' hunderway
      have hdb : e'.db = sampleFunded.db := congrArg (·.settlement.db) hunderway.market
      rw [Timely, hunderway.transaction]
      refine ⟨⟨sampleRfq, ?_, rfl⟩, ?_, ?_⟩
      · rw [hdb]
        rfl
      · intro m
        rcases eq_or_ne m 0 with rfl | hm
        · rw [hunderway.transaction]
          exact id
        · rw [hunderway.others hm]
          exact id
      · intro id row hrow
        rw [hdb] at hrow
        cases hrow
    · exact (exchangeInvariant_of_reachable sampleFunded_reachable).consistent
    · exact sampleFunded_clean
    · exact fun _ => rfl
    · rfl
    · intro quoteId quote hquote _
      rcases sampleOpened_quotes hquote with rfl | rfl
      · decide
      · decide
    · rintro ⟨quoteId, quote, hquote, _, hholder, _⟩
      rcases sampleOpened_quotes hquote with rfl | rfl
      · cases hholder
      · cases hholder
    · change (4 : ℤ) ≤ 4 - sumOpenLockedCount sampleFunded.db.quotes 5 1 0
      rw [hunlocked]
      decide
    · decide
    · rfl
  exact sampleFunded_reachable.run hrun

/-- The trade of a request, once it has been queued. -/
def sampleSelling : Exchange :=
  { sampleOffered with
    market := (sampleOffered.market.goto 0 (.unexpired (sampleRequest 1) (sampleContext 3))).accept 0
      (sampleRequest 1) (sampleContext 3) ⟨1000⟩ }

theorem sampleSelling_reachable :
  ((exchange sampleParties sampleColumns 180000).restrict Timely).Reachable sampleSelling
  := by
  have hrfq : resolveRfq (sampleRequest 1) sampleOffered.db.rfqs = .ok sampleRfq := rfl
  obtain ⟨_, hrequest⟩ : ∃ ls, ((exchange sampleParties sampleColumns 180000).restrict Timely).Run
      sampleOffered ls { sampleOffered with
        market := sampleOffered.market.goto 0 (.unexpired (sampleRequest 1) (sampleContext 3)) } :=
    run_accept (fun _ _ => trivial) rfl hrfq rfl (by decide)
  have hinsert : ExchangeStep sampleParties sampleColumns 180000
      { sampleOffered with
        market := sampleOffered.market.goto 0 (.unexpired (sampleRequest 1) (sampleContext 3)) }
      (.insert (sampleRequest 1).rfqId (sampleRequest 1).quoteId) { sampleOffered with
        market := Market.recordedBy
          (sampleOffered.market.goto 0 (.unexpired (sampleRequest 1) (sampleContext 3))) 0
          (sampleRequest 1) (sampleContext 3) } :=
    .insert (MarketStep.insert rfl rfl)
  have hqueue : ExchangeStep sampleParties sampleColumns 180000 { sampleOffered with
        market := Market.recordedBy
          (sampleOffered.market.goto 0 (.unexpired (sampleRequest 1) (sampleContext 3))) 0
          (sampleRequest 1) (sampleContext 3) } .other sampleSelling :=
    .request (enqueue_recordedBy rfl) rfl
  exact ((sampleOffered_reachable.run hrequest).step
    ⟨hinsert, ⟨sampleRfq, rfl, rfl⟩, sampleQuote 3, rfl, rfl⟩).step ⟨hqueue, trivial⟩

/-- The trade has been carried out. -/
def samplePaid : Exchange :=
  sampleSelling.withSettlement ((sampleSelling.market.settlement.paid 0
    (sampleTraded sampleRich 1 (.account 30))).goto 0 0 (.adopting (some 0)))

theorem samplePaid_reachable :
  ((exchange sampleParties sampleColumns 180000).restrict Timely).Reachable samplePaid
  := by
  obtain ⟨_, hrun⟩ : ∃ ls, ((working 180000).restrict (Careful apart)).Run
      sampleSelling.market.settlement ls samplePaid.market.settlement := by
    apply pays_undisturbed (d := settleJob (sampleRequest 1) (sampleContext 3) ⟨1000⟩ none)
    · rfl
    · rfl
    · exact fun _ => rfl
    · rfl
    · rfl
    · rfl
    · decide
    · decide
    · exact (rfl : acceptQuote sampleHost _ _ = _)
  have hworking : ((exchange sampleParties sampleColumns 180000).restrict Timely).Run sampleSelling _
      samplePaid := run_working (fun _ _ => trivial) hrun sampleSelling
  exact sampleSelling_reachable.run hworking

/-- The settlement has been persisted, and the quotes that were not accepted are superseded. -/
def sampleSold : Exchange :=
  samplePaid.withDb (persistSettled 0 (newTrade (sampleRequest 1) 0) (some 0) samplePaid.db)

/-- There are three quotes, which are for the RFQ. -/
theorem samplePaid_quotes {quoteId : BytesN32} {quote : Quote}
    (h : samplePaid.db.quotes quoteId = some quote) :
  (quoteId = 1 ∨ quoteId = 2 ∨ quoteId = 3) ∧ quote.rfqId = 1
  := by
  have h : Function.update sampleOpened.settlement.db.quotes 3
      (some (newQuote sampleColumns (sampleSubmission 5) 1000)) quoteId = some quote := h
  rw [Function.update_apply] at h
  split at h
  · next heq =>
    rw [← Option.some.inj h]
    exact ⟨.inr (.inr heq), rfl⟩
  · constructor
    · simp only [sampleOpened] at h
      split at h
      · next heq => exact .inl heq
      · exact .inr (.inl (Option.ite_none_right_eq_some.mp h).1)
    · rcases sampleOpened_quotes h with rfl | rfl
      · rfl
      · rfl

/-- The rivals of the quote that is sold. -/
theorem samplePaid_rivals (k : BytesN32) :
  k ∈ [(2 : BytesN32), 3]
    ↔ ∃ quote, samplePaid.db.quotes k = some quote ∧ Rival 1 1 k quote
  := by
  constructor
  · intro hk
    rcases List.mem_pair.mp hk with rfl | rfl
    · exact ⟨sampleQuote 4, rfl, rfl, by decide, rfl⟩
    · exact ⟨newQuote sampleColumns (sampleSubmission 5) 1000, rfl, rfl, by decide, rfl⟩
  · rintro ⟨quote, hquote, _, hne, _⟩
    rcases (samplePaid_quotes hquote).1 with rfl | hk
    · exact absurd rfl hne
    · exact List.mem_pair.mpr hk

theorem sampleSold_reachable :
  ((exchange sampleParties sampleColumns 180000).restrict Timely).Reachable sampleSold
  := by
  obtain ⟨_, hrun⟩ : ∃ ls, ((exchange sampleParties sampleColumns 180000).restrict Timely).Run
      samplePaid ls sampleSold := by
    apply run_persist (n := 0) (a := 0) (fun _ _ => trivial)
    · intro e he
      rw [Timely, he]
      trivial
    · exact (exchangeInvariant_of_reachable samplePaid_reachable).consistent
    · exact ⟨fun _ => rfl, fun _ => rfl, fun _ => rfl⟩
    · rfl
    · rfl
    · rfl
    · rfl
    · exact samplePaid_rivals
  exact samplePaid_reachable.run hrun

/-- The statuses agree once the trade has been settled. -/
theorem statuses_agree_sampleSold :
  StatusesAgree sampleSold.db
  := statuses_agree sampleSold_reachable

/-- The quote of the other holder has been recorded. -/
def sampleLate : Exchange :=
  (sampleSold.goto 1 .idle).withDb { sampleSold.db with
    quotes := insertOpen sampleSold.db.quotes 4 (newQuote sampleColumns (sampleSubmission 6) 1000) }

/-- No quote on the RFQ is open once the trade has been settled. -/
theorem sampleSold_closed {quoteId : BytesN32} {quote : Quote}
    (h : sampleSold.db.quotes quoteId = some quote) :
  quote.status ≠ .open
  := by
  have hI := exchangeInvariant_of_reachable sampleSold_reachable
  obtain ⟨_, _, hclosed⟩ := hI.consistent.settled 0 _ rfl rfl
  apply hclosed quoteId quote h
  have hquotes : sampleSold.db.quotes quoteId
      = supersedeOpenRivals (casAccepted samplePaid.db.quotes 1) 1 1 quoteId := rfl
  rw [hquotes, supersedeOpenRivals_casAccepted, Option.map_eq_some_iff] at h
  obtain ⟨quote₀, hquote₀, rfl⟩ := h
  have hrfq := (samplePaid_quotes hquote₀).2
  change _ = (1 : BytesN32)
  grind

/-- The statuses may disagree: a quote that was checked while the RFQ was open is recorded after
the RFQ has been filled. -/
theorem not_forall_statuses_agree :
  ¬ ∀ (parties : Parties) (columns : BytesN32 → RfqColumns) (reconcileGraceMs : ℕ) (e : Exchange),
    (exchange parties columns reconcileGraceMs).Reachable e → StatusesAgree e.db
  := by
  intro hall
  have hunlocked : sumOpenLockedCount sampleSold.db.quotes 6 1 0 = 0 := by
    apply finsum_eq_zero_of_forall_eq_zero
    intro quoteId
    cases hquote : sampleSold.db.quotes quoteId with
    | none => rfl
    | some quote =>
      rw [Option.elim_some, if_neg]
      exact fun hlocks => sampleSold_closed hquote hlocks.2.2.1
  obtain ⟨_, hrun⟩ : ∃ ls, ((exchange sampleParties sampleColumns 180000).restrict
      fun _ _ _ => True).Run sampleSold ls sampleLate := by
    apply run_submit (n := 1) (fun _ _ => trivial) (fun _ _ => trivial)
    · exact (exchangeInvariant_of_reachable sampleSold_reachable).consistent
    · exact ⟨fun _ => rfl, fun _ => rfl, fun _ => rfl⟩
    · exact fun _ => rfl
    · rfl
    · exact fun quoteId quote hquote hopen => absurd hopen (sampleSold_closed hquote)
    · rintro ⟨quoteId, quote, hquote, _, _, hopen, _⟩
      exact sampleSold_closed hquote hopen
    · change (4 : ℤ) ≤ 4 - sumOpenLockedCount sampleSold.db.quotes 6 1 0
      rw [hunlocked]
      decide
    · decide
    · rfl
  have hlate := (System.Reachable.of_restrict _ sampleSold_reachable).run
    (System.Run.of_restrict _ hrun)
  obtain ⟨_, _, hclosed⟩ := (hall _ _ _ _ hlate).settled 0 _ rfl rfl
  apply hclosed 4 _ rfl rfl
  · decide
  · rfl

end Marketplace
