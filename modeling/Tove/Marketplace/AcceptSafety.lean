import Tove.Marketplace.Accept

/-!
# When an RFQ is settled once

Of the trades of an RFQ only one is in flight, but a request that has read the RFQ while it was
open may record another trade once the first one has been settled. An RFQ is settled at most
once in the runs in which a trade is recorded only while its RFQ is still open, and the work on
the trades is careful.
-/

namespace Marketplace

open Soroban Settler Relay Transition

/-! ### The condition -/

/-- A trade is recorded only while its RFQ is open, and the work on every trade is careful. -/
def MarketCareful (m : Market) (l : MarketLabel) (m' : Market) : Prop :=
  match l with
  | .settle l => Careful apart m.settlement l m'.settlement
  | .insert rfqId _ => ∃ rfq, m.settlement.db.rfqs rfqId = some rfq ∧ rfq.status = .open
  | .other => True

/-! ### The invariant -/

/-- At most one trade of an RFQ has not failed. -/
def Single (trades : List SecondaryTrade) : Prop :=
  ∀ (i j : ℕ) (row row' : SecondaryTrade), trades[i]? = some row → trades[j]? = some row' →
    row.rfqId = row'.rfqId → row.status ≠ .failed → row'.status ≠ .failed → i = j

/-- Every trade is for an RFQ, which is not open once the trade has been settled. -/
def Closed (db : Database) : Prop :=
  ∀ (id : ℕ) (row : SecondaryTrade), db.trades[id]? = some row →
    ∃ rfq, db.rfqs row.rfqId = some rfq ∧ (row.status = .settled → rfq.status ≠ .open)

/-- What holds of the marketplace when the work on its groups of trades is careful. -/
structure MarketInvariant {κ : Type} (group : Grouping κ) (m : Market) : Prop where
  settlement : Invariant group m.settlement
  recorded : ∀ r id req ctx, m.requests r = .recorded id req ctx →
    ∃ row : SecondaryTrade, m.settlement.db.trades[id]? = some row
      ∧ row.rfqId = req.rfqId ∧ row.quoteId = req.quoteId

section Rows

variable {db db' : Database} {trades trades' : List SecondaryTrade}

theorem Single.updates (h : Single trades) (hupdates : Updates trades trades') :
  Single trades'
  := by
  have horigin : ∀ {k : ℕ} {row : SecondaryTrade}, trades'[k]? = some row →
      row.status ≠ .failed →
      ∃ row₀, trades[k]? = some row₀ ∧ row.rfqId = row₀.rfqId ∧ row₀.status ≠ .failed := by
    intro k row hrow hne
    obtain ⟨row₀, hrow₀, hrfq, _, rfl | hpending⟩ := hupdates.origin hrow
    · exact ⟨row, hrow₀, rfl, hne⟩
    · refine ⟨row₀, hrow₀, hrfq, ?_⟩
      rw [hpending]
      nofun
  intro i j row row' hrow hrow' hrfq hne hne'
  obtain ⟨row₀, hrow₀, hrfq₀, hne₀⟩ := horigin hrow hne
  obtain ⟨row₀', hrow₀', hrfq₀', hne₀'⟩ := horigin hrow' hne'
  apply h i j row₀ row₀' hrow₀ hrow₀' _ hne₀ hne₀'
  rw [← hrfq₀, hrfq, hrfq₀']

theorem Closed.forward (h : Closed db) {rfqs : BytesN32 → Option Rfq}
    (hforward : ForwardOnly db.rfqs rfqs) (quotes : BytesN32 → Option Quote) :
  Closed { db with rfqs, quotes }
  := by
  intro id row hrow
  obtain ⟨rfq, hrfq, hopen⟩ := h id row hrow
  obtain ⟨rfq', hrfq', hsame⟩ := hforward _ rfq hrfq
  refine ⟨rfq', hrfq', ?_⟩
  intro hsettled
  rw [hsame (hopen hsettled)]
  apply hopen hsettled

/-- A settlement that is persisted closes its RFQ. -/
theorem Closed.persist (h : Closed db) {id : ℕ} {row : SecondaryTrade}
    (hrow : db.trades[id]? = some row) (txHash : Option ℕ) :
  Closed (persistSettled id row txHash db)
  := by
  rcases persistSettled_cases id row txHash db with heq | ⟨row₀, hrow₀, _, htrades, hrfqs⟩
  · rw [heq]
    apply h
  · obtain rfl := Option.some.inj (hrow.symm.trans hrow₀)
    obtain ⟨hforward, hfilled⟩ := casFilled_spec db.rfqs row.rfqId
    intro k row₁ hrow₁
    rw [htrades] at hrow₁
    rw [hrfqs]
    rcases eq_or_ne k id with rfl | hne
    · obtain ⟨hlt, _⟩ := List.getElem?_eq_some_iff.mp hrow
      rw [List.getElem?_set_self hlt] at hrow₁
      obtain rfl := Option.some.inj hrow₁
      obtain ⟨rfq, hrfq, _⟩ := h k row hrow
      obtain ⟨rfq', hrfq', _⟩ := hforward _ rfq hrfq
      exact ⟨rfq', hrfq', fun _ => hfilled rfq' hrfq'⟩
    · rw [List.getElem?_set_ne hne.symm] at hrow₁
      apply h.forward hforward db.quotes k row₁ hrow₁

/-- A trade that is failed leaves the RFQs. -/
theorem Closed.fail (h : Closed db) (id : ℕ) (row : SecondaryTrade) (reason : SettleFailureReason)
    (disposition : QuoteDisposition) :
  Closed (failTrade id row reason disposition db)
  := by
  rcases failTrade_cases id row reason disposition db with heq | ⟨row₀, hrow₀, _, htrades, hrfqs⟩
  · rw [heq]
    apply h
  · intro k row₁ hrow₁
    rw [htrades] at hrow₁
    rw [hrfqs]
    rcases eq_or_ne k id with rfl | hne
    · obtain ⟨hlt, _⟩ := List.getElem?_eq_some_iff.mp hrow₀
      rw [List.getElem?_set_self hlt] at hrow₁
      obtain rfl := Option.some.inj hrow₁
      obtain ⟨rfq, hrfq, _⟩ := h k row₀ hrow₀
      exact ⟨rfq, hrfq, nofun⟩
    · rw [List.getElem?_set_ne hne.symm] at hrow₁
      apply h k row₁ hrow₁

theorem Closed.step {reconcileGraceMs : ℕ} {s s' : State} {l : Label} (h : Closed s.db)
    (hstep : SettleStep reconcileGraceMs s l s') :
  Closed s'.db
  := by
  rcases hstep.db_cases with heq | ⟨id, row, txHash, hrow, heq⟩ | ⟨id, row, reason,
    disposition, _, heq⟩
  · rw [heq]
    apply h
  · rw [heq]
    apply h.persist hrow
  · rw [heq]
    apply h.fail

/-! ### A trade is recorded -/

theorem recordTrade_eq_some {req : AcceptRequest} {now : ℕ}
    (h : recordTrade trades req now = some trades') :
  findPendingByRfq trades req.rfqId = none ∧ trades' = trades ++ [newTrade req now]
  := by
  rw [recordTrade] at h
  split at h
  · cases h
  · next hnone =>
    rw [insertPending] at h
    split at h
    · cases h
    · exact ⟨hnone, (Option.some.inj h).symm⟩

/-- No trade of the RFQ is in flight. -/
theorem status_ne_pending {rfqId : BytesN32} (hnone : findPendingByRfq trades rfqId = none) {id : ℕ}
    {row : SecondaryTrade} (hrow : trades[id]? = some row) (heq : row.rfqId = rfqId) :
  row.status ≠ .pending
  := by
  intro hpending
  rw [findPendingByRfq, List.find?_eq_none] at hnone
  apply hnone row (List.mem_of_getElem? hrow)
  simp [heq, hpending]

/-- When an RFQ is open, and no trade of it is in flight, all its trades have failed. -/
theorem Closed.failed (h : Closed db) {rfqId : BytesN32}
    (hnone : findPendingByRfq db.trades rfqId = none) {rfq : Rfq}
    (hrfq : db.rfqs rfqId = some rfq) (hopen : rfq.status = .open) {id : ℕ} {row : SecondaryTrade}
    (hrow : db.trades[id]? = some row) (heq : row.rfqId = rfqId) :
  row.status = .failed
  := by
  have hpending : row.status ≠ .pending := status_ne_pending hnone hrow heq
  have hsettled : row.status ≠ .settled := by
    intro hsettled
    obtain ⟨rfq', hrfq', hclosed⟩ := h id row hrow
    rw [heq] at hrfq'
    obtain rfl := Option.some.inj (hrfq.symm.trans hrfq')
    apply hclosed hsettled hopen
  cases hstatus : row.status with
  | pending => cases hpending hstatus
  | settled => cases hsettled hstatus
  | failed => rfl

theorem Single.concat (h : Single trades) {new : SecondaryTrade}
    (hfailed : ∀ (id : ℕ) (row : SecondaryTrade), trades[id]? = some row → row.rfqId = new.rfqId →
      row.status = .failed) :
  Single (trades ++ [new])
  := by
  intro i j row row' hrow hrow' hrfq hne hne'
  rw [getElem?_concat_eq_some] at hrow hrow'
  rcases hrow with hrow | ⟨rfl, rfl⟩
  · rcases hrow' with hrow' | ⟨rfl, rfl⟩
    · apply h i j row row' hrow hrow' hrfq hne hne'
    · cases hne (hfailed i row hrow hrfq)
  · rcases hrow' with hrow' | ⟨rfl, _⟩
    · cases hne' (hfailed j row' hrow' hrfq.symm)
    · rfl

end Rows

section Steps

variable {κ : Type} {group : Grouping κ} {s : State} {id : ℕ}

theorem sound_blank (ended : Prop) (world : World) {row : SecondaryTrade}
    (hpending : row.status = .pending) :
  Sound ended world row .blank
  := by
  constructor
  · nofun
  · exact fun _ => rfl
  · nofun
  · exact fun _ => trivial
  · rw [hpending]
    nofun
  · rw [hpending]
    nofun

/-- A trade is recorded. -/
theorem Invariant.record (h : Invariant group s) {new : SecondaryTrade}
    (hpending : new.status = .pending) :
  Invariant group (s.record (s.db.trades ++ [new]))
  := by
  have hne : ∀ {k : ℕ} {row : SecondaryTrade}, s.db.trades[k]? = some row →
      k ≠ s.db.trades.length := by
    rintro k row hrow rfl
    simp at hrow
  have hended : ∀ g, s.Ended group g → (s.record (s.db.trades ++ [new])).Ended group g := by
    rintro g hg k ⟨row, hrow, hin⟩
    rcases getElem?_concat_eq_some.mp hrow with hrow | ⟨rfl, _⟩
    · rw [State.record_of_ne _ _ (hne hrow)]
      apply hg k ⟨row, hrow, hin⟩
    · rw [State.record_self]
      apply Work.over_of_txs_eq_nil rfl
  constructor
  · intro k d hjob
    rcases eq_or_ne k s.db.trades.length with rfl | hk
    · rw [State.record_self] at hjob
      cases hjob
    · rw [State.record_of_ne _ _ hk] at hjob
      obtain ⟨row, hrow⟩ := h.jobs k d hjob
      exact ⟨row, getElem?_concat_eq_some.mpr (.inl hrow)⟩
  · intro k row hrow
    rcases getElem?_concat_eq_some.mp hrow with hrow | ⟨rfl, rfl⟩
    · rw [State.record_of_ne _ _ (hne hrow)]
      apply (h.sound k row hrow).mono (hended _) fun hsettled => hsettled
    · rw [State.record_self]
      apply sound_blank _ _ hpending
  · intro rfqId quoteId hsettled
    obtain ⟨k, row, hrow, hrfq, hquote, hlanded⟩ := h.landed rfqId quoteId hsettled
    refine ⟨k, row, getElem?_concat_eq_some.mpr (.inl hrow), hrfq, hquote, ?_⟩
    rw [State.record_of_ne _ _ (hne hrow)]
    apply hlanded

/-- The job of a trade is queued. -/
theorem Invariant.enqueue (h : Invariant group s) {row : SecondaryTrade} {d : QuoteSettleJob}
    (hrow : s.db.trades[id]? = some row) (hrfq : d.terms.rfqId = row.rfqId)
    (hquote : d.terms.quoteId = row.quoteId) (hnone : (s.works id).job = none) :
  Invariant group (s.enqueue id d)
  := by
  have hsound := h.sound id row hrow
  have htxs : (s.works id).txs = [] := hsound.unqueued hnone
  apply h.proceed
  · exact fun _ _ => ⟨row, hrow⟩
  · exact fun hmem => hmem
  · intro _
    apply Work.over_of_txs_eq_nil
    exact htxs
  · intro row' hrow'
    obtain rfl := Option.some.inj (hrow.symm.trans hrow')
    refine ⟨?_, fun _ => htxs, hsound.landed, hsound.knows, hsound.failed, hsound.settled⟩
    intro d' hd'
    obtain rfl := Option.some.inj hd'
    exact ⟨hrfq, hquote⟩

/-- RFQs and quotes are not part of what holds of the trades. -/
theorem Invariant.rows (h : Invariant group s) (rfqs : BytesN32 → Option Rfq)
    (quotes : BytesN32 → Option Quote) :
  Invariant group { s with db := { s.db with rfqs, quotes } }
  := ⟨h.jobs, h.sound, h.landed⟩

end Steps

/-! ### The runs of the marketplace -/

section Market

variable {κ : Type} {group : Grouping κ} {parties : Parties} {reconcileGraceMs : ℕ} {m m' : Market}
  {l : MarketLabel}

/-- A request enters a phase, having recorded what it says. -/
theorem MarketInvariant.goto (h : MarketInvariant group m) {r : ℕ} {phase : AcceptPhase}
    (hphase : ∀ id req ctx, phase = .recorded id req ctx →
      ∃ row : SecondaryTrade, m.settlement.db.trades[id]? = some row
        ∧ row.rfqId = req.rfqId ∧ row.quoteId = req.quoteId) :
  MarketInvariant group (m.goto r phase)
  := by
  use h.settlement
  intro k id req ctx hk
  rcases eq_or_ne k r with rfl | hne
  · rw [Market.goto_self] at hk
    apply hphase id req ctx hk
  · rw [Market.goto_of_ne _ hne] at hk
    apply h.recorded k id req ctx hk

/-- A trade is recorded. -/
theorem MarketInvariant.record (h : MarketInvariant group m) {new : SecondaryTrade}
    (hpending : new.status = .pending) :
  MarketInvariant group
    { m with settlement := m.settlement.record (m.settlement.db.trades ++ [new]) }
  := by
  constructor
  · apply h.settlement.record hpending
  · intro k id req ctx hk
    obtain ⟨row, hrow, hids⟩ := h.recorded k id req ctx hk
    exact ⟨row, getElem?_concat_eq_some.mpr (.inl hrow), hids⟩

/-- The job of a trade is queued. -/
theorem MarketInvariant.enqueue (h : MarketInvariant group m) {r id : ℕ} {req : AcceptRequest}
    {ctx : AcceptContext} {entry : SellerAuthEntry} {verdict : Option TransferErrorReason}
    (hr : m.requests r = .recorded id req ctx) (hnone : (m.settlement.works id).job = none) :
  MarketInvariant group
    { m with settlement := m.settlement.enqueue id (settleJob req ctx entry verdict) }
  := by
  obtain ⟨row, hrow, hrfq, hquote⟩ := h.recorded r id req ctx hr
  exact ⟨h.settlement.enqueue hrow hrfq.symm hquote.symm hnone, h.recorded⟩

/-- A request that has not recorded its trade, and does not record it, has recorded nothing. -/
theorem AcceptStep.ne_recorded {db : Database} {now ledger : ℕ} {phase phase' : AcceptPhase}
    (hstep : AcceptStep parties db now ledger phase phase') (id : ℕ) (req : AcceptRequest)
    (ctx : AcceptContext) :
  phase' ≠ .recorded id req ctx
  := by
  cases hstep with
  | _ => exact AcceptPhase.noConfusion

/-- Every step in which the work is careful keeps the invariant. -/
theorem MarketInvariant.step (h : MarketInvariant group m)
    (hstep : MarketStep parties reconcileGraceMs m l m')
    (hcare : ∀ i, l = .settle i → Careful group m.settlement i m'.settlement) :
  MarketInvariant group m'
  := by
  cases hstep with
  | settle hsettle =>
    constructor
    · apply h.settlement.step hsettle (hcare _ rfl)
    · intro r id req ctx hr
      obtain ⟨row, hrow, hrfq, hquote⟩ := h.recorded r id req ctx hr
      obtain ⟨row', hrow', hrfq', hquote'⟩ := hsettle.updates.present hrow
      exact ⟨row', hrow', hrfq'.trans hrfq, hquote'.trans hquote⟩
  | request hrequest =>
    apply h.goto
    intro id req ctx heq
    cases hrequest.ne_recorded id req ctx heq
  | insert _ hrecord =>
    obtain ⟨_, rfl⟩ := recordTrade_eq_some hrecord
    apply (h.record rfl).goto
    rintro id req ctx ⟨⟩
    exact ⟨_, getElem?_concat_eq_some.mpr (.inr ⟨rfl, rfl⟩), rfl, rfl⟩
  | enqueue hr _ hnone =>
    apply (h.enqueue hr hnone).goto
    exact fun _ _ _ => AcceptPhase.noConfusion
  | rows _ _ => exact ⟨h.settlement.rows _ _, h.recorded⟩

theorem Opened.invariant (h : Opened m) :
  MarketInvariant group m
  := by
  constructor
  · constructor
    · intro id d hjob
      rw [h.works] at hjob
      cases hjob
    · intro id row hrow
      rw [h.trades] at hrow
      cases hrow
    · intro rfqId quoteId hsettled
      rw [h.unsettled] at hsettled
      cases hsettled
  · intro r id req ctx hr
    rw [h.requests] at hr
    cases hr

/-- A trade that is recorded while its RFQ is open leaves one trade that has not failed. -/
theorem Single.step (hsingle : Single m.settlement.db.trades) (hclosed : Closed m.settlement.db)
    (hstep : MarketStep parties reconcileGraceMs m l m') (hcare : MarketCareful m l m') :
  Single m'.settlement.db.trades ∧ Closed m'.settlement.db
  := by
  cases hstep with
  | settle hsettle => exact ⟨hsingle.updates hsettle.updates, hclosed.step hsettle⟩
  | request _ => exact ⟨hsingle, hclosed⟩
  | insert _ hrecord =>
    obtain ⟨rfq, hrfq, hopen⟩ := hcare
    obtain ⟨hnone, rfl⟩ := recordTrade_eq_some hrecord
    constructor
    · apply hsingle.concat
      intro id row hrow heq
      apply hclosed.failed hnone hrfq hopen hrow heq
    · intro id row hrow
      rcases getElem?_concat_eq_some.mp hrow with hrow | ⟨rfl, rfl⟩
      · apply hclosed id row hrow
      · exact ⟨rfq, hrfq, nofun⟩
  | enqueue _ _ _ => exact ⟨hsingle, hclosed⟩
  | rows hforward _ => exact ⟨hsingle, hclosed.forward hforward _⟩

/-- What holds of the marketplace in the runs whose steps meet the condition. -/
theorem single_of_reachable
    (h : ((market parties reconcileGraceMs).restrict MarketCareful).Reachable m) :
  MarketInvariant apart m ∧ Single m.settlement.db.trades ∧ Closed m.settlement.db
  := by
  apply h.invariant
    (I := fun m => MarketInvariant apart m ∧ Single m.settlement.db.trades ∧ Closed m.settlement.db)
  · intro m₀ hopened
    refine ⟨Opened.invariant hopened, ?_, ?_⟩
    · intro i j row row' hrow
      rw [Opened.trades hopened] at hrow
      cases hrow
    · intro id row hrow
      rw [Opened.trades hopened] at hrow
      cases hrow
  · rintro m₀ l m₁ ⟨hI, hsingle, hclosed⟩ ⟨hstep, hcare⟩
    refine ⟨hI.step hstep ?_, hsingle.step hclosed hstep hcare⟩
    rintro i rfl
    apply hcare

/-- In the runs whose steps meet the condition, an RFQ is settled at most once: at most one of
its trades is settled, and the settler has a marker for at most one of its quotes. -/
theorem settled_once
    (h : ((market parties reconcileGraceMs).restrict MarketCareful).Reachable m) :
  (∀ (i j : ℕ) (row row' : SecondaryTrade), m.settlement.db.trades[i]? = some row →
      m.settlement.db.trades[j]? = some row' → row.rfqId = row'.rfqId → row.status = .settled →
      row'.status = .settled → i = j)
    ∧ ∀ rfqId quoteId quoteId', isSettled m.settlement.world rfqId quoteId = true →
      isSettled m.settlement.world rfqId quoteId' = true → quoteId = quoteId'
  := by
  obtain ⟨hI, hsingle, _⟩ := single_of_reachable h
  constructor
  · intro i j row row' hrow hrow' hrfq hsettled hsettled'
    apply hsingle i j row row' hrow hrow' hrfq
    · rw [hsettled]
      nofun
    · rw [hsettled']
      nofun
  · intro rfqId quoteId quoteId' hsettled hsettled'
    obtain ⟨i, row, hrow, hrfq, rfl, hlanded⟩ := hI.settlement.landed _ _ hsettled
    obtain ⟨j, row', hrow', hrfq', rfl, hlanded'⟩ := hI.settlement.landed _ _ hsettled'
    have hnever : ∀ {k : ℕ} {row₁ : SecondaryTrade}, m.settlement.db.trades[k]? = some row₁ →
        .success ∈ (m.settlement.works k).txs → row₁.status ≠ .failed := by
      intro k row₁ hrow₁ hlanded₁ hfailed
      apply ((hI.settlement.sound k row₁ hrow₁).failed hfailed k (State.in_self hrow₁)).1 hlanded₁
    have heq : i = j := hsingle i j row row' hrow hrow' (hrfq.trans hrfq'.symm)
      (hnever hrow hlanded) (hnever hrow' hlanded')
    obtain rfl := heq
    rw [Option.some.inj (hrow.symm.trans hrow')]

/-- The steps of a request that nothing disturbs, up to the point where it records its trade. -/
theorem request_steps {r : ℕ} {req : AcceptRequest} {rfq : Rfq} {ctx : AcceptContext}
    (hidle : m.requests r = .idle) (hrfq : resolveRfq req m.settlement.db.rfqs = .ok rfq)
    (hquote : resolveQuote parties req rfq m.settlement.db.quotes m.settlement.now = .ok ctx)
    (hfresh : ¬ Lapsed m.settlement.ledger req.signatureExpirationLedger) :
  MarketStep parties reconcileGraceMs m .other (m.goto r (.rfqRead req rfq))
    ∧ MarketStep parties reconcileGraceMs (m.goto r (.rfqRead req rfq)) .other
      (m.goto r (.resolved req ctx))
    ∧ MarketStep parties reconcileGraceMs (m.goto r (.resolved req ctx)) .other
      (m.goto r (.unexpired req ctx))
  := by
  have hread : MarketStep parties reconcileGraceMs m .other (m.goto r (.rfqRead req rfq)) :=
    .request (hidle ▸ .readRfq hrfq)
  have hresolve : MarketStep parties reconcileGraceMs (m.goto r (.rfqRead req rfq)) .other
      ((m.goto r (.rfqRead req rfq)).goto r (.resolved req ctx)) :=
    .request (by rw [Market.goto_self]; exact .readQuote hquote)
  rw [Market.goto_goto] at hresolve
  have hcheck : MarketStep parties reconcileGraceMs (m.goto r (.resolved req ctx)) .other
      ((m.goto r (.resolved req ctx)).goto r (.unexpired req ctx)) :=
    .request (by rw [Market.goto_self]; exact .notExpired (le_refl _) hfresh)
  rw [Market.goto_goto] at hcheck
  exact ⟨hread, hresolve, hcheck⟩

/-- A request that nothing disturbs comes to the point where it records its trade. -/
theorem run_request {condition : Market → MarketLabel → Market → Prop}
    (hcondition : ∀ m m', condition m .other m') {r : ℕ} {req : AcceptRequest} {rfq : Rfq} {ctx : AcceptContext}
    (hidle : m.requests r = .idle) (hrfq : resolveRfq req m.settlement.db.rfqs = .ok rfq)
    (hquote : resolveQuote parties req rfq m.settlement.db.quotes m.settlement.now = .ok ctx)
    (hfresh : ¬ Lapsed m.settlement.ledger req.signatureExpirationLedger) :
  ∃ ls, ((market parties reconcileGraceMs).restrict condition).Run m ls
    (m.goto r (.unexpired req ctx))
  := by
  obtain ⟨hread, hresolve, hcheck⟩ :=
    @request_steps parties reconcileGraceMs _ _ _ _ _ hidle hrfq hquote hfresh
  exact ⟨_, ((System.Run.single (S := (market parties reconcileGraceMs).restrict condition)
    ⟨hread, hcondition _ _⟩).snoc ⟨hresolve, hcondition _ _⟩).snoc ⟨hcheck, hcondition _ _⟩⟩

/-- The trade of a request has been recorded. -/
def Market.recordedBy (m : Market) (r : ℕ) (req : AcceptRequest) (ctx : AcceptContext) : Market :=
  Market.goto { m with
    settlement := m.settlement.record (m.settlement.db.trades
      ++ [newTrade req m.settlement.now]) } r
    (.recorded m.settlement.db.trades.length req ctx)

/-- The trade of a request has been recorded, and its job queued. -/
def Market.accept (m : Market) (r : ℕ) (req : AcceptRequest) (ctx : AcceptContext)
    (entry : SellerAuthEntry) : Market where
  settlement := (m.settlement.record
    (m.settlement.db.trades ++ [newTrade req m.settlement.now])).enqueue
      m.settlement.db.trades.length (settleJob req ctx entry none)
  requests := Function.update m.requests r .idle

/-- The job of the trade that a request has recorded is queued. -/
theorem enqueue_recordedBy {r : ℕ} {req : AcceptRequest} {ctx : AcceptContext}
    {entry : SellerAuthEntry} (hentry : ctx.quote.sellerAuthEntry = some entry) :
  MarketStep parties reconcileGraceMs (m.recordedBy r req ctx) .other (m.accept r req ctx entry)
  := by
  have hr : (m.recordedBy r req ctx).requests r
      = .recorded m.settlement.db.trades.length req ctx := by
    rw [Market.recordedBy, Market.goto_self]
  have hjob : ((m.recordedBy r req ctx).settlement.works m.settlement.db.trades.length).job
      = none := by
    simp [Market.recordedBy, Market.goto, Work.blank]
  have hqueue := @MarketStep.enqueue parties reconcileGraceMs _ _ _ _ _ _ none hr hentry hjob
  simpa [Market.recordedBy, Market.goto, Market.accept] using hqueue

/-- A request that has come to this point records its trade, when no trade of the RFQ is in
flight. -/
theorem accept_steps {r : ℕ} {req : AcceptRequest} {ctx : AcceptContext} {entry : SellerAuthEntry}
    (hr : m.requests r = .unexpired req ctx)
    (hrecord : recordTrade m.settlement.db.trades req m.settlement.now
      = some (m.settlement.db.trades ++ [newTrade req m.settlement.now]))
    (hentry : ctx.quote.sellerAuthEntry = some entry) :
  ∃ m₁, MarketStep parties reconcileGraceMs m (.insert req.rfqId req.quoteId) m₁
    ∧ MarketStep parties reconcileGraceMs m₁ .other (m.accept r req ctx entry)
  := by
  use m.recordedBy r req ctx
  constructor
  · apply MarketStep.insert hr hrecord
  · apply enqueue_recordedBy hentry

/-- The work on the trades is a part of the marketplace. -/
theorem run_work {condition : Market → MarketLabel → Market → Prop}
    (hcondition : ∀ m l m', Careful group m.settlement l m'.settlement →
      condition m (.settle l) m')
    {s s' : State} {ls : List Label}
    (h : ((working reconcileGraceMs).restrict (Careful group)).Run s ls s')
    (requests : ℕ → AcceptPhase) :
  ((market parties reconcileGraceMs).restrict condition).Run ⟨s, requests⟩ (ls.map .settle)
    ⟨s', requests⟩
  := by
  refine h.map (T := (market parties reconcileGraceMs).restrict condition)
    (fun t => ⟨t, requests⟩) .settle ?_
  rintro t l t' ⟨hstep, hcare⟩
  exact ⟨.settle (.work hstep), hcondition _ _ _ hcare⟩

/-- The first attempt on a trade settles it, when nothing disturbs it. -/
theorem run_settle {s : State} {id : ℕ} {d : QuoteSettleJob} {row : SecondaryTrade} {host : Host}
    {world : World} (hjob : (s.works id).job = some d) (hattempts : (s.works id).attemptsMade = 0)
    (hidle : ∀ a, (s.works id).actors a = .idle) (hrow : s.db.trades[id]? = some row)
    (hpending : row.status = .pending) (hverdict : d.verdict = none)
    (hseller : ¬ Lapsed s.ledger d.sellerSignatureExpirationLedger)
    (hbuyer : ¬ Lapsed s.ledger d.buyerSignatureExpirationLedger)
    (hcall : acceptQuote host d.terms s.world = .ok world) (requests : ℕ → AcceptPhase) :
  ∃ ls, ((market parties reconcileGraceMs).restrict MarketCareful).Run ⟨s, requests⟩ ls
    ⟨s.settledBy id row world, requests⟩
  := by
  obtain ⟨_, hrun⟩ :=
    @pays_undisturbed reconcileGraceMs _ _ _ _ _ _ hjob hattempts hidle hrow hpending hverdict
      hseller hbuyer hcall
  have hstep := @persists_undisturbed reconcileGraceMs _ _ _ world hidle hrow
  have hpaid : ((market parties reconcileGraceMs).restrict MarketCareful).Run ⟨s, requests⟩ _ _ :=
    run_work (fun _ _ _ hcare => hcare) hrun requests
  exact ⟨_, hpaid.snoc ⟨.settle hstep, trivial⟩⟩

end Market

/-! ### An RFQ with two quotes -/

/-- Everybody is whitelisted, and every contract is deployed. -/
def sampleParties : Parties := ⟨fun _ => true, fun _ => true⟩

def sampleRfq : Rfq where
  collectorSub := 1
  artworkId := 1
  status := .open

/-- A quote of four fractions at a price of 25, by the owner of the given account. -/
def sampleQuote (holder : ℕ) : Quote where
  rfqId := 1
  holderSub := holder
  fractionContractId := 1
  fractionCount := 4
  pricePerFractionStroops := 25
  validUntil := 1000
  status := .open
  statusReason := none
  sellerAuthEntry := some ⟨1000⟩
  sellerWalletContract := some (.account (BitVec.ofNat 256 (10 * holder)))

/-- The buyer accepts the given quote. -/
def sampleRequest (quoteId : BytesN32) : AcceptRequest where
  userId := 1
  rfqId := 1
  quoteId
  idempotencyKeyHash := quoteId
  buyerWallet := .account 20
  signatureExpirationLedger := 120

/-- What the request resolves to. -/
def sampleContext (holder : ℕ) : AcceptContext where
  quote := sampleQuote holder
  sellerWallet := .account (BitVec.ofNat 256 (10 * holder))
  artworkId := 1
  count := 4
  gross := 100

/-- The host lets every call through. -/
def sampleHost : Host where
  auth _ := true
  usdcAccepts := true
  mintSettleAccepts := true
  tokenOf _ := some (.contract 7)
  treasury _ := .account 1
  artistPayout _ := .account 2
  movementAccepts := true

/-- The buyer has the money for two trades. -/
def sampleRich : World where
  settled _ _ := false
  usdc := fun a => if a = .account 20 then 200 else 0

/-- The RFQ with two quotes, of which nothing has been accepted. -/
def sampleOpened : Market where
  settlement := {
    ledger := 0
    now := 0
    world := sampleRich
    db := {
      rfqs := fun r => if r = 1 then some sampleRfq else none
      quotes := fun q => if q = 1 then some (sampleQuote 3)
        else if q = 2 then some (sampleQuote 4) else none
      trades := [] }
    works := fun _ => .blank }
  requests := fun _ => .idle

theorem sampleOpened_opened :
  Opened sampleOpened
  := ⟨rfl, fun _ => rfl, fun _ _ => rfl, fun _ => rfl⟩

/-- The trade of a quote takes place. -/
def sampleTraded (w : World) (quoteId : BytesN32) (seller : Address) : World where
  settled := w.mark 1 quoteId
  usdc := ((w.usdc.move (.account 20) (.account 1) 1).move (.account 20) (.account 2) 1).move
    (.account 20) seller 98

/-- Both requests have read the RFQ while it was open. -/
def sampleBoth : Market :=
  (sampleOpened.goto 0 (.unexpired (sampleRequest 1) (sampleContext 3))).goto 1
    (.unexpired (sampleRequest 2) (sampleContext 4))

theorem sampleBoth_reachable :
  ((market sampleParties 180000).restrict MarketCareful).Reachable sampleBoth
  := by
  have hopened := System.Reachable.init (S := (market sampleParties 180000).restrict MarketCareful)
    sampleOpened_opened
  have hrfq : ∀ quoteId,
      resolveRfq (sampleRequest quoteId) sampleOpened.settlement.db.rfqs = .ok sampleRfq :=
    fun _ => rfl
  obtain ⟨_, hfirst⟩ : ∃ ls, ((market sampleParties 180000).restrict MarketCareful).Run sampleOpened ls
      (sampleOpened.goto 0 (.unexpired (sampleRequest 1) (sampleContext 3))) :=
    run_request (fun _ _ => trivial) rfl (hrfq 1) rfl (by decide)
  obtain ⟨_, hsecond⟩ : ∃ ls, ((market sampleParties 180000).restrict MarketCareful).Run
      (sampleOpened.goto 0 (.unexpired (sampleRequest 1) (sampleContext 3))) ls sampleBoth :=
    run_request (fun _ _ => trivial) rfl (hrfq 2) rfl (by decide)
  apply (hopened.run hfirst).run hsecond

/-- The trade of the first request, once it has been queued. -/
def sampleQueuedFirst : Market :=
  sampleBoth.accept 0 (sampleRequest 1) (sampleContext 3) ⟨1000⟩

/-- The trade of the first request has been settled. -/
def sampleFirst : Market where
  settlement := sampleQueuedFirst.settlement.settledBy 0 (newTrade (sampleRequest 1) 0)
    (sampleTraded sampleRich 1 (.account 30))
  requests := sampleQueuedFirst.requests

theorem sampleFirst_reachable :
  ((market sampleParties 180000).restrict MarketCareful).Reachable sampleFirst
  := by
  obtain ⟨m, hinsert, hqueue⟩ :
      ∃ m, MarketStep sampleParties 180000 sampleBoth
          (.insert (sampleRequest 1).rfqId (sampleRequest 1).quoteId) m
        ∧ MarketStep sampleParties 180000 m .other
          (sampleBoth.accept 0 (sampleRequest 1) (sampleContext 3) ⟨1000⟩) :=
    accept_steps rfl rfl rfl
  have hqueued := (sampleBoth_reachable.step ⟨hinsert, sampleRfq, rfl, rfl⟩).step ⟨hqueue, trivial⟩
  obtain ⟨_, hrun⟩ : ∃ ls, ((market sampleParties 180000).restrict MarketCareful).Run
      sampleQueuedFirst ls sampleFirst := by
    apply run_settle (d := settleJob (sampleRequest 1) (sampleContext 3) ⟨1000⟩ none)
    · rfl
    · rfl
    · exact fun _ => rfl
    · rfl
    · rfl
    · rfl
    · decide
    · decide
    · exact (rfl : acceptQuote sampleHost _ _ = _)
  apply hqueued.run hrun

/-- One trade of the RFQ has been settled, and no other one is. -/
theorem settled_once_sampleFirst :
  (∀ (i j : ℕ) (row row' : SecondaryTrade), sampleFirst.settlement.db.trades[i]? = some row →
      sampleFirst.settlement.db.trades[j]? = some row' → row.rfqId = row'.rfqId →
      row.status = .settled → row'.status = .settled → i = j)
    ∧ ∀ rfqId quoteId quoteId', isSettled sampleFirst.settlement.world rfqId quoteId = true →
      isSettled sampleFirst.settlement.world rfqId quoteId' = true → quoteId = quoteId'
  := settled_once sampleFirst_reachable

/-- The trade of the second request, once it has been queued. -/
def sampleQueuedSecond : Market :=
  sampleFirst.accept 1 (sampleRequest 2) (sampleContext 4) ⟨1000⟩

/-- An RFQ may be settled twice: two requests read it while it is open, and the second one
records its trade after the first trade has been settled. -/
theorem not_forall_settled_once :
  ¬ ∀ (parties : Parties) (reconcileGraceMs : ℕ) (m : Market) (i j : ℕ) (row row' : SecondaryTrade),
    (market parties reconcileGraceMs).Reachable m → m.settlement.db.trades[i]? = some row →
    m.settlement.db.trades[j]? = some row' → row.rfqId = row'.rfqId → row.status = .settled →
    row'.status = .settled → i = j
  := by
  intro hall
  have hfirst : (market sampleParties 180000).Reachable sampleFirst :=
    System.Reachable.of_restrict _ sampleFirst_reachable
  obtain ⟨m, hinsert, hqueue⟩ :
      ∃ m, MarketStep sampleParties 180000 sampleFirst
          (.insert (sampleRequest 2).rfqId (sampleRequest 2).quoteId) m
        ∧ MarketStep sampleParties 180000 m .other
          (sampleFirst.accept 1 (sampleRequest 2) (sampleContext 4) ⟨1000⟩) :=
    accept_steps rfl rfl rfl
  have hqueued := (hfirst.step hinsert).step hqueue
  obtain ⟨_, hrun⟩ : ∃ ls, ((market sampleParties 180000).restrict MarketCareful).Run
      sampleQueuedSecond ls ⟨sampleQueuedSecond.settlement.settledBy 1 (newTrade (sampleRequest 2) 0)
        (sampleTraded sampleFirst.settlement.world 2 (.account 40)),
          sampleQueuedSecond.requests⟩ := by
    apply run_settle (d := settleJob (sampleRequest 2) (sampleContext 4) ⟨1000⟩ none)
    · rfl
    · rfl
    · exact fun _ => rfl
    · rfl
    · rfl
    · rfl
    · decide
    · decide
    · exact (rfl : acceptQuote sampleHost _ _ = _)
  have hsettled := System.Run.of_restrict (market sampleParties 180000) hrun
  cases hall _ _ _ 0 1 _ _ (hqueued.run hsettled) rfl rfl rfl rfl rfl

end Marketplace
