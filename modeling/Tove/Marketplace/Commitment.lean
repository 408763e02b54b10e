import Tove.Marketplace.Authorize
import Tove.Marketplace.StatusSafety

/-!
# What a holder has committed to

A holder who authorises a quote commits fractions to its buyer. The total that the holder's
authorised quotes on a token can still settle should not be more than the holder has on chain.

An authorisation compares the balance that it has read before its transaction with the open and
valid quotes that it finds in it. It misses the lapsed quotes with a trade in flight, and the
quotes that have settled since the balance was read and are no longer open and valid.
-/

namespace Marketplace

open Soroban Ledgers Transition Tables

/-- The columns of a quote that do not change. -/
structure QuoteTerms where
  rfqId : BytesN32
  holderSub : ℕ
  fractionContractId : ℕ
  fractionCount : ℤ
  validUntil : ℕ

def Quote.terms (quote : Quote) : QuoteTerms where
  rfqId := quote.rfqId
  holderSub := quote.holderSub
  fractionContractId := quote.fractionContractId
  fractionCount := quote.fractionCount
  validUntil := quote.validUntil

/-- The terms of the quotes. -/
def termsOf (quotes : BytesN32 → Option Quote) : BytesN32 → Option QuoteTerms :=
  fun quoteId => (quotes quoteId).map Quote.terms

/-- The terms are those of a quote of the holder on the token. -/
def QuoteTerms.Of (terms : QuoteTerms) (holderSub fractionContractId : ℕ) : Prop :=
  terms.holderSub = holderSub ∧ terms.fractionContractId = fractionContractId

/-- The quote can still settle: it is authorised, it has not been settled, and it is open and valid,
or it has lapsed while a trade of it is in flight. -/
def Desk.CanSettle (d : Desk) (quoteId : BytesN32) (quote : Quote) : Prop :=
  quote.sellerAuthEntry.isSome = true ∧ d.settled quote.rfqId quoteId = false
    ∧ (quote.status = .open ∧ d.now < quote.validUntil
      ∨ quote.validUntil ≤ d.now
        ∧ ∃ row ∈ d.db.trades, row.quoteId = quoteId ∧ row.status = .pending)

/-- What the holder's authorised quotes on the token can still settle. -/
noncomputable def Desk.committed (d : Desk) (holderSub fractionContractId : ℕ) : ℤ :=
  Tables.sum d.db.quotes Quote.fractionCount fun quoteId quote =>
    quote.terms.Of holderSub fractionContractId ∧ d.CanSettle quoteId quote

/-- The quote has settled, but it had not when the markers were as given. -/
def Desk.SettledSince (d : Desk) (settled : BytesN32 → BytesN32 → Bool) (quoteId : BytesN32)
    (terms : QuoteTerms) : Prop :=
  d.settled terms.rfqId quoteId = true ∧ settled terms.rfqId quoteId = false

/-- The transaction of an authorisation misses no quote of the holder on the token: none of the
others has lapsed while a trade of it is in flight, and those that have settled since the balance
was read are still open, valid, and authorised. -/
structure Desk.MissesNone (d : Desk) (req : AuthorizeRequest) (ctx : AuthContext)
    (settled : BytesN32 → BytesN32 → Bool) : Prop where
  lapsed : ∀ quoteId quote, d.db.quotes quoteId = some quote →
    quote.terms.Of req.userId ctx.quote.fractionContractId → quoteId ≠ req.quoteId →
    d.CanSettle quoteId quote → d.now < quote.validUntil
  settled : ∀ quoteId quote, d.db.quotes quoteId = some quote →
    quote.terms.Of req.userId ctx.quote.fractionContractId → quoteId ≠ req.quoteId →
    d.SettledSince settled quoteId quote.terms →
    quote.LocksAuthorized req.userId ctx.quote.fractionContractId d.now

/-! ### The terms of the quotes -/

section Terms

variable {quotes quotes' : BytesN32 → Option Quote} {quoteId : BytesN32}

theorem termsOf_eq_some {terms : QuoteTerms} :
  termsOf quotes quoteId = some terms ↔ ∃ quote, quotes quoteId = some quote ∧ quote.terms = terms
  := Option.map_eq_some_iff

theorem termsOf_of_map (f : BytesN32 → Quote → Quote) (hmap : ∀ k, quotes' k = (quotes k).map (f k))
    (hterms : ∀ k quote, (f k quote).terms = quote.terms) :
  termsOf quotes' = termsOf quotes
  := by
  funext k
  rw [termsOf, termsOf, hmap, Option.map_map]
  congr 1
  funext quote
  apply hterms

@[simp]
theorem termsOf_reapLapsed (now holderSub fractionContractId : ℕ) :
  termsOf (reapLapsed quotes now holderSub fractionContractId) = termsOf quotes
  := by
  apply termsOf_of_map _ fun _ => rfl
  intro _ quote
  split
  · rfl
  · rfl

@[simp]
theorem termsOf_markAuthorized (entry : SellerAuthEntry) (wallet : Address) :
  termsOf (markAuthorized quotes quoteId entry wallet) = termsOf quotes
  := by
  apply termsOf_of_map _ (markAuthorized_apply quotes quoteId entry wallet)
  intro _ quote
  split
  · rfl
  · rfl

theorem termsOf_insertOpen (quote : Quote) :
  termsOf (insertOpen quotes quoteId quote)
    = Function.update (termsOf quotes) quoteId (some quote.terms)
  := by
  funext k
  rcases eq_or_ne k quoteId with rfl | hne
  · rw [termsOf, insertOpen, Function.update_self, Function.update_self]
    rfl
  · rw [termsOf, insertOpen, Function.update_of_ne hne, Function.update_of_ne hne, termsOf]

@[simp]
theorem termsOf_persistSettled (id : ℕ) (row : SecondaryTrade) (txHash : Option ℕ) (db : Database) :
  termsOf (persistSettled id row txHash db).quotes = termsOf db.quotes
  := by
  rw [persistSettled]
  split
  · rfl
  · apply termsOf_of_map _ (supersedeOpenRivals_casAccepted db.quotes row.rfqId row.quoteId)
    intro k quote
    split
    · split
      · rfl
      · rfl
    · split
      · rfl
      · rfl

@[simp]
theorem termsOf_failTrade (id : ℕ) (row : SecondaryTrade) (reason : SettleFailureReason)
    (disposition : QuoteDisposition) (db : Database) :
  termsOf (failTrade id row reason disposition db).quotes = termsOf db.quotes
  := by
  cases hcas : casFailed db.trades id reason with
  | none => simp only [failTrade, hcas]
  | some trades =>
    simp only [failTrade, hcas]
    cases disposition with
    | expire =>
      apply termsOf_of_map _ (expireWithReason_apply db.quotes row.quoteId reason)
      intro k quote
      split
      · rfl
      · rfl
    | keepOpen => rfl

end Terms

/-! ### What a step does -/

section Steps

variable {parties : Parties} {wallets : ℕ → Option Address} {columns : BytesN32 → RfqColumns}
  {d d' : Desk} {l : DeskLabel}

/-- The context of an authorisation is that of the quote, which is the holder's. -/
theorem resolveContext_eq_ok {db : Database} {now : ℕ} {req : AuthorizeRequest}
    {sellerWallet : Address} {ctx : AuthContext}
    (h : resolveContext parties wallets db now req sellerWallet = .ok ctx) :
  db.quotes req.quoteId = some ctx.quote ∧ ctx.quote.holderSub = req.userId
  := by
  rw [resolveContext] at h
  split at h
  · cases h
  · next quote hquote =>
    simp only [Checks.check_bind_eq_ok, Checks.rejectIf_eq_ok, not_or, not_not] at h
    obtain ⟨⟨hholder, _⟩, _, _, h⟩ := h
    split at h
    · cases h
    · split at h
      · cases h
      · rw [Checks.check_bind_eq_ok, Checks.pure_eq_ok] at h
        obtain ⟨_, rfl⟩ := h
        exact ⟨hquote, hholder⟩

/-- The quotes keep their terms, a quote is added, or a quote settles. -/
theorem DeskStep.rows_cases (hstep : DeskStep parties wallets columns d l d') :
  (termsOf d'.db.quotes = termsOf d.db.quotes ∧ d'.settled = d.settled
      ∧ d'.fractions = d.fractions)
    ∨ (∃ quoteId terms, termsOf d.db.quotes quoteId = none ∧ 0 < terms.fractionCount
      ∧ termsOf d'.db.quotes = Function.update (termsOf d.db.quotes) quoteId (some terms)
      ∧ d'.settled = d.settled ∧ d'.fractions = d.fractions)
    ∨ ∃ (id : ℕ) (row : SecondaryTrade) (quote : Quote), d.db.trades[id]? = some row
      ∧ d.db.quotes row.quoteId = some quote ∧ d.settled row.rfqId row.quoteId = false
      ∧ d' = d.carryOut row quote
  := by
  cases hstep with
  | @submit n validUntil req onchain quotes quoteId _ hreap _ _ _ hpositive hfresh =>
    right
    left
    have hterms : termsOf quotes = termsOf d.db.quotes := by
      rw [← hreap, termsOf_reapLapsed]
    refine ⟨quoteId, (newQuote columns req validUntil).terms, ?_, hpositive, ?_, rfl, rfl⟩
    · rw [← hterms, termsOf, hfresh]
      rfl
    · rw [← hterms]
      apply termsOf_insertOpen
  | settle hrow hquote hunsettled _ => exact .inr (.inr ⟨_, _, _, hrow, hquote, hunsettled, rfl⟩)
  | replay _ => exact .inl ⟨termsOf_reapLapsed .., rfl, rfl⟩
  | authorize _ hcommit =>
    rw [commitAuthorization, Checks.check_bind_eq_ok, Checks.check_bind_eq_ok,
      Checks.pure_eq_ok] at hcommit
    obtain ⟨_, _, rfl⟩ := hcommit
    exact .inl ⟨termsOf_markAuthorized .., rfl, rfl⟩
  | persist _ _ => exact .inl ⟨termsOf_persistSettled .., rfl, rfl⟩
  | fail _ => exact .inl ⟨termsOf_failTrade .., rfl, rfl⟩
  | _ => exact .inl ⟨rfl, rfl, rfl⟩

/-- Where a trade comes from: it is an earlier one, or a request has recorded it. -/
theorem DeskStep.trade_cases (hstep : DeskStep parties wallets columns d l d') {id : ℕ}
    {row : SecondaryTrade} (hrow : d'.db.trades[id]? = some row) :
  (∃ row₀, d.db.trades[id]? = some row₀ ∧ row.rfqId = row₀.rfqId ∧ row.quoteId = row₀.quoteId)
    ∨ ∃ n req ctx, d.requests n = .unexpired req ctx ∧ row.rfqId = req.rfqId
      ∧ row.quoteId = req.quoteId
  := by
  have hupdates : Updates d.db.trades d'.db.trades →
      ∃ row₀, d.db.trades[id]? = some row₀ ∧ row.rfqId = row₀.rfqId
        ∧ row.quoteId = row₀.quoteId := by
    intro hupdates
    obtain ⟨row₀, hrow₀, hrfq, hquote, _⟩ := hupdates.origin hrow
    exact ⟨row₀, hrow₀, hrfq, hquote⟩
  cases hstep with
  | @record n req ctx trades hunexpired hrecord =>
    obtain ⟨_, rfl⟩ := recordTrade_eq_some hrecord
    rcases getElem?_concat_eq_some.mp hrow with hrow | ⟨_, rfl⟩
    · exact .inl ⟨row, hrow, rfl, rfl⟩
    · exact .inr ⟨n, req, ctx, hunexpired, rfl, rfl⟩
  | persist _ _ => exact .inl (hupdates (persistSettled_updates ..))
  | fail _ => exact .inl (hupdates (failTrade_updates ..))
  | _ => exact .inl ⟨row, hrow, rfl, rfl⟩

/-- Where a request that has found its quote comes from. -/
theorem DeskStep.request_cases (hstep : DeskStep parties wallets columns d l d') {n : ℕ}
    {req : AcceptRequest} {ctx : AcceptContext}
    (hn : d'.requests n = .resolved req ctx ∨ d'.requests n = .unexpired req ctx) :
  (d.requests n = .resolved req ctx ∨ d.requests n = .unexpired req ctx)
    ∨ ∃ quote, d.db.quotes req.quoteId = some quote ∧ quote.rfqId = req.rfqId
  := by
  cases hstep with
  | @request m _ phase haccept =>
    rcases eq_or_ne n m with rfl | hne
    · simp only [Desk.accepting, Function.update_self] at hn
      rcases haccept.found hn with hbefore | hquote
      · exact .inl (.inl hbefore)
      · exact .inr hquote
    · simp only [Desk.accepting, Function.update_of_ne hne] at hn
      exact .inl hn
  | @record m _ _ _ _ _ =>
    rcases eq_or_ne n m with rfl | hne
    · simp [Desk.accepting] at hn
    · simp only [Desk.accepting, Function.update_of_ne hne] at hn
      exact .inl hn
  | _ => exact .inl hn

/-- What an authorisation has come to know: the quote when it is resolved, and the balance and the
markers when the balance is read. -/
theorem DeskStep.authorization_cases (hstep : DeskStep parties wallets columns d l d') (n : ℕ) :
  d'.authorizations n = d.authorizations n ∨ d'.authorizations n = .idle
    ∨ (∃ req ctx, d'.authorizations n = .resolved req ctx
      ∧ d.db.quotes req.quoteId = some ctx.quote ∧ ctx.quote.holderSub = req.userId)
    ∨ ∃ req ctx, d.authorizations n = .resolved req ctx
      ∧ d'.authorizations n = .funded req ctx
        (d.fractions ctx.quote.fractionContractId req.userId) d.settled
  := by
  have hupdate : ∀ {m phase}, d'.authorizations = Function.update d.authorizations m phase →
      d'.authorizations n = d.authorizations n ∨ (n = m ∧ d'.authorizations n = phase) := by
    intro m phase hupdate
    rcases eq_or_ne n m with rfl | hne
    · rw [hupdate, Function.update_self]
      exact .inr ⟨rfl, rfl⟩
    · rw [hupdate, Function.update_of_ne hne]
      exact .inl rfl
  cases hstep with
  | resolve _ _ hcontext =>
    rcases hupdate rfl with h | ⟨_, h⟩
    · exact .inl h
    · obtain ⟨hquote, hholder⟩ := resolveContext_eq_ok hcontext
      exact .inr (.inr (.inl ⟨_, _, h, hquote, hholder⟩))
  | readBalance hresolved =>
    rcases hupdate rfl with h | ⟨rfl, h⟩
    · exact .inl h
    · exact .inr (.inr (.inr ⟨_, _, hresolved, h⟩))
  | authorize _ _ =>
    rcases hupdate rfl with h | ⟨_, h⟩
    · exact .inl h
    · exact .inr (.inl h)
  | drop =>
    rcases hupdate rfl with h | ⟨_, h⟩
    · exact .inl h
    · exact .inr (.inl h)
  | _ => exact .inl rfl

end Steps

/-! ### What the desk keeps -/

/-- An authorisation stands for a quote of its holder. -/
def Desk.Names (d : Desk) (req : AuthorizeRequest) (ctx : AuthContext) : Prop :=
  termsOf d.db.quotes req.quoteId = some ctx.quote.terms ∧ ctx.quote.holderSub = req.userId

/-- The settlements since the balance was read account for what is missing from it. -/
structure Desk.Accounts (d : Desk) (req : AuthorizeRequest) (ctx : AuthContext) (onchain : ℤ)
    (settled : BytesN32 → BytesN32 → Bool) : Prop where
  kept : ∀ rfqId quoteId, settled rfqId quoteId = true → d.settled rfqId quoteId = true
  balance : onchain - Tables.sum (termsOf d.db.quotes) QuoteTerms.fractionCount (fun quoteId terms =>
      terms.Of req.userId ctx.quote.fractionContractId ∧ d.SettledSince settled quoteId terms)
    ≤ d.fractions ctx.quote.fractionContractId req.userId

/-- What every step of the desk keeps. -/
structure Desk.Sound (d : Desk) : Prop where
  finite : FiniteRows (termsOf d.db.quotes)
  positive : ∀ quoteId terms, termsOf d.db.quotes quoteId = some terms → 0 < terms.fractionCount
  settled : ∀ rfqId quoteId, d.settled rfqId quoteId = true →
    ∃ terms, termsOf d.db.quotes quoteId = some terms
  trades : ∀ (id : ℕ) (row : SecondaryTrade), d.db.trades[id]? = some row →
    ∃ terms, termsOf d.db.quotes row.quoteId = some terms ∧ terms.rfqId = row.rfqId
  requests : ∀ n req ctx, d.requests n = .resolved req ctx ∨ d.requests n = .unexpired req ctx →
    ∃ terms, termsOf d.db.quotes req.quoteId = some terms ∧ terms.rfqId = req.rfqId
  resolved : ∀ n req ctx, d.authorizations n = .resolved req ctx → d.Names req ctx
  funded : ∀ n req ctx onchain settled, d.authorizations n = .funded req ctx onchain settled →
    d.Names req ctx ∧ d.Accounts req ctx onchain settled

section Sound

variable {parties : Parties} {wallets : ℕ → Option Address} {columns : BytesN32 → RfqColumns}
  {d d' : Desk} {l : DeskLabel} {req : AuthorizeRequest} {ctx : AuthContext} {onchain : ℤ}
  {settled : BytesN32 → BytesN32 → Bool}

theorem Desk.Opened.sound (h : d.Opened) :
  d.Sound
  := by
  constructor
  · apply h.finite.of_keys
    intro k hnone
    rw [termsOf, hnone]
    rfl
  · intro quoteId terms hterms
    obtain ⟨quote, hquote, rfl⟩ := termsOf_eq_some.mp hterms
    apply h.positive quoteId quote hquote
  · intro rfqId quoteId hsettled
    rw [h.unsettled] at hsettled
    cases hsettled
  · intro id row hrow
    rw [h.trades] at hrow
    cases hrow
  · intro n req ctx hn
    rw [h.requests] at hn
    simp at hn
  · intro n req ctx hn
    rw [h.authorizations] at hn
    cases hn
  · intro n req ctx onchain settled hn
    rw [h.authorizations] at hn
    cases hn

/-- A quote keeps its terms. -/
theorem DeskStep.termsOf_kept (hstep : DeskStep parties wallets columns d l d') {quoteId : BytesN32}
    {terms : QuoteTerms} (hterms : termsOf d.db.quotes quoteId = some terms) :
  termsOf d'.db.quotes quoteId = some terms
  := by
  rcases hstep.rows_cases with ⟨heq, _, _⟩ | ⟨k, new, hfresh, _, heq, _, _⟩ | ⟨_, _, _,
    _, _, _, rfl⟩
  · rw [heq, hterms]
  · have hne : quoteId ≠ k := by
      rintro rfl
      rw [hfresh] at hterms
      cases hterms
    rw [heq, Function.update_of_ne hne, hterms]
  · apply hterms

/-- The markers when the trade of a quote has been carried out. -/
theorem carryOut_settled {row : SecondaryTrade} {quote : Quote} {rfqId quoteId : BytesN32} :
  (d.carryOut row quote).settled rfqId quoteId = true
    ↔ (rfqId = row.rfqId ∧ quoteId = row.quoteId) ∨ d.settled rfqId quoteId = true
  := by
  simp only [Desk.carryOut, Function.update_apply]
  grind

/-- What a trade that is carried out adds to the settlements since the balance was read. -/
theorem sum_settledSince_carryOut {row : SecondaryTrade} {quote : Quote} (hsound : d.Sound)
    (hquote : d.db.quotes row.quoteId = some quote) (hrfq : quote.rfqId = row.rfqId)
    (hunsettled : d.settled row.rfqId row.quoteId = false)
    (hbefore : settled row.rfqId row.quoteId = false) (holderSub fractionContractId : ℕ) :
  Tables.sum (termsOf d.db.quotes) QuoteTerms.fractionCount
      (fun quoteId terms => terms.Of holderSub fractionContractId
        ∧ (d.carryOut row quote).SettledSince settled quoteId terms)
    = Tables.sum (termsOf d.db.quotes) QuoteTerms.fractionCount
        (fun quoteId terms => terms.Of holderSub fractionContractId
          ∧ d.SettledSince settled quoteId terms)
      + Tables.sum (termsOf d.db.quotes) QuoteTerms.fractionCount
        (fun quoteId terms => quoteId = row.quoteId ∧ terms.Of holderSub fractionContractId)
  := by
  have hterms : ∀ {terms}, termsOf d.db.quotes row.quoteId = some terms →
      terms.rfqId = row.rfqId := by
    intro terms hterms
    obtain ⟨quote₁, hquote₁, rfl⟩ := termsOf_eq_some.mp hterms
    obtain rfl := Option.some.inj (hquote.symm.trans hquote₁)
    apply hrfq
  rw [← sum_or hsound.finite]
  · apply sum_congr
    intro quoteId terms hquoteId
    rw [Desk.SettledSince, Desk.SettledSince, carryOut_settled]
    constructor
    · rintro ⟨hof, ⟨_, rfl⟩ | hsettled, hnot⟩
      · exact .inr ⟨rfl, hof⟩
      · exact .inl ⟨hof, hsettled, hnot⟩
    · rintro (⟨hof, hsettled, hnot⟩ | ⟨rfl, hof⟩)
      · exact ⟨hof, .inr hsettled, hnot⟩
      · rw [hterms hquoteId]
        exact ⟨hof, .inl ⟨rfl, rfl⟩, hbefore⟩
  · rintro quoteId terms hquoteId ⟨_, hsettled, _⟩ ⟨rfl, _⟩
    rw [hterms hquoteId, hunsettled] at hsettled
    cases hsettled

/-- What a trade that is carried out takes from a holder at most. -/
theorem le_carryOut_fractions {row : SecondaryTrade} {quote : Quote} (hsound : d.Sound)
    (hquote : d.db.quotes row.quoteId = some quote) (holderSub fractionContractId : ℕ) :
  d.fractions fractionContractId holderSub
      - Tables.sum (termsOf d.db.quotes) QuoteTerms.fractionCount
        (fun quoteId terms => quoteId = row.quoteId ∧ terms.Of holderSub fractionContractId)
    ≤ (d.carryOut row quote).fractions fractionContractId holderSub
  := by
  have hterms : termsOf d.db.quotes row.quoteId = some quote.terms := by
    rw [termsOf, hquote]
    rfl
  have hpositive : 0 < quote.fractionCount := hsound.positive _ _ hterms
  have hfractions : (d.carryOut row quote).fractions = Function.update d.fractions
      quote.fractionContractId ((d.fractions quote.fractionContractId).move quote.holderSub
        row.buyerSub quote.fractionCount) := rfl
  by_cases hof : quote.terms.Of holderSub fractionContractId
  · have hsum := sum_single QuoteTerms.fractionCount hterms
      (p := fun quoteId terms => quoteId = row.quoteId ∧ terms.Of holderSub fractionContractId)
      (fun _ _ h => h.1) ⟨rfl, hof⟩
    obtain ⟨rfl, rfl⟩ := hof
    rw [hsum, hfractions]
    change d.fractions quote.fractionContractId quote.holderSub - quote.fractionCount
      ≤ Function.update d.fractions quote.fractionContractId _ quote.fractionContractId _
    rw [Function.update_self]
    apply Ledger.le_move_source _ _ _ hpositive.le
  · rw [sum_eq_zero, sub_zero, hfractions]
    · by_cases hcontract : fractionContractId = quote.fractionContractId
      · rw [hcontract, Function.update_self]
        apply Ledger.le_move_of_ne _ _ _ _ hpositive.le
        intro hholder
        exact hof ⟨hholder.symm, hcontract.symm⟩
      · rw [Function.update_of_ne hcontract]
    · rintro _ terms hquoteId ⟨rfl, hof'⟩
      obtain rfl := Option.some.inj (hterms.symm.trans hquoteId)
      exact hof hof'

/-- A trade that is carried out is accounted for. -/
theorem Desk.Accounts.carryOut (h : d.Accounts req ctx onchain settled) (hsound : d.Sound)
    {row : SecondaryTrade} {quote : Quote} (hquote : d.db.quotes row.quoteId = some quote)
    (hrfq : quote.rfqId = row.rfqId) (hunsettled : d.settled row.rfqId row.quoteId = false) :
  (d.carryOut row quote).Accounts req ctx onchain settled
  := by
  have hbefore : settled row.rfqId row.quoteId = false := by
    rw [← Bool.not_eq_true]
    intro hsettled
    rw [h.kept _ _ hsettled] at hunsettled
    cases hunsettled
  constructor
  · intro rfqId quoteId hsettled
    exact carryOut_settled.mpr (.inr (h.kept rfqId quoteId hsettled))
  · have hsum := sum_settledSince_carryOut hsound hquote hrfq hunsettled hbefore req.userId
      ctx.quote.fractionContractId
    have hfractions := le_carryOut_fractions hsound hquote req.userId ctx.quote.fractionContractId
    have hbalance := h.balance
    change onchain - Tables.sum (termsOf d.db.quotes) _ _ ≤ _
    rw [hsum]
    omega

/-- What has been accounted for stays so. -/
theorem Desk.Accounts.step (h : d.Accounts req ctx onchain settled) (hsound : d.Sound)
    (hstep : DeskStep parties wallets columns d l d') :
  d'.Accounts req ctx onchain settled
  := by
  rcases hstep.rows_cases with ⟨hterms, hsettled, hfractions⟩
    | ⟨quoteId, new, hfresh, _, hterms, hsettled, hfractions⟩
    | ⟨id, row, quote, hrow, hquote, hunsettled, rfl⟩
  · constructor
    · rw [hsettled]
      apply h.kept
    · simpa only [hterms, Desk.SettledSince, hsettled, hfractions] using h.balance
  · have hnot : ∀ rfqId, d.settled rfqId quoteId = false := by
      intro rfqId
      rw [← Bool.not_eq_true]
      intro hquoteId
      obtain ⟨terms, hold⟩ := hsound.settled rfqId quoteId hquoteId
      rw [hfresh] at hold
      cases hold
    constructor
    · rw [hsettled]
      apply h.kept
    · rw [hterms, hfractions, sum_update hfresh]
      · simpa only [Desk.SettledSince, hsettled] using h.balance
      · rintro ⟨_, hsince, _⟩
        rw [hsettled, hnot] at hsince
        cases hsince
  · obtain ⟨terms, hterms, hrfq⟩ := hsound.trades id row hrow
    obtain ⟨quote₁, hquote₁, rfl⟩ := termsOf_eq_some.mp hterms
    obtain rfl := Option.some.inj (hquote.symm.trans hquote₁)
    apply h.carryOut hsound hquote hrfq hunsettled

theorem Desk.Names.step (h : d.Names req ctx) (hstep : DeskStep parties wallets columns d l d') :
  d'.Names req ctx
  := ⟨hstep.termsOf_kept h.1, h.2⟩

theorem Desk.Sound.step (h : d.Sound) (hstep : DeskStep parties wallets columns d l d') :
  d'.Sound
  := by
  have hkept : ∀ {quoteId rfqId}, (∃ terms, termsOf d.db.quotes quoteId = some terms
      ∧ terms.rfqId = rfqId) → ∃ terms, termsOf d'.db.quotes quoteId = some terms
      ∧ terms.rfqId = rfqId := by
    rintro quoteId rfqId ⟨terms, hterms, hrfq⟩
    exact ⟨terms, hstep.termsOf_kept hterms, hrfq⟩
  constructor
  · rcases hstep.rows_cases with ⟨hterms, _, _⟩ | ⟨quoteId, new, _, _, hterms, _, _⟩
      | ⟨_, _, _, _, _, _, rfl⟩
    · rw [hterms]
      apply h.finite
    · rw [hterms]
      apply h.finite.update
    · apply h.finite
  · intro quoteId terms hquoteId
    rcases hstep.rows_cases with ⟨hterms, _, _⟩ | ⟨k, new, _, hpositive, hterms, _, _⟩
      | ⟨_, _, _, _, _, _, rfl⟩
    · rw [hterms] at hquoteId
      apply h.positive quoteId terms hquoteId
    · rw [hterms] at hquoteId
      rcases eq_or_ne quoteId k with rfl | hne
      · rw [Function.update_self] at hquoteId
        rw [← Option.some.inj hquoteId]
        apply hpositive
      · rw [Function.update_of_ne hne] at hquoteId
        apply h.positive quoteId terms hquoteId
    · apply h.positive quoteId terms hquoteId
  · intro rfqId quoteId hsettled
    suffices hbefore : ∃ terms, termsOf d.db.quotes quoteId = some terms by
      obtain ⟨terms, hterms⟩ := hbefore
      exact ⟨terms, hstep.termsOf_kept hterms⟩
    rcases hstep.rows_cases with ⟨_, heq, _⟩ | ⟨_, _, _, _, _, heq, _⟩
      | ⟨_, row, quote, _, hquote, _, rfl⟩
    · rw [heq] at hsettled
      apply h.settled rfqId quoteId hsettled
    · rw [heq] at hsettled
      apply h.settled rfqId quoteId hsettled
    · rcases carryOut_settled.mp hsettled with ⟨_, rfl⟩ | hsettled
      · exact ⟨quote.terms, termsOf_eq_some.mpr ⟨quote, hquote, rfl⟩⟩
      · apply h.settled rfqId quoteId hsettled
  · intro id row hrow
    apply hkept
    rcases hstep.trade_cases hrow with ⟨row₀, hrow₀, hrfq, hquote⟩ | ⟨n, req, ctx, hn, hrfq, hquote⟩
    · rw [hrfq, hquote]
      apply h.trades id row₀ hrow₀
    · rw [hrfq, hquote]
      apply h.requests n req ctx (.inr hn)
  · intro n req ctx hn
    apply hkept
    rcases hstep.request_cases hn with hn | ⟨quote, hquote, hrfq⟩
    · apply h.requests n req ctx hn
    · exact ⟨quote.terms, termsOf_eq_some.mpr ⟨quote, hquote, rfl⟩, hrfq⟩
  · intro n req ctx hn
    rcases hstep.authorization_cases n with heq | hidle | ⟨req', ctx', heq, hquote, hholder⟩
      | ⟨_, _, _, heq⟩
    · rw [heq] at hn
      apply (h.resolved n req ctx hn).step hstep
    · rw [hidle] at hn
      cases hn
    · rw [heq] at hn
      cases hn
      have hnames : d.Names req ctx := ⟨termsOf_eq_some.mpr ⟨ctx.quote, hquote, rfl⟩, hholder⟩
      apply hnames.step hstep
    · rw [heq] at hn
      cases hn
  · intro n req ctx onchain settled hn
    rcases hstep.authorization_cases n with heq | hidle | ⟨_, _, heq, _, _⟩ | ⟨req', ctx', hn', heq⟩
    · rw [heq] at hn
      obtain ⟨hnames, haccounts⟩ := h.funded n req ctx onchain settled hn
      exact ⟨hnames.step hstep, haccounts.step h hstep⟩
    · rw [hidle] at hn
      cases hn
    · rw [heq] at hn
      cases hn
    · rw [heq] at hn
      cases hn
      have haccounts : d.Accounts req ctx
          (d.fractions ctx.quote.fractionContractId req.userId) d.settled := by
        constructor
        · exact fun _ _ => id
        · rw [sum_eq_zero, sub_zero]
          rintro _ _ _ ⟨_, hsettled, hnot⟩
          rw [hsettled] at hnot
          cases hnot
      exact ⟨(h.resolved n req ctx hn').step hstep, haccounts.step h hstep⟩

theorem sound_of_reachable (h : (desk parties wallets columns).Reachable d) :
  d.Sound
  := by
  apply h.invariant
  · exact fun _ => Desk.Opened.sound
  · exact fun _ _ _ => Desk.Sound.step

theorem Desk.Sound.finiteRows (h : d.Sound) :
  FiniteRows d.db.quotes
  := by
  apply h.finite.of_keys
  intro k hnone
  rwa [termsOf, Option.map_eq_none_iff] at hnone

theorem Desk.Sound.nonneg (h : d.Sound) (quoteId : BytesN32) (quote : Quote)
    (hquote : d.db.quotes quoteId = some quote) :
  0 ≤ quote.fractionCount
  := (h.positive quoteId quote.terms (termsOf_eq_some.mpr ⟨quote, hquote, rfl⟩)).le

/-- The desk after the transaction of an authorisation. -/
def Desk.authorized (d : Desk) (n : ℕ) (req : AuthorizeRequest) (ctx : AuthContext) : Desk :=
  (d.withQuotes (markAuthorized d.db.quotes req.quoteId req.entry ctx.sellerWallet)).authorizing n .idle

/-- A quote that can settle after the transaction of an authorisation that misses none is the quote
that is authorised, or one that the transaction has counted. -/
theorem Desk.MissesNone.counted (h : d.MissesNone req ctx settled) {n : ℕ} {quoteId : BytesN32}
    {quote quote' : Quote} (hquote : d.db.quotes quoteId = some quote)
    (hquote' : markAuthorized d.db.quotes req.quoteId req.entry ctx.sellerWallet quoteId = some quote')
    (hof : quote'.terms.Of req.userId ctx.quote.fractionContractId)
    (hsettle : (d.authorized n req ctx).CanSettle quoteId quote') :
  quoteId = req.quoteId
    ∨ quote.LocksAuthorized req.userId ctx.quote.fractionContractId d.now ∧ quoteId ≠ req.quoteId
  := by
  rcases eq_or_ne quoteId req.quoteId with heq | hne
  · exact .inl heq
  · rw [markAuthorized, Function.update_of_ne hne, hquote] at hquote'
    obtain rfl := Option.some.inj hquote'
    obtain ⟨hauthorized, _, hlive⟩ := id hsettle
    have hvalid := h.lapsed quoteId quote hquote hof hne hsettle
    rcases hlive with ⟨hopen, _⟩ | ⟨hlapsed, _⟩
    · exact .inr ⟨⟨⟨hof.1, hof.2, hopen, hvalid⟩, hauthorized⟩, hne⟩
    · exact absurd hvalid (not_lt.mpr hlapsed)

/-- What can still settle after the transaction of an authorisation that misses none, and what has
settled since the balance was read, have all been counted. -/
theorem Desk.MissesNone.committed_add_le (h : d.MissesNone req ctx settled) (hsound : d.Sound)
    {n : ℕ}
    {quote : Quote} (hquote : d.db.quotes req.quoteId = some quote) :
  (d.authorized n req ctx).committed req.userId ctx.quote.fractionContractId
      + Tables.sum (termsOf d.db.quotes) QuoteTerms.fractionCount (fun quoteId terms =>
        terms.Of req.userId ctx.quote.fractionContractId ∧ d.SettledSince settled quoteId terms)
    ≤ quote.fractionCount + sumAuthorizedLockedCount d.db.quotes req.userId
        ctx.quote.fractionContractId d.now req.quoteId
  := by
  let Counted (quoteId : BytesN32) : Prop := ∃ quote, d.db.quotes quoteId = some quote
    ∧ quote.LocksAuthorized req.userId ctx.quote.fractionContractId d.now ∧ quoteId ≠ req.quoteId
  have hnonneg : ∀ quoteId terms, termsOf d.db.quotes quoteId = some terms →
      0 ≤ terms.fractionCount :=
    fun quoteId terms hterms => (hsound.positive quoteId terms hterms).le
  have hcommitted : (d.authorized n req ctx).committed req.userId ctx.quote.fractionContractId
      ≤ Tables.sum (termsOf d.db.quotes) QuoteTerms.fractionCount (fun quoteId terms =>
        d.settled terms.rfqId quoteId = false ∧ (quoteId = req.quoteId ∨ Counted quoteId)) := by
    have hsame : termsOf (d.authorized n req ctx).db.quotes = termsOf d.db.quotes :=
      termsOf_markAuthorized ..
    apply sum_le_sum _ hsound.finite hnonneg
    · rintro quoteId quote' hquote' ⟨hof, hsettle⟩
      have hterms : termsOf d.db.quotes quoteId = some quote'.terms := by
        rw [← hsame]
        exact termsOf_eq_some.mpr ⟨quote', hquote', rfl⟩
      obtain ⟨quote₁, hquote₁, _⟩ := termsOf_eq_some.mp hterms
      refine ⟨quote'.terms, hterms, le_rfl, hsettle.2.1, ?_⟩
      rcases h.counted hquote₁ hquote' hof hsettle with heq | hlocks
      · exact .inl heq
      · exact .inr ⟨quote₁, hquote₁, hlocks⟩
    · apply hsound.finite.of_keys
      intro quoteId hnone
      rw [← hsame, termsOf, Option.map_eq_none_iff] at hnone
      apply hnone
  have hall : Tables.sum (termsOf d.db.quotes) QuoteTerms.fractionCount (fun quoteId terms =>
        d.settled terms.rfqId quoteId = false ∧ (quoteId = req.quoteId ∨ Counted quoteId))
      + Tables.sum (termsOf d.db.quotes) QuoteTerms.fractionCount (fun quoteId terms =>
        terms.Of req.userId ctx.quote.fractionContractId ∧ d.SettledSince settled quoteId terms)
      ≤ Tables.sum (termsOf d.db.quotes) QuoteTerms.fractionCount (fun quoteId _ =>
        quoteId = req.quoteId ∨ Counted quoteId) := by
    rw [← sum_or hsound.finite]
    · apply sum_le_sum hsound.finite hsound.finite hnonneg
      rintro quoteId terms hterms (⟨_, hcounted⟩ | ⟨hof, hsince⟩)
      · exact ⟨terms, hterms, le_rfl, hcounted⟩
      · refine ⟨terms, hterms, le_rfl, ?_⟩
        obtain ⟨quote₁, hquote₁, rfl⟩ := termsOf_eq_some.mp hterms
        rcases eq_or_ne quoteId req.quoteId with heq | hne
        · exact .inl heq
        · exact .inr ⟨quote₁, hquote₁, h.settled quoteId quote₁ hquote₁ hof hne hsince, hne⟩
    · rintro quoteId terms _ ⟨hunsettled, _⟩ ⟨_, hsettled, _⟩
      rw [hsettled] at hunsettled
      cases hunsettled
  have hlocked : Tables.sum (termsOf d.db.quotes) QuoteTerms.fractionCount (fun quoteId _ =>
        Counted quoteId)
      ≤ sumAuthorizedLockedCount d.db.quotes req.userId ctx.quote.fractionContractId d.now
        req.quoteId := by
    apply sum_le_sum hsound.finite hsound.finiteRows hsound.nonneg
    rintro quoteId terms hterms ⟨quote₁, hquote₁, hlocks⟩
    obtain ⟨quote₂, hquote₂, rfl⟩ := termsOf_eq_some.mp hterms
    obtain rfl := Option.some.inj (hquote₁.symm.trans hquote₂)
    exact ⟨quote₁, hquote₁, le_rfl, hlocks⟩
  have hsingle : Tables.sum (termsOf d.db.quotes) QuoteTerms.fractionCount (fun quoteId _ =>
      quoteId = req.quoteId) = quote.fractionCount :=
    sum_single _ (termsOf_eq_some.mpr ⟨quote, hquote, rfl⟩) (fun _ _ => id) rfl
  rw [sum_or hsound.finite, hsingle] at hall
  · omega
  · rintro _ _ _ rfl ⟨_, _, _, hne⟩
    exact hne rfl

/-- After the transaction of an authorisation that misses no quote of the holder on the token, what
the holder's authorised quotes can still settle is at most what the holder has. -/
theorem committed_le_fractions {n : ℕ} (hreachable : (desk parties wallets columns).Reachable d)
    (hn : d.authorizations n = .funded req ctx onchain settled)
    (hstep : DeskStep parties wallets columns d (.authorize n) d')
    (hmisses : d.MissesNone req ctx settled) :
  d'.committed req.userId ctx.quote.fractionContractId
    ≤ d'.fractions ctx.quote.fractionContractId req.userId
  := by
  have hsound := sound_of_reachable hreachable
  obtain ⟨⟨hterms, _⟩, haccounts⟩ := hsound.funded n req ctx onchain settled hn
  obtain ⟨quote, hquote, hquote_terms⟩ := termsOf_eq_some.mp hterms
  have hcount : quote.fractionCount = ctx.quote.fractionCount :=
    congrArg QuoteTerms.fractionCount hquote_terms
  have hbalance := haccounts.balance
  cases hstep with
  | authorize hn' hcommit =>
    cases hn.symm.trans hn'
    rw [commitAuthorization, Checks.check_bind_eq_ok, Checks.check_bind_eq_ok, Checks.pure_eq_ok,
      Checks.rejectIf_eq_ok, not_lt] at hcommit
    obtain ⟨hfree, _, rfl⟩ := hcommit
    have hcommitted := hmisses.committed_add_le hsound (n := n) hquote
    change (d.authorized n req ctx).committed _ _ ≤ d.fractions _ _
    omega

end Sound

/-! ### What nothing disturbs -/

/-- An authorisation that nothing disturbs comes to its transaction. -/
theorem run_authorization {parties : Parties} {wallets : ℕ → Option Address}
    {columns : BytesN32 → RfqColumns} {d : Desk} {n : ℕ} {req : AuthorizeRequest}
    {sellerWallet : Address} {ctx : AuthContext} (hidle : d.authorizations n = .idle)
    (hwallet : resolveSellerWallet wallets req.userId = .ok sellerWallet)
    (hcontext : resolveContext parties wallets d.db d.now req sellerWallet = .ok ctx) :
  ∃ ls, (desk parties wallets columns).Run d ls (d.authorizing n (.funded req ctx
    (d.fractions ctx.quote.fractionContractId req.userId) d.settled))
  := by
  have hresolve : DeskStep parties wallets columns d .other (d.authorizing n (.resolved req ctx)) :=
    .resolve hidle hwallet hcontext
  have hread : DeskStep parties wallets columns (d.authorizing n (.resolved req ctx)) .other
      ((d.authorizing n (.resolved req ctx)).authorizing n (.funded req ctx
        (d.fractions ctx.quote.fractionContractId req.userId) d.settled)) :=
    .readBalance (Function.update_self ..)
  have hrun := (System.Run.single (S := desk parties wallets columns) hresolve).snoc hread
  rw [Desk.authorizing, Desk.authorizing, Function.update_idem] at hrun
  exact ⟨_, hrun⟩

/-- A request that nothing disturbs records the trade of a quote. -/
theorem run_acceptance {parties : Parties} {wallets : ℕ → Option Address}
    {columns : BytesN32 → RfqColumns} {d : Desk} {n ledger : ℕ} {req : AcceptRequest} {rfq : Rfq}
    {ctx : AcceptContext} {trades : List SecondaryTrade} (hidle : d.requests n = .idle)
    (hrfq : resolveRfq req d.db.rfqs = .ok rfq)
    (hquote : resolveQuote parties req rfq d.db.quotes d.now = .ok ctx)
    (hfresh : ¬ Lapsed ledger req.signatureExpirationLedger)
    (hrecord : recordTrade d.db.trades req d.now = some trades) :
  ∃ ls, (desk parties wallets columns).Run d ls
    (Desk.accepting { d with db := { d.db with trades } } n .idle)
  := by
  have hself : ∀ d' : Desk, ∀ phase, (d'.accepting n phase).requests n = phase :=
    fun _ _ => Function.update_self ..
  have hread : DeskStep parties wallets columns d .other (d.accepting n (.rfqRead req rfq)) :=
    @DeskStep.request _ _ _ _ _ ledger _ (hidle ▸ .readRfq hrfq)
  have hresolve : DeskStep parties wallets columns (d.accepting n (.rfqRead req rfq)) .other
      ((d.accepting n (.rfqRead req rfq)).accepting n (.resolved req ctx)) :=
    @DeskStep.request _ _ _ _ _ ledger _ (hself d _ ▸ .readQuote hquote)
  have hcheck : DeskStep parties wallets columns
      ((d.accepting n (.rfqRead req rfq)).accepting n (.resolved req ctx)) .other
      (((d.accepting n (.rfqRead req rfq)).accepting n (.resolved req ctx)).accepting n
        (.unexpired req ctx)) :=
    @DeskStep.request _ _ _ _ _ ledger _
      (hself (d.accepting n _) _ ▸ .notExpired (le_refl ledger) hfresh)
  have hinsert : DeskStep parties wallets columns
      (((d.accepting n (.rfqRead req rfq)).accepting n (.resolved req ctx)).accepting n
        (.unexpired req ctx)) .other _ :=
    .record (Function.update_self ..) hrecord
  have hrun := (((System.Run.single (S := desk parties wallets columns) hread).snoc hresolve).snoc
    hcheck).snoc hinsert
  simp only [Desk.accepting, Function.update_idem] at hrun
  exact ⟨_, hrun⟩

/-- A submission that nothing disturbs records its quote. -/
theorem run_submission {parties : Parties} {wallets : ℕ → Option Address}
    {columns : BytesN32 → RfqColumns} {d : Desk} {n validUntil : ℕ} {req : QuoteRequest}
    {quotes : BytesN32 → Option Quote} {quoteId : BytesN32} (hidle : d.submissions n = .idle)
    (hcheck : checkQuote parties columns d.db.rfqs d.now req = .ok validUntil)
    (hdeployed : parties.deployed (columns req.rfqId).fractionContractId = true)
    (hreap : reapLapsed d.db.quotes d.now req.userId (columns req.rfqId).fractionContractId = quotes)
    (hnone : ∀ quoteId quote, d.db.quotes quoteId = some quote → quote.rfqId ≠ req.rfqId)
    (hfree : req.fractionCount ≤ d.fractions (columns req.rfqId).fractionContractId req.userId
      - sumOpenLockedCount quotes req.userId (columns req.rfqId).fractionContractId d.now)
    (hvalid : d.now < validUntil) (hpositive : 0 < req.fractionCount)
    (hfresh : quotes quoteId = none) :
  ∃ ls, (desk parties wallets columns).Run d ls
    ((d.withQuotes (insertOpen quotes quoteId (newQuote columns req validUntil))).submitting n .idle)
  := by
  have hself : ∀ d' : Desk, ∀ phase, (d'.submitting n phase).submissions n = phase :=
    fun _ _ => Function.update_self ..
  have hunquoted : ¬ HasOpenQuoteForRfq d.db.quotes req.rfqId req.userId (some d.now) := by
    rintro ⟨quoteId, quote, hquote, hrfq, _⟩
    apply hnone quoteId quote hquote hrfq
  have hcheck : DeskStep parties wallets columns d .other (d.submitting n (.checked req validUntil)) :=
    .submission (hidle ▸ .check hcheck)
  have hfind : DeskStep parties wallets columns (d.submitting n (.checked req validUntil)) .other
      ((d.submitting n (.checked req validUntil)).submitting n (.unquoted req validUntil)) :=
    .submission (hself d _ ▸ .hasOpenQuote hunquoted)
  let funded : Desk := ((d.submitting n (.checked req validUntil)).submitting n
    (.unquoted req validUntil)).submitting n (.funded req validUntil
      (d.fractions (columns req.rfqId).fractionContractId req.userId))
  have hfund : DeskStep parties wallets columns
      ((d.submitting n (.checked req validUntil)).submitting n (.unquoted req validUntil)) .other
      funded :=
    .submission (hself (d.submitting n _) _ ▸ .readBalance hdeployed rfl)
  have hsubmit : DeskStep parties wallets columns funded .other
      ((funded.withQuotes (insertOpen quotes quoteId (newQuote columns req validUntil))).submitting
        n .idle) := by
    apply @DeskStep.submit parties wallets columns funded n validUntil req _ quotes quoteId
      (Function.update_self ..) hreap _ hfree hvalid hpositive hfresh
    rintro ⟨quoteId, quote, hquote, hrfq, _⟩
    rw [← hreap, reapLapsed, Option.map_eq_some_iff] at hquote
    obtain ⟨quote₀, hquote₀, rfl⟩ := hquote
    apply hnone quoteId quote₀ hquote₀
    rw [← hrfq]
    split
    · rfl
    · rfl
  have hrun := (((System.Run.single (S := desk parties wallets columns) hcheck).snoc hfind).snoc
    hfund).snoc hsubmit
  simp only [funded, Desk.submitting, Desk.withQuotes, Function.update_idem] at hrun
  exact ⟨_, hrun⟩

/-- The transaction of an authorisation goes through when the count is free. -/
theorem commitAuthorization_eq_ok {quotes : BytesN32 → Option Quote} {now : ℕ}
    {req : AuthorizeRequest} {ctx : AuthContext} {onchain : ℤ} {quote : Quote}
    (hfree : ctx.quote.fractionCount ≤ onchain - sumAuthorizedLockedCount quotes req.userId
      ctx.quote.fractionContractId now req.quoteId)
    (hquote : quotes req.quoteId = some quote) (hopen : quote.status = .open) :
  commitAuthorization quotes now req ctx onchain
    = .ok (markAuthorized quotes req.quoteId req.entry ctx.sellerWallet)
  := by
  rw [commitAuthorization, Checks.check_bind_eq_ok, Checks.check_bind_eq_ok, Checks.pure_eq_ok,
    Checks.rejectIf_eq_ok, Checks.rejectIf_eq_ok, hquote]
  exact ⟨not_lt.mpr hfree, by simp [hopen], rfl⟩

def sampleWallets (userId : ℕ) : Option Address :=
  some (.account (BitVec.ofNat 256 (10 * userId)))

/-- A quote of the holder on the given RFQ. -/
def sampleCommitment (rfqId : BytesN32) (fractionCount : ℤ) (validUntil : ℕ) : Quote where
  rfqId
  holderSub := 5
  fractionContractId := 1
  fractionCount
  pricePerFractionStroops := 25
  validUntil
  status := .open
  statusReason := none
  sellerAuthEntry := none
  sellerWalletContract := none

/-- Two RFQs, and a holder of four fractions who has quoted as given. -/
def sampleDesk (quotes : BytesN32 → Option Quote) : Desk where
  now := 0
  db := {
    rfqs := fun r => if r = 1 ∨ r = 2 then some sampleRfq else none
    quotes
    trades := [] }
  settled _ _ := false
  fractions _ := fun u => if u = 5 then 4 else 0
  requests _ := .idle
  submissions _ := .idle
  authorizations _ := .idle

/-- The holder authorises the quote with the given id on the RFQ of the same id. -/
def sampleAuthorize (quoteId : BytesN32) : AuthorizeRequest where
  userId := 5
  rfqId := quoteId
  quoteId
  entry := ⟨1000⟩

def sampleAuthContext (quote : Quote) : AuthContext where
  quote
  sellerWallet := .account 50
  buyerWallet := .account 10

/-- A desk whose quotes have not been authorised. -/
theorem sampleDesk_opened {quotes : BytesN32 → Option Quote} (hfinite : FiniteRows quotes)
    (hquotes : ∀ quoteId quote, quotes quoteId = some quote →
      0 < quote.fractionCount ∧ quote.sellerAuthEntry = none) :
  (sampleDesk quotes).Opened
  := by
  refine ⟨hfinite, ?_, ?_, rfl, fun _ _ => rfl, fun _ => rfl, fun _ => rfl, fun _ => rfl⟩
  · exact fun quoteId quote hquote => (hquotes quoteId quote hquote).1
  · exact fun quoteId quote hquote => (hquotes quoteId quote hquote).2

theorem finiteRows_none :
  FiniteRows fun _ : BytesN32 => (none : Option Quote)
  := Set.finite_empty.subset fun _ hk => hk rfl

/-- The transaction of an authorisation of the holder goes through when the count is free. -/
theorem authorize_sample {d : Desk} {quoteId : BytesN32} {quote : Quote} {onchain : ℤ}
    {settled : BytesN32 → BytesN32 → Bool}
    (hn : d.authorizations 0
      = .funded (sampleAuthorize quoteId) (sampleAuthContext quote) onchain settled)
    (hfree : quote.fractionCount ≤ onchain
      - sumAuthorizedLockedCount d.db.quotes 5 quote.fractionContractId d.now quoteId)
    (hquote : d.db.quotes quoteId = some quote) (hopen : quote.status = .open) :
  DeskStep sampleParties sampleWallets sampleColumns d (.authorize 0)
    (d.authorized 0 (sampleAuthorize quoteId) (sampleAuthContext quote))
  := by
  apply DeskStep.authorize hn
  apply commitAuthorization_eq_ok hfree hquote hopen

/-! ### Two quotes for what the holder has -/

/-- Two quotes of two fractions each. -/
def samplePair : BytesN32 → Option Quote :=
  Function.update (Function.update (fun _ => none) 2 (some (sampleCommitment 2 2 1000))) 1
    (some (sampleCommitment 1 2 1000))

theorem samplePair_eq_some {quoteId : BytesN32} {quote : Quote}
    (h : samplePair quoteId = some quote) :
  quoteId = 1 ∧ quote = sampleCommitment 1 2 1000 ∨ quoteId = 2 ∧ quote = sampleCommitment 2 2 1000
  := by
  rw [samplePair, Function.update_apply] at h
  split at h
  · next heq => exact .inl ⟨heq, (Option.some.inj h).symm⟩
  · rw [Function.update_apply, Option.ite_none_right_eq_some] at h
    exact .inr ⟨h.1, (Option.some.inj h.2).symm⟩

/-- The balance has been read for the first quote. -/
def sampleAuthorizing : Desk :=
  (sampleDesk samplePair).authorizing 0 (.funded (sampleAuthorize 1)
    (sampleAuthContext (sampleCommitment 1 2 1000)) 4 fun _ _ => false)

/-- The first quote has been authorised, and accepted. -/
def sampleAccepted : Desk :=
  let d := sampleAuthorizing.authorized 0 (sampleAuthorize 1)
    (sampleAuthContext (sampleCommitment 1 2 1000))
  Desk.accepting { d with db := { d.db with trades := [newTrade (sampleRequest 1) 0] } } 0 .idle

theorem sampleAccepted_reachable :
  (desk sampleParties sampleWallets sampleColumns).Reachable sampleAccepted
  := by
  have hopened : (sampleDesk samplePair).Opened := by
    apply sampleDesk_opened
    · exact (finiteRows_none.update 2 _).update 1 _
    · intro quoteId quote hquote
      rcases samplePair_eq_some hquote with ⟨_, rfl⟩ | ⟨_, rfl⟩
      · decide
      · decide
  obtain ⟨_, hread⟩ : ∃ ls, (desk sampleParties sampleWallets sampleColumns).Run
      (sampleDesk samplePair) ls sampleAuthorizing :=
    run_authorization rfl rfl rfl
  have hlocked : sumAuthorizedLockedCount samplePair 5 1 0 1 = 0 := by
    apply sum_eq_zero
    rintro quoteId quote hquote ⟨⟨_, hauthorized⟩, _⟩
    rcases samplePair_eq_some hquote with ⟨_, rfl⟩ | ⟨_, rfl⟩
    · cases hauthorized
    · cases hauthorized
  have hfree : (2 : ℤ) ≤ 4 - sumAuthorizedLockedCount samplePair 5 1 0 1 := by
    rw [hlocked]
    decide
  have hauthorize := @authorize_sample sampleAuthorizing 1 (sampleCommitment 1 2 1000) 4 _ rfl hfree
    rfl rfl
  obtain ⟨_, haccept⟩ : ∃ ls, (desk sampleParties sampleWallets sampleColumns).Run
      (sampleAuthorizing.authorized 0 (sampleAuthorize 1)
        (sampleAuthContext (sampleCommitment 1 2 1000))) ls sampleAccepted :=
    @run_acceptance _ _ _ _ 0 0 (sampleRequest 1) sampleRfq _ _ rfl rfl rfl (by decide) rfl
  have hopen := System.Reachable.init (S := desk sampleParties sampleWallets sampleColumns) hopened
  exact ((hopen.run hread).step hauthorize).run haccept

/-- The first quote, once it has been authorised. -/
def sampleSignedQuote : Quote :=
  { sampleCommitment 1 2 1000 with
    sellerAuthEntry := some ⟨1000⟩
    sellerWalletContract := some (.account 50) }

/-- The balance has been read for the second quote, and then the first one is traded on chain. -/
def sampleCarriedOut : Desk :=
  (sampleAccepted.authorizing 0 (.funded (sampleAuthorize 2)
    (sampleAuthContext (sampleCommitment 2 2 1000)) 4 fun _ _ => false)).carryOut
      (newTrade (sampleRequest 1) 0) sampleSignedQuote

theorem sampleCarriedOut_reachable :
  (desk sampleParties sampleWallets sampleColumns).Reachable sampleCarriedOut
  := by
  obtain ⟨_, hread⟩ : ∃ ls, (desk sampleParties sampleWallets sampleColumns).Run sampleAccepted ls
      (sampleAccepted.authorizing 0 (.funded (sampleAuthorize 2)
        (sampleAuthContext (sampleCommitment 2 2 1000)) 4 fun _ _ => false)) :=
    run_authorization rfl rfl rfl
  have hsettle : DeskStep sampleParties sampleWallets sampleColumns
      (sampleAccepted.authorizing 0 (.funded (sampleAuthorize 2)
        (sampleAuthContext (sampleCommitment 2 2 1000)) 4 fun _ _ => false)) .other
      sampleCarriedOut := by
    apply @DeskStep.settle _ _ _ _ 0 (newTrade (sampleRequest 1) 0) sampleSignedQuote rfl rfl rfl
    decide
  exact (sampleAccepted_reachable.run hread).step hsettle

/-- The second quote has been authorised, too. -/
def sampleAuthorized : Desk :=
  sampleCarriedOut.authorized 0 (sampleAuthorize 2) (sampleAuthContext (sampleCommitment 2 2 1000))

theorem sampleCarriedOut_quotes {quoteId : BytesN32} {quote : Quote}
    (h : sampleCarriedOut.db.quotes quoteId = some quote) :
  quoteId = 1 ∧ quote = sampleSignedQuote ∨ quoteId = 2 ∧ quote = sampleCommitment 2 2 1000
  := by
  change markAuthorized samplePair 1 ⟨1000⟩ (.account 50) quoteId = some quote at h
  rw [markAuthorized_apply, Option.map_eq_some_iff] at h
  obtain ⟨quote₀, hquote₀, rfl⟩ := h
  rcases samplePair_eq_some hquote₀ with ⟨rfl, rfl⟩ | ⟨rfl, rfl⟩
  · exact .inl ⟨rfl, rfl⟩
  · exact .inr ⟨rfl, rfl⟩

theorem authorize_sampleCarriedOut :
  DeskStep sampleParties sampleWallets sampleColumns sampleCarriedOut (.authorize 0) sampleAuthorized
  := by
  have hlocked : sumAuthorizedLockedCount sampleCarriedOut.db.quotes 5 1 0 2 = 2 := by
    have hcounted : sumAuthorizedLockedCount sampleCarriedOut.db.quotes 5 1 0 2
        = Tables.sum sampleCarriedOut.db.quotes Quote.fractionCount fun quoteId _ => quoteId = 1 := by
      apply sum_congr
      intro quoteId quote hquote
      rcases sampleCarriedOut_quotes hquote with ⟨rfl, rfl⟩ | ⟨rfl, rfl⟩
      · decide
      · decide
    rw [hcounted]
    exact sum_single _ (rfl : sampleCarriedOut.db.quotes 1 = some sampleSignedQuote)
      (fun _ _ => id) rfl
  apply authorize_sample rfl
  · change (2 : ℤ) ≤ 4 - sumAuthorizedLockedCount sampleCarriedOut.db.quotes 5 1 0 2
    rw [hlocked]
    decide
  · rfl
  · rfl

/-- The holder has two fractions left, and has committed to at most two. -/
theorem committed_sampleAuthorized :
  sampleAuthorized.committed 5 1 ≤ sampleAuthorized.fractions 1 5
  := by
  apply @committed_le_fractions sampleParties sampleWallets sampleColumns _ _ (sampleAuthorize 2)
    (sampleAuthContext (sampleCommitment 2 2 1000)) _ _ 0 sampleCarriedOut_reachable rfl
    authorize_sampleCarriedOut
  constructor
  · intro quoteId quote hquote _ _ _
    rcases sampleCarriedOut_quotes hquote with ⟨rfl, rfl⟩ | ⟨rfl, rfl⟩
    · decide
    · decide
  · intro quoteId quote hquote _ hne _
    rcases sampleCarriedOut_quotes hquote with ⟨rfl, rfl⟩ | ⟨rfl, rfl⟩
    · decide
    · exact absurd rfl hne

/-! ### A quote that lapses -/

/-- A quote of all that the holder has, which lapses early. -/
def sampleLapsing : BytesN32 → Option Quote :=
  Function.update (fun _ => none) 1 (some (sampleCommitment 1 4 100))

theorem sampleLapsing_eq_some {quoteId : BytesN32} {quote : Quote}
    (h : sampleLapsing quoteId = some quote) :
  quoteId = 1 ∧ quote = sampleCommitment 1 4 100
  := by
  rw [sampleLapsing, Function.update_apply, Option.ite_none_right_eq_some] at h
  exact ⟨h.1, (Option.some.inj h.2).symm⟩

/-- The balance has been read for the quote. -/
def sampleReading : Desk :=
  (sampleDesk sampleLapsing).authorizing 0 (.funded (sampleAuthorize 1)
    (sampleAuthContext (sampleCommitment 1 4 100)) 4 fun _ _ => false)

/-- The quote has been authorised and accepted, its trade is in flight, and it has lapsed. -/
def sampleLapsed : Desk :=
  let d := sampleReading.authorized 0 (sampleAuthorize 1)
    (sampleAuthContext (sampleCommitment 1 4 100))
  { d.accepting 0 .idle with
    now := 100
    db := { d.db with trades := [newTrade (sampleRequest 1) 0] } }

theorem sampleLapsed_reachable :
  (desk sampleParties sampleWallets sampleColumns).Reachable sampleLapsed
  := by
  have hopened : (sampleDesk sampleLapsing).Opened := by
    apply sampleDesk_opened
    · exact finiteRows_none.update 1 _
    · intro quoteId quote hquote
      obtain ⟨_, rfl⟩ := sampleLapsing_eq_some hquote
      decide
  obtain ⟨_, hread⟩ : ∃ ls, (desk sampleParties sampleWallets sampleColumns).Run
      (sampleDesk sampleLapsing) ls sampleReading :=
    run_authorization rfl rfl rfl
  have hlocked : sumAuthorizedLockedCount sampleLapsing 5 1 0 1 = 0 := by
    apply sum_eq_zero
    rintro quoteId quote hquote ⟨_, hne⟩
    exact hne (sampleLapsing_eq_some hquote).1
  have hfree : (4 : ℤ) ≤ 4 - sumAuthorizedLockedCount sampleLapsing 5 1 0 1 := by
    rw [hlocked]
    decide
  have hauthorize := @authorize_sample sampleReading 1 (sampleCommitment 1 4 100) 4 _ rfl hfree rfl
    rfl
  obtain ⟨_, haccept⟩ : ∃ ls, (desk sampleParties sampleWallets sampleColumns).Run
      (sampleReading.authorized 0 (sampleAuthorize 1) (sampleAuthContext (sampleCommitment 1 4 100)))
      ls { sampleLapsed with now := 0 } :=
    @run_acceptance _ _ _ _ 0 0 (sampleRequest 1) sampleRfq _ _ rfl rfl rfl (by decide) rfl
  have htick : DeskStep sampleParties sampleWallets sampleColumns { sampleLapsed with now := 0 }
      .other sampleLapsed := .tick (d := { sampleLapsed with now := 0 }) (by decide)
  have hopen := System.Reachable.init (S := desk sampleParties sampleWallets sampleColumns) hopened
  exact (((hopen.run hread).step hauthorize).run haccept).step htick

/-- A quote on the second RFQ. -/
def sampleSecondSubmission : QuoteRequest :=
  { sampleSubmission 5 with rfqId := 2 }

/-- The quotes once the first one has been reaped. -/
def sampleReaped : BytesN32 → Option Quote :=
  reapLapsed sampleLapsed.db.quotes 100 5 1

/-- The holder has quoted on the second RFQ. -/
def sampleQuoted : Desk :=
  (sampleLapsed.withQuotes (insertOpen sampleReaped 2
    (newQuote sampleColumns sampleSecondSubmission 1000))).submitting 0 .idle

theorem sampleReaped_quotes {quoteId : BytesN32} {quote : Quote}
    (hquote : sampleReaped quoteId = some quote) :
  quoteId = 1 ∧ quote.status = .expired ∧ quote.rfqId = 1
  := by
  rw [sampleReaped, reapLapsed, Option.map_eq_some_iff] at hquote
  obtain ⟨quote₁, hquote₁, rfl⟩ := hquote
  change markAuthorized sampleLapsing 1 ⟨1000⟩ (.account 50) quoteId = some quote₁ at hquote₁
  rw [markAuthorized_apply, Option.map_eq_some_iff] at hquote₁
  obtain ⟨quote₀, hquote₀, rfl⟩ := hquote₁
  obtain ⟨rfl, rfl⟩ := sampleLapsing_eq_some hquote₀
  decide

theorem sampleQuoted_reachable :
  (desk sampleParties sampleWallets sampleColumns).Reachable sampleQuoted
  := by
  have hunlocked : sumOpenLockedCount sampleReaped 5 1 100 = 0 := by
    apply finsum_eq_zero_of_forall_eq_zero
    intro quoteId
    cases hquote : sampleReaped quoteId with
    | none => rfl
    | some quote =>
      rw [Option.elim_some, if_neg]
      rintro ⟨_, _, hopen, _⟩
      rw [(sampleReaped_quotes hquote).2.1] at hopen
      cases hopen
  obtain ⟨_, hrun⟩ : ∃ ls, (desk sampleParties sampleWallets sampleColumns).Run sampleLapsed ls
      sampleQuoted := by
    apply @run_submission sampleParties sampleWallets sampleColumns sampleLapsed 0 1000
      sampleSecondSubmission sampleReaped 2
    · rfl
    · rfl
    · rfl
    · rfl
    · intro quoteId quote hquote
      have hreaped : sampleReaped quoteId = some _ :=
        Option.map_eq_some_iff.mpr ⟨quote, hquote, rfl⟩
      have hrfq := (sampleReaped_quotes hreaped).2.2
      split at hrfq
      · rw [show quote.rfqId = 1 from hrfq]
        decide
      · rw [hrfq]
        decide
    · change (4 : ℤ) ≤ 4 - sumOpenLockedCount sampleReaped 5 1 100
      rw [hunlocked]
      decide
    · decide
    · decide
    · rfl
  apply sampleLapsed_reachable.run hrun

/-- The row of the second quote. -/
def sampleSecondQuote : Quote :=
  { newQuote sampleColumns sampleSecondSubmission 1000 with status := .open }

/-- The balance has been read for the second quote. -/
def sampleReauthorizing : Desk :=
  sampleQuoted.authorizing 0 (.funded (sampleAuthorize 2) (sampleAuthContext sampleSecondQuote) 4
    fun _ _ => false)

/-- The second quote has been authorised. -/
def sampleOvercommitted : Desk :=
  sampleReauthorizing.authorized 0 (sampleAuthorize 2) (sampleAuthContext sampleSecondQuote)

theorem authorize_sampleReauthorizing :
  DeskStep sampleParties sampleWallets sampleColumns sampleReauthorizing (.authorize 0)
    sampleOvercommitted
  := by
  have hlocked : sumAuthorizedLockedCount sampleReauthorizing.db.quotes 5 1 100 2 = 0 := by
    apply sum_eq_zero
    rintro quoteId quote hquote ⟨⟨⟨_, _, hopen, _⟩, _⟩, hne⟩
    change insertOpen sampleReaped 2 _ quoteId = _ at hquote
    rw [insertOpen, Function.update_of_ne hne] at hquote
    rw [(sampleReaped_quotes hquote).2.1] at hopen
    cases hopen
  apply authorize_sample rfl
  · change (4 : ℤ) ≤ 4 - sumAuthorizedLockedCount sampleReauthorizing.db.quotes 5 1 100 2
    rw [hlocked]
    decide
  · rfl
  · rfl

theorem sampleOvercommitted_reachable :
  (desk sampleParties sampleWallets sampleColumns).Reachable sampleOvercommitted
  := by
  obtain ⟨_, hrun⟩ := @run_authorization sampleParties sampleWallets sampleColumns sampleQuoted 0
    (sampleAuthorize 2) _ _ rfl rfl rfl
  apply (sampleQuoted_reachable.run hrun).step authorize_sampleReauthorizing

/-- Both quotes can settle. -/
theorem committed_sampleOvercommitted :
  8 ≤ sampleOvercommitted.committed 5 1
  := by
  obtain ⟨first, hfirst, hfirst_count, hfirst_settle⟩ : ∃ quote,
      sampleOvercommitted.db.quotes 1 = some quote ∧ quote.fractionCount = 4
        ∧ quote.terms.Of 5 1 ∧ sampleOvercommitted.CanSettle 1 quote :=
    ⟨_, rfl, rfl, ⟨rfl, rfl⟩, rfl, rfl, .inr ⟨le_rfl, _, List.mem_singleton.mpr rfl, rfl, rfl⟩⟩
  obtain ⟨second, hsecond, hsecond_count, hsecond_settle⟩ : ∃ quote,
      sampleOvercommitted.db.quotes 2 = some quote ∧ quote.fractionCount = 4
        ∧ quote.terms.Of 5 1 ∧ sampleOvercommitted.CanSettle 2 quote :=
    ⟨_, rfl, rfl, ⟨rfl, rfl⟩, rfl, rfl, .inl ⟨rfl, by decide⟩⟩
  have hsound := sound_of_reachable sampleOvercommitted_reachable
  have hfirst_sum := sum_single Quote.fractionCount hfirst
    (p := fun quoteId _ => quoteId = 1) (fun _ _ => id) rfl
  have hsecond_sum := sum_single Quote.fractionCount hsecond
    (p := fun quoteId _ => quoteId = 2) (fun _ _ => id) rfl
  have hle : Tables.sum sampleOvercommitted.db.quotes Quote.fractionCount
      (fun quoteId _ => quoteId = 1 ∨ quoteId = 2) ≤ sampleOvercommitted.committed 5 1 := by
    apply sum_le_sum hsound.finiteRows hsound.finiteRows hsound.nonneg
    rintro quoteId quote hquote (rfl | rfl)
    · obtain rfl := Option.some.inj (hfirst.symm.trans hquote)
      exact ⟨first, hfirst, le_rfl, hfirst_settle⟩
    · obtain rfl := Option.some.inj (hsecond.symm.trans hquote)
      exact ⟨second, hsecond, le_rfl, hsecond_settle⟩
  rw [sum_or hsound.finiteRows, hfirst_sum, hsecond_sum] at hle
  · omega
  · rintro _ _ _ rfl hne
    exact absurd hne (by decide)

/-- A holder may commit to more than they have: when a quote has lapsed whose trade is in flight,
another one is authorised for the same fractions. -/
theorem not_forall_committed_le_fractions :
  ¬ ∀ (parties : Parties) (wallets : ℕ → Option Address) (columns : BytesN32 → RfqColumns)
    (d d' : Desk) (n : ℕ) (req : AuthorizeRequest) (ctx : AuthContext) (onchain : ℤ)
    (settled : BytesN32 → BytesN32 → Bool),
    (desk parties wallets columns).Reachable d →
    d.authorizations n = .funded req ctx onchain settled →
    DeskStep parties wallets columns d (.authorize n) d' →
    d'.committed req.userId ctx.quote.fractionContractId
      ≤ d'.fractions ctx.quote.fractionContractId req.userId
  := by
  intro hall
  obtain ⟨_, hrun⟩ := @run_authorization sampleParties sampleWallets sampleColumns sampleQuoted 0
    (sampleAuthorize 2) _ _ rfl rfl rfl
  have hle : sampleOvercommitted.committed 5 1 ≤ 4 :=
    hall _ _ _ _ _ 0 _ _ _ _ (sampleQuoted_reachable.run hrun) rfl authorize_sampleReauthorizing
  have := committed_sampleOvercommitted
  omega

end Marketplace
