import Tove.Marketplace.SettleWorker
import Tove.Relay.Safety

/-!
# The work on a trade and its group

An attempt fails a trade after it has read that the settler has no marker for it. This says
nothing about the transactions that are still pending, and the check of the balance reads no
marker at all. A trade is safe in the runs in which nothing is pending at these reads, and
nothing is sent after them.

Several trades may be for the same quote, and the settler has one marker for them all. What is
demanded of the transactions of a trade is therefore demanded of a group of trades: a trade alone,
or all those for its quote.
-/

namespace Marketplace

open Soroban Settler Relay Transition

/-! ### The condition -/

/-- A transaction is pending, and neither signature has expired. -/
def Work.Live (w : Work) (ledger : ℕ) : Prop :=
  .pending ∈ w.txs ∧ ∃ d, w.job = some d ∧ ledger ≤ d.buyerSignatureExpirationLedger
    ∧ ledger ≤ d.sellerSignatureExpirationLedger

/-- No transaction has been applied, and none can be any more, unless another one is sent. -/
def Work.Over (w : Work) (ledger : ℕ) : Prop :=
  .success ∉ w.txs ∧ ¬ w.Live ledger

/-- A way to put the trades into groups. The trades of a group are for the same RFQ and quote. -/
structure Grouping (κ : Type) where
  of : ℕ → BytesN32 → BytesN32 → κ
  same : ∀ {id k : ℕ} {rfqId quoteId rfqId' quoteId' : BytesN32},
    of id rfqId quoteId = of k rfqId' quoteId' → rfqId = rfqId' ∧ quoteId = quoteId'

/-- Every trade is a group of its own. -/
def apart : Grouping (ℕ × BytesN32 × BytesN32) where
  of id rfqId quoteId := (id, rfqId, quoteId)
  same heq := Prod.mk.inj (Prod.mk.inj heq).2

/-- The trades for a quote are a group. -/
def byQuote : Grouping (BytesN32 × BytesN32) where
  of _ rfqId quoteId := (rfqId, quoteId)
  same := Prod.mk.inj

/-- The trade is in the group. -/
def State.In {κ : Type} (s : State) (group : Grouping κ) (g : κ) (id : ℕ) : Prop :=
  ∃ row, s.db.trades[id]? = some row ∧ group.of id row.rfqId row.quoteId = g

theorem State.In.eq_of_apart {s : State} {g : ℕ × BytesN32 × BytesN32} {id k : ℕ}
    (hid : s.In apart g id) (hk : s.In apart g k) :
  k = id
  := by
  obtain ⟨_, _, rfl⟩ := hid
  obtain ⟨_, _, heq⟩ := hk
  exact (Prod.mk.inj heq).1

/-- The trades of the group are over. -/
def State.Ended {κ : Type} (s : State) (group : Grouping κ) (g : κ) : Prop :=
  ∀ id, s.In group g id → (s.works id).Over s.ledger

/-- The trade has not failed, and nobody is about to fail it. -/
def State.Unfailed (s : State) (id : ℕ) : Prop :=
  (∀ row, s.db.trades[id]? = some row → row.status ≠ .failed)
    ∧ ∀ a, ((s.works id).actors a).fails = none

/-- The check of the balance fails a trade only when its group is over; the settler is asked
before a failure only when no transaction of the group is live; and a transaction is sent only
while no trade of the group has failed and nobody is about to fail one. -/
def Careful {κ : Type} (group : Grouping κ) (s : State) (l : Label) (_ : State) : Prop :=
  match l with
  | .shortfall id => ∀ g, s.In group g id → s.Ended group g
  | .unsettled id => ∀ g, s.In group g id → ∀ k, s.In group g k → ¬ (s.works k).Live s.ledger
  | .send id => ∀ g, s.In group g id → ∀ k, s.In group g k → s.Unfailed k
  | _ => True

/-! ### What is known of a trade -/

/-- What a phase knows: that there is a marker, or that the group of the trade is over. -/
def Phase.Knows (marked ended : Prop) : Phase → Prop
  | .returned (.SUCCESS _) | .adopting _ | .readopting => marked
  | .failing _ _ _ | .abandoning => ended
  | _ => True

/-- What holds of a trade and of the work on it, when it is known whether its group is over. -/
structure Sound (ended : Prop) (world : World) (row : SecondaryTrade) (w : Work) : Prop where
  job : ∀ d, w.job = some d → d.terms.rfqId = row.rfqId ∧ d.terms.quoteId = row.quoteId
  unqueued : w.job = none → w.txs = []
  landed : .success ∈ w.txs → isSettled world row.rfqId row.quoteId = true
  knows : ∀ a, (w.actors a).Knows (isSettled world row.rfqId row.quoteId = true) ended
  failed : row.status = .failed → ended
  settled : row.status = .settled → isSettled world row.rfqId row.quoteId = true

section Phases

variable {marked marked' ended ended' : Prop} {phase : Phase}

theorem Phase.Knows.mono (h : phase.Knows marked ended) (hmarked : marked → marked')
    (hended : ended → ended') :
  phase.Knows marked' ended'
  := by
  cases phase with
  | returned outcome =>
    cases outcome with
    | SUCCESS txHash => exact hmarked h
    | failure f => trivial
  | adopting _ | readopting => exact hmarked h
  | failing _ _ _ | abandoning => exact hended h
  | _ => trivial

theorem Phase.Knows.adopts (h : phase.Knows marked ended) {txHash : Option ℕ}
    (hphase : phase.adopts = some txHash) :
  marked
  := by
  cases phase with
  | adopting _ | readopting => exact h
  | _ => cases hphase

theorem Phase.Knows.fails (h : phase.Knows marked ended)
    {failure : SettleFailureReason × QuoteDisposition} (hphase : phase.fails = some failure) :
  ended
  := by
  cases phase with
  | failing _ _ _ | abandoning => exact h
  | _ => cases hphase

/-- A phase that is not about to fail the trade does not have to know that it is over. -/
theorem Phase.Knows.of_fails_eq_none (h : phase.Knows marked ended) (hphase : phase.fails = none) :
  phase.Knows marked ended'
  := by
  cases phase with
  | failing _ _ _ | abandoning => cases hphase
  | returned outcome =>
    cases outcome with
    | SUCCESS txHash => exact h
    | failure f => trivial
  | _ => exact h

end Phases

/-! ### The work on a trade -/

section Work

variable {ended ended' : Prop} {world world' : World} {ledger ledger' : ℕ} {row : SecondaryTrade}
  {w : Work}

theorem Work.Over.mono (h : w.Over ledger) (hledger : ledger ≤ ledger') :
  w.Over ledger'
  := by
  use h.1
  rintro ⟨hpending, d, hjob, hbuyer, hseller⟩
  exact h.2 ⟨hpending, d, hjob, hledger.trans hbuyer, hledger.trans hseller⟩

/-- Work is over when no transaction has been sent. -/
theorem Work.over_of_txs_eq_nil (h : w.txs = []) (ledger : ℕ) :
  w.Over ledger
  := by simp [Over, Live, h]

/-- With more markers, and a group that is over when it was, the same holds of a trade that has
not changed. -/
theorem Sound.mono (h : Sound ended world row w) (hended : ended → ended')
    (hmarks : isSettled world row.rfqId row.quoteId = true →
      isSettled world' row.rfqId row.quoteId = true) :
  Sound ended' world' row w
  := by
  constructor
  · apply h.job
  · apply h.unqueued
  · intro hlanded
    apply hmarks (h.landed hlanded)
  · intro a
    apply (h.knows a).mono hmarks hended
  · intro hfailed
    apply hended (h.failed hfailed)
  · intro hsettled
    apply hmarks (h.settled hsettled)

/-- Nobody holds that the group of the trade is over. -/
theorem Sound.of_unfailed (h : Sound ended world row w) (hfailed : row.status ≠ .failed)
    (hfails : ∀ a, (w.actors a).fails = none) :
  Sound ended' world row w
  := by
  refine ⟨h.job, h.unqueued, h.landed, ?_, ?_, h.settled⟩
  · intro a
    apply (h.knows a).of_fails_eq_none (hfails a)
  · exact fun heq => absurd heq hfailed

/-- An attempt enters a phase whose knowledge is right. -/
theorem Sound.goto (h : Sound ended world row w) {a : ℕ} {phase : Phase}
    (hphase : phase.Knows (isSettled world row.rfqId row.quoteId = true) ended) :
  Sound ended world row (w.goto a phase)
  := by
  refine ⟨h.job, h.unqueued, h.landed, ?_, h.failed, h.settled⟩
  intro b
  rcases eq_or_ne b a with rfl | hb
  · rw [Work.goto_self]
    apply hphase
  · rw [w.goto_of_ne hb]
    apply h.knows b

/-- An attempt throws, with the transactions of the trade as they are or with new ones. -/
theorem Sound.throws {txs : List TxStatus} (h : Sound ended world row { w with txs }) (a : ℕ) :
  Sound ended world row { w.throws a with txs }
  := by
  obtain ⟨phase, attemptsMade, heq, hphase⟩ := w.throws_eq a
  have hgoto : Sound ended world row (Work.goto { w with txs } a phase) := by
    apply h.goto
    rcases hphase with rfl | rfl
    · trivial
    · trivial
  rw [heq]
  exact ⟨hgoto.job, hgoto.unqueued, hgoto.landed, hgoto.knows, hgoto.failed, hgoto.settled⟩

/-- The transactions are others, of which one has been applied only if there is a marker. -/
theorem Sound.withTxs (h : Sound ended world row w) {txs : List TxStatus}
    (hnil : w.job = none → txs = [])
    (hsuccess : .success ∈ txs → isSettled world row.rfqId row.quoteId = true) :
  Sound ended world row { w with txs }
  := ⟨h.job, hnil, hsuccess, h.knows, h.failed, h.settled⟩

/-- A trade is settled when there is a marker for it. -/
theorem Sound.settle (h : Sound ended world row w)
    (hmarked : isSettled world row.rfqId row.quoteId = true) (txHash : Option ℕ) :
  Sound ended world { row with status := .settled, txHash } w
  := by
  refine ⟨h.job, h.unqueued, h.landed, h.knows, ?_, fun _ => hmarked⟩
  intro heq
  cases heq

/-- A trade fails when its group is over. -/
theorem Sound.fail (h : Sound ended world row w) (hended : ended) (reason : SettleFailureReason) :
  Sound ended world { row with status := .failed, failureReason := some reason } w
  := by
  refine ⟨h.job, h.unqueued, h.landed, h.knows, fun _ => hended, ?_⟩
  intro heq
  cases heq

end Work

/-! ### The attempt -/

/-- A step of an attempt knows what it claims to know. -/
theorem Advance.knows {ended : Prop} {d : QuoteSettleJob} {ledger : ℕ} {world : World}
    {row : SecondaryTrade} {w : Work} (h : Sound ended world row w) (hjob : w.job = some d)
    {phase phase' : Phase}
    (hphase : phase.Knows (isSettled world row.rfqId row.quoteId = true) ended)
    (hstep : Advance d ledger world w.txs phase phase') :
  phase'.Knows (isSettled world row.rfqId row.quoteId = true) ended
  := by
  obtain ⟨hrfq, hquote⟩ := h.job d hjob
  rw [← hrfq, ← hquote] at hphase ⊢
  cases hstep with
  | selfHeal hsettled => exact hsettled
  | adopted hsettled => exact hsettled
  | confirmed => exact hphase
  | succeeded hsuccess =>
    rw [hrfq, hquote]
    exact h.landed (List.mem_of_getElem? hsuccess)
  | _ => trivial

/-! ### The invariant -/

/-- Every job is for a trade, every trade is sound, and every marker is due to a trade whose
transaction has been applied. -/
structure Invariant {κ : Type} (group : Grouping κ) (s : State) : Prop where
  jobs : ∀ id d, (s.works id).job = some d → ∃ row, s.db.trades[id]? = some row
  sound : ∀ id row, s.db.trades[id]? = some row →
    Sound (s.Ended group (group.of id row.rfqId row.quoteId)) s.world row (s.works id)
  landed : ∀ rfqId quoteId, isSettled s.world rfqId quoteId = true →
    ∃ id row, s.db.trades[id]? = some row ∧ row.rfqId = rfqId ∧ row.quoteId = quoteId
      ∧ .success ∈ (s.works id).txs

section Invariant

variable {κ : Type} {group : Grouping κ} {g : κ} {s s' : State} {id : ℕ} {row row' : SecondaryTrade}
  {w : Work}

theorem State.in_self (hrow : s.db.trades[id]? = some row) :
  s.In group (group.of id row.rfqId row.quoteId) id
  := ⟨row, hrow, rfl⟩

/-- A group stays over when its trades and their work do. -/
theorem State.Ended.mono (h : s.Ended group g) (hin : ∀ k, s'.In group g k → s.In group g k)
    (hover : ∀ k, s'.In group g k → (s.works k).Over s.ledger → (s'.works k).Over s'.ledger) :
  s'.Ended group g
  := fun k hk => hover k hk (h k (hin k hk))

/-- A group whose trades have all been over stays so when the work on one of them goes on, unless
that sends or applies a transaction. -/
theorem State.Ended.setWork (h : s.Ended group g)
    (hover : s.In group g id → (s.works id).Over s.ledger → w.Over s.ledger) (world : World) :
  ({ s with world }.setWork id w).Ended group g
  := by
  apply h.mono
  · exact fun _ hk => hk
  · intro k hk hover'
    rcases eq_or_ne k id with rfl | hne
    · rw [State.setWork_self]
      apply hover hk hover'
    · rw [State.setWork_of_ne _ hne]
      apply hover'

/-- The work on a trade goes on, or the settler records a marker for it. -/
theorem Invariant.setWork (h : Invariant group s) {world : World}
    (hjob : ∀ d, w.job = some d → ∃ row, s.db.trades[id]? = some row)
    (hsuccess : TxStatus.success ∈ (s.works id).txs → TxStatus.success ∈ w.txs)
    (hmarks : ∀ rfqId quoteId, isSettled world rfqId quoteId = true →
      isSettled s.world rfqId quoteId = true
      ∨ ∃ row, s.db.trades[id]? = some row ∧ row.rfqId = rfqId ∧ row.quoteId = quoteId
        ∧ .success ∈ w.txs)
    (hself : ∀ row, s.db.trades[id]? = some row →
      Sound (({ s with world }.setWork id w).Ended group (group.of id row.rfqId row.quoteId))
        world row w)
    (hother : ∀ k row, k ≠ id → s.db.trades[k]? = some row →
      Sound (({ s with world }.setWork id w).Ended group (group.of k row.rfqId row.quoteId))
        world row (s.works k)) :
  Invariant group ({ s with world }.setWork id w)
  := by
  constructor
  · intro k d hk
    rcases eq_or_ne k id with rfl | hne
    · rw [State.setWork_self] at hk
      apply hjob d hk
    · rw [State.setWork_of_ne _ hne] at hk
      apply h.jobs k d hk
  · intro k row hrow
    rcases eq_or_ne k id with rfl | hne
    · rw [State.setWork_self]
      apply hself row hrow
    · rw [State.setWork_of_ne _ hne]
      apply hother k row hne hrow
  · intro rfqId quoteId hsettled
    rcases hmarks rfqId quoteId hsettled with hbefore | ⟨row, hrow, hrfq, hquote, hlanded⟩
    · obtain ⟨k, row, hrow, hrfq, hquote, hlanded⟩ := h.landed rfqId quoteId hbefore
      refine ⟨k, row, hrow, hrfq, hquote, ?_⟩
      rcases eq_or_ne k id with rfl | hne
      · rw [State.setWork_self]
        apply hsuccess hlanded
      · rw [State.setWork_of_ne _ hne]
        apply hlanded
    · refine ⟨id, row, hrow, hrfq, hquote, ?_⟩
      rw [State.setWork_self]
      apply hlanded

/-- The work on a trade goes on, which is over when it was. -/
theorem Invariant.proceed (h : Invariant group s)
    (hjob : ∀ d, w.job = some d → ∃ row, s.db.trades[id]? = some row)
    (hsuccess : TxStatus.success ∈ (s.works id).txs → TxStatus.success ∈ w.txs)
    (hover : (s.works id).Over s.ledger → w.Over s.ledger)
    (hsound : ∀ row, s.db.trades[id]? = some row →
      Sound (s.Ended group (group.of id row.rfqId row.quoteId)) s.world row w) :
  Invariant group (s.setWork id w)
  := by
  have hended : ∀ g, s.Ended group g → (s.setWork id w).Ended group g :=
    fun g hg => hg.setWork (fun _ => hover) s.world
  apply h.setWork hjob hsuccess
  · exact fun rfqId quoteId hsettled => .inl hsettled
  · intro row hrow
    apply (hsound row hrow).mono (hended _) fun hsettled => hsettled
  · intro k row _ hrow
    apply (h.sound k row hrow).mono (hended _) fun hsettled => hsettled

/-- An attempt or sweep enters a phase whose knowledge is right. -/
theorem Invariant.goto (h : Invariant group s) {a : ℕ} {phase : Phase}
    (hphase : ∀ row, s.db.trades[id]? = some row →
      phase.Knows (isSettled s.world row.rfqId row.quoteId = true)
        (s.Ended group (group.of id row.rfqId row.quoteId))) :
  Invariant group (s.goto id a phase)
  := by
  apply h.proceed
  · apply h.jobs
  · exact fun hmem => hmem
  · exact fun hover => hover
  · intro row hrow
    apply (h.sound id row hrow).goto (hphase row hrow)

/-- An attempt or sweep throws. -/
theorem Invariant.throws (h : Invariant group s) (id a : ℕ) :
  Invariant group (s.setWork id ((s.works id).throws a))
  := by
  apply h.proceed
  · rw [Work.throws_job]
    apply h.jobs
  · rw [Work.throws_txs]
    exact fun hmem => hmem
  · intro hover
    rwa [Work.Over, Work.Live, Work.throws_txs, Work.throws_job]
  · intro row hrow
    have hthrows := (h.sound id row hrow).throws a
    rwa [← Work.throws_txs (s.works id) a] at hthrows

/-- The row of a trade changes, but not its RFQ and its quote. -/
theorem Invariant.setRow (h : Invariant group s) {db : Database}
    (hrow : s.db.trades[id]? = some row) (htrades : db.trades = s.db.trades.set id row')
    (hrfq : row'.rfqId = row.rfqId) (hquote : row'.quoteId = row.quoteId)
    (hsound : Sound (s.Ended group (group.of id row.rfqId row.quoteId)) s.world row' (s.works id)) :
  Invariant group { s with db }
  := by
  have hself : db.trades[id]? = some row' := by
    obtain ⟨hlt, _⟩ := List.getElem?_eq_some_iff.mp hrow
    rw [htrades, List.getElem?_set_self hlt]
  have hother : ∀ {k : ℕ}, k ≠ id → db.trades[k]? = s.db.trades[k]? := by
    intro k hne
    rw [htrades, List.getElem?_set_ne hne.symm]
  have hended : ∀ g, s.Ended group g → { s with db }.Ended group g := by
    intro g hg k hk
    apply hg k
    obtain ⟨row₁, hrow₁, rfl⟩ := hk
    rcases eq_or_ne k id with rfl | hne
    · obtain rfl := Option.some.inj (hself.symm.trans hrow₁)
      exact ⟨row, hrow, by rw [hrfq, hquote]⟩
    · exact ⟨row₁, (hother hne).symm.trans hrow₁, rfl⟩
  constructor
  · intro k d hk
    rcases eq_or_ne k id with rfl | hne
    · exact ⟨row', hself⟩
    · rw [hother hne]
      apply h.jobs k d hk
  · intro k row₁ hrow₁
    rcases eq_or_ne k id with rfl | hne
    · obtain rfl := Option.some.inj (hself.symm.trans hrow₁)
      rw [hrfq, hquote]
      apply hsound.mono (hended _) fun hsettled => hsettled
    · have hbefore := h.sound k row₁ ((hother hne).symm.trans hrow₁)
      apply hbefore.mono (hended _) fun hsettled => hsettled
  · intro rfqId quoteId hsettled
    obtain ⟨k, row₁, hrow₁, rfl, rfl, hlanded⟩ := h.landed rfqId quoteId hsettled
    rcases eq_or_ne k id with rfl | hne
    · obtain rfl := Option.some.inj (hrow.symm.trans hrow₁)
      exact ⟨k, row', hself, hrfq, hquote, hlanded⟩
    · exact ⟨k, row₁, (hother hne).trans hrow₁, rfl, rfl, hlanded⟩

/-- A settlement that is persisted has a marker. -/
theorem Invariant.persist (h : Invariant group s) {a : ℕ} {txHash : Option ℕ}
    (hphase : ((s.works id).actors a).adopts = some txHash) (row : SecondaryTrade) :
  Invariant group { s with db := persistSettled id row txHash s.db }
  := by
  rcases persistSettled_cases id row txHash s.db with heq | ⟨row₁, hrow₁, _, htrades, _⟩
  · rw [heq]
    apply h
  · have hsound := h.sound id row₁ hrow₁
    apply h.setRow hrow₁ htrades rfl rfl
    apply hsound.settle ((hsound.knows a).adopts hphase)

/-- A trade that is failed is over. -/
theorem Invariant.fail (h : Invariant group s) {a : ℕ} {reason : SettleFailureReason}
    {disposition : QuoteDisposition}
    (hphase : ((s.works id).actors a).fails = some (reason, disposition)) (row : SecondaryTrade) :
  Invariant group { s with db := failTrade id row reason disposition s.db }
  := by
  rcases failTrade_cases id row reason disposition s.db with heq | ⟨row₁, hrow₁, _, htrades, _⟩
  · rw [heq]
    apply h
  · have hsound := h.sound id row₁ hrow₁
    apply h.setRow hrow₁ htrades rfl rfl
    apply hsound.fail ((hsound.knows a).fails hphase)

/-- A transaction of a trade is applied while it is live, so that nobody holds its group for
over. -/
theorem Invariant.land (h : Invariant group s) {d : QuoteSettleJob} {tx : ℕ} {host : Host}
    {world : World} (hjob : (s.works id).job = some d)
    (hpending : (s.works id).txs[tx]? = some .pending)
    (hbuyer : s.ledger ≤ d.buyerSignatureExpirationLedger)
    (hseller : s.ledger ≤ d.sellerSignatureExpirationLedger)
    (hcall : acceptQuote host d.terms s.world = .ok world) :
  Invariant group ({ s with world }.setWork id
    { s.works id with txs := (s.works id).txs.set tx .success })
  := by
  obtain ⟨row, hrow⟩ := h.jobs id d hjob
  obtain ⟨hrfq, hquote⟩ := (h.sound id row hrow).job d hjob
  have hlive : (s.works id).Live s.ledger :=
    ⟨List.mem_of_getElem? hpending, d, hjob, hbuyer, hseller⟩
  have hmarks : ∀ {rfqId quoteId}, isSettled world rfqId quoteId = true
      ↔ (rfqId = row.rfqId ∧ quoteId = row.quoteId) ∨ isSettled s.world rfqId quoteId = true := by
    intro rfqId quoteId
    rw [isSettled_of_acceptQuote hcall, hrfq, hquote]
  have hsuccess := mem_set_of_getElem? hpending .success
  have hended : ∀ g, s.Ended group g → ({ s with world }.setWork id
      { s.works id with txs := (s.works id).txs.set tx .success }).Ended group g :=
    fun g hg => hg.setWork (fun _ hover => absurd hlive hover.2) world
  apply h.setWork
  · exact fun _ _ => ⟨row, hrow⟩
  · exact fun _ => hsuccess
  · intro rfqId quoteId hsettled
    rcases hmarks.mp hsettled with ⟨rfl, rfl⟩ | hbefore
    · exact .inr ⟨row, hrow, rfl, rfl, hsuccess⟩
    · exact .inl hbefore
  · intro row₁ hrow₁
    obtain rfl := Option.some.inj (hrow.symm.trans hrow₁)
    have hmarked := hmarks.mpr (.inl ⟨rfl, rfl⟩)
    apply ((h.sound id row hrow).mono (hended _) fun _ => hmarked).withTxs
    · intro hnone
      cases hjob.symm.trans hnone
    · exact fun _ => hmarked
  · intro k row₁ _ hrow₁
    apply (h.sound k row₁ hrow₁).mono (hended _)
    exact fun hbefore => hmarks.mpr (.inr hbefore)

/-- Time passes, and USDC moves. -/
theorem Invariant.mono (h : Invariant group s) {ledger : ℕ} (hledger : s.ledger ≤ ledger) (now : ℕ)
    (usdc : Ledgers.Ledger Address) :
  Invariant group { s with ledger, now, world := { s.world with usdc } }
  := by
  refine ⟨h.jobs, ?_, h.landed⟩
  intro k row hrow
  apply (h.sound k row hrow).mono
  · intro hended
    apply hended.mono
    · exact fun _ hk => hk
    · exact fun _ _ hover => hover.mono hledger
  · exact fun hsettled => hsettled

/-- A pending transaction fails, or is dropped. -/
theorem Invariant.spend (h : Invariant group s) {tx : ℕ} {status : TxStatus}
    (hpending : (s.works id).txs[tx]? = some .pending)
    (hstatus : status = .failed ∨ status = .dropped) :
  Invariant group (s.setWork id { s.works id with txs := (s.works id).txs.set tx status })
  := by
  have hne : .success ≠ status ∧ .pending ≠ status := by
    rcases hstatus with rfl | rfl
    · exact ⟨nofun, nofun⟩
    · exact ⟨nofun, nofun⟩
  have hsuccess : .success ∈ (s.works id).txs.set tx status → .success ∈ (s.works id).txs :=
    fun hmem => (List.mem_or_eq_of_mem_set hmem).resolve_right hne.1
  have hlive : .pending ∈ (s.works id).txs.set tx status → .pending ∈ (s.works id).txs :=
    fun hmem => (List.mem_or_eq_of_mem_set hmem).resolve_right hne.2
  apply h.proceed
  · apply h.jobs
  · intro hmem
    obtain ⟨k, hk⟩ := List.mem_iff_getElem?.mp hmem
    apply List.mem_of_getElem? (getElem?_set_of_pending hpending hk nofun)
  · rintro ⟨hnone, hover⟩
    exact ⟨fun hmem => hnone (hsuccess hmem), fun ⟨hmem, hjob⟩ => hover ⟨hlive hmem, hjob⟩⟩
  · intro row hrow
    have hsound := h.sound id row hrow
    apply hsound.withTxs
    · intro hnone
      rw [hsound.unqueued hnone, List.set_nil]
    · exact fun hmem => hsound.landed (hsuccess hmem)

/-- A transaction is sent while nobody holds the group of the trade for over. -/
theorem Invariant.send (h : Invariant group s) {d : QuoteSettleJob}
    (hqueued : (s.works id).job = some d) (hjob : w.job = (s.works id).job)
    (htxs : w.txs = (s.works id).txs ++ [.pending])
    (hsound : ∀ ended row,
      Sound ended s.world row { s.works id with txs := (s.works id).txs ++ [.pending] } →
      Sound ended s.world row w)
    (hcare : Careful group s (.send id) s') :
  Invariant group (s.setWork id w)
  := by
  have hsend : ∀ k row, s.db.trades[k]? = some row →
      Sound ((s.setWork id w).Ended group (group.of k row.rfqId row.quoteId)) s.world row
        (s.works k) := by
    intro k row hrow
    by_cases hin : s.In group (group.of k row.rfqId row.quoteId) id
    · obtain ⟨hfailed, hfails⟩ := hcare _ hin k (State.in_self hrow)
      apply (h.sound k row hrow).of_unfailed (hfailed row hrow) hfails
    · apply (h.sound k row hrow).mono _ fun hsettled => hsettled
      exact fun hended => hended.setWork (fun hid => absurd hid hin) s.world
  apply h.setWork
  · rw [hjob]
    apply h.jobs
  · intro hmem
    rw [htxs]
    apply List.mem_append_left _ hmem
  · exact fun rfqId quoteId hsettled => .inl hsettled
  · intro row hrow
    apply hsound
    apply (hsend id row hrow).withTxs
    · intro hnone
      cases hqueued.symm.trans hnone
    · intro hmem
      apply (h.sound id row hrow).landed
      simpa using hmem
  · exact fun k row _ hrow => hsend k row hrow

/-- The settler has no marker for a trade, and no transaction of its group is live. -/
theorem Invariant.ended (h : Invariant group s)
    (hunsettled : isSettled s.world row.rfqId row.quoteId = false)
    (hlive : ∀ k, s.In group (group.of id row.rfqId row.quoteId) k → ¬ (s.works k).Live s.ledger) :
  s.Ended group (group.of id row.rfqId row.quoteId)
  := by
  intro k hk
  refine ⟨?_, hlive k hk⟩
  intro hlanded
  obtain ⟨row₁, hrow₁, heq⟩ := hk
  obtain ⟨hrfq, hquote⟩ := group.same heq
  have hsettled := (h.sound k row₁ hrow₁).landed hlanded
  rw [hrfq, hquote, hunsettled] at hsettled
  cases hsettled

/-- Every step of the work that meets the condition keeps the invariant. -/
theorem Invariant.work (h : Invariant group s) {reconcileGraceMs : ℕ} {l : Label}
    (hstep : WorkStep reconcileGraceMs s l s') (hcare : Careful group s l s') :
  Invariant group s'
  := by
  cases hstep with
  | noop _ _ _ => exact h
  | load _ _ _ _ _ => exact h.goto fun _ _ => trivial
  | advance hjob hadvance =>
    apply h.goto
    intro row hrow
    have hsound := h.sound _ row hrow
    apply hadvance.knows hsound hjob (hsound.knows _)
  | shortfall _ _ _ =>
    apply h.goto
    intro row hrow
    apply hcare _ (State.in_self hrow)
  | accepted hjob _ =>
    refine h.send hjob ?_ ?_ ?_ hcare
    · rfl
    · rfl
    · intro ended row hsound
      apply hsound.goto
      trivial
  | replyLost hjob _ =>
    refine h.send hjob ?_ ?_ ?_ hcare
    · apply Work.throws_job
    · rfl
    · intro ended row hsound
      apply hsound.throws
  | retry _ _ _ _ => exact h.throws _ _
  | terminal hjob _ hunsettled _ =>
    apply h.goto
    intro row hrow
    obtain ⟨hrfq, hquote⟩ := (h.sound _ row hrow).job _ hjob
    rw [hrfq, hquote] at hunsettled
    apply h.ended hunsettled (hcare _ (State.in_self hrow))
  | thrown _ => exact h.throws _ _
  | crash => exact h.goto fun _ _ => trivial
  | sweep _ _ _ => exact h.goto fun _ _ => trivial
  | sweepSettled _ hrow hsettled =>
    apply h.goto
    intro row hrow'
    obtain rfl := Option.some.inj (hrow.symm.trans hrow')
    apply hsettled
  | sweepYoung _ _ _ _ => exact h.goto fun _ _ => trivial
  | abandon _ hrow hunsettled _ _ =>
    have hlater := h.mono (le_refl _) (by assumption) s.world.usdc
    apply hlater.goto
    intro row hrow'
    obtain rfl := Option.some.inj (hrow.symm.trans hrow')
    apply h.ended hunsettled (hcare _ (State.in_self hrow))
  | tick hledger _ => exact h.mono hledger _ s.world.usdc
  | applied hjob hpending hbuyer hseller hcall => exact h.land hjob hpending hbuyer hseller hcall
  | spent hpending hstatus => exact h.spend hpending hstatus
  | outside => exact h.mono (le_refl _) s.now _

/-- Every step that meets the condition keeps the invariant. -/
theorem Invariant.step (h : Invariant group s) {reconcileGraceMs : ℕ} {l : Label}
    (hstep : SettleStep reconcileGraceMs s l s') (hcare : Careful group s l s') :
  Invariant group s'
  := by
  cases hstep with
  | work hwork => exact h.work hwork hcare
  | persist hphase _ => exact (h.persist hphase _).goto fun _ _ => trivial
  | persistUnseen hphase _ => exact (h.persist hphase _).throws _ _
  | fail hphase _ => exact (h.fail hphase _).goto fun _ _ => trivial
  | failUnseen hphase _ => exact (h.fail hphase _).throws _ _

end Invariant

/-! ### What the steps do to the tables -/

/-- The work on the trades leaves the tables. -/
theorem WorkStep.db {reconcileGraceMs : ℕ} {s s' : State} {l : Label}
    (hstep : WorkStep reconcileGraceMs s l s') :
  s'.db = s.db
  := by
  cases hstep with
  | _ => rfl

/-- What a step does to the database. -/
theorem SettleStep.db_cases {reconcileGraceMs : ℕ} {s s' : State} {l : Label}
    (hstep : SettleStep reconcileGraceMs s l s') :
  s'.db = s.db
    ∨ (∃ id row txHash, s.db.trades[id]? = some row ∧ s'.db = persistSettled id row txHash s.db)
    ∨ ∃ id row reason disposition, s.db.trades[id]? = some row
      ∧ s'.db = failTrade id row reason disposition s.db
  := by
  cases hstep with
  | work hwork => exact .inl hwork.db
  | persist _ hrow | persistUnseen _ hrow => exact .inr (.inl ⟨_, _, _, hrow, rfl⟩)
  | fail _ hrow | failUnseen _ hrow => exact .inr (.inr ⟨_, _, _, _, hrow, rfl⟩)

/-- The steps of the work on the trades change their rows as `Updates` says. -/
theorem SettleStep.updates {reconcileGraceMs : ℕ} {s s' : State} {l : Label}
    (hstep : SettleStep reconcileGraceMs s l s') :
  Updates s.db.trades s'.db.trades
  := by
  rcases hstep.db_cases with heq | ⟨id, row, txHash, _, heq⟩ | ⟨id, row, reason,
    disposition, _, heq⟩
  · rw [heq]
    exact .inl rfl
  · rw [heq]
    apply persistSettled_updates
  · rw [heq]
    apply failTrade_updates

end Marketplace
