import Tove.Offerings.Book

/-!
# The rows follow the contract

The rows agree with the contract as long as the cancellations are orderly: a row is flipped to
`canceling` only while the offering is open, and it is put back to `escrowed` only when no other
attempt to cancel the bid can have any effect. Then a row that is put back has not been
refunded.

A settlement deactivates all bids. From then on the rows agree with the contract as it was
before the settlement.
-/

namespace Offerings

open Js Soroban Clearing Relay Transition Escrow

open Bids (CancelRow Chain cancelJob)

/-! ### Orderly cancellations -/

/-- A transaction of the job has taken effect, or it can still do so before the signature
expires. -/
def CancelTask.Outstanding (ledger : ℕ) (t : CancelTask) (tx : ℕ) : Prop :=
  t.txs[tx]? = some .success
    ∨ (t.txs[tx]? = some .pending ∧ ledger ≤ t.signatureExpirationLedger)

/-- No attempt of the job is running, and none of its transactions is outstanding. -/
structure CancelTask.Quiet (ledger : ℕ) (t : CancelTask) : Prop where
  idle : t.phase = .idle
  not_outstanding : ∀ tx, ¬ t.Outstanding ledger tx

/-- A row is flipped only while the offering is open. It is put back only when the other jobs of
the bid are quiet, and no transaction of an earlier attempt of the job is outstanding. -/
def Orderly (s : State) (l : Label) (_ : State) : Prop :=
  match l with
  | .flip _ => s.offering.status = .opened
  | .revert bidId => ∀ t ∈ s.tasks, t.bidId = bidId → t.Quiet s.ledger
  | .work k .latch => ∀ t, s.tasks[k]? = some t →
      (∀ tx < t.earlier, ¬ t.Outstanding s.ledger tx)
      ∧ ∀ j t', s.tasks[j]? = some t' → j ≠ k → t'.bidId = t.bidId → t'.Quiet s.ledger
  | _ => True

/-! ### The invariant -/

/-- The contract, as it was before its settlement. -/
def State.book (s : State) : World := s.settlement.elim s.chain.world Settled.before

theorem State.book_of_unsettled {s : State} (h : s.settlement = none) :
  s.book = s.chain.world
  := by rw [book, h, Option.elim_none]

/-- A request or a job is about the bid of a row. -/
def RowOf (offering : Offering) (bids : List OfferingBid) (bidId : JsString) (row : CancelRow) :
    Prop :=
  row.escrowContract = offering.escrowContractAddress
    ∧ ∃ bid ∈ bids, bid.id = bidId ∧ bid.chainBidId = some row.chainBidId

/-- What is known of a job. Unless it is quiet, its row is being canceled; and when one of its
transactions has succeeded, the bid has been refunded. -/
structure TaskSound (offering : Offering) (ledger : ℕ) (w : World) (bids : List OfferingBid)
    (t : CancelTask) : Prop where
  rowOf : RowOf offering bids t.bidId t.row
  own : ∀ chain status, Own (Relay.State.mk ledger chain t.txs status t.attemptsMade t.phase
    t.earlier : Relay.State Chain) t.phase
  working : ¬ t.Quiet ledger → ∀ bid ∈ bids, bid.id = t.bidId →
    bid.status = .canceling ∨ bid.status = .canceled
  refunded : .success ∈ t.txs → ∃ b, w.bids t.row.chainBidId = some b ∧ b.active = false

/-- A row that is being canceled stands for an active bid, unless a transaction of one of its
jobs has succeeded. -/
def Traced (w : World) (tasks : List CancelTask) (bid : OfferingBid) : Prop :=
  bid.status = .canceling → ∀ id b, Backed w bid id b →
    b.active = true ∨ ∃ t ∈ tasks, t.bidId = bid.id ∧ .success ∈ t.txs

/-- What holds of the rows, the cancellations and the contract. -/
structure Invariant (offering : Offering) (s : State) : Prop where
  reachable : (Escrow.system offering.escrowContractAddress).Reachable s.chain.world
  tables : Tables s.book s.bids
  requests : ∀ r bidId row, s.requests r = .checked bidId row ∨ s.requests r = .flipped bidId row →
    RowOf offering s.bids bidId row
  tasks : ∀ t ∈ s.tasks, TaskSound offering s.ledger s.book s.bids t
  traced : ∀ bid ∈ s.bids, Traced s.book s.tasks bid
  landed : ∀ c, s.settlement = some c →
    (Escrow.system offering.escrowContractAddress).Reachable c.before
      ∧ closeAndSettle offering.escrowContractAddress c.env c.clearingPrice c.allocations c.before
        = .ok (s.chain.world, c.effects)
  unsettled : s.settlement = none → s.chain.world.status ≠ .Settled

/-! ### Jobs -/

section Tasks

variable {offering : Offering} {ledger ledger' : ℕ} {w w' : World} {bids : List OfferingBid}
  {bidId : JsString} {row : CancelRow} {t : CancelTask}

theorem CancelTask.Quiet.mono (h : t.Quiet ledger) (hle : ledger ≤ ledger') :
  t.Quiet ledger'
  := by
  refine ⟨h.idle, fun tx houtstanding => h.not_outstanding tx ?_⟩
  rcases houtstanding with hsuccess | ⟨hpending, hledger⟩
  · exact .inl hsuccess
  · exact .inr ⟨hpending, hle.trans hledger⟩

/-- No transaction of a quiet job has succeeded. -/
theorem CancelTask.Quiet.not_success (h : t.Quiet ledger) :
  .success ∉ t.txs
  := by
  intro hsuccess
  obtain ⟨tx, htx⟩ := List.mem_iff_getElem?.mp hsuccess
  apply h.not_outstanding tx (.inl htx)

/-- A job that has just been queued is quiet. -/
theorem quiet_queuedTask {verdict : Option TransferErrorReason} {expiry : ℕ} :
  (queuedTask bidId row verdict expiry).Quiet ledger
  := by
  refine ⟨rfl, fun tx houtstanding => ?_⟩
  rcases houtstanding with hsuccess | ⟨hpending, _⟩
  · cases hsuccess
  · cases hpending

/-- Updates of the rows keep what requests and jobs are about. -/
theorem RowOf.map (h : RowOf offering bids bidId row) {f : OfferingBid → OfferingBid}
    (hkey : ∀ bid, (f bid).key = bid.key) :
  RowOf offering (bids.map f) bidId row
  := by
  obtain ⟨hcontract, bid, hbid, hid, hchain⟩ := h
  exact ⟨hcontract, f bid, List.mem_map_of_mem hbid, (id_of_key (hkey bid)).trans hid,
    (chainBidId_of_key (hkey bid)).trans hchain⟩

end Tasks

/-! ### The status of one row -/

section SetStatus

variable {bids : List OfferingBid} {bid : OfferingBid}

theorem mem_setStatus {id : JsString} {status : BidStatus} {bid' : OfferingBid} :
  bid' ∈ setStatus bids id status
    ↔ ∃ bid ∈ bids, bid' = if bid.id = id then { bid with status } else bid
  := by simp [setStatus, eq_comm]

/-- Nothing changes when the row has the status already. -/
theorem setStatus_self (h : Keyed bids) (hbid : bid ∈ bids) :
  setStatus bids bid.id bid.status = bids
  := by
  refine Eq.trans (List.map_congr_left ?_) (List.map_id bids)
  intro bid' hbid'
  split
  · next hid =>
    obtain rfl := h.eq_of_id hbid' hbid hid
    rfl
  · rfl

/-- A statement that updates the row with an id sets its status. -/
theorem casBid_status (h : Keyed bids) (hbid : bid ∈ bids) (expected target : BidStatus) :
  casBid bids bid.id expected (fun b => { b with status := target })
    = setStatus bids bid.id (cas expected target bid.status)
  := by
  apply List.map_congr_left
  intro bid' hbid'
  by_cases hid : bid'.id = bid.id
  · obtain rfl := h.eq_of_id hbid' hbid hid
    by_cases hstatus : bid'.status = expected
    · simp [hstatus, cas]
    · simp [hstatus, cas]
  · simp [hid]

end SetStatus

/-! ### Steps that do not touch the contract -/

section Invariant

variable {offering : Offering} {s : State} (h : Invariant offering s)

include h

/-- The invariant is about the rows, the cancellations and the contract. -/
theorem Invariant.frame {row : OfferingRow} {triggers : ℕ → TriggerPhase}
    {attempts : ℕ → SettlePhase} {txs : List (Call × TxStatus)} :
  Invariant offering { s with offering := row, triggers, attempts, txs }
  := ⟨h.reachable, h.tables, h.requests, h.tasks, h.traced, h.landed, h.unsettled⟩

/-- A request enters a phase. -/
theorem Invariant.request {r : ℕ} {phase : CancelPhase}
    (hrow : ∀ bidId row, phase = .checked bidId row ∨ phase = .flipped bidId row →
      RowOf offering s.bids bidId row) :
  Invariant offering (s.request r phase)
  := by
  refine ⟨h.reachable, h.tables, ?_, h.tasks, h.traced, h.landed, h.unsettled⟩
  intro r' bidId row hphase
  rcases eq_or_ne r' r with rfl | hne
  · simp only [State.request, Function.update_self] at hphase
    apply hrow bidId row hphase
  · simp only [State.request, Function.update_of_ne hne] at hphase
    apply h.requests r' bidId row hphase

/-- A job is queued. -/
theorem Invariant.enqueue {bidId : JsString} {row : CancelRow}
    (hrow : RowOf offering s.bids bidId row) (verdict : Option TransferErrorReason) (expiry : ℕ) :
  Invariant offering (s.enqueue (queuedTask bidId row verdict expiry))
  := by
  refine ⟨h.reachable, h.tables, h.requests, ?_, ?_, h.landed, h.unsettled⟩
  · intro t ht
    rcases List.mem_append.mp ht with ht | ht
    · apply h.tasks t ht
    · obtain rfl := List.mem_singleton.mp ht
      exact ⟨hrow, fun _ _ => trivial, fun hbusy => absurd quiet_queuedTask hbusy, nofun⟩
  · intro bid hbid hstatus id b hb
    rcases h.traced bid hbid hstatus id b hb with hactive | ⟨t, ht, hid, hsuccess⟩
    · exact .inl hactive
    · exact .inr ⟨t, List.mem_append_left _ ht, hid, hsuccess⟩

/-- The rows are updated, and they say what is so. -/
theorem Invariant.rows {f : OfferingBid → OfferingBid} (hkey : ∀ bid, (f bid).key = bid.key)
    (hstanding : ∀ bid ∈ s.bids, Standing s.book (f bid))
    (hworking : ∀ t ∈ s.tasks, ¬ t.Quiet s.ledger → ∀ bid ∈ s.bids, bid.id = t.bidId →
      (f bid).status = .canceling ∨ (f bid).status = .canceled)
    (htraced : ∀ bid ∈ s.bids, Traced s.book s.tasks (f bid)) :
  Invariant offering (s.withBids (s.bids.map f))
  := by
  refine ⟨h.reachable, h.tables.map hkey hstanding, ?_, ?_, ?_, h.landed, h.unsettled⟩
  · intro r bidId row hphase
    apply (h.requests r bidId row hphase).map hkey
  · intro t ht
    obtain ⟨hrow, hown, hbusy, hrefunded⟩ := h.tasks t ht
    refine ⟨hrow.map hkey, hown, ?_, hrefunded⟩
    intro hquiet bid' hbid' hid
    obtain ⟨bid, hbid, rfl⟩ := List.mem_map.mp hbid'
    rw [id_of_key (hkey bid)] at hid
    apply hworking t ht hquiet bid hbid hid
  · intro bid' hbid'
    obtain ⟨bid, hbid, rfl⟩ := List.mem_map.mp hbid'
    apply htraced bid hbid

/-- The status of one row is set, and it says what is so. -/
theorem Invariant.status {bid : OfferingBid} (hbid : bid ∈ s.bids) {status : BidStatus}
    (hstanding : Standing s.book { bid with status })
    (hworking : ∀ t ∈ s.tasks, ¬ t.Quiet s.ledger → t.bidId = bid.id →
      status = .canceling ∨ status = .canceled)
    (htraced : Traced s.book s.tasks { bid with status }) :
  Invariant offering (s.withBids (setStatus s.bids bid.id status))
  := by
  apply h.rows
  · intro bid'
    split
    · rfl
    · rfl
  · intro bid' hbid'
    split
    · next hid =>
      obtain rfl := h.tables.keyed.eq_of_id hbid' hbid hid
      exact hstanding
    · apply h.tables.standing bid' hbid'
  · intro t ht hbusy bid' hbid' hid
    split
    · next hid' => apply hworking t ht hbusy (hid.symm.trans hid')
    · apply (h.tasks t ht).working hbusy bid' hbid' hid
  · intro bid' hbid'
    split
    · next hid =>
      obtain rfl := h.tables.keyed.eq_of_id hbid' hbid hid
      exact htraced
    · apply h.traced bid' hbid'

/-- The row of an active bid is flipped. -/
theorem Invariant.flip {bid : OfferingBid} (hbid : bid ∈ s.bids)
    (hstatus : bid.status = .escrowed) :
  Invariant offering (s.withBids (casCanceling s.bids bid.id))
  := by
  obtain ⟨id, b, hb, hactive⟩ := h.tables.escrowed hbid hstatus
  rw [casCanceling, casBid_status h.tables.keyed hbid, hstatus, cas_self]
  apply h.status hbid
  · exact .inl ⟨id, b, hb.congr rfl, trivial⟩
  · exact fun _ _ _ _ => .inl rfl
  · intro _ id' b' hb'
    obtain ⟨rfl, rfl⟩ := hb.unique (hb'.congr rfl)
    exact .inl hactive

/-- A row is put back, when all jobs of its bid are quiet. -/
theorem Invariant.putBack {bid : OfferingBid} (hbid : bid ∈ s.bids)
    (hquiet : ∀ t ∈ s.tasks, t.bidId = bid.id → t.Quiet s.ledger) :
  Invariant offering (s.withBids (setStatus s.bids bid.id (cas .canceling .escrowed bid.status)))
  := by
  by_cases hstatus : bid.status = .canceling
  · rw [hstatus, cas_self]
    apply h.status hbid
    · rcases h.tables.standing bid hbid with ⟨id, b, hb, _⟩ | ⟨_, hnone⟩
      · rcases h.traced bid hbid hstatus id b hb with hactive | ⟨t, ht, hid, hsuccess⟩
        · exact .inl ⟨id, b, hb.congr rfl, hactive⟩
        · cases (hquiet t ht hid).not_success hsuccess
      · simp [hstatus] at hnone
    · intro t ht hbusy hid
      cases hbusy (hquiet t ht hid)
    · nofun
  · rw [cas, if_neg hstatus, setStatus_self h.tables.keyed hbid]
    exact h

/-- A row is canceled, when a transaction of one of its jobs has succeeded. -/
theorem Invariant.confirm {bid : OfferingBid} (hbid : bid ∈ s.bids) {t : CancelTask}
    (ht : t ∈ s.tasks) (hid : bid.id = t.bidId) (hsuccess : .success ∈ t.txs) :
  Invariant offering (s.withBids (setStatus s.bids bid.id (cas .canceling .canceled bid.status)))
  := by
  by_cases hstatus : bid.status = .canceling
  · rw [hstatus, cas_self]
    apply h.status hbid
    · rcases h.tables.standing bid hbid with ⟨id, b, hb, _⟩ | ⟨_, hnone⟩
      · obtain ⟨⟨_, bid', hbid', hid', hchain⟩, _, _, hrefunded⟩ := h.tasks t ht
        obtain rfl := h.tables.keyed.eq_of_id hbid' hbid (hid'.trans hid.symm)
        obtain ⟨b', hb', hinactive⟩ := hrefunded hsuccess
        rw [Option.some.inj (hchain.symm.trans hb.chainBidId_eq)] at hb'
        obtain rfl := Option.some.inj (hb.bid_eq.symm.trans hb')
        exact .inl ⟨id, b, hb.congr rfl, hinactive⟩
      · simp [hstatus] at hnone
    · exact fun _ _ _ _ => .inr rfl
    · nofun
  · rw [cas, if_neg hstatus, setStatus_self h.tables.keyed hbid]
    exact h

/-- The rows are settled. -/
theorem Invariant.outcome (winners : List ClearingWinner) :
  Invariant offering (s.withBids (s.bids.map (OfferingBid.outcome winners)))
  := by
  apply h.rows (outcome_key winners)
  · intro bid hbid
    apply h.tables.standing_outcome winners hbid
  · intro t ht hbusy bid hbid hid
    have hstatus := (h.tasks t ht).working hbusy bid hbid hid
    rw [outcome_of_ne]
    · exact hstatus
    · rcases hstatus with hstatus | hstatus
      · simp [hstatus]
      · simp [hstatus]
  · intro bid hbid
    by_cases hstatus : bid.status = .escrowed
    · rcases outcome_cases winners hstatus with ⟨x, _, _, heq⟩ | ⟨_, heq⟩
      · rw [heq]
        nofun
      · rw [heq]
        nofun
    · rw [outcome_of_ne hstatus]
      apply h.traced bid hbid

end Invariant

/-! ### Steps of a job -/

section Work

variable {offering : Offering} {s : State} {t : CancelTask}

/-- A bid of the open contract is refunded. -/
structure Refunds (w w' : World) (id : ℕ) (b : Bid) : Prop where
  unclosed : w.status = .Open
  status_eq : w'.status = w.status
  bid_eq : w.bids id = some b
  bids_eq : w'.bids = Function.update w.bids id (some { b with active := false })

/-- What a call of a job does. -/
theorem refunds_of_call {env : Env} {c c' : Chain} (hcall : t.job.call env c = some c') :
  (∃ b, Refunds c.world c'.world t.row.chainBidId b)
    ∧ ∃ l, Escrow.Step t.row.escrowContract c.world l c'.world
  := by
  simp only [CancelTask.job, cancelJob] at hcall
  split at hcall
  · next hcancel =>
    obtain rfl := Option.some.inj hcall
    constructor
    · obtain ⟨_, hopen, b, hb, _, _, _, _, _, rfl, _⟩ := cancelBid_eq_ok.mp hcancel
      exact ⟨b, hopen, rfl, hb, rfl⟩
    · exact ⟨_, .call (show Call.FromOutside _ (.cancelBid _ _) from trivial) hcancel⟩
  · cases hcall

/-- What is inactive stays inactive. -/
theorem Refunds.inactive {w w' : World} {id : ℕ} {b : Bid} (h : Refunds w w' id b) {k : ℕ}
    (hk : ∃ b', w.bids k = some b' ∧ b'.active = false) :
  ∃ b', w'.bids k = some b' ∧ b'.active = false
  := by
  rw [h.bids_eq]
  rcases eq_or_ne k id with rfl | hne
  · exact ⟨_, Function.update_self .., rfl⟩
  · rw [Function.update_of_ne hne]
    exact hk

/-- The contract has been settled only when the settlement is on record. -/
theorem Invariant.settlement_eq_none (h : Invariant offering s)
    (hstatus : s.chain.world.status ≠ .Settled) :
  s.settlement = none
  := by
  cases hsettlement : s.settlement with
  | none => rfl
  | some c =>
    obtain ⟨_, hs⟩ := settlement_of_eq_ok (h.landed c hsettlement).2
    cases hstatus (by rw [hs.world_eq])

/-- What is known of a job is still known later. -/
theorem TaskSound.later {ledger ledger' : ℕ} {w w' : World} {bids : List OfferingBid}
    (h : TaskSound offering ledger w bids t) (hle : ledger ≤ ledger')
    (hinactive : ∀ k, (∃ b, w.bids k = some b ∧ b.active = false) →
      ∃ b, w'.bids k = some b ∧ b.active = false) :
  TaskSound offering ledger' w' bids t
  := ⟨h.rowOf, h.own, fun hbusy => h.working fun hquiet => hbusy (hquiet.mono hle),
    fun hsuccess => hinactive _ (h.refunded hsuccess)⟩

/-- A row is traced when the jobs that have succeeded are still there. -/
theorem Traced.later {w : World} {tasks tasks' : List CancelTask} {bid : OfferingBid}
    (h : Traced w tasks bid) (htasks : ∀ t ∈ tasks, .success ∈ t.txs →
      ∃ t' ∈ tasks', t'.bidId = t.bidId ∧ .success ∈ t'.txs) :
  Traced w tasks' bid
  := by
  intro hstatus id b hb
  rcases h hstatus id b hb with hactive | ⟨t, ht, hid, hsuccess⟩
  · exact .inl hactive
  · obtain ⟨t', ht', hid', hsuccess'⟩ := htasks t ht hsuccess
    exact .inr ⟨t', ht', hid'.trans hid, hsuccess'⟩

/-- A job that is replaced by its next state takes what has succeeded along. -/
theorem success_set {tasks : List CancelTask} {k : ℕ} (hk : tasks[k]? = some t) {t' : CancelTask}
    (hid : t'.bidId = t.bidId) (hsuccess : .success ∈ t.txs → .success ∈ t'.txs) :
  ∀ t₁ ∈ tasks, .success ∈ t₁.txs →
    ∃ t₂ ∈ tasks.set k t', t₂.bidId = t₁.bidId ∧ .success ∈ t₂.txs
  := by
  intro t₁ ht₁ hsuccess₁
  obtain ⟨j, hj⟩ := List.mem_iff_getElem?.mp ht₁
  rcases eq_or_ne k j with rfl | hne
  · obtain rfl := Option.some.inj (hk.symm.trans hj)
    exact ⟨t', mem_set_of_getElem? hk _, hid, hsuccess hsuccess₁⟩
  · have hj' : (tasks.set k t')[j]? = some t₁ := by rw [List.getElem?_set_ne hne, hj]
    exact ⟨t₁, List.mem_of_getElem? hj', rfl, hsuccess₁⟩

section Moved

variable (h : Invariant offering s) {k : ℕ} (hk : s.tasks[k]? = some t) {bid : OfferingBid}
  (hbid : bid ∈ s.bids) (hid : bid.id = t.bidId) {l : Relay.Label} {r : Relay.State Chain}
  (hstep : Relay.Step t.job (s.ofTask t bid.status) l r)

include h hk hbid hid

/-- The row of the job is the one that it is about. -/
theorem Invariant.chainBidId_of_task :
  t.row.escrowContract = offering.escrowContractAddress
    ∧ bid.chainBidId = some t.row.chainBidId
  := by
  obtain ⟨hcontract, bid', hbid', hid', hchain⟩ := (h.tasks t (List.mem_of_getElem? hk)).rowOf
  obtain rfl := h.tables.keyed.eq_of_id hbid' hbid (hid'.trans hid.symm)
  exact ⟨hcontract, hchain⟩

include hstep

/-- Unless the job is quiet after a step, its row is being canceled. -/
theorem Invariant.working_moved (hbusy : ¬ (t.moved r).Quiet r.ledger) :
  bid.status = .canceling ∨ bid.status = .canceled
  := by
  by_contra hstatus
  have hquiet : t.Quiet s.ledger := by
    by_contra hquiet
    apply hstatus ((h.tasks t (List.mem_of_getElem? hk)).working hquiet bid hbid hid)
  have hidle : r.phase = .idle := by
    by_contra hne
    obtain ⟨hphase | hcanceling, _⟩ := hstep.busy hne
    · apply hphase hquiet.idle
    · apply hstatus (.inl hcanceling)
  refine hbusy ⟨hidle, fun tx houtstanding => ?_⟩
  rcases hstep.outstanding houtstanding with houtstanding | hphase
  · apply hquiet.not_outstanding tx houtstanding
  · apply hphase hquiet.idle

/-- What is known of the jobs after a step of one of them. -/
theorem Invariant.tasks_moved {w : World}
    (hinactive : ∀ k, (∃ b, s.book.bids k = some b ∧ b.active = false) →
      ∃ b, w.bids k = some b ∧ b.active = false)
    (hrefunded : .success ∈ r.txs → ∃ b, w.bids t.row.chainBidId = some b ∧ b.active = false) :
  ∀ t' ∈ s.tasks.set k (t.moved r), TaskSound offering r.ledger w s.bids t'
  := by
  intro t' ht'
  have ht := h.tasks t (List.mem_of_getElem? hk)
  have hown := Own.step (ht.own s.chain bid.status) hstep
  rcases List.mem_or_eq_of_mem_set ht' with ht' | rfl
  · apply (h.tasks t' ht').later hstep.ledger_le hinactive
  · refine ⟨ht.rowOf, fun _ _ => hown, ?_, hrefunded⟩
    intro hbusy bid' hbid' hid'
    obtain rfl := h.tables.keyed.eq_of_id hbid' hbid (hid'.trans hid.symm)
    apply h.working_moved hk hbid hid hstep hbusy

/-- A transaction of a job is applied, and its bid is refunded. -/
theorem Invariant.applied {env : Env} (hcall : t.job.call env s.chain = some r.chain)
    (hstatus : bid.status = .canceling ∨ bid.status = .canceled) (hsuccess : .success ∈ r.txs) :
  Invariant offering { s with
    ledger := r.ledger
    chain := r.chain
    tasks := s.tasks.set k (t.moved r) }
  := by
  obtain ⟨⟨b, hrefunds⟩, l, hl⟩ := refunds_of_call hcall
  obtain ⟨hcontract, hchain⟩ := h.chainBidId_of_task hk hbid hid
  have hnone : s.settlement = none := by
    apply h.settlement_eq_none
    rw [hrefunds.unclosed]
    nofun
  have hbook := State.book_of_unsettled hnone
  have hbook' : ({ s with
      ledger := r.ledger
      chain := r.chain
      tasks := s.tasks.set k (t.moved r) } : State).book = r.chain.world :=
    State.book_of_unsettled hnone
  refine ⟨?_, ?_, h.requests, ?_, ?_, ?_, ?_⟩
  · apply h.reachable.step (hcontract ▸ hl)
  · have htables := h.tables
    rw [hbook] at htables
    rw [hbook']
    apply htables.cancel hbid hchain hstatus hrefunds.bid_eq hrefunds.bids_eq
  · rw [hbook']
    apply h.tasks_moved hk hbid hid hstep
    · intro k hinactive
      rw [hbook] at hinactive
      apply hrefunds.inactive hinactive
    · intro _
      rw [hrefunds.bids_eq]
      exact ⟨_, Function.update_self .., rfl⟩
  · intro bid' hbid' hcanceling id b' hb'
    by_cases hsame : bid'.id = t.bidId
    · exact .inr ⟨t.moved r, mem_set_of_getElem? hk _, hsame.symm, hsuccess⟩
    · have hne : id ≠ t.row.chainBidId := by
        rintro rfl
        apply hsame
        rw [h.tables.keyed.eq_of_chainBidId hbid' hbid hb'.chainBidId_eq hchain, hid]
      have hkept : s.book.bids id = some b' := by
        rw [hbook, ← hb'.bid_eq, hbook', hrefunds.bids_eq, Function.update_of_ne hne]
      have hsucceeded := success_set hk (show (t.moved r).bidId = t.bidId from rfl)
        fun _ => hsuccess
      apply (h.traced bid' hbid').later hsucceeded hcanceling id b'
      apply hb'.frame hkept rfl rfl rfl
  · intro c hc
    cases hnone.symm.trans hc
  · intro _
    rw [hrefunds.status_eq, hrefunds.unclosed]
    nofun

/-- A step of a job, before its row is updated. -/
theorem Invariant.moved :
  Invariant offering { s with
    ledger := r.ledger
    chain := r.chain
    tasks := s.tasks.set k (t.moved r) }
  := by
  have ht := h.tasks t (List.mem_of_getElem? hk)
  obtain ⟨hchain, hsuccess, _⟩ | ⟨⟨env, hcall⟩, _, hsuccess, tx, houtstanding⟩ :=
    hstep.effect (fun _ _ => id) (ht.own s.chain bid.status)
  · have hchain : r.chain = s.chain := hchain
    rw [hchain]
    refine ⟨h.reachable, h.tables, h.requests, ?_, ?_, h.landed, h.unsettled⟩
    · apply h.tasks_moved hk hbid hid hstep fun _ => id
      intro hmem
      apply ht.refunded (hsuccess.mp hmem)
    · intro bid' hbid'
      apply (h.traced bid' hbid').later
      apply success_set hk (show (t.moved r).bidId = t.bidId from rfl) hsuccess.mpr
  · have hbusy : ¬ t.Quiet s.ledger := fun hquiet => hquiet.not_outstanding tx houtstanding
    apply h.applied hk hbid hid hstep hcall (ht.working hbusy bid hbid hid) hsuccess

end Moved

/-- A step of a job keeps the invariant, when the row is put back only in an orderly way. -/
theorem Invariant.work (h : Invariant offering s) {k : ℕ} (hk : s.tasks[k]? = some t)
    {bid : OfferingBid} (hbid : bid ∈ s.bids) (hid : bid.id = t.bidId) {l : Relay.Label}
    {r : Relay.State Chain} (hstep : Relay.Step t.job (s.ofTask t bid.status) l r)
    (horderly : Orderly s (.work k l) (s.worked k t r)) :
  Invariant offering (s.worked k t r)
  := by
  have hmoved := h.moved hk hbid hid hstep
  have ht := h.tasks t (List.mem_of_getElem? hk)
  have hle : s.ledger ≤ r.ledger := hstep.ledger_le
  have hsame : r.status = bid.status → Invariant offering (s.worked k t r) := by
    intro hstatus
    have hbids : setStatus s.bids t.bidId r.status = s.bids := by
      rw [← hid, hstatus, setStatus_self h.tables.keyed hbid]
    rw [State.worked, hbids]
    exact hmoved
  obtain ⟨_, hiff, hstatus | ⟨rfl, hidle, htxs, hstatus, hnone⟩ | ⟨hsuccess, hstatus⟩⟩
      | ⟨_, hstatus, _⟩ := hstep.effect (fun _ _ => id) (ht.own s.chain bid.status)
  · apply hsame hstatus
  · obtain ⟨hearlier, hothers⟩ := horderly t hk
    rw [State.worked, hstatus, ← hid]
    apply hmoved.putBack hbid
    intro t' ht' hid'
    obtain ⟨j, hj⟩ := List.mem_iff_getElem?.mp ht'
    rcases eq_or_ne j k with rfl | hne
    · obtain ⟨hlt, _⟩ := List.getElem?_eq_some_iff.mp hk
      rw [List.getElem?_set_self hlt] at hj
      obtain rfl := Option.some.inj hj
      refine ⟨hidle, fun tx houtstanding => hnone hearlier tx ?_⟩
      rw [CancelTask.Outstanding, CancelTask.moved, htxs] at houtstanding
      apply houtstanding.imp_right (And.imp_right hle.trans)
    · rw [List.getElem?_set_ne hne.symm] at hj
      apply (hothers j t' hj hne (hid'.trans hid)).mono hle
  · rw [State.worked, hstatus, ← hid]
    apply hmoved.confirm hbid (mem_set_of_getElem? hk _) hid (hiff.mpr hsuccess)
  · apply hsame hstatus

end Work

/-! ### The invariant holds -/

section Run

variable {offering : Offering} {s s' : State} {l : Label}

/-- A call of the settle worker takes effect only before the settlement. -/
theorem Invariant.settlement_of_call (h : Invariant offering s) {env : Env} {c : Call}
    (hc : c = .closeOffering ∨ ∃ P args, c = .closeAndSettle P args) {result : World × List Effect}
    (hcall : perform offering.escrowContractAddress env c s.chain.world = .ok result) :
  s.settlement = none
  := by
  apply h.settlement_eq_none
  rcases hc with rfl | ⟨P, args, rfl⟩
  · obtain ⟨_, hopen, _⟩ := closeOffering_eq_ok.mp hcall
    simp [hopen]
  · obtain ⟨_, hclosed, _⟩ := closeAndSettle_eq_ok.mp hcall
    simp [hclosed]

/-- The contract is closed. -/
theorem Invariant.landClose (h : Invariant offering s) {env : Env} {w : World}
    {effects : List Escrow.Effect}
    (hcall : perform offering.escrowContractAddress env .closeOffering s.chain.world
      = .ok (w, effects)) :
  Invariant offering (s.landed env .closeOffering w effects)
  := by
  have hnone := h.settlement_of_call (.inl rfl) hcall
  obtain ⟨_, _, hw, _⟩ := closeOffering_eq_ok.mp hcall
  have hbids : w.bids = s.book.bids := by rw [State.book_of_unsettled hnone, ← hw]
  have hbook : (s.landed env .closeOffering w effects).book = w := State.book_of_unsettled hnone
  refine ⟨?_, ?_, h.requests, ?_, ?_, ?_, ?_⟩
  · apply h.reachable.step
    apply Escrow.Step.call (show Call.FromOutside _ .closeOffering from trivial) hcall
  · rw [hbook]
    apply h.tables.congr hbids
  · rw [hbook]
    intro t ht
    apply (h.tasks t ht).later (le_refl _)
    intro k hinactive
    rw [hbids]
    exact hinactive
  · rw [hbook]
    intro bid hbid hstatus id b hb
    have hb' : s.book.bids id = some b := hbids ▸ hb.bid_eq
    apply h.traced bid hbid hstatus id b (hb.frame hb' rfl rfl rfl)
  · intro c hc
    cases hnone.symm.trans hc
  · intro _
    show w.status ≠ .Settled
    rw [← hw]
    nofun

/-- The contract is settled, and the rows still agree with it as it was before. -/
theorem Invariant.landSettle (h : Invariant offering s) {env : Env} {P : ℤ} {args : List (ℕ × ℤ)}
    {w : World} {effects : List Escrow.Effect}
    (hcall : perform offering.escrowContractAddress env (.closeAndSettle P args) s.chain.world
      = .ok (w, effects)) :
  Invariant offering (s.landed env (.closeAndSettle P args) w effects)
  := by
  have hnone := h.settlement_of_call (.inr ⟨P, args, rfl⟩) hcall
  have hbook : (s.landed env (.closeAndSettle P args) w effects).book = s.book :=
    (State.book_of_unsettled hnone).symm
  refine ⟨?_, ?_, h.requests, ?_, ?_, ?_, nofun⟩
  · apply h.reachable.step
    apply Escrow.Step.call (show Call.FromOutside _ (.closeAndSettle P args) from trivial) hcall
  · rw [hbook]
    exact h.tables
  · rw [hbook]
    exact h.tasks
  · rw [hbook]
    exact h.traced
  · intro c hc
    obtain rfl := Option.some.inj hc
    exact ⟨h.reachable, hcall⟩

theorem invariant_of_opened (h : Opened offering s) :
  Invariant offering s
  := by
  have hbook := State.book_of_unsettled h.settlement
  constructor
  · exact h.reachable
  · rw [hbook]
    exact h.tables
  · intro r bidId row hphase
    rw [h.requests r] at hphase
    rcases hphase with hphase | hphase
    · cases hphase
    · cases hphase
  · rw [h.tasks]
    nofun
  · intro bid hbid hstatus
    rcases h.drained bid hbid with hdrained | hdrained | hdrained
    · cases hstatus.symm.trans hdrained
    · cases hstatus.symm.trans hdrained
    · cases hstatus.symm.trans hdrained
  · intro c hc
    cases h.settlement.symm.trans hc
  · intro _
    rw [h.unclosed]
    nofun

/-- Every orderly step keeps the invariant, when the settle worker has sent only its own calls. -/
theorem Invariant.step (h : Invariant offering s)
    (hsent : ∀ c status, (c, status) ∈ s.txs →
      c = .closeOffering ∨ ∃ P args, c = .closeAndSettle P args)
    (hstep : Step offering s l s') (horderly : Orderly s l s') :
  Invariant offering s'
  := by
  cases hstep with
  | readOffering _ _ =>
    apply h.request
    simp
  | readBid _ hfind _ hid =>
    apply h.request
    rintro bidId row (heq | heq)
    · obtain ⟨rfl, rfl⟩ := CancelPhase.checked.inj heq
      exact ⟨rfl, _, List.mem_of_find?_eq_some hfind, rfl, hid⟩
    · cases heq
  | flip hphase hbid hstatus =>
    have hrow := h.requests _ _ _ (.inl hphase)
    apply (h.flip hbid hstatus).request
    rintro bidId row (heq | heq)
    · cases heq
    · obtain ⟨rfl, rfl⟩ := CancelPhase.flipped.inj heq
      apply hrow.map
      intro bid'
      split
      · rfl
      · rfl
  | enqueue hphase =>
    apply (h.enqueue (h.requests _ _ _ (.inr hphase)) _ _).request
    simp
  | enqueueFailed hphase =>
    obtain ⟨_, bid, hbid, rfl, _⟩ := h.requests _ _ _ (.inr hphase)
    rw [casCancelFailedBackToEscrowed, casBid_status h.tables.keyed hbid]
    apply (h.putBack hbid horderly).request
    simp
  | enqueueUnseen hphase => apply h.enqueue (h.requests _ _ _ (.inr hphase))
  | refuse =>
    apply h.request
    simp
  | work hk hbid hid hwork => apply h.work hk hbid hid hwork horderly
  | trigger _ _ | inflight _ _ | active _ _ | gate _ _ | latch _ _ | reclaim _ _ | dismiss | load _ _ | advance _ | closeOffering _ _ _
  | closeAndSettle _ _ _ _ _ | fail _ _ | spent _ _ => apply h.frame
  | persist _ _ hsettle =>
    obtain rfl := settleBids_eq_some hsettle
    apply (h.outcome _).frame
  | land htx hcall =>
    rcases hsent _ _ (List.mem_of_getElem? htx) with rfl | ⟨P, args, rfl⟩
    · apply (h.landClose hcall).frame
    · apply (h.landSettle hcall).frame

end Run

end Offerings
