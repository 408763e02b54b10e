import Tove.Offerings.Custody

/-!
# The rows are the receipts of the settlement

Once the offering is no longer open and no bid is in flight, the rows of the bids do not change
until they are settled, as long as the cancellations are orderly. Therefore the clearing that is
computed again from them, after a crash, is the one with which `close_and_settle` has been
called.

An unorderly cancellation breaks this: a request reads that the offering is open, and flips its
row when the worker has already found that no bid is in flight.
-/

namespace Offerings

open Js Soroban Clearing Relay Transition Agreement Escrow

open Bids (CancelRow Chain cancelJob)

/-! ### What is final -/

/-- The rows of the bids are not going to change until they are settled. -/
def Frozen (s : State) : Prop := s.offering.status ≠ .opened ∧ AtRest s.bids

/-- The result is the clearing of rows that are not going to change. -/
def Final (offering : Offering) (s : State) (result : ClearingResult) : Prop :=
  Frozen s ∧ (s.offering.status = .subscribed →
    ∃ inputs, settleInputs s.bids = some inputs ∧ clear offering inputs = .ok result)

/-- The arguments of a call are those of a final result. -/
def Proposed (offering : Offering) (s : State) (clearingPrice : ℤ) (allocations : List (ℕ × ℤ)) :
    Prop :=
  ∃ result, Final offering s result ∧ result.clearingPriceStroops = some clearingPrice
    ∧ encodeAllocations (allocationArgs result) = .ok allocations

/-- What an attempt of the settle worker knows. -/
def Fact (offering : Offering) (s : State) : SettlePhase → Prop
  | .idle | .failing => True
  | .loaded | .closing | .closePolling _ | .checking => s.offering.status ≠ .opened
  | .listing adopted => Frozen s ∧ (adopted = true → s.settlement ≠ none)
  | .sending result _ => Final offering s result
  | .settlePolling tx result _ => Final offering s result
    ∧ ∃ clearingPrice allocations status,
      s.txs[tx]? = some (.closeAndSettle clearingPrice allocations, status)
  | .persisting result _ => Final offering s result ∧ s.settlement ≠ none

/-- What holds of the settlement. -/
structure Finality (offering : Offering) (s : State) : Prop where
  attempts : ∀ a, Fact offering s (s.attempts a)
  sent : ∀ c status, (c, status) ∈ s.txs → c = .closeOffering
    ∨ ∃ clearingPrice allocations, c = .closeAndSettle clearingPrice allocations
      ∧ Proposed offering s clearingPrice allocations
  landed : ∀ clearingPrice allocations,
    (.closeAndSettle clearingPrice allocations, .success) ∈ s.txs → s.settlement ≠ none
  settlement : ∀ c, s.settlement = some c → Proposed offering s c.clearingPrice c.allocations
  unsettled : s.offering.status ≠ .settled → Unsettled s.bids
  settled : s.offering.status = .settled → ∃ c, s.settlement = some c ∧ Receipts c s.bids

/-! ### What every step keeps -/

/-- What a step keeps: rows that are not going to change only change when they are settled. -/
structure Kept (s s' : State) : Prop where
  started : s.offering.status ≠ .opened → s'.offering.status ≠ .opened
  rows : Frozen s → (s'.offering.status = s.offering.status ∧ s'.bids = s.bids)
    ∨ (s.offering.status = .subscribed ∧ s'.offering.status = .settled ∧ AtRest s'.bids)
  unsettled : s'.offering.status ≠ .settled → s.offering.status ≠ .settled
    ∧ (Unsettled s.bids → Unsettled s'.bids)
  settlement : ∀ c, s.settlement = some c → s'.settlement = some c
  txs : ∀ (tx : ℕ) c status, s.txs[tx]? = some (c, status) →
    ∃ status', s'.txs[tx]? = some (c, status')

section Kept

variable {offering : Offering} {s s' : State} {result : ClearingResult} {P : ℤ}
  {args : List (ℕ × ℤ)}

theorem Frozen.kept (h : Frozen s) (hkept : Kept s s') :
  Frozen s'
  := by
  use hkept.started h.1
  rcases hkept.rows h with ⟨_, hbids⟩ | ⟨_, _, hrest⟩
  · rw [hbids]
    exact h.2
  · exact hrest

theorem Final.kept (h : Final offering s result) (hkept : Kept s s') :
  Final offering s' result
  := by
  refine ⟨h.1.kept hkept, fun hsubscribed => ?_⟩
  rcases hkept.rows h.1 with ⟨hstatus, hbids⟩ | ⟨_, hsettled, _⟩
  · rw [hbids]
    apply h.2 (hstatus.symm.trans hsubscribed)
  · cases hsubscribed.symm.trans hsettled

theorem Proposed.kept (h : Proposed offering s P args) (hkept : Kept s s') :
  Proposed offering s' P args
  := by
  obtain ⟨result, hfinal, hargs⟩ := h
  exact ⟨result, hfinal.kept hkept, hargs⟩

theorem Kept.settlement_ne (hkept : Kept s s') (h : s.settlement ≠ none) :
  s'.settlement ≠ none
  := by
  obtain ⟨c, hc⟩ := Option.ne_none_iff_exists'.mp h
  simp [hkept.settlement c hc]

theorem Fact.kept {phase : SettlePhase} (h : Fact offering s phase) (hkept : Kept s s') :
  Fact offering s' phase
  := by
  cases phase with
  | idle | failing => trivial
  | loaded | closing | closePolling _ | checking => exact hkept.started h
  | listing _ => exact ⟨h.1.kept hkept, fun hadopted => hkept.settlement_ne (h.2 hadopted)⟩
  | sending _ _ => exact Final.kept h hkept
  | settlePolling tx _ _ =>
    obtain ⟨hfinal, P, args, status, htx⟩ := h
    obtain ⟨status', htx'⟩ := hkept.txs tx _ status htx
    exact ⟨hfinal.kept hkept, P, args, status', htx'⟩
  | persisting _ _ => exact ⟨h.1.kept hkept, hkept.settlement_ne h.2⟩

/-- A step that leaves the offering, the rows and the settlement keeps everything. -/
theorem kept_of_eq (hoffering : s'.offering.status = s.offering.status) (hbids : s'.bids = s.bids)
    (hsettlement : ∀ c, s.settlement = some c → s'.settlement = some c)
    (htxs : ∀ (tx : ℕ) c status, s.txs[tx]? = some (c, status) →
      ∃ status', s'.txs[tx]? = some (c, status')) :
  Kept s s'
  := by
  constructor
  · rw [hoffering]
    exact id
  · intro _
    exact .inl ⟨hoffering, hbids⟩
  · rw [hoffering, hbids]
    exact fun hunsettled => ⟨hunsettled, id⟩
  · exact hsettlement
  · exact htxs

/-- A step that updates the rows keeps everything, when it does not touch rows that are not
going to change. -/
theorem kept_of_bids (hoffering : s'.offering = s.offering) (hbids : Frozen s → s'.bids = s.bids)
    (hunsettled : Unsettled s.bids → Unsettled s'.bids) (hsettlement : s'.settlement = s.settlement)
    (htxs : s'.txs = s.txs) :
  Kept s s'
  := by
  constructor
  · rw [hoffering]
    exact id
  · intro hfrozen
    exact .inl ⟨by rw [hoffering], hbids hfrozen⟩
  · rw [hoffering]
    exact fun h => ⟨h, hunsettled⟩
  · rw [hsettlement]
    exact fun _ => id
  · rw [htxs]
    exact fun _ _ status htx => ⟨status, htx⟩

/-- A row that is given another status is not settled. -/
theorem Unsettled.setStatus {bids : List OfferingBid} (h : Unsettled bids) (id : JsString)
    {status : BidStatus} (hstatus : status ≠ .won ∧ status ≠ .lost) :
  Unsettled (setStatus bids id status)
  := by
  intro bid' hbid'
  obtain ⟨bid, hbid, rfl⟩ := mem_setStatus.mp hbid'
  split
  · exact hstatus
  · apply h bid hbid

theorem kept_setStatus (htables : Tables s.book s.bids) {bid : OfferingBid} (hbid : bid ∈ s.bids)
    {status : BidStatus} (hfrozen : Frozen s → status = bid.status)
    (hunsettled : bid.status ≠ .won ∧ bid.status ≠ .lost → status ≠ .won ∧ status ≠ .lost)
    (hoffering : s'.offering = s.offering) (hbids : s'.bids = setStatus s.bids bid.id status)
    (hsettlement : s'.settlement = s.settlement) (htxs : s'.txs = s.txs) :
  Kept s s'
  := by
  apply kept_of_bids hoffering _ _ hsettlement htxs
  · intro h
    rw [hbids, hfrozen h, setStatus_self htables.keyed hbid]
  · intro h
    rw [hbids]
    apply h.setStatus _ (hunsettled (h bid hbid))

/-- A row that was being canceled is given another status. -/
theorem kept_cas (htables : Tables s.book s.bids) {bid : OfferingBid} (hbid : bid ∈ s.bids)
    {target : BidStatus} (htarget : target ≠ .won ∧ target ≠ .lost)
    (hoffering : s'.offering = s.offering)
    (hbids : s'.bids = setStatus s.bids bid.id (cas .canceling target bid.status))
    (hsettlement : s'.settlement = s.settlement) (htxs : s'.txs = s.txs) :
  Kept s s'
  := by
  apply kept_setStatus htables hbid _ _ hoffering hbids hsettlement htxs
  · intro hfrozen
    rw [cas, if_neg (hfrozen.2 bid hbid).2]
  · intro hunsettled
    rw [cas]
    split
    · exact htarget
    · exact hunsettled

theorem getElem?_report {txs : List (Call × TxStatus)} {k tx : ℕ} {c c' : Call}
    {status status' status'' : TxStatus} (hk : txs[k]? = some (c, status))
    (htx : txs[tx]? = some (c', status')) :
  ∃ status₁, (txs.set k (c, status''))[tx]? = some (c', status₁)
  := by
  rcases eq_or_ne k tx with rfl | hne
  · obtain ⟨hlt, _⟩ := List.getElem?_eq_some_iff.mp hk
    obtain ⟨rfl, _⟩ := Prod.mk.inj (Option.some.inj (hk.symm.trans htx))
    exact ⟨status'', List.getElem?_set_self hlt⟩
  · exact ⟨status', by rw [List.getElem?_set_ne hne, htx]⟩

theorem status_of_stamp {row row' : OfferingRow} {stamp : Bool}
    (h : row.setSettleFailureStamp stamp = some row') :
  row'.status = row.status
  := by
  obtain ⟨_, heq⟩ := Option.ite_none_right_eq_some.mp h
  rw [← Option.some.inj heq]

/-- Orderly steps keep what is final. -/
theorem Step.kept {l : Label} (h : Invariant offering s)
    (hsent : ∀ c status, (c, status) ∈ s.txs →
      c = .closeOffering ∨ ∃ P args, c = .closeAndSettle P args)
    (hstep : Step offering s l s') (horderly : Orderly s l s') :
  Kept s s'
  := by
  cases hstep with
  | readOffering _ _ | readBid _ _ _ _ | enqueue _ | enqueueUnseen _ | refuse | trigger _ _
  | inflight _ _ | active _ _ | gate _ _ | dismiss
  | load _ _ | advance _ =>
    exact kept_of_eq rfl rfl (fun _ => id) fun _ _ status htx => ⟨status, htx⟩
  | flip _ hbid hstatus =>
    have hbids := casBid_status h.tables.keyed hbid .escrowed .canceling
    refine kept_setStatus h.tables hbid ?_ ?_ rfl hbids rfl rfl
    · intro hfrozen
      cases hfrozen.1 horderly
    · rw [hstatus, cas_self]
      simp
  | enqueueFailed hphase =>
    obtain ⟨_, bid, hbid, rfl, _⟩ := h.requests _ _ _ (.inr hphase)
    exact kept_cas h.tables hbid (by simp) rfl (casBid_status h.tables.keyed hbid _ _) rfl rfl
  | work hk hbid hid hwork =>
    rename_i k _ t bid r
    have ht := h.tasks t (List.mem_of_getElem? hk)
    have hbids : (s.worked k t r).bids = setStatus s.bids bid.id r.status := by
      rw [State.worked, hid]
    have hsame : r.status = bid.status → Kept s (s.worked k t r) := fun hstatus =>
      kept_setStatus h.tables hbid (fun _ => hstatus) (fun h => hstatus ▸ h) rfl hbids rfl rfl
    obtain ⟨_, _, hstatus | ⟨_, _, _, hstatus, _⟩ | ⟨_, hstatus⟩⟩ | ⟨_, hstatus, _⟩ :=
      hwork.effect (fun _ _ => id) (ht.own s.chain bid.status)
    · apply hsame hstatus
    · rw [hstatus] at hbids
      exact kept_cas h.tables hbid (by simp [CancelTask.job, cancelJob]) rfl hbids rfl rfl
    · rw [hstatus] at hbids
      exact kept_cas h.tables hbid (by simp [CancelTask.job, cancelJob]) rfl hbids rfl rfl
    · apply hsame hstatus
  | latch _ hlatch =>
    obtain ⟨hopened, heq⟩ := Option.ite_none_right_eq_some.mp hlatch
    obtain rfl := Option.some.inj heq
    refine ⟨fun hne => absurd hopened hne, fun hfrozen => absurd hopened hfrozen.1, ?_,
      fun _ => id, fun _ _ status htx => ⟨status, htx⟩⟩
    intro _
    exact ⟨by simp [hopened], id⟩
  | reclaim _ hstamp | fail _ hstamp =>
    exact kept_of_eq (status_of_stamp hstamp) rfl (fun _ => id)
      fun _ _ status htx => ⟨status, htx⟩
  | closeOffering _ _ _ | closeAndSettle _ _ _ _ _ =>
    refine kept_of_eq rfl rfl (fun _ => id) fun tx c status htx => ⟨status, ?_⟩
    obtain ⟨hlt, _⟩ := List.getElem?_eq_some_iff.mp htx
    show (s.txs ++ [_])[tx]? = _
    rw [List.getElem?_append_left hlt, htx]
  | persist _ hsettled hsettle =>
    obtain rfl := settleBids_eq_some hsettle
    obtain ⟨hsubscribed, heq⟩ := Option.ite_none_right_eq_some.mp hsettled
    obtain rfl := Option.some.inj heq
    refine ⟨?_, fun hfrozen => .inr ⟨hsubscribed, rfl, hfrozen.2.outcome _⟩,
      fun hne => absurd rfl hne, fun _ => id, fun _ _ status htx => ⟨status, htx⟩⟩
    intro _ heq
    cases heq
  | land htx hcall =>
    refine kept_of_eq rfl rfl ?_ fun _ _ _ htx' => getElem?_report htx htx'
    intro c hc
    have hnone := h.settlement_of_call (hsent _ _ (List.mem_of_getElem? htx)) hcall
    cases hnone.symm.trans hc
  | spent htx _ =>
    exact kept_of_eq rfl rfl (fun _ => id) fun _ _ _ htx' => getElem?_report htx htx'

end Kept

/-! ### The settlement is final -/

section Finality

variable {offering : Offering} {s s' : State} {l : Label}

/-- The calls are those of the settle worker. -/
theorem Finality.calls (h : Finality offering s) :
  ∀ c status, (c, status) ∈ s.txs → c = .closeOffering ∨ ∃ P args, c = .closeAndSettle P args
  := by
  intro c status hc
  rcases h.sent c status hc with hclose | ⟨P, args, hsettle, _⟩
  · exact .inl hclose
  · exact .inr ⟨P, args, hsettle⟩

theorem Finality.fact (h : Finality offering s) {a : ℕ} {phase : SettlePhase}
    (hphase : s.attempts a = phase) :
  Fact offering s phase
  := by
  rw [← hphase]
  apply h.attempts

/-- Once the settlement is on record, the rows are not going to change. -/
theorem Finality.frozen (h : Finality offering s) (hsettlement : s.settlement ≠ none) :
  Frozen s
  := by
  obtain ⟨c, hc⟩ := Option.ne_none_iff_exists'.mp hsettlement
  obtain ⟨_, hfinal, _⟩ := h.settlement c hc
  exact hfinal.1

/-- A step that neither settles the contract nor the rows keeps what is known, when the attempt
that takes the step knows enough. -/
theorem Finality.later (h : Finality offering s) (hkept : Kept s s')
    (hattempts : ∀ a, s'.attempts a = s.attempts a ∨ Fact offering s' (s'.attempts a))
    (htxs : ∀ c status, (c, status) ∈ s'.txs → (c, status) ∈ s.txs
      ∨ status ≠ .success ∧ (c = .closeOffering
        ∨ ∃ P args, c = .closeAndSettle P args ∧ Proposed offering s P args))
    (hsettlement : s'.settlement = s.settlement)
    (hstatus : s'.offering.status = .settled → s.offering.status = .settled) :
  Finality offering s'
  := by
  constructor
  · intro a
    rcases hattempts a with hsame | hfact
    · rw [hsame]
      apply (h.attempts a).kept hkept
    · exact hfact
  · intro c status hc
    have hsent : c = .closeOffering
        ∨ ∃ P args, c = .closeAndSettle P args ∧ Proposed offering s P args := by
      rcases htxs c status hc with hc | ⟨_, hc⟩
      · apply h.sent c status hc
      · exact hc
    apply hsent.imp_right
    rintro ⟨P, args, heq, hproposed⟩
    exact ⟨P, args, heq, hproposed.kept hkept⟩
  · intro P args hc
    rcases htxs _ _ hc with hc | ⟨hne, _⟩
    · apply hkept.settlement_ne (h.landed P args hc)
    · cases hne rfl
  · intro c hc
    rw [hsettlement] at hc
    apply (h.settlement c hc).kept hkept
  · intro hunsettled
    obtain ⟨hunsettled, hrows⟩ := hkept.unsettled hunsettled
    apply hrows (h.unsettled hunsettled)
  · intro hsettled
    obtain ⟨c, hc, hreceipts⟩ := h.settled (hstatus hsettled)
    refine ⟨c, hkept.settlement c hc, ?_⟩
    rcases hkept.rows (h.frozen (by simp [hc])) with ⟨_, hbids⟩ | ⟨hsubscribed, _⟩
    · rw [hbids]
      exact hreceipts
    · cases hsubscribed.symm.trans (hstatus hsettled)

/-- An attempt enters a phase in which it knows enough. -/
theorem fact_goto {a : ℕ} {phase : SettlePhase} (hfact : Fact offering (s.goto a phase) phase)
    (a' : ℕ) :
  (s.goto a phase).attempts a' = s.attempts a'
    ∨ Fact offering (s.goto a phase) ((s.goto a phase).attempts a')
  := by
  rcases eq_or_ne a' a with rfl | hne
  · right
    simp only [State.goto, Function.update_self]
    exact hfact
  · left
    simp only [State.goto, Function.update_of_ne hne]

/-- A step of an attempt takes it to a phase in which it knows enough. -/
theorem Fact.advance {phase phase' : SettlePhase} (hI : Invariant offering s)
    (h : Finality offering s) (hfact : Fact offering s phase)
    (hstep : Advance offering s phase phase') :
  Fact offering s phase'
  := by
  have hsettled : s.chain.world.status = .Settled → s.settlement ≠ none := fun hstatus hnone =>
    hI.unsettled hnone hstatus
  cases hstep with
  | statusSettled hstatus => exact ⟨h.frozen (hsettled hstatus), fun _ => hsettled hstatus⟩
  | statusOpen _ | statusClosed _ | closed _ => exact hfact
  | statusCancelled _ | closeReverted _ _ | notSigned _ | refused _ _ | notEncoded _
  | settleReverted _ _ _ | broken _ _ | stop => trivial
  | bookFinal hcount => exact ⟨⟨hfact, countInflight_eq_zero.mp hcount⟩, nofun⟩
  | cleared hinputs hclear => exact ⟨hfact.1, fun _ => ⟨_, hinputs, hclear⟩⟩
  | adopted hinputs hclear =>
    exact ⟨⟨hfact.1, fun _ => ⟨_, hinputs, hclear⟩⟩, hfact.2 rfl⟩
  | alreadySettled hstatus => exact ⟨hfact, hsettled hstatus⟩
  | settled htx =>
    obtain ⟨hfinal, P, args, status, htx'⟩ := hfact
    obtain ⟨rfl, _⟩ := Prod.mk.inj (Option.some.inj (htx.symm.trans htx'))
    exact ⟨hfinal, h.landed P args (List.mem_of_getElem? htx)⟩

/-- A call of the settle worker takes effect. -/
theorem Finality.land (hI : Invariant offering s) (h : Finality offering s) {tx : ℕ} {c : Call}
    {env : Env} {w : World} {effects : List Escrow.Effect} (htx : s.txs[tx]? = some (c, .pending))
    (hcall : perform offering.escrowContractAddress env c s.chain.world = .ok (w, effects))
    (hkept : Kept s ((s.landed env c w effects).report tx c .success)) :
  Finality offering ((s.landed env c w effects).report tx c .success)
  := by
  have hmem := List.mem_of_getElem? htx
  have hnone := hI.settlement_of_call (h.calls c _ hmem) hcall
  have htxs : ∀ entry ∈ s.txs.set tx (c, .success), entry ∈ s.txs ∨ entry = (c, .success) :=
    fun _ => List.mem_or_eq_of_mem_set
  constructor
  · intro a
    apply (h.attempts a).kept hkept
  · intro c' status hc'
    have hsent : c' = .closeOffering
        ∨ ∃ P args, c' = .closeAndSettle P args ∧ Proposed offering s P args := by
      rcases htxs _ hc' with hc' | heq
      · apply h.sent c' status hc'
      · obtain ⟨rfl, _⟩ := Prod.mk.inj heq
        apply h.sent c' _ hmem
    apply hsent.imp_right
    rintro ⟨P, args, heq, hproposed⟩
    exact ⟨P, args, heq, hproposed.kept hkept⟩
  · intro P args hc'
    rcases htxs _ hc' with hc' | heq
    · cases h.landed P args hc' hnone
    · obtain ⟨rfl, _⟩ := Prod.mk.inj heq
      exact nofun
  · intro settled hsettled
    rcases h.sent c _ hmem with rfl | ⟨P, args, rfl, hproposed⟩
    · cases hnone.symm.trans hsettled
    · obtain rfl := Option.some.inj hsettled
      apply hproposed.kept hkept
  · exact h.unsettled
  · intro hsettled
    obtain ⟨settled, hsettled, _⟩ := h.settled hsettled
    cases hnone.symm.trans hsettled

/-- The rows that are settled with a final result are the receipts of the settlement. -/
theorem receipts_of_final (hI : Invariant offering s) (h : Finality offering s)
    {result : ClearingResult} (hfinal : Final offering s result)
    (hsubscribed : s.offering.status = .subscribed) {c : Settled} (hc : s.settlement = some c) :
  Receipts c (s.bids.map (OfferingBid.outcome result.winners))
  := by
  obtain ⟨inputs, hinputs, hclear⟩ := hfinal.2 hsubscribed
  obtain ⟨result', hfinal', hP, hargs⟩ := h.settlement c hc
  obtain ⟨inputs', hinputs', hclear'⟩ := hfinal'.2 hsubscribed
  obtain rfl := Option.some.inj (hinputs.symm.trans hinputs')
  obtain rfl := Except.ok.inj (hclear.symm.trans hclear')
  obtain ⟨hreachable, hcall⟩ := hI.landed c hc
  have hsolvent := solvent_of_reachable hreachable
  have htables : Tables c.before s.bids := by
    have htables := hI.tables
    rw [State.book, hc] at htables
    exact htables
  have hcompute : computeClearing inputs offering.publicFloat = .ok result := by
    obtain ⟨r, hr, hrest⟩ := Checks.bind_eq_ok.mp hclear
    obtain ⟨_, _, heq⟩ := Checks.bind_eq_ok.mp hrest
    rw [hr, ← Checks.pure_eq_ok.mp heq]
  have hunsettled : Unsettled s.bids := by
    apply h.unsettled
    rw [hsubscribed]
    intro heq
    cases heq
  have hcleared := cleared_of_eq_ok htables hsolvent hinputs hfinal.1.2 hunsettled hcompute hP
  have hcallArgs : c.allocations = callArgs result := by
    apply Except.ok.inj (hargs.symm.trans _)
    apply encodeAllocations_allocationArgs hcleared.valid hcleared.mirrors hcleared.cleared hsolvent
  obtain ⟨env, before, P, allocations, effects⟩ := c
  obtain rfl := hcallArgs
  obtain ⟨_, hs⟩ := settlement_of_eq_ok hcall
  apply receipts_outcome htables hcleared hsolvent hs hfinal.1.2 hunsettled

/-- The rows are settled. -/
theorem Finality.persist (hI : Invariant offering s) (h : Finality offering s) {a escrowedCount : ℕ}
    {result : ClearingResult} (hphase : s.attempts a = .persisting result escrowedCount)
    (hsubscribed : s.offering.status = .subscribed)
    (hkept : Kept s (((s.withOffering ⟨.settled, false⟩).withBids
      (s.bids.map (OfferingBid.outcome result.winners))).goto a .idle)) :
  Finality offering (((s.withOffering ⟨.settled, false⟩).withBids
    (s.bids.map (OfferingBid.outcome result.winners))).goto a .idle)
  := by
  have hfact := h.fact hphase
  constructor
  · intro a'
    obtain hsame | hfact := @fact_goto offering ((s.withOffering ⟨.settled, false⟩).withBids
      (s.bids.map (OfferingBid.outcome result.winners))) a .idle trivial a'
    · rw [hsame]
      apply (h.attempts a').kept hkept
    · exact hfact
  · intro c status hc
    apply (h.sent c status hc).imp_right
    rintro ⟨P, args, heq, hproposed⟩
    exact ⟨P, args, heq, hproposed.kept hkept⟩
  · exact h.landed
  · intro c hc
    apply (h.settlement c hc).kept hkept
  · intro hunsettled
    cases hunsettled rfl
  · intro _
    obtain ⟨c, hc⟩ := Option.ne_none_iff_exists'.mp hfact.2
    exact ⟨c, hc, receipts_of_final hI h hfact.1 hsubscribed hc⟩

/-- Every orderly step keeps what is known of the settlement. -/
theorem Finality.step (hI : Invariant offering s) (h : Finality offering s)
    (hstep : Step offering s l s') (horderly : Orderly s l s') :
  Finality offering s'
  := by
  have hkept := hstep.kept hI h.calls horderly
  cases hstep with
  | readOffering _ _ | readBid _ _ _ _ | flip _ _ _ | enqueue _ | enqueueFailed _
  | enqueueUnseen _ | refuse | work _ _ _ _ | trigger _ _ | inflight _ _
  | active _ _ | gate _ _ | dismiss =>
    exact h.later hkept (fun _ => .inl rfl) (fun _ _ => .inl) rfl id
  | latch _ hlatch => 
    obtain ⟨_, heq⟩ := Option.ite_none_right_eq_some.mp hlatch
    obtain rfl := Option.some.inj heq
    exact h.later hkept (fun _ => .inl rfl) (fun _ _ => .inl) rfl nofun
  | reclaim _ hstamp =>
    exact h.later hkept (fun _ => .inl rfl) (fun _ _ => .inl) rfl
      fun hsettled => (status_of_stamp hstamp).symm.trans hsettled
  | load _ hsubscribed =>
    refine h.later hkept (fact_goto ?_) (fun _ _ => .inl) rfl id
    show s.offering.status ≠ .opened
    simp [hsubscribed]
  | advance hadvance =>
    refine h.later hkept (fact_goto ?_) (fun _ _ => .inl) rfl id
    apply (Fact.advance hI h (h.attempts _) hadvance).kept hkept
  | closeOffering hphase _ hnext =>
    have hfact := h.fact hphase
    refine h.later hkept (fact_goto ?_) ?_ rfl id
    · rcases hnext with rfl | rfl
      · exact hfact
      · trivial
    · intro c status hc
      apply (List.mem_append.mp hc).imp_right
      intro hc
      obtain ⟨rfl, rfl⟩ := Prod.mk.inj (List.mem_singleton.mp hc)
      exact ⟨nofun, .inl rfl⟩
  | closeAndSettle hphase hP hargs _ hnext =>
    have hfact := h.fact hphase
    refine h.later hkept (fact_goto ?_) ?_ rfl id
    · rcases hnext with rfl | rfl
      · exact ⟨hfact, _, _, .pending, List.getElem?_concat_length⟩
      · trivial
    · intro c status hc
      apply (List.mem_append.mp hc).imp_right
      intro hc
      obtain ⟨rfl, rfl⟩ := Prod.mk.inj (List.mem_singleton.mp hc)
      exact ⟨nofun, .inr ⟨_, _, rfl, _, hfact, hP, hargs⟩⟩
  | persist hphase hsettled hsettle =>
    obtain rfl := settleBids_eq_some hsettle
    obtain ⟨hsubscribed, heq⟩ := Option.ite_none_right_eq_some.mp hsettled
    obtain rfl := Option.some.inj heq
    apply h.persist hI hphase hsubscribed hkept
  | fail _ hstamp =>
    exact h.later hkept (fact_goto trivial) (fun _ _ => .inl) rfl
      fun hsettled => (status_of_stamp hstamp).symm.trans hsettled
  | land htx hcall => apply h.land hI htx hcall hkept
  | spent htx hstatus =>
    refine h.later hkept (fun _ => .inl rfl) ?_ rfl id
    intro c status hc
    apply (List.mem_or_eq_of_mem_set hc).imp_right
    intro heq
    obtain ⟨rfl, rfl⟩ := Prod.mk.inj heq
    constructor
    · rintro rfl
      simp at hstatus
    · apply h.sent _ _ (List.mem_of_getElem? htx)

theorem finality_of_opened (h : Opened offering s) :
  Finality offering s
  := by
  constructor
  · intro a
    rw [h.attempts a]
    trivial
  · intro c status hc
    rw [h.txs] at hc
    cases hc
  · intro P args hc
    rw [h.txs] at hc
    cases hc
  · intro c hc
    cases h.settlement.symm.trans hc
  · intro _ bid hbid
    rcases h.drained bid hbid with hstatus | hstatus | hstatus
    · simp [hstatus]
    · simp [hstatus]
    · simp [hstatus]
  · intro hsettled
    cases h.status.symm.trans hsettled

/-- What is reached by orderly steps satisfies the invariants. -/
theorem invariant_of_reachable (h : ((settling offering).restrict Orderly).Reachable s) :
  Invariant offering s ∧ Finality offering s
  := by
  apply h.invariant (I := fun s => Invariant offering s ∧ Finality offering s)
  · intro s₀ hs₀
    exact ⟨invariant_of_opened hs₀, finality_of_opened hs₀⟩
  · rintro s l s' ⟨hI, hfinality⟩ ⟨hstep, horderly⟩
    exact ⟨hI.step hfinality.calls hstep horderly, hfinality.step hI hstep horderly⟩

end Finality

/-! ### The main result -/

/-- The rows are the receipts of what `close_and_settle` has done. -/
def ReceiptsAgree (offering : Offering) (s : State) : Prop :=
  ∃ c, s.settlement = some c
    ∧ closeAndSettle offering.escrowContractAddress c.env c.clearingPrice c.allocations c.before
      = .ok (s.chain.world, c.effects)
    ∧ Receipts c s.bids

/-- When the offering is settled after orderly cancellations, its rows are the receipts of what
`close_and_settle` has done. -/
theorem receipts_agree {offering : Offering} {s : State}
    (h : ((settling offering).restrict Orderly).Reachable s)
    (hsettled : s.offering.status = .settled) :
  ReceiptsAgree offering s
  := by
  obtain ⟨hI, hfinality⟩ := invariant_of_reachable h
  obtain ⟨c, hc, hreceipts⟩ := hfinality.settled hsettled
  exact ⟨c, hc, (hI.landed c hc).2, hreceipts⟩

/-! ### A settlement of the small offering -/

/-- The small offering with a third bid, of seven fractions at a price of seven. -/
def sampleTriple : World := sampleFull.withBid sampleEscrow (.account 22) 7 7 3

/-- A row for a bid of the small offering. -/
def sampleOfferingBid (id : ℕ) (wallet : ℕ) (priceStroops count : ℤ) : OfferingBid where
  id := [id]
  collectorSub := [id]
  collectorWallet := .account wallet
  priceStroops
  count
  createdAt := [10 * id]
  status := .escrowed
  chainBidId := some id
  allocatedCount := none
  settleRefundStroops := none

/-- The rows of the small offering. -/
def sampleOfferingBids : List OfferingBid :=
  [sampleOfferingBid 1 20 5 4, sampleOfferingBid 2 21 6 5, sampleOfferingBid 3 22 7 7]

def sampleOffering : Offering := ⟨sampleEscrow, 7, ⟨1, 10⟩, 50⟩

/-- The small offering, once its bids are escrowed. -/
def sampleOpened : State where
  ledger := 0
  chain := ⟨sampleTriple, []⟩
  offering := ⟨.opened, false⟩
  bids := sampleOfferingBids
  requests _ := .idle
  tasks := []
  triggers _ := .idle
  attempts _ := .idle
  txs := []
  settlement := none

theorem sampleOpened_opened :
  Opened sampleOffering sampleOpened
  := by
  have hbids : ∀ id b, sampleTriple.bids id = some b →
      (id = 3 ∧ b = ⟨.account 22, 7, 7, 49, true⟩) ∨ (id = 2 ∧ b = ⟨.account 21, 6, 5, 30, true⟩)
        ∨ (id = 1 ∧ b = ⟨.account 20, 5, 4, 20, true⟩) := by
    intro id b hb
    have hbook : sampleTriple.bids = Function.update sampleFull.bids 3
        (some ⟨.account 22, 7, 7, 49, true⟩) := rfl
    rcases eq_or_ne id 3 with rfl | hne
    · exact .inl ⟨rfl, Option.some.inj hb.symm⟩
    · rw [hbook, Function.update_of_ne hne] at hb
      exact .inr (sampleFull_bids hb)
  have hstep : Escrow.Step sampleEscrow sampleFull (.call sampleEnv (.submitBid (.account 22) 7 7 3)
      [.usdcTransfer (.escrow 3) (.account 22) sampleEscrow 49,
        .event (.BidSubmitted (.account 22) 3 7 7 49)]) sampleTriple :=
    .call (show Address.account 22 ≠ sampleEscrow by decide) rfl
  have hkeys : ∀ bid ∈ sampleOfferingBids, ∃ k, bid.id = [k] ∧ bid.chainBidId = some k := by
    rw [sampleOfferingBids, List.forall_mem_cons, List.forall_mem_cons, List.forall_mem_singleton]
    exact ⟨⟨1, rfl, rfl⟩, ⟨2, rfl, rfl⟩, ⟨3, rfl, rfl⟩⟩
  have htables : Tables sampleTriple sampleOfferingBids := by
    constructor
    · constructor
      · decide
      · intro bid hbid bid' hbid' id hid hid'
        obtain ⟨k, hk, hchain⟩ := hkeys bid hbid
        obtain ⟨k', hk', hchain'⟩ := hkeys bid' hbid'
        obtain rfl := Option.some.inj (hid.symm.trans hchain)
        obtain rfl := Option.some.inj (hid'.symm.trans hchain')
        rw [hk, hk']
    · rw [sampleOfferingBids, List.forall_mem_cons, List.forall_mem_cons,
        List.forall_mem_singleton]
      exact ⟨.inl ⟨1, _, ⟨rfl, rfl, rfl, rfl, rfl⟩, rfl⟩,
        .inl ⟨2, _, ⟨rfl, rfl, rfl, rfl, rfl⟩, rfl⟩, .inl ⟨3, _, ⟨rfl, rfl, rfl, rfl, rfl⟩, rfl⟩⟩
    · intro id b hb _
      rcases hbids id b hb with ⟨rfl, _⟩ | ⟨rfl, _⟩ | ⟨rfl, _⟩
      · exact ⟨sampleOfferingBid 3 22 7 7, by simp [sampleOfferingBids], rfl⟩
      · exact ⟨sampleOfferingBid 2 21 6 5, by simp [sampleOfferingBids], rfl⟩
      · exact ⟨sampleOfferingBid 1 20 5 4, by simp [sampleOfferingBids], rfl⟩
  have hdrained : ∀ bid ∈ sampleOfferingBids, bid.status = .escrowed := by decide
  exact ⟨rfl, sampleFull_reachable.step hstep, rfl, htables,
    fun bid hbid => .inl (hdrained bid hbid), fun _ => rfl, rfl, fun _ => rfl, fun _ => rfl, rfl,
    rfl⟩

/-- The row of the third bid while it is being canceled. -/
def sampleCancelingBid : OfferingBid := { sampleOfferingBid 3 22 7 7 with status := .canceling }

/-- The small offering, after the third bid has been canceled. -/
def sampleWithdrawn : World := sampleTriple.withoutBid sampleEscrow 3 ⟨.account 22, 7, 7, 49, true⟩

/-- The rows after the third bid has been canceled, and the other two have been settled. -/
def sampleSettledBids : List OfferingBid :=
  [(sampleOfferingBid 1 20 5 4).win ⟨[1], 1, [1], 5, 4, 2, 10⟩,
    (sampleOfferingBid 2 21 6 5).win ⟨[2], 2, [2], 6, 5, 5, 5⟩,
    { sampleCancelingBid with status := .canceled }]

theorem sampleWithdrawn_settles :
  ∃ w effects, perform sampleEscrow sampleEnv (.closeAndSettle 5 [(2, 5), (1, 2)])
      { sampleWithdrawn with status := .Closed } = .ok (w, effects)
  := ⟨_, _, rfl⟩

/-- The third bid is canceled while the offering is open, and then the other two are settled. -/
theorem exists_orderly_settled :
  ∃ s, ((settling sampleOffering).restrict Orderly).Reachable s ∧ s.offering.status = .settled
    ∧ s.bids = sampleSettledBids
  := by
  obtain ⟨w, effects, hcall⟩ := sampleWithdrawn_settles
  have h₀ : ((settling sampleOffering).restrict Orderly).Reachable sampleOpened :=
    .init sampleOpened_opened
  have h₁ := h₀.step ⟨@Step.readOffering sampleOffering _ 0 [3] rfl rfl, trivial⟩
  have h₂ := h₁.step ⟨@Step.readBid sampleOffering _ 0 3 [3] (sampleOfferingBid 3 22 7 7) rfl rfl
    rfl rfl, trivial⟩
  have h₃ := h₂.step ⟨@Step.flip sampleOffering _ 0 _ (sampleOfferingBid 3 22 7 7) rfl
    (List.mem_of_getElem? (show sampleOfferingBids[2]? = _ from rfl)) rfl, rfl⟩
  have h₄ := h₃.step ⟨@Step.enqueue sampleOffering _ 0 120 [3] _ none rfl, trivial⟩
  have hmem : sampleCancelingBid ∈ casCanceling sampleOfferingBids [3] := by decide
  have h₅ := h₄.step ⟨@Step.work sampleOffering _ 0 .attempt _ sampleCancelingBid _ rfl hmem rfl
    (.reload rfl rfl), trivial⟩
  have h₆ := h₅.step ⟨@Step.work sampleOffering _ 0 .attempt _ sampleCancelingBid _ rfl hmem rfl
    (.advance (.verified rfl)), trivial⟩
  have h₇ := h₆.step ⟨@Step.work sampleOffering _ 0 .attempt _ sampleCancelingBid _ rfl hmem rfl
    (.advance (.fresh (le_refl 0) (by decide))), trivial⟩
  have h₈ := h₇.step ⟨@Step.work sampleOffering _ 0 .attempt _ sampleCancelingBid _ rfl hmem rfl
    (.advance (@Relay.Advance.simulated _ _ _ sampleEnv nofun)), trivial⟩
  have h₉ := h₈.step ⟨@Step.work sampleOffering _ 0 .attempt _ sampleCancelingBid _ rfl hmem rfl
    (.accepted rfl), trivial⟩
  have h₁₀ := h₉.step ⟨@Step.work sampleOffering _ 0 .network _ sampleCancelingBid _ rfl hmem rfl
    (@Relay.Step.applied _ _ _ sampleEnv 0 ⟨sampleWithdrawn, _⟩ rfl (by decide) rfl), trivial⟩
  have h₁₁ := h₁₀.step ⟨@Step.work sampleOffering _ 0 .attempt _ sampleCancelingBid _ rfl hmem rfl
    (.advance (.succeeded rfl)), trivial⟩
  have h₁₂ := h₁₁.step ⟨@Step.work sampleOffering _ 0 .attempt _ sampleCancelingBid _ rfl hmem rfl
    (.persist rfl), trivial⟩
  have h₁₃ := h₁₂.step ⟨@Step.trigger sampleOffering _ 0 false rfl rfl, trivial⟩
  have h₁₄ := h₁₃.step ⟨@Step.inflight sampleOffering _ 0 false rfl rfl, trivial⟩
  have h₁₅ := h₁₄.step ⟨@Step.active sampleOffering _ 0 false rfl (by decide), trivial⟩
  have h₁₆ := h₁₅.step ⟨@Step.gate sampleOffering _ 0 false rfl
    ⟨sampleBook.reverse, sampleResult, rfl, rfl, rfl⟩, trivial⟩
  have h₁₇ := h₁₆.step ⟨@Step.latch sampleOffering _ 0 ⟨.subscribed, false⟩ rfl rfl, trivial⟩
  have h₁₈ := h₁₇.step ⟨@Step.load sampleOffering _ 0 rfl rfl, trivial⟩
  have h₁₉ := h₁₈.step ⟨@Step.advance sampleOffering _ 0 _ (.statusOpen rfl), trivial⟩
  have h₂₀ := h₁₉.step ⟨@Step.closeOffering sampleOffering _ 0 sampleEnv
    { sampleWithdrawn with status := .Closed } _ _ rfl rfl (.inl rfl), trivial⟩
  have h₂₁ := h₂₀.step ⟨@Step.land sampleOffering _ 0 .closeOffering sampleEnv
    { sampleWithdrawn with status := .Closed } _ rfl rfl, trivial⟩
  have h₂₂ := h₂₁.step ⟨@Step.advance sampleOffering _ 0 _ (.closed rfl), trivial⟩
  have h₂₃ := h₂₂.step ⟨@Step.advance sampleOffering _ 0 _ (.bookFinal rfl), trivial⟩
  have h₂₄ := h₂₃.step ⟨@Step.advance sampleOffering _ 0 _
    (@Advance.cleared _ _ sampleBook.reverse sampleResult rfl rfl), trivial⟩
  have h₂₅ := h₂₄.step ⟨@Step.closeAndSettle sampleOffering _ 0 2 sampleResult sampleEnv 5
    [(2, 5), (1, 2)] w effects _ rfl rfl rfl hcall (.inl rfl), trivial⟩
  have h₂₆ := h₂₅.step ⟨@Step.land sampleOffering _ 1 (.closeAndSettle 5 [(2, 5), (1, 2)])
    sampleEnv w effects rfl hcall, trivial⟩
  have h₂₇ := h₂₆.step ⟨@Step.advance sampleOffering _ 0 _ (.settled rfl), trivial⟩
  have h₂₈ := h₂₇.step ⟨@Step.persist sampleOffering _ 0 2 sampleResult ⟨.settled, false⟩
    sampleSettledBids rfl rfl rfl, trivial⟩
  exact ⟨_, h₂₈, rfl, rfl⟩

/-- The rows of the small offering are the receipts of its settlement. -/
theorem receipts_agree_sampleSettled :
  ∃ s, s.offering.status = .settled ∧ s.bids = sampleSettledBids
    ∧ ReceiptsAgree sampleOffering s
  := by
  obtain ⟨s, h, hsettled, hbids⟩ := exists_orderly_settled
  exact ⟨s, hsettled, hbids, receipts_agree h hsettled⟩

/-- The result of the clearing of all three bids: all seven fractions for the third one. -/
def sampleTripleResult : ClearingResult where
  clearingPriceStroops := some 7
  fullySubscribed := true
  totalDemand := 16
  winners := [⟨[3], 3, [3], 7, 7, 7, 0⟩]
  proceedsStroops := 49
  platformFeeStroops := 1
  artistNetStroops := 48
  bidsSnapshot := [⟨3, [3], 7, 7, [30]⟩, ⟨2, [2], 6, 5, [20]⟩, ⟨1, [1], 5, 4, [10]⟩]

/-- The input of the clearing of all three bids. -/
def sampleTripleBook : List ClearingBidInput :=
  [⟨[3], 3, [3], 7, 7, [30], 49⟩, ⟨[2], 2, [2], 6, 5, [20], 30⟩, ⟨[1], 1, [1], 5, 4, [10], 20⟩]

/-- The settlement of all three bids goes through. -/
theorem sampleTriple_settles :
  ∃ w effects, perform sampleEscrow sampleEnv (.closeAndSettle 7 [(3, 7)])
      { sampleTriple with status := .Closed } = .ok (w, effects) ∧ w.status = .Settled
  := ⟨_, _, rfl, rfl⟩

/-- Not every settled offering has the receipts of its settlement: the third bidder reads that
the offering is open; the worker finds that no bid is in flight, settles all three bids, and
crashes; the row of the third bid is flipped; and the next attempt adopts the settlement with
the clearing of the other two. -/
theorem not_forall_receipts_agree :
  ¬ ∀ offering s, (settling offering).Reachable s → s.offering.status = .settled →
    ReceiptsAgree offering s
  := by
  intro hall
  obtain ⟨w, effects, hcall, hw⟩ := sampleTriple_settles
  have h₀ : (settling sampleOffering).Reachable sampleOpened := .init sampleOpened_opened
  have h₁ := h₀.step (@Step.readOffering sampleOffering _ 0 [3] rfl rfl)
  have h₂ := h₁.step (@Step.readBid sampleOffering _ 0 3 [3] (sampleOfferingBid 3 22 7 7) rfl rfl
    rfl rfl)
  have h₃ := h₂.step (@Step.trigger sampleOffering _ 0 false rfl rfl)
  have h₄ := h₃.step (@Step.inflight sampleOffering _ 0 false rfl rfl)
  have h₅ := h₄.step (@Step.active sampleOffering _ 0 false rfl (by decide))
  have h₆ := h₅.step (@Step.gate sampleOffering _ 0 false rfl
    ⟨sampleTripleBook, sampleTripleResult, rfl, rfl, rfl⟩)
  have h₇ := h₆.step (@Step.latch sampleOffering _ 0 ⟨.subscribed, false⟩ rfl rfl)
  have h₈ := h₇.step (@Step.load sampleOffering _ 0 rfl rfl)
  have h₉ := h₈.step (@Step.advance sampleOffering _ 0 _ (.statusOpen rfl))
  have h₁₀ := h₉.step (@Step.closeOffering sampleOffering _ 0 sampleEnv
    { sampleTriple with status := .Closed } _ _ rfl rfl (.inl rfl))
  have h₁₁ := h₁₀.step (@Step.land sampleOffering _ 0 .closeOffering sampleEnv
    { sampleTriple with status := .Closed } _ rfl rfl)
  have h₁₂ := h₁₁.step (@Step.advance sampleOffering _ 0 _ (.closed rfl))
  have h₁₃ := h₁₂.step (@Step.advance sampleOffering _ 0 _ (.bookFinal rfl))
  have h₁₄ := h₁₃.step (@Step.advance sampleOffering _ 0 _
    (@Advance.cleared _ _ sampleTripleBook sampleTripleResult rfl rfl))
  have h₁₅ := h₁₄.step (@Step.closeAndSettle sampleOffering _ 0 3 sampleTripleResult sampleEnv 7
    [(3, 7)] w effects _ rfl rfl rfl hcall (.inr rfl))
  have h₁₆ := h₁₅.step (@Step.land sampleOffering _ 1 (.closeAndSettle 7 [(3, 7)]) sampleEnv w
    effects rfl hcall)
  have h₁₇ := h₁₆.step (@Step.flip sampleOffering _ 0 _ (sampleOfferingBid 3 22 7 7) rfl
    (List.mem_of_getElem? (show sampleOfferingBids[2]? = _ from rfl)) rfl)
  have h₁₈ := h₁₇.step (@Step.load sampleOffering _ 0 rfl rfl)
  have h₁₉ := h₁₈.step (@Step.advance sampleOffering _ 0 _ (.statusSettled hw))
  have h₂₀ := h₁₉.step (@Step.advance sampleOffering _ 0 _
    (@Advance.adopted _ _ sampleBook.reverse sampleResult rfl rfl))
  have h₂₁ := h₂₀.step (@Step.persist sampleOffering _ 0 2 sampleResult ⟨.settled, false⟩ _ rfl rfl
    rfl)
  obtain ⟨c, hc, _, hreceipts⟩ := hall _ _ h₂₁ rfl
  obtain rfl := Option.some.inj hc
  have hwon := hreceipts.receipt ((sampleOfferingBid 1 20 5 4).win ⟨[1], 1, [1], 5, 4, 2, 10⟩)
    List.mem_cons_self
  obtain ⟨id, b, allocated, refund, hb, _, _, _, halloc, _⟩ := hwon
  obtain rfl := Option.some.inj hb.chainBidId_eq
  cases halloc

end Offerings
