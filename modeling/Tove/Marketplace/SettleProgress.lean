import Tove.Marketplace.SettleSafety

/-!
# A trade that nothing disturbs

The first attempt on a trade settles it, when the settler lets the call through, the signatures
are good, no other attempt or sweep is under way, and every call of the attempt is answered.
-/

namespace Marketplace

open Soroban Settler Relay Transition

/-- The work on the trades, without what it changes in the tables, as a transition system. -/
def working (reconcileGraceMs : ℕ) : Transition.System State Label where
  init s := ∀ id, s.works id = .blank
  step := WorkStep reconcileGraceMs

/-- The next transaction of a trade, with what has become of it. -/
def State.sent (s : State) (id : ℕ) (status : TxStatus) : State :=
  s.setWork id { s.works id with txs := (s.works id).txs ++ [status] }

theorem State.sent_works (s : State) (id : ℕ) (status : TxStatus) :
  (s.sent id status).works id = { s.works id with txs := (s.works id).txs ++ [status] }
  := State.setWork_self ..

/-- The trade is carried out by the next transaction that is sent for it. -/
def State.paid (s : State) (id : ℕ) (world : World) : State :=
  State.sent { s with world } id .success

/-- The trade is settled by the next transaction that is sent for it. -/
def State.settledBy (s : State) (id : ℕ) (row : SecondaryTrade) (world : World) : State :=
  { s.paid id world with db := persistSettled id row (some (s.works id).txs.length) s.db }

section Undisturbed

variable {κ : Type} {group : Grouping κ} {reconcileGraceMs : ℕ} {s : State} {id a : ℕ}
  {d : QuoteSettleJob}

/-- An attempt goes on. -/
theorem run_advance {t : State} {phase phase' : Phase}
    (h : ∃ ls, ((working reconcileGraceMs).restrict (Careful group)).Run s ls (t.goto id a phase))
    (hjob : (t.works id).job = some d) (hstep : Advance d t.ledger t.world (t.works id).txs phase phase') :
  ∃ ls, ((working reconcileGraceMs).restrict (Careful group)).Run s ls (t.goto id a phase')
  := by
  obtain ⟨ls, hrun⟩ := h
  have hwork : (t.goto id a phase).works id = (t.works id).goto a phase := State.setWork_self ..
  have hadvance : WorkStep reconcileGraceMs (t.goto id a phase) (.work id)
      ((t.goto id a phase).goto id a phase') := by
    apply WorkStep.advance (d := d)
    · rw [hwork]
      apply hjob
    · rw [hwork, Work.goto_self]
      apply hstep
  rw [State.goto_goto] at hadvance
  exact ⟨_, hrun.snoc ⟨hadvance, trivial⟩⟩

/-- An attempt that enters a phase in which it is not about to fail the trade changes nothing. -/
theorem State.Unfailed.goto {k : ℕ} (h : s.Unfailed k) {phase : Phase}
    (hphase : phase.fails = none) :
  (s.goto id a phase).Unfailed k
  := by
  use h.1
  intro b
  rcases eq_or_ne k id with rfl | hk
  · rw [State.goto, State.setWork_self]
    rcases eq_or_ne b a with rfl | hb
    · rw [Work.goto_self, hphase]
    · rw [Work.goto_of_ne _ hb]
      apply h.2 b
  · rw [State.goto, State.setWork_of_ne _ hk]
    apply h.2 b

/-- A trade that is pending, and on which nobody works, is careful of itself. -/
theorem unfailed_apart {row : SecondaryTrade} (hrow : s.db.trades[id]? = some row)
    (hpending : row.status = .pending) (hidle : ∀ a, (s.works id).actors a = .idle)
    {g : ℕ × BytesN32 × BytesN32} (hid : s.In apart g id) {k : ℕ} (hk : s.In apart g k) :
  s.Unfailed k
  := by
  obtain rfl := hid.eq_of_apart hk
  constructor
  · intro row' hrow'
    obtain rfl := Option.some.inj (hrow.symm.trans hrow')
    rw [hpending]
    nofun
  · intro b
    rw [hidle b]
    rfl

/-- The attempt sends a transaction. -/
theorem run_send
    (h : ∃ ls, ((working reconcileGraceMs).restrict (Careful group)).Run s ls (s.goto id a .sending))
    (hjob : (s.works id).job = some d)
    (hcalm : ∀ g, s.In group g id → ∀ k, s.In group g k → s.Unfailed k) :
  ∃ ls, ((working reconcileGraceMs).restrict (Careful group)).Run s ls
    ((s.sent id .pending).goto id a (.polling (s.works id).txs.length))
  := by
  obtain ⟨ls, hrun⟩ := h
  have hwork : (s.goto id a .sending).works id = (s.works id).goto a .sending :=
    State.setWork_self ..
  have hstep : WorkStep reconcileGraceMs (s.goto id a .sending) (.send id) _ :=
    .accepted (i := id) (a := a) (d := d) (by rw [hwork]; exact hjob)
      (by rw [hwork, Work.goto_self])
  have hsend : WorkStep reconcileGraceMs (s.goto id a .sending) (.send id)
      ((s.sent id .pending).goto id a (.polling (s.works id).txs.length)) := by
    simpa [State.goto, State.sent, Work.goto] using hstep
  refine ⟨_, hrun.snoc ⟨hsend, ?_⟩⟩
  intro g hid k hk
  apply (hcalm g hid k hk).goto rfl

/-- The transaction is applied. -/
theorem run_land {t : State} {phase : Phase} {host : Host} {world : World}
    (h : ∃ ls, ((working reconcileGraceMs).restrict (Careful group)).Run s ls
      ((t.sent id .pending).goto id a phase))
    (hjob : (t.works id).job = some d) (hbuyer : t.ledger ≤ d.buyerSignatureExpirationLedger)
    (hseller : t.ledger ≤ d.sellerSignatureExpirationLedger)
    (hcall : acceptQuote host d.terms t.world = .ok world) :
  ∃ ls, ((working reconcileGraceMs).restrict (Careful group)).Run s ls
    (({ t with world }.sent id .success).goto id a phase)
  := by
  obtain ⟨ls, hrun⟩ := h
  have hwork : ((t.sent id .pending).goto id a phase).works id
      = Work.goto { t.works id with txs := (t.works id).txs ++ [.pending] } a phase := by
    simp [State.goto, State.sent]
  have hstep : WorkStep reconcileGraceMs ((t.sent id .pending).goto id a phase) .network _ :=
    .applied (i := id) (d := d) (by rw [hwork]; exact hjob)
      (show _[(t.works id).txs.length]? = _ by simp [hwork, Work.goto]) hbuyer hseller hcall
  have hland : WorkStep reconcileGraceMs ((t.sent id .pending).goto id a phase) .network
      (({ t with world }.sent id .success).goto id a phase) := by
    simpa [State.goto, State.sent, State.setWork, Work.goto] using hstep
  exact ⟨_, hrun.snoc ⟨hland, trivial⟩⟩

/-- The attempt fails, and is to be made again. -/
theorem run_retry {t : State} {f : AcceptQuoteFailure}
    (h : ∃ ls, ((working reconcileGraceMs).restrict (Careful group)).Run s ls
      (t.goto id a (.returned (.failure f))))
    (hjob : (t.works id).job = some d) (hidle : (t.works id).actors a = .idle)
    (hunsettled : isSettled t.world d.terms.rfqId d.terms.quoteId = false)
    (htransient : classifySettleFailure f = .transient) :
  ∃ ls, ((working reconcileGraceMs).restrict (Careful group)).Run s ls
    (t.setWork id { t.works id with attemptsMade := (t.works id).attemptsMade + 1 })
  := by
  obtain ⟨ls, hrun⟩ := h
  have hwork : (t.goto id a (.returned (.failure f))).works id
      = (t.works id).goto a (.returned (.failure f)) := State.setWork_self ..
  have hthrows : ((t.works id).goto a (.returned (.failure f))).throws a
      = { t.works id with attemptsMade := (t.works id).attemptsMade + 1 } := by
    rw [Work.throws, Work.goto_self]
    simp only [Work.goto_goto, Work.goto_eq_self _ hidle]
    rfl
  have hstep : WorkStep reconcileGraceMs (t.goto id a (.returned (.failure f))) (.work id) _ :=
    .retry (i := id) (a := a) (d := d) (by rw [hwork]; exact hjob)
      (by rw [hwork, Work.goto_self]) hunsettled htransient
  rw [hwork, hthrows, State.goto, State.setWork_setWork] at hstep
  exact ⟨_, hrun.snoc ⟨hstep, trivial⟩⟩

/-- The first attempt on a trade sends a transaction, when nothing disturbs it. -/
theorem sends_undisturbed {row : SecondaryTrade} {host : Host} {world : World}
    (hjob : (s.works id).job = some d) (hattempts : (s.works id).attemptsMade = 0)
    (hidle : ∀ a, (s.works id).actors a = .idle) (hrow : s.db.trades[id]? = some row)
    (hpending : row.status = .pending)
    (hcalm : ∀ g, s.In group g id → ∀ k, s.In group g k → s.Unfailed k)
    (hverdict : d.verdict = none)
    (hseller : ¬ Lapsed s.ledger d.sellerSignatureExpirationLedger)
    (hbuyer : ¬ Lapsed s.ledger d.buyerSignatureExpirationLedger)
    (hcall : acceptQuote host d.terms s.world = .ok world) :
  ∃ ls, ((working reconcileGraceMs).restrict (Careful group)).Run s ls
    ((s.sent id .pending).goto id 0 (.polling (s.works id).txs.length))
  := by
  have hfirst : (s.works id).attemptsMade < JOB_ATTEMPTS := by
    rw [hattempts]
    decide
  have hstep := @WorkStep.load reconcileGraceMs _ _ _ _ _ hjob hfirst (hidle 0) hrow hpending
  rw [hattempts] at hstep
  have hbegin : ∃ ls, ((working reconcileGraceMs).restrict (Careful group)).Run s ls
      (s.goto id 0 (.loaded 0)) := ⟨_, .single ⟨hstep, trivial⟩⟩
  have hload := run_advance hbegin hjob .firstAttempt
  have hbuild := run_advance hload hjob .balanceUnread
  have hcheck := run_advance hbuild hjob (.verified hverdict)
  have hsimulate := run_advance hcheck hjob (.fresh (le_refl _) hseller hbuyer)
  exact run_send (run_advance hsimulate hjob (.simulated hcall)) hjob hcalm

/-- The first attempt on a trade has it carried out, when nothing disturbs it. -/
theorem pays_undisturbed {row : SecondaryTrade} {host : Host} {world : World}
    (hjob : (s.works id).job = some d) (hattempts : (s.works id).attemptsMade = 0)
    (hidle : ∀ a, (s.works id).actors a = .idle) (hrow : s.db.trades[id]? = some row)
    (hpending : row.status = .pending) (hverdict : d.verdict = none)
    (hseller : ¬ Lapsed s.ledger d.sellerSignatureExpirationLedger)
    (hbuyer : ¬ Lapsed s.ledger d.buyerSignatureExpirationLedger)
    (hcall : acceptQuote host d.terms s.world = .ok world) :
  ∃ ls, ((working reconcileGraceMs).restrict (Careful apart)).Run s ls
    ((s.paid id world).goto id 0 (.adopting (some (s.works id).txs.length)))
  := by
  have hpoll : ∃ ls, ((working reconcileGraceMs).restrict (Careful apart)).Run s ls _ :=
    sends_undisturbed hjob hattempts hidle hrow hpending
      (fun _ hid _ hk => unfailed_apart hrow hpending hidle hid hk) hverdict hseller hbuyer hcall
  have hland := run_land hpoll hjob (le_of_not_lapsed hbuyer) (le_of_not_lapsed hseller) hcall
  have hwork := State.sent_works { s with world } id .success
  have hjob' : (({ s with world } : State).sent id .success |>.works id).job = some d := by
    rw [hwork]
    exact hjob
  have hsuccess := run_advance hland hjob' (.succeeded (by simp [hwork]))
  exact run_advance hsuccess hjob' .confirmed

/-- The attempt persists the settlement. -/
theorem persists_undisturbed {row : SecondaryTrade} {world : World}
    (hidle : ∀ a, (s.works id).actors a = .idle) (hrow : s.db.trades[id]? = some row) :
  SettleStep reconcileGraceMs
    ((s.paid id world).goto id 0 (.adopting (some (s.works id).txs.length))) (.work id)
    (s.settledBy id row world)
  := by
  have hwork := State.sent_works { s with world } id .success
  have hadopts : ((((s.paid id world).goto id 0
      (.adopting (some (s.works id).txs.length))).works id).actors 0).adopts
      = some (some (s.works id).txs.length) := by
    rw [State.goto, State.setWork_self, Work.goto_self]
    rfl
  have hstep : SettleStep reconcileGraceMs _ (.work id)
      ((State.goto (s.settledBy id row world) id 0
        (.adopting (some (s.works id).txs.length))).goto id 0 .idle) := .persist hadopts hrow
  have heq : State.goto (s.settledBy id row world) id 0 .idle = s.settledBy id row world := by
    apply State.goto_eq_self
    rw [State.settledBy, State.paid, hwork]
    apply hidle
  rwa [State.goto_goto, heq] at hstep

end Undisturbed

end Marketplace
