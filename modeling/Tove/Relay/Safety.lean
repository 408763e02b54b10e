import Tove.Relay.Worker

/-!
# When a latched row is right

What an error says about its own attempt is right: when it is taken as a proof, no transaction
of this attempt can take effect. It says nothing about earlier attempts. A worker that latches
the row only when no transaction of an earlier attempt has taken effect, or can still do so, is
a one-shot operation.
-/

namespace Relay

open Soroban Transition

variable {ω : Type} {J : Job ω} {s s' : State ω} {l : Label}

/-- The transaction has taken effect, or it can still do so before the signature expires. -/
def Outstanding (J : Job ω) (s : State ω) (tx : ℕ) : Prop :=
  s.txs[tx]? = some .success
    ∨ (s.txs[tx]? = some .pending ∧ s.ledger ≤ J.signatureExpirationLedger)

/-- Once the signature has expired, only a transaction that has succeeded is outstanding. -/
theorem not_outstanding {tx : ℕ} (hsuccess : .success ∉ s.txs)
    (hexpired : J.signatureExpirationLedger < s.ledger) :
  ¬ Outstanding J s tx
  := by
  rintro (htx | ⟨_, hledger⟩)
  · apply hsuccess (List.mem_of_getElem? htx)
  · omega

/-- The row is latched only when no transaction of an earlier attempt is outstanding. -/
def LatchesSettled (J : Job ω) (s : State ω) (l : Label) (_ : State ω) : Prop :=
  l = .latch → ∀ tx < s.earlier, ¬ Outstanding J s tx

/-- What is known of the transactions that the running attempt has sent. -/
def Own (s : State ω) : Phase → Prop
  | .idle => True
  | .verifying | .checking | .simulating | .sending => s.txs.length = s.earlier
  | .polling tx => ∀ k, s.earlier ≤ k → k < s.txs.length → k = tx
  | .caught err => provesNothingSent err true = true →
      ∀ k, s.earlier ≤ k → k < s.txs.length → s.txs[k]? = some .failed
  | .confirmed => .success ∈ s.txs

/-- What holds of the worker and the network. `Applied` says that the call has taken effect on
chain. -/
structure Invariant (J : Job ω) (Applied : ω → Prop) (s : State ω) : Prop where
  busy : s.phase ≠ .idle → s.status = J.expects
  applied_iff : Applied s.chain ↔ .success ∈ s.txs
  own : Own s s.phase

/-! ### The table -/

/-- Whatever is taken as a proof is taken as one in the first attempt. -/
theorem provesNothingSent_first {err : RelayError} {firstAttempt : Bool}
    (h : provesNothingSent err firstAttempt = true) :
  provesNothingSent err true = true
  := by
  cases err with
  | other => cases h
  | transfer reason => cases reason <;> first | rfl | cases h

/-! ### The attempt -/

section Attempt

variable {Applied : ω → Prop} {phase phase' : Phase}

/-- A step of the attempt keeps what is known of its transactions. -/
theorem Own.advance (h : Own s phase) (hstep : Advance J s phase phase') :
  Own s phase'
  := by
  have hnone : s.txs.length = s.earlier →
      ∀ k, s.earlier ≤ k → k < s.txs.length → s.txs[k]? = some .failed := by
    intro heq k hge hlt
    omega
  cases hstep with
  | invalid _ => exact fun _ => hnone h
  | verified _ => exact h
  | expired _ _ => exact fun _ => hnone h
  | fresh _ _ => exact h
  | simulationFailed _ => exact fun _ => hnone h
  | feeExceedsCap _ => exact fun _ => hnone h
  | simulated _ => exact h
  | throttled => exact nofun
  | rejected => exact fun _ => hnone h
  | duplicate hlt =>
    intro k hge hlt
    have heq : s.txs.length = s.earlier := h
    omega
  | succeeded hsuccess => exact List.mem_of_getElem? hsuccess
  | failed hfailed =>
    intro _ k hge hlt
    rw [h k hge hlt]
    exact hfailed
  | timedOut => exact nofun
  | rpcTimeout _ => exact nofun

/-- No step of an attempt starts or ends it. -/
theorem Advance.ne_idle (hstep : Advance J s phase phase') :
  phase ≠ .idle ∧ phase' ≠ .idle
  := by
  cases hstep with
  | rpcTimeout hcalls =>
    constructor
    · rintro rfl
      exact hcalls
    · nofun
  | _ => exact ⟨nofun, nofun⟩

/-- What an entry of a list is set to is in the list. -/
theorem mem_set_of_getElem? {α : Type} {xs : List α} {k : ℕ} {x : α} (hk : xs[k]? = some x)
    (y : α) :
  y ∈ xs.set k y
  := by
  obtain ⟨hlt, _⟩ := List.getElem?_eq_some_iff.mp hk
  apply List.mem_set hlt

/-- What is no longer pending stays as it is when a pending transaction is settled on chain. -/
theorem getElem?_set_of_pending {txs : List TxStatus} {tx k : ℕ} {status t : TxStatus}
    (htx : txs[tx]? = some .pending) (hk : txs[k]? = some t) (ht : t ≠ .pending) :
  (txs.set tx status)[k]? = some t
  := by
  have hne : tx ≠ k := by
    rintro rfl
    apply ht
    apply Option.some.inj (hk.symm.trans htx)
  rw [List.getElem?_set_ne hne, hk]

/-- A transaction that fails is not one that succeeds. -/
theorem success_mem_set {txs : List TxStatus} {tx : ℕ} {status : TxStatus}
    (htx : txs[tx]? = some .pending) (hstatus : status = .failed ∨ status = .dropped) :
  .success ∈ txs.set tx status ↔ .success ∈ txs
  := by
  constructor
  · intro hmem
    apply (List.mem_or_eq_of_mem_set hmem).resolve_right
    rcases hstatus with rfl | rfl
    · nofun
    · nofun
  · intro hmem
    obtain ⟨j, hj⟩ := List.mem_iff_getElem?.mp hmem
    apply List.mem_of_getElem? (getElem?_set_of_pending htx hj nofun)

/-- A transaction that is settled on chain keeps what is known of the attempt. -/
theorem Own.set {s : State ω} (h : Own s phase) {tx : ℕ} {status : TxStatus}
    (htx : s.txs[tx]? = some .pending) (chain : ω) :
  Own { s with chain, txs := s.txs.set tx status } phase
  := by
  have hlength : (s.txs.set tx status).length = s.txs.length := List.length_set
  cases phase with
  | idle => trivial
  | verifying | checking | simulating | sending => exact hlength.trans h
  | polling k =>
    intro j hge hlt
    apply h j hge (hlength ▸ hlt)
  | caught err =>
    intro hproves j hge hlt
    apply getElem?_set_of_pending htx (h hproves j hge (hlength ▸ hlt)) nofun
  | confirmed =>
    obtain ⟨j, hj⟩ := List.mem_iff_getElem?.mp h
    apply List.mem_of_getElem? (getElem?_set_of_pending htx hj nofun)

end Attempt

/-! ### The invariant -/

section Invariant

variable {Applied : ω → Prop}

/-- What the calls of the job and of the others do to what the call is to bring about. -/
structure Faithful (J : Job ω) (Applied : ω → Prop) : Prop where
  call : ∀ env c c', J.call env c = some c' → Applied c'
  others : ∀ c c', J.others c c' → (Applied c' ↔ Applied c)

theorem cas_self (expected target : BidStatus) :
  cas expected target expected = target
  := if_pos rfl

/-- Every step keeps what is known of the transactions of the running attempt. -/
theorem Own.step (h : Own s s.phase) (hstep : Step J s l s') :
  Own s' s'.phase
  := by
  cases hstep with
  | noop _ _ => exact h
  | reload _ _ => exact rfl
  | advance hadvance => exact h.advance hadvance
  | accepted hphase =>
    rw [hphase] at h
    intro k hge hlt
    have hlength : s.txs.length = s.earlier := h
    have hearlier : s.earlier ≤ k := hge
    simp only [List.length_append, List.length_singleton] at hlt
    omega
  | replyLost _ => exact nofun
  | latch _ _ | retry _ _ | persist _ | databaseFailed _ | crash _ => exact trivial
  | tick _ => exact h
  | applied htx _ _ => exact h.set htx _
  | spent htx _ => exact h.set htx s.chain
  | others _ => exact h

/-- An error that is taken as a proof is one, as far as its own attempt goes. -/
theorem Own.not_outstanding (h : Own s s.phase) {err : RelayError} (hphase : s.phase = .caught err)
    (hproves : provesNothingSent err (s.attemptsMade = 0) = true)
    (hearlier : ∀ tx < s.earlier, ¬ Outstanding J s tx) (tx : ℕ) :
  ¬ Outstanding J s tx
  := by
  rcases lt_or_ge tx s.earlier with hlt | hge
  · apply hearlier tx hlt
  · rw [hphase] at h
    have hfailed := h (provesNothingSent_first hproves) tx hge
    rintro (hsuccess | ⟨hpending, _⟩)
    · obtain ⟨hlength, _⟩ := List.getElem?_eq_some_iff.mp hsuccess
      cases hsuccess.symm.trans (hfailed hlength)
    · obtain ⟨hlength, _⟩ := List.getElem?_eq_some_iff.mp hpending
      cases hpending.symm.trans (hfailed hlength)

/-- A transaction that is outstanding after a step was so before it, or the attempt that runs
has sent it. -/
theorem Step.outstanding (hstep : Step J s l s') {tx : ℕ} (h : Outstanding J s' tx) :
  Outstanding J s tx ∨ s.phase ≠ .idle
  := by
  cases hstep with
  | noop _ _ | reload _ _ | advance _ | latch _ _ | retry _ _ | persist _ | databaseFailed _
  | crash _ | others _ => exact .inl h
  | accepted hphase | replyLost hphase =>
    right
    simp [hphase]
  | tick hle =>
    left
    rcases h with hsuccess | ⟨hpending, hledger⟩
    · exact .inl hsuccess
    · exact .inr ⟨hpending, hle.trans hledger⟩
  | applied htx hledger _ =>
    rename_i k _ _
    left
    rcases eq_or_ne tx k with rfl | hne
    · exact .inr ⟨htx, hledger⟩
    · simpa only [Outstanding, List.getElem?_set_ne hne.symm] using h
  | spent htx hstatus =>
    rename_i k _
    left
    rcases eq_or_ne tx k with rfl | hne
    · obtain ⟨hlt, _⟩ := List.getElem?_eq_some_iff.mp htx
      simp only [Outstanding, List.getElem?_set_self hlt, Option.some_inj] at h
      rcases hstatus with rfl | rfl
      · simp at h
      · simp at h
    · simpa only [Outstanding, List.getElem?_set_ne hne.symm] using h

theorem Step.ledger_le (hstep : Step J s l s') :
  s.ledger ≤ s'.ledger
  := by
  cases hstep with
  | tick hle => exact hle
  | _ => exact le_refl _

/-- A step that leaves an attempt running has found it running, or has started it, and leaves
the row. -/
theorem Step.busy (hstep : Step J s l s') (h : s'.phase ≠ .idle) :
  (s.phase ≠ .idle ∨ s.status = J.expects) ∧ s'.status = s.status
  := by
  cases hstep with
  | noop _ _ => exact ⟨.inl h, rfl⟩
  | reload _ hstatus => exact ⟨.inr hstatus, rfl⟩
  | advance hadvance => exact ⟨.inl hadvance.ne_idle.1, rfl⟩
  | accepted hphase | replyLost hphase =>
    refine ⟨.inl ?_, rfl⟩
    simp [hphase]
  | latch _ _ | retry _ _ | persist _ | databaseFailed _ | crash _ => cases h rfl
  | tick _ | applied _ _ _ | spent _ _ | others _ => exact ⟨.inl h, rfl⟩

/-- What a step does that the others do not take: the row stays, is latched, or is persisted, or
a transaction is applied. -/
theorem Step.effect (hstep : Step J s l s') (hothers : ∀ c c', ¬ J.others c c')
    (hown : Own s s.phase) :
  (s'.chain = s.chain ∧ (.success ∈ s'.txs ↔ .success ∈ s.txs)
      ∧ (s'.status = s.status
        ∨ (l = .latch ∧ s'.phase = .idle ∧ s'.txs = s.txs
          ∧ s'.status = cas J.expects J.fails s.status
          ∧ ((∀ tx < s.earlier, ¬ Outstanding J s tx) → ∀ tx, ¬ Outstanding J s tx))
        ∨ (.success ∈ s.txs ∧ s'.status = cas J.expects J.succeeds s.status)))
    ∨ ((∃ env, J.call env s.chain = some s'.chain) ∧ s'.status = s.status ∧ .success ∈ s'.txs
      ∧ ∃ tx, Outstanding J s tx)
  := by
  cases hstep with
  | noop _ _ | reload _ _ | advance _ | retry _ _ | databaseFailed _ | crash _ | tick _ =>
    exact .inl ⟨rfl, Iff.rfl, .inl rfl⟩
  | accepted _ | replyLost _ =>
    left
    simp
  | latch hphase hproves =>
    exact .inl ⟨rfl, Iff.rfl, .inr (.inl ⟨rfl, rfl, rfl, rfl, hown.not_outstanding hphase hproves⟩)⟩
  | persist hphase =>
    rw [hphase] at hown
    exact .inl ⟨rfl, Iff.rfl, .inr (.inr ⟨hown, rfl⟩)⟩
  | applied htx hledger hcall =>
    exact .inr ⟨⟨_, hcall⟩, rfl, mem_set_of_getElem? htx _, _, .inr ⟨htx, hledger⟩⟩
  | spent htx hstatus =>
    exact .inl ⟨rfl, success_mem_set htx hstatus, .inl rfl⟩
  | others h => cases hothers _ _ h

/-- Every step of the worker and of the network keeps the invariant. -/
theorem Invariant.step (h : Invariant J Applied s) (hJ : Faithful J Applied)
    (hstep : Step J s l s') :
  Invariant J Applied s'
  := by
  have hown := h.own.step hstep
  cases hstep with
  | noop _ _ => exact h
  | reload _ hstatus => exact ⟨fun _ => hstatus, h.applied_iff, hown⟩
  | advance hadvance => exact ⟨fun _ => h.busy hadvance.ne_idle.1, h.applied_iff, hown⟩
  | accepted hphase =>
    have hstatus : s.status = J.expects := h.busy (by simp [hphase])
    refine ⟨fun _ => hstatus, ?_, hown⟩
    rw [h.applied_iff]
    simp
  | replyLost hphase =>
    have hstatus : s.status = J.expects := h.busy (by simp [hphase])
    refine ⟨fun _ => hstatus, ?_, hown⟩
    rw [h.applied_iff]
    simp
  | latch _ _ | retry _ _ | persist _ | databaseFailed _ | crash _ =>
    exact ⟨fun hidle => absurd rfl hidle, h.applied_iff, hown⟩
  | tick _ => exact ⟨h.busy, h.applied_iff, hown⟩
  | applied htx _ hcall =>
    refine ⟨h.busy, ?_, hown⟩
    apply iff_of_true (hJ.call _ _ _ hcall)
    apply mem_set_of_getElem? htx
  | spent htx hstatus =>
    refine ⟨h.busy, ?_, hown⟩
    rw [h.applied_iff, success_mem_set htx hstatus]
  | others hothers =>
    refine ⟨h.busy, ?_, hown⟩
    rw [hJ.others _ _ hothers]
    apply h.applied_iff

/-- Some transaction is pending, and its signature has not expired. -/
def Live (J : Job ω) (ledger : ℕ) (txs : List TxStatus) : Prop :=
  .pending ∈ txs ∧ ledger ≤ J.signatureExpirationLedger

/-- What the status of the row says about the call. -/
def Job.row (J : Job ω) (status : BidStatus) : OneShot.Row :=
  if status = J.expects then .waiting else if status = J.succeeds then .done else .reverted

theorem Job.row_expects (J : Job ω) :
  J.row J.expects = .waiting
  := if_pos rfl

theorem Job.row_succeeds (J : Job ω) :
  J.row J.succeeds = .done
  := by rw [row, if_neg J.succeeds_ne, if_pos rfl]

theorem Job.row_fails (J : Job ω) :
  J.row J.fails = .reverted
  := by rw [row, if_neg J.fails_ne, if_neg J.fails_ne_succeeds]

/-- The job as a one-shot operation. -/
def oneShot (J : Job ω) (Applied : ω → Prop) (s : State ω) : OneShot.State where
  row := J.row s.status
  live := Live J s.ledger s.txs
  effect := Applied s.chain

/-- Sending a transaction is a submission, unless its signature has expired. -/
theorem oneShot_send (hstatus : s.status = J.expects) (phase : Phase) :
  oneShot J Applied { s with txs := s.txs ++ [.pending], phase } = oneShot J Applied s
    ∨ ∃ i, OneShot.Step (oneShot J Applied s) i
        (oneShot J Applied { s with txs := s.txs ++ [.pending], phase })
  := by
  by_cases hledger : s.ledger ≤ J.signatureExpirationLedger
  · right
    have hlive : Live J s.ledger (s.txs ++ [.pending]) :=
      ⟨List.mem_append_right _ (List.mem_singleton_self _), hledger⟩
    use ()
    simp only [oneShot, hstatus, J.row_expects, eq_true hlive]
    apply OneShot.Step.submit
  · left
    have hlive : ¬ Live J s.ledger (s.txs ++ [.pending]) := fun h => hledger h.2
    have hlive' : ¬ Live J s.ledger s.txs := fun h => hledger h.2
    simp only [oneShot, eq_false hlive, eq_false hlive']

/-- A job whose rows are latched only when no earlier transaction is outstanding is a one-shot
operation. -/
theorem refines_oneShot (hJ : Faithful J Applied) {fresh : ω → Prop}
    (hfresh : ∀ c, fresh c → ¬ Applied c) :
  Refines ((system J fresh).restrict (LatchesSettled J)) OneShot.system (oneShot J Applied)
    (Invariant J Applied)
  := by
  constructor
  · rintro s ⟨hphase, hstatus, htxs, _, hchain⟩
    have hnot := hfresh _ hchain
    constructor
    · constructor
      · intro hbusy
        cases hbusy hphase
      · simp [htxs, hnot]
      · rw [hphase]
        trivial
    · refine ⟨?_, ?_, hnot⟩
      · rw [oneShot, hstatus, J.row_expects]
      · rintro ⟨hpending, _⟩
        rw [htxs] at hpending
        cases hpending
  · rintro s l s' hI ⟨hstep, _⟩
    apply hI.step hJ hstep
  · rintro s l s' hI ⟨hstep, hlatch⟩
    cases hstep with
    | noop _ _ | reload _ _ | advance _ | retry _ _ | databaseFailed _ | crash _ => exact .inl rfl
    | accepted hphase => apply oneShot_send (hI.busy (by simp [hphase]))
    | replyLost hphase => apply oneShot_send (hI.busy (by simp [hphase]))
    | latch hphase hproves =>
      have hnone := hI.own.not_outstanding hphase hproves (hlatch rfl)
      have hstatus : s.status = J.expects := hI.busy (by simp [hphase])
      right
      use ()
      simp only [oneShot, hstatus, cas_self, J.row_expects, J.row_fails]
      apply OneShot.Step.revert
      · rintro ⟨hpending, hledger⟩
        obtain ⟨tx, htx⟩ := List.mem_iff_getElem?.mp hpending
        apply hnone tx (.inr ⟨htx, hledger⟩)
      · intro happlied
        obtain ⟨tx, htx⟩ := List.mem_iff_getElem?.mp (hI.applied_iff.mp happlied)
        apply hnone tx (.inl htx)
    | persist hphase =>
      have hstatus : s.status = J.expects := hI.busy (by simp [hphase])
      have hown := hI.own
      rw [hphase] at hown
      right
      use ()
      simp only [oneShot, hstatus, cas_self, J.row_expects, J.row_succeeds]
      apply OneShot.Step.confirm (hI.applied_iff.mpr hown)
    | tick hle =>
      apply OneShot.Step.of_imp
      rintro ⟨hpending, hledger⟩
      exact ⟨hpending, hle.trans hledger⟩
    | applied htx hledger hcall =>
      right
      use ()
      simp only [oneShot, eq_true (hJ.call _ _ _ hcall)]
      apply OneShot.Step.land
      · exact ⟨List.mem_of_getElem? htx, hledger⟩
      · rintro _
        exact ⟨List.mem_of_getElem? htx, hledger⟩
    | spent htx _ =>
      apply OneShot.Step.of_imp
      rintro ⟨_, hledger⟩
      exact ⟨List.mem_of_getElem? htx, hledger⟩
    | others hothers =>
      left
      simp only [oneShot, propext (hJ.others _ _ hothers)]

/-- Every state that a job reaches is honest, when rows are latched only when no earlier
transaction is outstanding: a latched row says that the call has not taken effect, a confirmed
one that it has. -/
theorem honest_of_reachable (hJ : Faithful J Applied) {fresh : ω → Prop}
    (hfresh : ∀ c, fresh c → ¬ Applied c)
    (h : ((system J fresh).restrict (LatchesSettled J)).Reachable s) :
  (s.status = J.fails → ¬ Applied s.chain) ∧ (s.status = J.succeeds → Applied s.chain)
  := by
  have hhonest := OneShot.honest_of_reachable ((refines_oneShot hJ hfresh).reachable h).2
  constructor
  · intro hstatus
    apply (hhonest.reverted _).2
    rw [oneShot, hstatus, J.row_fails]
  · intro hstatus
    apply hhonest.done
    rw [oneShot, hstatus, J.row_succeeds]

end Invariant

end Relay
