import Tove.Fractions.DeployWorker

/-!
# When the rows agree with the chain

A row that is deployed is to name a token that has been constructed with the columns of the row, and
a row that has failed is to have deployed nothing. What the worker takes as a failure is not one: a
call that times out says nothing of the transaction. A token that lands late is then adopted for
another row of the artwork, with other parameters; and a token that is found by a later attempt is
latched with a lockup that this attempt has computed anew.

When the worker latches a failure only for a row whose transactions are all spent, and a token that
it finds only in the second at which its parameters have been computed, the rows agree.
-/

namespace Fractionalization

open Soroban Transition Rows

/-! ### The agreement -/

/-- The columns of a row are the parameters with which a token has been constructed. -/
structure FractionContract.AgreesWith (row : FractionContract) (token : Token) : Prop where
  address : row.tokenAddress = some token.address
  artist : row.terms.artistAddress = token.attempt.init.artistAddress
  artistRetention : row.artistRetentionAmount = some token.attempt.init.artistRetentionAmount
  treasuryRetention : row.treasuryRetentionAmount = some token.attempt.init.treasuryRetentionAmount
  artistLockup : ∀ artistLockupUntil, row.artistLockupUntil = some artistLockupUntil →
    artistLockupUntil = token.attempt.init.artistLockupUntil

/-- The rows that are deployed name a token that has their columns as parameters, and the rows that
have failed have deployed no token. -/
structure Agree (s : State) : Prop where
  deployed : ∀ (id : ℕ) (row : FractionContract), s.contracts[id]? = some row →
    row.status = .deployed →
    ∃ token, s.registry row.terms.artworkId = some token ∧ row.AgreesWith token
  failed : ∀ (id : ℕ) (row : FractionContract), s.contracts[id]? = some row →
    row.status = .failed →
    ∀ token, s.registry row.terms.artworkId = some token → token.attempt.contractId ≠ id

/-- A transaction has deployed a token, or it can still do so. -/
def TxStatus.Outstanding : TxStatus → Prop
  | .pending | .success _ => True
  | .signed | .failed | .dropped => False

/-- The attempt that may still send a transaction. -/
def Phase.sends : Phase → Option Attempt
  | .checking a | .building a | .sending a _ => some a
  | .idle | .polling _ _ | .latching _ _ | .caught _ _ => none

/-- Nothing has been deployed for a row, and nothing will. -/
structure Quiet (s : State) (id : ℕ) : Prop where
  txs : ∀ (txHash : ℕ) (a : Attempt) (status : TxStatus), s.txs[txHash]? = some ⟨a, status⟩ →
    a.contractId = id → ¬ status.Outstanding
  workers : ∀ w a, (s.workers w).sends = some a → a.contractId ≠ id

/-- A worker marks a row as failed only when nothing has been deployed for it and nothing will, and
it latches a token that it has found in the registry only in the second in which the attempt that
has deployed the token has started. -/
def Careful (s : State) (l : Label) (_ : State) : Prop :=
  match l with
  | .latchFailed w => ∀ (a : Attempt) (row : FractionContract), s.workers w = .caught a .other →
      s.contracts[a.contractId]? = some row → row.status = .deploying → Quiet s a.contractId
  | .latchDeployed w => ∀ (a : Attempt) (tokenAddress : Address) (row : FractionContract)
      (token : Token), s.workers w = .latching a ⟨tokenAddress, none⟩ →
      s.contracts[a.contractId]? = some row → row.status = .deploying →
      s.registry a.init.artworkId = some token → a.deployTs = token.attempt.deployTs
  | .other => True

/-! ### What a step changes -/

section Step

variable {cfg : Config} {s s' : State} {l : Label}

/-- How a step may update a row. -/
inductive RowUpdate (s : State) (l : Label) (id : ℕ) : FractionContract → FractionContract → Prop where
  | hash {row : FractionContract} {txHash : Option ℕ} : RowUpdate s l id row { row with txHash }
  | latched {row : FractionContract} {w : ℕ} {a : Attempt} {result : DeployFractionTokenResult} :
      l = .latchDeployed w → s.workers w = .latching a result → a.contractId = id →
      row.status = .deploying → RowUpdate s l id row (row.latch (a.latch result))
  | promoted {row : FractionContract} {tokenAddress : Address} : (id, tokenAddress) ∈ s.resolved →
      row.status = .deploying →
      RowUpdate s l id row (row.latch (reconcileLatch row.terms tokenAddress))
  | failed {row : FractionContract} {w : ℕ} {a : Attempt} : l = .latchFailed w →
      s.workers w = .caught a .other → a.contractId = id → row.status = .deploying →
      RowUpdate s l id row { row with status := .failed }

/-- The terms of a row are never written again. -/
theorem RowUpdate.terms {id : ℕ} {row row' : FractionContract} (h : RowUpdate s l id row row') :
  row'.terms = row.terms
  := by
  cases h <;> rfl

/-- A row that a step may insert. -/
def Inserts (s : State) (row : FractionContract) : Prop :=
  row.status = .deploying ∧ ∀ row₀ ∈ s.contracts, ¬ row₀.Active row.terms.artworkId

theorem fractionalize_eq_ok {artworkId : String} {dto : FractionalizeArtworkDto}
    {artistAddress : Option Address}
    (h : fractionalize cfg artworkId dto artistAddress s = .ok s') :
  ∃ a, (∀ row₀ ∈ s.contracts, ¬ row₀.Active artworkId) ∧ s' = { s with
    contracts := s.contracts ++ [newContract artworkId dto a]
    artworks := casStatus s.artworks artworkId .verified .fractionalizing }
  := by
  unfold fractionalize at h
  rw [Checks.check_bind_eq_ok, Checks.check_bind_eq_ok] at h
  obtain ⟨_, _, h⟩ := h
  split at h
  · cases h
  · rw [Checks.check_bind_eq_ok] at h
    obtain ⟨_, h⟩ := h
    cases artistAddress with
    | none => cases h
    | some a =>
      dsimp only at h
      rw [Checks.check_bind_eq_ok, Checks.rejectIf_eq_ok, Checks.pure_eq_ok] at h
      obtain ⟨hfree, h⟩ := h
      refine ⟨a, ?_, h.symm⟩
      intro row₀ hmem hactive
      apply hfree ⟨row₀, hmem, hactive⟩

theorem State.latchDeployed_contracts {contractId : ℕ} {artworkId : String} {latch : DeployedLatch}
    {insert : FractionContract → Prop} {update : ℕ → FractionContract → FractionContract → Prop}
    (hupdate : ∀ row, s.contracts[contractId]? = some row → row.status = .deploying →
      update contractId row (row.latch latch)) :
  Change insert update s.contracts (s.latchDeployed contractId artworkId latch).contracts
  := by
  rw [State.latchDeployed]
  split
  · apply Change.same
  · next hcas => apply Change.of_compareAndSet hcas hupdate

theorem State.latchFailed_contracts {contractId : ℕ} {artworkId : String}
    {insert : FractionContract → Prop} {update : ℕ → FractionContract → FractionContract → Prop}
    (hupdate : ∀ row, s.contracts[contractId]? = some row → row.status = .deploying →
      update contractId row { row with status := .failed }) :
  Change insert update s.contracts (s.latchFailed contractId artworkId).contracts
  := by
  rw [State.latchFailed]
  split
  · apply Change.same
  · next hcas => apply Change.of_compareAndSet hcas hupdate

/-- The two transactions write the tables alone. -/
@[simp]
theorem State.latchDeployed_frame {contractId : ℕ} {artworkId : String} {latch : DeployedLatch} :
  (s.latchDeployed contractId artworkId latch).registry = s.registry
    ∧ (s.latchDeployed contractId artworkId latch).txs = s.txs
    ∧ (s.latchDeployed contractId artworkId latch).workers = s.workers
    ∧ (s.latchDeployed contractId artworkId latch).resolved = s.resolved
  := by
  rw [State.latchDeployed]
  split <;> exact ⟨rfl, rfl, rfl, rfl⟩

@[simp]
theorem State.latchFailed_frame {contractId : ℕ} {artworkId : String} :
  (s.latchFailed contractId artworkId).registry = s.registry
    ∧ (s.latchFailed contractId artworkId).txs = s.txs
    ∧ (s.latchFailed contractId artworkId).workers = s.workers
    ∧ (s.latchFailed contractId artworkId).resolved = s.resolved
  := by
  rw [State.latchFailed]
  split <;> exact ⟨rfl, rfl, rfl, rfl⟩

/-- A step changes one row at most. -/
theorem Step.contracts (h : Step cfg s l s') :
  Change (Inserts s) (RowUpdate s l) s.contracts s'.contracts
  := by
  cases h with
  | fractionalize hok =>
    obtain ⟨_, hfree, rfl⟩ := fractionalize_eq_ok hok
    apply Change.insert ⟨rfl, hfree⟩
  | built _ _ => apply Change.of_modify fun row _ => .hash
  | latchDeployed hphase =>
    apply State.latchDeployed_contracts fun row _ hrow => .latched rfl hphase rfl hrow
  | commitLost hphase =>
    apply State.latchDeployed_contracts fun row _ hrow => .latched rfl hphase rfl hrow
  | latchFailed hphase =>
    apply State.latchFailed_contracts fun row _ hrow => .failed rfl hphase rfl hrow
  | promote hmem hid =>
    apply State.latchDeployed_contracts
    intro row hid' hrow
    obtain rfl := Option.some.inj (hid.symm.trans hid')
    apply RowUpdate.promoted hmem hrow
  | _ => apply Change.same

/-- How a step may update a transaction. -/
inductive TxUpdate (cfg : Config) (s s' : State) (txHash : ℕ) : Tx → Tx → Prop where
  | accepted {w : ℕ} {a : Attempt} : s.workers w = .sending a txHash →
      TxUpdate cfg s s' txHash ⟨a, .signed⟩ ⟨a, .pending⟩
  | landed {a : Attempt} {ledger : ℕ} :
      s'.registry a.init.artworkId = some ⟨cfg.derived a.init.artworkId, a⟩ →
      TxUpdate cfg s s' txHash ⟨a, .pending⟩ ⟨a, .success ledger⟩
  | spent {a : Attempt} {status : TxStatus} : status = .failed ∨ status = .dropped →
      TxUpdate cfg s s' txHash ⟨a, .pending⟩ ⟨a, status⟩

/-- A step changes one transaction at most. -/
theorem Step.txs (h : Step cfg s l s') :
  Change (fun tx => tx.status = .signed ∧ ∃ w, s.workers w = .building tx.attempt)
    (TxUpdate cfg s s') s.txs s'.txs
  := by
  cases h with
  | fractionalize hok =>
    obtain ⟨_, _, rfl⟩ := fractionalize_eq_ok hok
    apply Change.same
  | built hphase _ => apply Change.insert ⟨rfl, _, hphase⟩
  | accepted hphase hid => apply Change.update hid (.accepted hphase)
  | replyLost hphase hid => apply Change.update hid (.accepted hphase)
  | latchDeployed _ | commitLost _ | promote _ _ =>
    simp only [State.enter, State.latchDeployed_frame.2.1]
    apply Change.same
  | latchFailed _ =>
    simp only [State.enter, State.latchFailed_frame.2.1]
    apply Change.same
  | land hid _ => apply Change.update hid (.landed (Function.update_self ..))
  | spent hid hstatus => apply Change.update hid (.spent hstatus)
  | _ => apply Change.same

/-- The registry changes when a transaction lands, at an artwork that has no token. -/
theorem Step.registry (h : Step cfg s l s') {artworkId : String} {token : Token}
    (hregistry : s'.registry artworkId = some token) :
  s.registry artworkId = some token
    ∨ s.registry artworkId = none ∧ token.attempt.init.artworkId = artworkId
      ∧ token.address = cfg.derived artworkId
      ∧ ∃ txHash ledger : ℕ, s'.txs[txHash]? = some ⟨token.attempt, .success ledger⟩
  := by
  cases h with
  | fractionalize hok =>
    obtain ⟨_, _, rfl⟩ := fractionalize_eq_ok hok
    exact .inl hregistry
  | latchDeployed _ | commitLost _ | promote _ _ =>
    simp only [State.enter, State.latchDeployed_frame.1] at hregistry
    exact .inl hregistry
  | latchFailed _ =>
    simp only [State.enter, State.latchFailed_frame.1] at hregistry
    exact .inl hregistry
  | @land txHash ledger a hid hnone =>
    by_cases hartwork : artworkId = a.init.artworkId
    · subst hartwork
      obtain rfl : (⟨cfg.derived a.init.artworkId, a⟩ : Token) = token := by
        simpa using hregistry
      obtain ⟨hlt, _⟩ := List.getElem?_eq_some_iff.mp hid
      exact .inr ⟨hnone, rfl, rfl, txHash, ledger, List.getElem?_set_self hlt⟩
    · exact .inl ((Function.update_of_ne hartwork ..).symm.trans hregistry)
  | _ => exact .inl hregistry

/-- What is registered stays registered. -/
theorem Step.registry_kept (h : Step cfg s l s') {artworkId : String} {token : Token}
    (hregistry : s.registry artworkId = some token) :
  s'.registry artworkId = some token
  := by
  cases h with
  | fractionalize hok =>
    obtain ⟨_, _, rfl⟩ := fractionalize_eq_ok hok
    exact hregistry
  | latchDeployed _ | commitLost _ | promote _ _ =>
    simpa only [State.enter, State.latchDeployed_frame.1] using hregistry
  | latchFailed _ => simpa only [State.enter, State.latchFailed_frame.1] using hregistry
  | @land _ _ a _ hnone =>
    have hartwork : artworkId ≠ a.init.artworkId := by
      rintro rfl
      cases hregistry.symm.trans hnone
    exact (Function.update_of_ne hartwork ..).trans hregistry
  | _ => exact hregistry

/-- How a worker may go from phase to phase. -/
inductive Enters (cfg : Config) (s : State) (l : Label) : Phase → Phase → Prop where
  | stays {phase : Phase} : Enters cfg s l phase phase
  | starts {contractId : ℕ} {row : FractionContract} : s.contracts[contractId]? = some row →
      row.status = .deploying → l = .other →
      Enters cfg s l .idle (.checking ⟨contractId, s.now, tokenInit row.terms s.now⟩)
  | advances {phase phase' : Phase} : Advance cfg s phase phase' → Enters cfg s l phase phase'
  | signs {a : Attempt} : Enters cfg s l (.building a) (.sending a s.txs.length)
  | polls {a : Attempt} {txHash : ℕ} : Enters cfg s l (.sending a txHash) (.polling a txHash)
  | stops {phase : Phase} : Enters cfg s l phase .idle

/-- When one worker enters a phase, the others stay where they are. -/
theorem State.enter_workers {s₀ : State} {w : ℕ} {phase : Phase} (hworkers : s₀.workers = s.workers)
    (hphase : Enters cfg s l (s.workers w) phase) (w' : ℕ) :
  Enters cfg s l (s.workers w') ((s₀.enter w phase).workers w')
  := by
  by_cases hw : w' = w
  · subst hw
    simpa [State.enter] using hphase
  · have hworker : (s₀.enter w phase).workers w' = s.workers w' := by
      rw [← hworkers]
      apply Function.update_of_ne hw
    rw [hworker]
    apply Enters.stays

theorem Step.workers (h : Step cfg s l s') (w : ℕ) :
  Enters cfg s l (s.workers w) (s'.workers w)
  := by
  cases h with
  | fractionalize hok =>
    obtain ⟨_, _, rfl⟩ := fractionalize_eq_ok hok
    apply Enters.stays
  | start hphase hid hrow =>
    apply State.enter_workers rfl
    rw [hphase]
    apply Enters.starts hid hrow rfl
  | advance hadvance => apply State.enter_workers rfl (.advances hadvance)
  | built hphase _ =>
    apply State.enter_workers rfl
    rw [hphase]
    apply Enters.signs
  | accepted hphase _ =>
    apply State.enter_workers rfl
    rw [hphase]
    apply Enters.polls
  | replyLost hphase _ =>
    apply State.enter_workers rfl
    rw [hphase]
    apply Enters.advances .rejected
  | latchDeployed _ => apply State.enter_workers State.latchDeployed_frame.2.2.1 .stops
  | commitLost hphase =>
    apply State.enter_workers State.latchDeployed_frame.2.2.1
    rw [hphase]
    apply Enters.advances .unlatched
  | latchFailed _ => apply State.enter_workers State.latchFailed_frame.2.2.1 .stops
  | stop => apply State.enter_workers rfl .stops
  | promote _ _ =>
    rw [State.latchDeployed_frame.2.2.1]
    apply Enters.stays
  | _ => apply Enters.stays

/-- A worker is about to send for an attempt only when it was so before, or the attempt has just
started. -/
theorem Enters.sends {phase phase' : Phase} (h : Enters cfg s l phase phase') {a : Attempt}
    (hsends : phase'.sends = some a) :
  phase.sends = some a
    ∨ l = .other ∧ ∃ row : FractionContract, s.contracts[a.contractId]? = some row
      ∧ row.status = .deploying
  := by
  cases h with
  | stays => exact .inl hsends
  | starts hid hrow hl =>
    obtain rfl := Option.some.inj hsends
    exact .inr ⟨hl, _, hid, hrow⟩
  | advances hadvance =>
    left
    cases hadvance <;> first | exact hsends | cases hsends
  | signs => exact .inl hsends
  | polls | stops => cases hsends

end Step

/-! ### What holds in every state -/

section Tracked

variable {cfg : Config} {s s' : State} {l : Label}

/-- An attempt has computed its parameters from its row. -/
def Started (s : State) (a : Attempt) : Prop :=
  ∃ row : FractionContract, s.contracts[a.contractId]? = some row
    ∧ a.init = tokenInit row.terms a.deployTs

/-- What an attempt has found is the token of its artwork. When it has seen the ledger, it is the
token that the attempt has deployed. -/
def Found (s : State) (a : Attempt) (result : DeployFractionTokenResult) : Prop :=
  ∃ token, s.registry a.init.artworkId = some token ∧ token.address = result.tokenAddress
    ∧ (result.deployLedger ≠ none → token.attempt = a)

/-- What is known of a worker. -/
def Known (s : State) : Phase → Prop
  | .idle => True
  | .checking a | .building a | .sending a _ | .polling a _ | .caught a _ => Started s a
  | .latching a result => Started s a ∧ Found s a result

/-- What holds in every state. -/
structure Tracked (cfg : Config) (s : State) : Prop where
  unique : ∀ (artworkId : String) (i j : ℕ) (rowᵢ rowⱼ : FractionContract),
    s.contracts[i]? = some rowᵢ → s.contracts[j]? = some rowⱼ →
    rowᵢ.Active artworkId → rowⱼ.Active artworkId → i = j
  workers : ∀ w, Known s (s.workers w)
  txs : ∀ (txHash : ℕ) (tx : Tx), s.txs[txHash]? = some tx → Started s tx.attempt
  landed : ∀ (txHash ledger : ℕ) (a : Attempt), s.txs[txHash]? = some ⟨a, .success ledger⟩ →
    s.registry a.init.artworkId = some ⟨cfg.derived a.init.artworkId, a⟩
  registered : ∀ (artworkId : String) (token : Token), s.registry artworkId = some token →
    token.attempt.init.artworkId = artworkId
      ∧ ∃ txHash ledger : ℕ, s.txs[txHash]? = some ⟨token.attempt, .success ledger⟩
  resolved : ∀ p ∈ s.resolved, ∃ (row : FractionContract) (token : Token),
    s.contracts[p.1]? = some row ∧ s.registry row.terms.artworkId = some token
      ∧ token.address = p.2

theorem Started.step {a : Attempt} (h : Started s a) (hstep : Step cfg s l s') :
  Started s' a
  := by
  obtain ⟨row, hid, hinit⟩ := h
  obtain ⟨row', hid', rfl | hupdate⟩ := hstep.contracts.of_before hid
  · exact ⟨row', hid', hinit⟩
  · exact ⟨row', hid', by rw [hupdate.terms, hinit]⟩

/-- What is known of a phase stays known. -/
theorem Known.step {phase : Phase} (h : Known s phase) (hstep : Step cfg s l s') :
  Known s' phase
  := by
  cases phase with
  | idle => trivial
  | checking | building | sending | polling | caught => exact Started.step h hstep
  | latching a result =>
    obtain ⟨hstarted, token, hregistry, htoken⟩ := h
    exact ⟨hstarted.step hstep, token, hstep.registry_kept hregistry, htoken⟩

/-- What a worker learns as it goes from phase to phase. -/
theorem Known.enters {phase phase' : Phase} (htracked : Tracked cfg s) (h : Known s phase)
    (henters : Enters cfg s l phase phase') :
  Known s phase'
  := by
  cases henters with
  | stays => exact h
  | starts hid _ _ => exact ⟨_, hid, rfl⟩
  | advances hadvance =>
    cases hadvance with
    | found hregistry => exact ⟨h, _, hregistry, rfl, fun hledger => absurd rfl hledger⟩
    | succeeded hsuccess => exact ⟨h, _, htracked.landed _ _ _ hsuccess, rfl, fun _ => rfl⟩
    | unlatched => exact h.1
    | _ => exact h
  | signs | polls => exact h
  | stops => trivial

/-- A row occupies an artwork only if it did so before. -/
theorem RowUpdate.active {id : ℕ} {row row' : FractionContract} (h : RowUpdate s l id row row')
    {artworkId : String} (hactive : row'.Active artworkId) :
  row.Active artworkId
  := by
  obtain ⟨hartwork, hstatus⟩ := hactive
  refine ⟨by rw [← hartwork, h.terms], ?_⟩
  cases h with
  | hash => exact hstatus
  | latched _ _ _ hrow | promoted _ hrow | failed _ _ _ hrow =>
    rw [hrow]
    nofun

/-- A row that occupies an artwork did so before, or it has just been inserted at an artwork
that was free. -/
theorem Step.active (hstep : Step cfg s l s') {artworkId : String} {id : ℕ} {row : FractionContract}
    (hid : s'.contracts[id]? = some row) (hactive : row.Active artworkId) :
  (∃ row₀ : FractionContract, s.contracts[id]? = some row₀ ∧ row₀.Active artworkId)
    ∨ id = s.contracts.length ∧ ∀ row₀ ∈ s.contracts, ¬ row₀.Active artworkId
  := by
  rcases hstep.contracts.of_after hid with ⟨row₀, hid₀, rfl | hupdate⟩ | ⟨_, hlength, _, hfree⟩
  · exact .inl ⟨row, hid₀, hactive⟩
  · exact .inl ⟨row₀, hid₀, hupdate.active hactive⟩
  · rw [hactive.1] at hfree
    exact .inr ⟨hlength, hfree⟩

theorem Tracked.unique_step (h : Tracked cfg s) (hstep : Step cfg s l s') {artworkId : String}
    {i j : ℕ} {rowᵢ rowⱼ : FractionContract} (hi : s'.contracts[i]? = some rowᵢ)
    (hj : s'.contracts[j]? = some rowⱼ) (hactiveᵢ : rowᵢ.Active artworkId)
    (hactiveⱼ : rowⱼ.Active artworkId) :
  i = j
  := by
  rcases hstep.active hi hactiveᵢ with ⟨rowᵢ, hi, hactiveᵢ⟩ | ⟨rfl, hfree⟩
  · rcases hstep.active hj hactiveⱼ with ⟨rowⱼ, hj, hactiveⱼ⟩ | ⟨_, hfree⟩
    · exact h.unique artworkId i j rowᵢ rowⱼ hi hj hactiveᵢ hactiveⱼ
    · exact absurd hactiveᵢ (hfree _ (List.mem_of_getElem? hi))
  · rcases hstep.active hj hactiveⱼ with ⟨rowⱼ, hj, hactiveⱼ⟩ | ⟨hj, _⟩
    · exact absurd hactiveⱼ (hfree _ (List.mem_of_getElem? hj))
    · exact hj.symm

/-- A transaction keeps the attempt that has signed it. -/
theorem TxUpdate.attempt {txHash : ℕ} {tx tx' : Tx} (h : TxUpdate cfg s s' txHash tx tx') :
  tx'.attempt = tx.attempt
  := by
  cases h <;> rfl

theorem Step.resolved (h : Step cfg s l s') {p : ℕ × Address} (hp : p ∈ s'.resolved) :
  p ∈ s.resolved ∨ ∃ (row : FractionContract) (token : Token), s.contracts[p.1]? = some row
    ∧ s.registry row.terms.artworkId = some token ∧ token.address = p.2
  := by
  cases h with
  | fractionalize hok =>
    obtain ⟨_, _, rfl⟩ := fractionalize_eq_ok hok
    exact .inl hp
  | latchDeployed _ | commitLost _ | promote _ _ =>
    simp only [State.enter, State.latchDeployed_frame.2.2.2] at hp
    exact .inl hp
  | latchFailed _ =>
    simp only [State.enter, State.latchFailed_frame.2.2.2] at hp
    exact .inl hp
  | resolve _ hid hregistry =>
    rcases List.mem_cons.mp hp with rfl | hp
    · exact .inr ⟨_, _, hid, hregistry, rfl⟩
    · exact .inl hp
  | endPass => cases hp
  | _ => exact .inl hp

theorem Tracked.step (h : Tracked cfg s) (hstep : Step cfg s l s') :
  Tracked cfg s'
  := by
  constructor
  · intro artworkId i j rowᵢ rowⱼ
    apply h.unique_step hstep
  · intro w
    exact ((h.workers w).enters h (hstep.workers w)).step hstep
  · intro txHash tx htx
    rcases hstep.txs.of_after htx with ⟨tx₀, htx₀, rfl | hupdate⟩ | ⟨_, _, _, w, hphase⟩
    · exact (h.txs txHash tx htx₀).step hstep
    · rw [hupdate.attempt]
      exact (h.txs txHash tx₀ htx₀).step hstep
    · have hknown := h.workers w
      rw [hphase] at hknown
      exact Started.step hknown hstep
  · intro txHash ledger a htx
    rcases hstep.txs.of_after htx with ⟨tx₀, htx₀, rfl | hupdate⟩ | ⟨_, _, hsigned, _⟩
    · exact hstep.registry_kept (h.landed txHash ledger a htx₀)
    · cases hupdate with
      | landed hregistry => exact hregistry
      | spent hstatus => rcases hstatus with hstatus | hstatus <;> cases hstatus
    · cases hsigned
  · intro artworkId token hregistry
    rcases hstep.registry hregistry with hregistry | ⟨_, hartwork, _, hlanded⟩
    · obtain ⟨hartwork, txHash, ledger, htx⟩ := h.registered artworkId token hregistry
      refine ⟨hartwork, txHash, ledger, ?_⟩
      obtain ⟨tx', htx', rfl | hupdate⟩ := hstep.txs.of_before htx
      · exact htx'
      · cases hupdate
    · exact ⟨hartwork, hlanded⟩
  · intro p hp
    have hresolved : ∃ (row : FractionContract) (token : Token), s.contracts[p.1]? = some row
        ∧ s.registry row.terms.artworkId = some token ∧ token.address = p.2 :=
      (hstep.resolved hp).elim (h.resolved p) id
    obtain ⟨row, token, hid, hregistry, haddress⟩ := hresolved
    obtain ⟨row', hid', hrow⟩ := hstep.contracts.of_before hid
    have hterms : row'.terms = row.terms := by
      rcases hrow with rfl | hupdate
      · rfl
      · apply hupdate.terms
    exact ⟨row', token, hid', by rw [hterms]; exact hstep.registry_kept hregistry, haddress⟩

end Tracked

/-! ### When the failures are right -/

section Agreement

variable {cfg : Config} {s s' : State} {l : Label}

/-- What has been settled about the rows. -/
structure Settled (s : State) : Prop where
  deployed : ∀ (id : ℕ) (row : FractionContract), s.contracts[id]? = some row →
    row.status = .deployed →
    ∃ token, s.registry row.terms.artworkId = some token ∧ row.AgreesWith token
  failed : ∀ (id : ℕ) (row : FractionContract), s.contracts[id]? = some row →
    row.status = .failed → Quiet s id

/-- As long as a row is not deploying, or no attempt for it is started, quiet stays. -/
theorem Quiet.step {id : ℕ} (h : Quiet s id) (hstep : Step cfg s l s')
    (hrow : l ≠ .other ∨ ∀ row, s.contracts[id]? = some row → row.status ≠ .deploying) :
  Quiet s' id
  := by
  constructor
  · intro txHash a status htx hid
    rcases hstep.txs.of_after htx with ⟨tx₀, htx₀, rfl | hupdate⟩ | ⟨_, _, hsigned, _⟩
    · exact h.txs txHash a status htx₀ hid
    · cases hupdate with
      | @accepted w _ hphase =>
        have hsends : (s.workers w).sends = some a := by rw [hphase]; rfl
        exact absurd hid (h.workers w a hsends)
      | landed _ => exact absurd trivial (h.txs txHash a _ htx₀ hid)
      | spent hstatus => rcases hstatus with rfl | rfl <;> exact fun houtstanding => houtstanding
    · rw [show status = .signed from hsigned]
      exact fun houtstanding => houtstanding
  · intro w a hsends hid
    subst hid
    rcases (hstep.workers w).sends hsends with hsends | ⟨rfl, row, hid, hdeploying⟩
    · exact h.workers w a hsends rfl
    · rcases hrow with hl | hrow
      · exact hl rfl
      · exact hrow row hid hdeploying

/-- As long as the rows that have failed are quiet, the token of the artwork of a row that is
deploying has been deployed for this row. -/
theorem Settled.token_of_deploying (h : Settled s) (htracked : Tracked cfg s) {id : ℕ}
    {row : FractionContract} (hid : s.contracts[id]? = some row) (hrow : row.status = .deploying)
    {token : Token} (hregistry : s.registry row.terms.artworkId = some token) :
  token.attempt.init = tokenInit row.terms token.attempt.deployTs
  := by
  obtain ⟨hartwork, txHash, ledger, htx⟩ := htracked.registered _ token hregistry
  obtain ⟨row₀, hid₀, hinit⟩ := htracked.txs txHash _ htx
  have hactive₀ : row₀.Active row.terms.artworkId := by
    constructor
    · rw [← hartwork, hinit]
      rfl
    · intro hfailed
      exact (h.failed _ row₀ hid₀ hfailed).txs txHash _ _ htx rfl trivial
  have hactive : row.Active row.terms.artworkId := ⟨rfl, by rw [hrow]; nofun⟩
  obtain rfl := htracked.unique _ _ _ _ _ hid₀ hid hactive₀ hactive
  obtain rfl := Option.some.inj (hid₀.symm.trans hid)
  exact hinit

/-- What a careful worker latches, the token has been constructed with. -/
theorem Settled.latched (h : Settled s) (htracked : Tracked cfg s) {w : ℕ} {a : Attempt}
    {result : DeployFractionTokenResult} (hcareful : Careful s (.latchDeployed w) s')
    (hphase : s.workers w = .latching a result) {row : FractionContract}
    (hid : s.contracts[a.contractId]? = some row) (hrow : row.status = .deploying) :
  ∃ token, s.registry row.terms.artworkId = some token
    ∧ (row.latch (a.latch result)).AgreesWith token
  := by
  have hknown := htracked.workers w
  rw [hphase] at hknown
  obtain ⟨⟨row₀, hid₀, hinit⟩, token, hregistry, haddress, hown⟩ := hknown
  obtain rfl := Option.some.inj (hid₀.symm.trans hid)
  have hartwork : a.init.artworkId = row₀.terms.artworkId := by
    rw [hinit]
    rfl
  have htoken := h.token_of_deploying htracked hid hrow (hartwork ▸ hregistry)
  have hts : a.deployTs = token.attempt.deployTs := by
    obtain ⟨tokenAddress, deployLedger⟩ := result
    cases deployLedger with
    | none => exact hcareful a tokenAddress row₀ token hphase hid hrow hregistry
    | some ledger => rw [hown nofun]
  have hsame : a.init = token.attempt.init := by rw [hinit, htoken, hts]
  refine ⟨token, hartwork ▸ hregistry, congrArg some haddress.symm, ?_, ?_, ?_, ?_⟩
  · rw [htoken]
    rfl
  · exact congrArg (fun init => some init.artistRetentionAmount) hsame
  · exact congrArg (fun init => some init.treasuryRetentionAmount) hsame
  · rintro artistLockupUntil ⟨⟩
    exact congrArg TokenInitInput.artistLockupUntil hsame

/-- What the reconcile pass latches, the token has been constructed with. -/
theorem Settled.promoted (h : Settled s) (htracked : Tracked cfg s) {id : ℕ}
    {tokenAddress : Address}
    (hresolved : (id, tokenAddress) ∈ s.resolved) {row : FractionContract}
    (hid : s.contracts[id]? = some row) (hrow : row.status = .deploying) :
  ∃ token, s.registry row.terms.artworkId = some token
    ∧ (row.latch (reconcileLatch row.terms tokenAddress)).AgreesWith token
  := by
  obtain ⟨row₀, token, hid₀, hregistry, haddress⟩ := htracked.resolved _ hresolved
  obtain rfl := Option.some.inj (hid₀.symm.trans hid)
  have htoken := h.token_of_deploying htracked hid hrow hregistry
  refine ⟨token, hregistry, congrArg some haddress.symm, ?_, ?_, ?_, nofun⟩
  all_goals
    rw [htoken]
    rfl

/-- A careful step settles the rows rightly. -/
theorem Settled.step (h : Settled s) (htracked : Tracked cfg s) (hstep : Step cfg s l s')
    (hcareful : Careful s l s') :
  Settled s'
  := by
  constructor
  · intro id row' hid' hdeployed
    have hbefore : ∃ token, s.registry row'.terms.artworkId = some token
      ∧ row'.AgreesWith token := by
      rcases hstep.contracts.of_after hid' with ⟨row, hid, rfl | hupdate⟩ | ⟨_, _, hrow, _⟩
      · exact h.deployed id row' hid hdeployed
      · cases hupdate with
        | hash =>
          obtain ⟨token, hregistry, hagrees⟩ := h.deployed id row hid hdeployed
          exact ⟨token, hregistry, { hagrees with }⟩
        | latched hl hphase hcontract hrow =>
          subst hl hcontract
          have hlatched := h.latched htracked hcareful hphase hid hrow
          exact hlatched
        | promoted hresolved hrow =>
          have hpromoted := h.promoted htracked hresolved hid hrow
          exact hpromoted
        | failed _ _ _ _ => cases hdeployed
      · cases hrow.symm.trans hdeployed
    obtain ⟨token, hregistry, hagrees⟩ := hbefore
    exact ⟨token, hstep.registry_kept hregistry, hagrees⟩
  · intro id row' hid' hfailed
    rcases hstep.contracts.of_after hid' with ⟨row, hid, hrow⟩ | ⟨_, _, hrow, _⟩
    · have hquiet : row.status = .failed → Quiet s' id := by
        intro hfailed
        apply (h.failed id row hid hfailed).step hstep
        right
        intro row₀ hid₀
        obtain rfl := Option.some.inj (hid.symm.trans hid₀)
        rw [hfailed]
        nofun
      rcases hrow with rfl | hupdate
      · exact hquiet hfailed
      · cases hupdate with
        | hash => exact hquiet hfailed
        | latched _ _ _ _ | promoted _ _ => cases hfailed
        | failed hl hphase hcontract hrow =>
          subst hl hcontract
          exact (hcareful _ row hphase hid hrow).step hstep (.inl nofun)
    · cases hrow.symm.trans hfailed

theorem tracked_init (h : (system cfg).init s) :
  Tracked cfg s ∧ Settled s
  := by
  obtain ⟨hcontracts, hregistry, htxs, hworkers, _, hresolved⟩ := h
  refine ⟨⟨?_, ?_, ?_, ?_, ?_, ?_⟩, ?_, ?_⟩
  · intro _ i j _ _ hi
    simp [hcontracts] at hi
  · intro w
    rw [hworkers]
    trivial
  · intro _ _ htx
    simp [htxs] at htx
  · intro _ _ _ htx
    simp [htxs] at htx
  · intro artworkId _ htoken
    cases (hregistry artworkId).symm.trans htoken
  · intro p hp
    simp [hresolved] at hp
  · intro _ _ hid
    simp [hcontracts] at hid
  · intro _ _ hid
    simp [hcontracts] at hid

/-- What has not been deployed for the rows that have failed, the registry does not have. -/
theorem Settled.agree (h : Settled s) (htracked : Tracked cfg s) :
  Agree s
  := by
  refine ⟨h.deployed, ?_⟩
  rintro id row hid hfailed token hregistry rfl
  obtain ⟨_, txHash, ledger, htx⟩ := htracked.registered _ token hregistry
  exact (h.failed _ row hid hfailed).txs txHash _ _ htx rfl trivial

/-- In every run of careful workers the rows agree with the chain. -/
theorem agree_of_careful (h : ((system cfg).restrict Careful).Reachable s) :
  Agree s
  := by
  have hsettled : Tracked cfg s ∧ Settled s := by
    apply h.invariant
    · intro s₀ hinit
      apply tracked_init hinit
    · rintro s₀ l s₁ ⟨htracked, hsettled⟩ ⟨hstep, hcareful⟩
      exact ⟨htracked.step hstep, hsettled.step htracked hstep hcareful⟩
  exact hsettled.2.agree hsettled.1

end Agreement

/-! ### A call that times out -/

def sampleConfig : Config where
  maxTotalSupply := 1000000
  maxLockupDays := 3650
  derived _ := .contract 1

/-- A verified artwork, and workers that are idle. -/
def sampleState : State where
  now := 1000000000
  contracts := []
  artworks _ := some .verified
  registry _ := none
  txs := []
  workers _ := .idle
  stale := []
  resolved := []

def sampleDto (artistRetentionPct : ℕ) : FractionalizeArtworkDto where
  totalSupply := 1000
  artistRetentionPct
  treasuryRetentionPct := 5
  artistLockupDays := 365
  treasuryLockupDays := 730
  name := "Northern Lights"
  symbol := "NLIGHT"

def sampleRow (artistRetentionPct : ℕ) : FractionContract :=
  newContract "artwork" (sampleDto artistRetentionPct) (.account 20)

/-- The attempt of the worker for a row. -/
def sampleAttempt (contractId artistRetentionPct : ℕ) : Attempt :=
  ⟨contractId, 1000000000, tokenInit (sampleRow artistRetentionPct).terms 1000000000⟩

/-- The artwork has been requested. -/
def sampleRequested : State :=
  { sampleState with
    contracts := [sampleRow 10]
    artworks := Function.update (fun _ => some .verified) "artwork" (some .fractionalizing) }

/-- A worker has signed the transaction for the row. -/
def sampleSigned : State :=
  State.enter { (sampleRequested.enter 0 (.checking (sampleAttempt 0 10))).enter 0
      (.building (sampleAttempt 0 10)) with
    contracts := [{ sampleRow 10 with txHash := some 0 }]
    txs := [⟨sampleAttempt 0 10, .signed⟩] } 0 (.sending (sampleAttempt 0 10) 0)

theorem sampleSigned_reachable :
  ((system sampleConfig).restrict Careful).Reachable sampleSigned
  := by
  have hinit : ((system sampleConfig).restrict Careful).Reachable sampleState :=
    .init ⟨rfl, fun _ => rfl, rfl, fun _ => rfl, rfl, rfl⟩
  have hrequest : fractionalize sampleConfig "artwork" (sampleDto 10) (some (.account 20)) sampleState
      = .ok sampleRequested := rfl
  have hstart : Step sampleConfig sampleRequested .other
      (sampleRequested.enter 0 (.checking (sampleAttempt 0 10))) :=
    .start (w := 0) rfl List.getElem?_cons_zero rfl
  have hbuilt : Step sampleConfig ((sampleRequested.enter 0 (.checking (sampleAttempt 0 10))).enter 0
      (.building (sampleAttempt 0 10))) .other sampleSigned :=
    @Step.built sampleConfig _ 0 (sampleAttempt 0 10) rfl rfl
  have hstarted := (hinit.step ⟨.fractionalize hrequest, trivial⟩).step ⟨hstart, trivial⟩
  exact (hstarted.step ⟨.advance (w := 0) (.absent rfl), trivial⟩).step ⟨hbuilt, trivial⟩

/-- The transaction lands, and the row is deployed and agrees with the token. -/
theorem agree_sample :
  ∃ s : State, ((system sampleConfig).restrict Careful).Reachable s
    ∧ (∃ row ∈ s.contracts, row.status = .deployed ∧ row.artistRetentionAmount = some 100) ∧ Agree s
  := by
  have hpolling := sampleSigned_reachable.step ⟨.accepted (w := 0) rfl rfl, trivial⟩
  have hlanded := hpolling.step
    ⟨@Step.land sampleConfig _ 0 7 (sampleAttempt 0 10) rfl rfl, trivial⟩
  have hsucceeded := hlanded.step ⟨.advance (w := 0)
    (@Advance.succeeded sampleConfig _ (sampleAttempt 0 10) 0 7 rfl), trivial⟩
  have hlatched := hsucceeded.step
    ⟨@Step.latchDeployed sampleConfig _ 0 (sampleAttempt 0 10) ⟨.contract 1, some 7⟩ rfl, by
      intro a tokenAddress row token hphase
      cases hphase⟩
  exact ⟨_, hlatched, ⟨_, List.mem_cons_self, rfl, rfl⟩, agree_of_careful hlatched⟩

/-- A call times out, and its transaction lands after the row has been marked as failed. The
token is adopted for the next row, which has other parameters. -/
theorem not_forall_agree :
  ¬ ∀ (cfg : Config) (s : State), (system cfg).Reachable s → Agree s
  := by
  intro h
  have hlost := (sampleSigned_reachable.of_restrict).step (.replyLost (w := 0) rfl rfl)
  have hfailed := hlost.step (.latchFailed (w := 0) rfl)
  have hlanded := hfailed.step (@Step.land sampleConfig _ 0 7 (sampleAttempt 0 10) rfl rfl)
  have hrequested := hlanded.step
    (@Step.fractionalize sampleConfig _ _ "artwork" (sampleDto 20) (some (.account 20)) rfl)
  have hstarted := hrequested.step (@Step.start sampleConfig _ 0 1 (sampleRow 20) rfl rfl rfl)
  have hfound := hstarted.step (.advance (w := 0) (.found rfl))
  have hlatched := hfound.step (.latchDeployed (w := 0) rfl)
  obtain ⟨token, hregistry, hagrees⟩ := (h _ _ hlatched).deployed 1 _ rfl rfl
  obtain rfl := Option.some.inj hregistry
  cases hagrees.artistRetention

end Fractionalization
