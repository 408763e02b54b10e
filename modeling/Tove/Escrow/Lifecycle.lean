import Tove.Base.History
import Tove.Escrow.Solvency

/-!
# The lifecycle of an offering

The documentation of the contract promises two paths: open, closed and settled, or open and
cancelled. The gate of `cancel_offering` refuses only a settled offering, and `bind_token` has
no gate, so a closed offering without bids can be cancelled, and a cancelled one can be
cancelled again and can be bound to a token.
-/

namespace Escrow

open Soroban Ledgers Transition

/-- The changes of the status that are documented. -/
inductive Status.Next : Status → Status → Prop where
  | close : Next .Open .Closed
  | settle : Next .Closed .Settled
  | cancel : Next .Open .Cancelled

/-- The offering has come to its end. -/
def Status.Terminal (s : Status) : Prop := s = .Settled ∨ s = .Cancelled

/-- The parameters without the token, which is bound after the deployment. -/
def Params.unbound (p : Params) : Params := { p with fractionToken := none }

/-- What the lifecycle demands of a step: the status changes along one of the two paths, nothing
succeeds at their ends, and of the parameters only the token changes, from none to one while a
settlement is possible. -/
structure Strict (w : World) (l : Label) (w' : World) : Prop where
  status : w'.status = w.status ∨ w.status.Next w'.status
  live : l.Succeeds → ¬ w.status.Terminal
  token : w'.params.fractionToken = w.params.fractionToken
    ∨ w.params.fractionToken = none ∧ ¬ w.status.Terminal
  params : w'.params.unbound = w.params.unbound

/-- The admin cancels an offering without bids that is not open any more, or binds a token to an
offering that is cancelled. -/
def Late (w : World) : Label → Prop
  | .call env .cancelOffering _ => env.auth w.params.admin = true ∧ w.escrowTotal ≤ 0
    ∧ (w.status = .Closed ∨ w.status = .Cancelled)
  | .call env (.bindToken _) _ => env.auth w.params.admin = true ∧ w.params.fractionToken = none
    ∧ w.status = .Cancelled
  | _ => False

variable {selfAddr : Address} {w w' : World} {l : Label} {env : Env} {c : Call}
  {effects : List Effect}

/-! ### One step -/

/-- What the successful calls do to the status and the parameters. -/
inductive Turn (env : Env) (w w' : World) : Call → Prop where
  | bindToken {token : Address} : env.auth w.params.admin = true → w.params.fractionToken = none →
    w'.status = w.status → w'.params = { w.params with fractionToken := some token } →
      Turn env w w' (.bindToken token)
  | submitBid {bidder : Address} {price count : ℤ} {key : BytesN32} : w.status = .Open →
    w'.status = .Open → w'.params = w.params → Turn env w w' (.submitBid bidder price count key)
  | cancelBid {caller : Address} {bidId : ℕ} : w.status = .Open → w'.status = .Open →
    w'.params = w.params → Turn env w w' (.cancelBid caller bidId)
  | closeOffering : w.status = .Open → w'.status = .Closed → w'.params = w.params →
    Turn env w w' .closeOffering
  | cancelOffering : env.auth w.params.admin = true → w.status ≠ .Settled → w.escrowTotal ≤ 0 →
    w'.status = .Cancelled → w'.params = w.params → Turn env w w' .cancelOffering
  | closeAndSettle {token : Address} {clearingPrice : ℤ} {allocations : List (ℕ × ℤ)} :
    w.status = .Closed → w.params.fractionToken = some token → w'.status = .Settled →
      w'.params = w.params → Turn env w w' (.closeAndSettle clearingPrice allocations)

theorem turn_of_perform (h : perform selfAddr env c w = .ok (w', effects)) :
  Turn env w w' c
  := by
  cases c with
  | bindToken token =>
    obtain ⟨hauth, hnone, rfl, _⟩ := bindToken_eq_ok.mp h
    exact .bindToken hauth hnone rfl rfl
  | submitBid bidder price count key =>
    rw [perform, Checks.bind_eq_ok] at h
    obtain ⟨⟨bidId, w₁, effects₁⟩, h, heq⟩ := h
    rw [Checks.pure_eq_ok, Prod.mk.injEq] at heq
    obtain ⟨rfl, rfl⟩ := heq
    obtain ⟨_, hopen, _, _, _, _, _, _, _, rfl, _⟩ := submitBid_eq_ok.mp h
    exact .submitBid hopen hopen rfl
  | cancelBid caller bidId =>
    obtain ⟨_, hopen, _, _, _, _, _, _, _, rfl, _⟩ := cancelBid_eq_ok.mp h
    exact .cancelBid hopen hopen rfl
  | closeOffering =>
    obtain ⟨_, hopen, rfl, _⟩ := closeOffering_eq_ok.mp h
    exact .closeOffering hopen rfl rfl
  | cancelOffering =>
    obtain ⟨hauth, hsettled, hescrow, rfl, _⟩ := cancelOffering_eq_ok.mp h
    exact .cancelOffering hauth hsettled hescrow rfl rfl
  | closeAndSettle clearingPrice allocations =>
    obtain ⟨token, hs⟩ := settlement_of_eq_ok h
    rw [hs.world_eq]
    exact .closeAndSettle hs.closed hs.token_eq rfl rfl

theorem not_terminal_of_open (h : w.status = .Open) :
  ¬ w.status.Terminal
  := by simp [h, Status.Terminal]

theorem not_terminal_of_closed (h : w.status = .Closed) :
  ¬ w.status.Terminal
  := by simp [h, Status.Terminal]

/-- A call that keeps the parameters is strict when the offering is live and its status stays or
changes along one of the two paths. -/
theorem Strict.of_params_eq (hlive : ¬ w.status.Terminal) (hparams : w'.params = w.params)
    (hstatus : w'.status = w.status ∨ w.status.Next w'.status) :
  Strict w l w'
  := by
  refine ⟨hstatus, fun _ => hlive, .inl ?_, ?_⟩
  · rw [hparams]
  · rw [hparams]

/-- A successful call of the lifecycle is strict exactly when it is not late. -/
theorem strict_iff_of_perform (hbound : w.status = .Settled → w.params.fractionToken ≠ none)
    (h : perform selfAddr env c w = .ok (w', effects)) :
  Strict w (.call env c effects) w' ↔ ¬ Late w (.call env c effects)
  := by
  cases turn_of_perform h with
  | bindToken hauth hnone hstatus hparams =>
    constructor
    · rintro hstrict ⟨_, _, hcancelled⟩
      exact hstrict.live trivial (.inr hcancelled)
    · intro hlate
      have hlive : ¬ w.status.Terminal := by
        rintro (hsettled | hcancelled)
        · exact hbound hsettled hnone
        · exact hlate ⟨hauth, hnone, hcancelled⟩
      refine ⟨.inl hstatus, fun _ => hlive, .inr ⟨hnone, hlive⟩, ?_⟩
      rw [hparams]
      rfl
  | submitBid hopen hstatus hparams =>
    exact ⟨fun _ => id, fun _ => .of_params_eq (not_terminal_of_open hopen) hparams
      (.inl (hstatus.trans hopen.symm))⟩
  | cancelBid hopen hstatus hparams =>
    exact ⟨fun _ => id, fun _ => .of_params_eq (not_terminal_of_open hopen) hparams
      (.inl (hstatus.trans hopen.symm))⟩
  | closeOffering hopen hstatus hparams =>
    refine ⟨fun _ => id, fun _ => .of_params_eq (not_terminal_of_open hopen) hparams (.inr ?_)⟩
    rw [hopen, hstatus]
    exact .close
  | cancelOffering hauth hsettled hescrow hstatus hparams =>
    constructor
    · rintro hstrict ⟨_, _, hclosed | hcancelled⟩
      · have := hstrict.status
        rw [hclosed, hstatus] at this
        rcases this with hsame | hnext
        · cases hsame
        · cases hnext
      · exact hstrict.live trivial (.inr hcancelled)
    · intro hlate
      have hopen : w.status = .Open := by
        cases hold : w.status with
        | Open => rfl
        | Closed => cases hlate ⟨hauth, hescrow, .inl hold⟩
        | Settled => cases hsettled hold
        | Cancelled => cases hlate ⟨hauth, hescrow, .inr hold⟩
      apply Strict.of_params_eq (not_terminal_of_open hopen) hparams
      rw [hopen, hstatus]
      exact .inr .cancel
  | closeAndSettle hclosed _ hstatus hparams =>
    refine ⟨fun _ => id, fun _ => .of_params_eq (not_terminal_of_closed hclosed) hparams (.inr ?_)⟩
    rw [hclosed, hstatus]
    exact .settle

/-! ### Runs -/

/-- The escrow in which nobody is late. -/
def punctual (selfAddr : Address) : System World Label :=
  (system selfAddr).restrict fun w l _ => ¬ Late w l

/-- A settled offering has a token. -/
theorem bound_of_reachable (h : (system selfAddr).Reachable w) :
  w.status = .Settled → w.params.fractionToken ≠ none
  := by
  apply h.invariant (I := fun w => w.status = .Settled → w.params.fractionToken ≠ none)
  · rintro w₀ ⟨args, balances, _, hconstruct⟩ hsettled
    rw [(construct_eq_ok hconstruct).1] at hsettled
    cases hsettled
  · intro w l w' hw hstep
    cases hstep with
    | failed => exact hw
    | outside => exact hw
    | call _ hcall =>
      cases turn_of_perform hcall with
      | bindToken _ _ _ hparams => simp [hparams]
      | submitBid _ hstatus _ => simp [hstatus]
      | cancelBid _ hstatus _ => simp [hstatus]
      | closeOffering _ hstatus _ => simp [hstatus]
      | cancelOffering _ _ _ hstatus _ => simp [hstatus]
      | closeAndSettle _ htoken _ hparams => simp [hparams, htoken]

/-- The parameters other than the token never change. -/
theorem Step.unbound (h : Step selfAddr w l w') :
  w'.params.unbound = w.params.unbound
  := by
  cases h with
  | failed => rfl
  | outside => rfl
  | call _ hcall =>
    cases turn_of_perform hcall with
    | bindToken _ _ _ hparams => rw [hparams, Params.unbound, Params.unbound]
    | submitBid _ _ hparams => rw [hparams]
    | cancelBid _ _ hparams => rw [hparams]
    | closeOffering _ _ hparams => rw [hparams]
    | cancelOffering _ _ _ _ hparams => rw [hparams]
    | closeAndSettle _ _ _ hparams => rw [hparams]

theorem Step.strict (hw : (system selfAddr).Reachable w) (h : Step selfAddr w l w')
    (hlate : ¬ Late w l) :
  Strict w l w'
  := by
  cases h with
  | call _ hcall => exact (strict_iff_of_perform (bound_of_reachable hw) hcall).mpr hlate
  | failed => exact ⟨.inl rfl, fun h => h.elim, .inl rfl, rfl⟩
  | outside => exact ⟨.inl rfl, fun h => h.elim, .inl rfl, rfl⟩

/-- Every step of the punctual escrow is strict. -/
theorem strict_of_punctual :
  (punctual selfAddr).EveryStep Strict
  := by
  intro w l w' hw hstep
  exact Step.strict (hw.of_restrict (system selfAddr)) hstep.1 hstep.2

/-- A chain of documented changes that begins with an open offering is a part of one of the two
paths. -/
theorem prefix_of_isChain {ss : List Status} (hchain : ss.IsChain Status.Next)
    (hhead : ss.head? = some .Open) :
  ss <+: [.Open, .Closed, .Settled] ∨ ss <+: [.Open, .Cancelled]
  := by
  cases hchain with
  | nil => cases hhead
  | singleton s =>
    obtain rfl := Option.some.inj hhead
    exact .inl ⟨_, rfl⟩
  | cons_cons hnext hchain =>
    obtain rfl := Option.some.inj hhead
    cases hnext with
    | cancel =>
      cases hchain with
      | singleton => exact .inr ⟨[], rfl⟩
      | cons_cons hnext => cases hnext
    | close =>
      cases hchain with
      | singleton => exact .inl ⟨_, rfl⟩
      | cons_cons hnext hchain =>
        cases hnext
        cases hchain with
        | singleton => exact .inl ⟨[], rfl⟩
        | cons_cons hnext => cases hnext

/-- The token is bound at most once. -/
inductive Binds : Option Address → Option Address → Prop where
  | bind (token : Address) : Binds none (some token)

theorem binds_of_strict (h : Strict w l w') :
  w'.params.fractionToken = w.params.fractionToken
    ∨ Binds w.params.fractionToken w'.params.fractionToken
  := by
  rcases h.token with hsame | ⟨hnone, _⟩
  · exact .inl hsame
  · cases htoken : w'.params.fractionToken with
    | none => exact .inl hnone.symm
    | some token =>
      rw [hnone]
      exact .inr (.bind token)

/-- A chain of bindings that begins with none has at most one. -/
theorem prefix_of_isChain_binds {ts : List (Option Address)} (hchain : ts.IsChain Binds)
    (hhead : ts.head? = some none) :
  ∃ token, ts <+: [none, some token]
  := by
  cases hchain with
  | nil => cases hhead
  | singleton t =>
    obtain rfl := Option.some.inj hhead
    exact ⟨.account 0, _, rfl⟩
  | cons_cons hnext hchain =>
    obtain ⟨token⟩ := hnext
    cases hchain with
    | singleton => exact ⟨token, [], rfl⟩
    | cons_cons hnext => cases hnext

/-- A new offering is open and has no token. -/
theorem start_of_init (h : (system selfAddr).init w) :
  w.status = .Open ∧ w.params.fractionToken = none
  := by
  obtain ⟨args, balances, _, hconstruct⟩ := h
  simp only [construct, errorIf, Checks.bind_eq_ok, Checks.rejectIf_eq_ok, i128_eq_ok,
    Checks.pure_eq_ok, exists_const] at hconstruct
  obtain ⟨_, _, ⟨_, rfl⟩, _, ⟨_, rfl⟩, _, rfl⟩ := hconstruct
  exact ⟨rfl, rfl⟩

/-- In every run of the escrow in which nobody is late, the statuses are a part of one of the
two documented paths, no call succeeds once the offering is settled or cancelled, the token goes
from none to one address while a settlement is possible, and the other parameters do not change. -/
theorem strict_lifecycle :
  (punctual selfAddr).EveryStep Strict
    ∧ (∀ w ss, ((punctual selfAddr).history World.status).Reachable (w, ss) →
        ss <+: [.Open, .Closed, .Settled] ∨ ss <+: [.Open, .Cancelled])
    ∧ (∀ w ts, ((punctual selfAddr).history fun w => w.params.fractionToken).Reachable (w, ts) →
        ∃ token, ts <+: [none, some token])
    ∧ ∀ w₀ ls w, (punctual selfAddr).init w₀ → (punctual selfAddr).Run w₀ ls w →
        w.params.unbound = w₀.params.unbound
  := by
  refine ⟨strict_of_punctual, ?_, ?_, ?_⟩
  · intro w ss h
    obtain ⟨_, _, w₀, hinit, hhead⟩ := System.ends_of_history h
    rw [(start_of_init hinit).1] at hhead
    apply prefix_of_isChain (System.isChain_of_history _ h) hhead
    intro w l w' hw hstep
    exact (strict_of_punctual w l w' hw hstep).status
  · intro w ts h
    obtain ⟨_, _, w₀, hinit, hhead⟩ := System.ends_of_history h
    rw [(start_of_init hinit).2] at hhead
    apply prefix_of_isChain_binds (System.isChain_of_history _ h) hhead
    intro w l w' hw hstep
    exact binds_of_strict (strict_of_punctual w l w' hw hstep)
  · intro w₀ ls w hinit hrun
    induction hrun with
    | nil => rfl
    | snoc hrun hl ih =>
      rw [← ih]
      exact (strict_of_punctual _ _ _ ⟨_, _, hinit, hrun⟩ hl).params

/-- The small offering, closed without bids. -/
def sampleShut : World := { sampleWorld with status := .Closed }

/-- The small offering, cancelled after it was closed. -/
def sampleAborted : World := { sampleWorld with status := .Cancelled }

theorem sampleAborted_history :
  ((system sampleEscrow).history World.status).Reachable
    (sampleAborted, [.Open, .Closed, .Cancelled])
  := by
  have hopened : ((system sampleEscrow).history World.status).Reachable (sampleWorld, [.Open]) := by
    apply System.Reachable.init
    exact ⟨⟨sampleArgs, fun _ => 1000, by decide, rfl⟩, rfl⟩
  have hshut : ((system sampleEscrow).history World.status).Reachable
      (sampleShut, [.Open, .Closed]) := by
    apply hopened.step (l := .call sampleEnv .closeOffering [.event .OfferingClosed])
    exact ⟨.call trivial rfl, rfl⟩
  apply hshut.step (l := .call sampleEnv .cancelOffering [.event .OfferingCancelled])
  exact ⟨.call trivial rfl, rfl⟩

/-- The statuses need not be a part of a documented path: an offering that was closed without
bids can be cancelled. -/
theorem not_forall_strict_lifecycle :
  ¬ ∀ selfAddr w ss, ((system selfAddr).history World.status).Reachable (w, ss) →
      ss <+: [.Open, .Closed, .Settled] ∨ ss <+: [.Open, .Cancelled]
  := by
  intro hall
  rcases hall sampleEscrow _ _ sampleAborted_history with hsettled | hcancelled
  · revert hsettled
    decide
  · revert hcancelled
    decide

end Escrow
