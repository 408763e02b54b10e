import Tove.Base.Nesting
import Tove.Marketplace.Settler
import Tove.Token.Configuration

/-!
# The settler and the factory

`accept_quote` of the settler calls the token that the factory has registered for the artwork,
and `deploy` of the factory runs the constructor of a new token. What a token does in such a
call is up to its executable: it may move fractions and USDC, it may call the settler and the
factory again, and it may fail, which undoes all that the call has done. So each of the two
functions is cut where it hands over: it opens a call, and it goes on when the call is closed.

A transaction carries the invocations that its signers have authorised.
-/

namespace Registry

open Soroban Ledgers Settler Nesting Transition

/-! ### The contracts -/

/-- The errors of the factory. -/
inductive FactoryError where
  | ArtworkAlreadyDeployed
  deriving DecidableEq, Repr

/-- `auth_args`: what the buyer and the seller of a trade authorise. -/
structure AuthArgs where
  rfqId : BytesN32
  quoteId : BytesN32
  artworkId : BytesN32
  count : ℤ
  gross : ℤ
  deriving DecidableEq, Repr

def authArgs (t : Terms) : AuthArgs where
  rfqId := t.rfqId
  quoteId := t.quoteId
  artworkId := t.artworkId
  count := t.count
  gross := t.gross

/-- An invocation that an address may authorise. -/
inductive Invocation where
  | acceptQuote (args : AuthArgs)
  | settlerSetAdmin (newAdmin : Address)
  | deploy (init : Token.TokenInit)
  | setWasmHash (newWasmHash : BytesN32)
  | factorySetAdmin (newAdmin : Address)
  deriving DecidableEq, Repr

/-- A contract that has been instantiated: from which executable, and what the token stores. -/
structure Instance where
  origin : BytesN32
  storage : Token.Storage
  holdings : Token.Holdings

/-- A call of `settle_trade` for a trade: the transaction that it belongs to, and its token. -/
structure Settlement where
  tx : ℕ
  terms : Terms
  token : Address

/-- The storage of the settler and of the factory, the contracts that have been instantiated, the
balances of the USDC tokens, and the calls of `settle_trade` that have completed, which no contract
stores. -/
structure Chain where
  settlerAdmin : Address
  settled : BytesN32 → BytesN32 → Bool
  factoryAdmin : Address
  wasmHash : BytesN32
  registry : BytesN32 → Option Address
  instances : Address → Option Instance
  usdc : Address → Ledger Address
  completed : List Settlement

/-- What comes from outside: what a transaction authorises, and the address that is derived from
the factory and an artwork. -/
structure Host where
  signed : ℕ → Address → Invocation → Bool
  tokenAddress : BytesN32 → Address

/-- `require_auth`: trap unless the transaction authorises the invocation for the address. -/
def requireAuthFor {ε : Type} (host : Host) (tx : ℕ) (a : Address) (i : Invocation) :
    Except (Failure ε) Unit :=
  trapIf (host.signed tx a i = false)

/-- Record the marker of a trade. -/
def Chain.mark (c : Chain) (t : Terms) : Chain :=
  { c with
    settled := Function.update c.settled t.rfqId
      (Function.update (c.settled t.rfqId) t.quoteId true) }

/-- `token_of`. -/
def tokenOf (c : Chain) (artworkId : BytesN32) : Option Address :=
  c.registry artworkId

/-- `accept_quote` up to the call of `settle_trade`: refuse a second settlement, find the token,
demand both authorisations, and record the marker. -/
def openAcceptQuote (host : Host) (tx : ℕ) (t : Terms) (c : Chain) :
    Except (Failure Error) (Chain × Address) := do
  errorIf (c.settled t.rfqId t.quoteId = true) .QuoteAlreadySettled
  match tokenOf c t.artworkId with
  | none => throw (.error .TokenNotFound)
  | some token =>
    requireAuthFor host tx t.buyer (.acceptQuote (authArgs t))
    requireAuthFor host tx t.seller (.acceptQuote (authArgs t))
    return (c.mark t, token)

/-- `set_admin` of the settler. -/
def settlerSetAdmin (host : Host) (tx : ℕ) (newAdmin : Address) (c : Chain) :
    Except (Failure Error) Chain := do
  requireAuthFor host tx c.settlerAdmin (.settlerSetAdmin newAdmin)
  return { c with settlerAdmin := newAdmin }

/-- `deploy` up to the constructor of the token: the admin calls, the artwork has no token, and the
canonical executable is instantiated at an address that is not taken, whatever executable the caller
has named. -/
def openDeploy (host : Host) (tx : ℕ) (init : Token.TokenInit) (c : Chain) :
    Except (Failure FactoryError) Chain := do
  requireAuthFor host tx c.factoryAdmin (.deploy init)
  errorIf ((c.registry init.artworkId).isSome = true) .ArtworkAlreadyDeployed
  trapIf ((c.instances (host.tokenAddress init.artworkId)).isSome = true)
  let token := Token.construct { init with implWasmHash := c.wasmHash } c.usdc
  return { c with
    instances := Function.update c.instances (host.tokenAddress init.artworkId)
      (some ⟨c.wasmHash, token.storage, token.holdings⟩) }

/-- The rest of `deploy`: the token is registered. -/
def closeDeploy (host : Host) (artworkId : BytesN32) (c : Chain) : Chain :=
  { c with registry := Function.update c.registry artworkId (some (host.tokenAddress artworkId)) }

/-- `set_wasm_hash`. -/
def setWasmHash (host : Host) (tx : ℕ) (newWasmHash : BytesN32) (c : Chain) :
    Except (Failure FactoryError) Chain := do
  requireAuthFor host tx c.factoryAdmin (.setWasmHash newWasmHash)
  return { c with wasmHash := newWasmHash }

/-- `set_admin` of the factory. -/
def factorySetAdmin (host : Host) (tx : ℕ) (newAdmin : Address) (c : Chain) :
    Except (Failure FactoryError) Chain := do
  requireAuthFor host tx c.factoryAdmin (.factorySetAdmin newAdmin)
  return { c with factoryAdmin := newAdmin }

/-! ### The calls -/

/-- A call that is open: `accept_quote` has called `settle_trade`, `deploy` has run the constructor
of a token from the canonical executable, or some other contract is at work. -/
inductive Call where
  | acceptQuote (s : Settlement)
  | deploy (init : Token.TokenInit) (canonical : BytesN32)
  | other

/-- What happens without a call being opened: a call fails at once, the owners of the contracts and
of the tokens do something, or fractions and USDC move. -/
inductive Effect where
  | refuse
  | admin
  | move

/-- What the instances may become: they do not go away, and they come from the same executable. -/
def InstancesKept (instances instances' : Address → Option Instance) : Prop :=
  ∀ a inst, instances a = some inst → ∃ inst', instances' a = some inst'
    ∧ inst'.origin = inst.origin

inductive EffectStep (host : Host) : Chain → Effect → Chain → Prop where
  | refuse {c : Chain} : EffectStep host c .refuse c
  | settlerSetAdmin {c c' : Chain} {tx : ℕ} {newAdmin : Address} :
      settlerSetAdmin host tx newAdmin c = .ok c' → EffectStep host c .admin c'
  | setWasmHash {c c' : Chain} {tx : ℕ} {newWasmHash : BytesN32} :
      setWasmHash host tx newWasmHash c = .ok c' → EffectStep host c .admin c'
  | factorySetAdmin {c c' : Chain} {tx : ℕ} {newAdmin : Address} :
      factorySetAdmin host tx newAdmin c = .ok c' → EffectStep host c .admin c'
  | move {c : Chain} {instances : Address → Option Instance} {usdc : Address → Ledger Address} :
      InstancesKept c.instances instances → EffectStep host c .move { c with instances, usdc }

/-- How a call is opened. -/
inductive EnterStep (host : Host) : Chain → Call → Chain → Prop where
  | acceptQuote {c c' : Chain} {tx : ℕ} {t : Terms} {token : Address} :
      openAcceptQuote host tx t c = .ok (c', token) →
        EnterStep host c (.acceptQuote ⟨tx, t, token⟩) c'
  | deploy {c c' : Chain} {tx : ℕ} {init : Token.TokenInit} : openDeploy host tx init c = .ok c' →
      EnterStep host c (.deploy init c.wasmHash) c'
  | other {c : Chain} : EnterStep host c .other c

/-- How a call is closed: `settle_trade` has completed, or the constructor has. -/
inductive LeaveStep (host : Host) : Chain → Call → Chain → Prop where
  | acceptQuote {c : Chain} {s : Settlement} :
      LeaveStep host c (.acceptQuote s) { c with completed := c.completed ++ [s] }
  | deploy {c : Chain} {init : Token.TokenInit} {canonical : BytesN32} :
      LeaveStep host c (.deploy init canonical) (closeDeploy host init.artworkId c)
  | other {c : Chain} : LeaveStep host c .other c

/-- The calls of the contracts. -/
def calls (host : Host) : Calls Chain Effect Call where
  effect := EffectStep host
  enter := EnterStep host
  leave := LeaveStep host

/-- The chain when the settler and the factory have been deployed, and no token has. -/
structure Chain.New (c : Chain) : Prop where
  unsettled : ∀ rfqId quoteId, c.settled rfqId quoteId = false
  unregistered : ∀ artworkId, c.registry artworkId = none
  completed : c.completed = []

/-- The contracts as a transition system. -/
def machine (host : Host) : System (Nested Chain Call) (Label Effect Call) :=
  nested (calls host) Chain.New

/-! ### What is kept -/

/-- The RFQ and the quote of a trade. -/
def Settlement.pair (s : Settlement) : BytesN32 × BytesN32 := (s.terms.rfqId, s.terms.quoteId)

/-- The settlement that a call carries out. -/
def Call.settlement : Call → Option Settlement
  | .acceptQuote s => some s
  | _ => none

/-- The artwork whose token a call deploys. -/
def Call.artwork : Call → Option BytesN32
  | .deploy init _ => some init.artworkId
  | _ => none

/-- A settlement runs on the token that is registered for the artwork, and both parties have
authorised its arguments. -/
structure Settlement.Honest (host : Host) (c : Chain) (s : Settlement) : Prop where
  token : c.registry s.terms.artworkId = some s.token
  buyer : host.signed s.tx s.terms.buyer (.acceptQuote (authArgs s.terms)) = true
  seller : host.signed s.tx s.terms.seller (.acceptQuote (authArgs s.terms)) = true

/-- The settlements that have completed, and those that are under way. -/
def settlements (c : Chain) (opened : List Call) : List Settlement :=
  c.completed ++ opened.filterMap Call.settlement

/-- What all calls keep. -/
structure Sound (host : Host) (c : Chain) (opened : List Call) : Prop where
  once : ((settlements c opened).map Settlement.pair).Nodup
  marked : ∀ rfqId quoteId, c.settled rfqId quoteId = true
    ↔ (rfqId, quoteId) ∈ (settlements c opened).map Settlement.pair
  honest : ∀ s ∈ settlements c opened, s.Honest host c
  deploying : ∀ init canonical, .deploy init canonical ∈ opened → c.registry init.artworkId = none
    ∧ ∃ inst, c.instances (host.tokenAddress init.artworkId) = some inst ∧ inst.origin = canonical
  apart : (opened.filterMap Call.artwork).Nodup

section Sound

variable {host : Host} {c c' : Chain} {opened : List Call}

/-- What a call of `accept_quote` has checked when it calls `settle_trade`. -/
theorem openAcceptQuote_eq_ok {tx : ℕ} {t : Terms} {token : Address}
    (h : openAcceptQuote host tx t c = .ok (c', token)) :
  c.settled t.rfqId t.quoteId = false ∧ Settlement.Honest host c ⟨tx, t, token⟩
    ∧ c' = c.mark t
  := by
  rw [openAcceptQuote, Checks.check_bind_eq_ok, errorIf, Checks.rejectIf_eq_ok,
    Bool.not_eq_true] at h
  obtain ⟨hfresh, h⟩ := h
  split at h
  · rw [Checks.throw_eq_ok] at h
    cases h
  · next token₁ htoken =>
    simp only [Checks.check_bind_eq_ok, Checks.pure_eq_ok, requireAuthFor, trapIf,
      Checks.rejectIf_eq_ok, Bool.not_eq_false, Prod.mk.injEq] at h
    obtain ⟨hbuyer, hseller, rfl, rfl⟩ := h
    exact ⟨hfresh, ⟨htoken, hbuyer, hseller⟩, rfl⟩

/-- What a call of `deploy` has checked when it runs the constructor. -/
theorem openDeploy_eq_ok {tx : ℕ} {init : Token.TokenInit}
    (h : openDeploy host tx init c = .ok c') :
  c.registry init.artworkId = none ∧ c.instances (host.tokenAddress init.artworkId) = none
    ∧ ∃ inst, inst.origin = c.wasmHash ∧ inst.storage.implWasmHash = some c.wasmHash
      ∧ c' = { c with
        instances := Function.update c.instances (host.tokenAddress init.artworkId) (some inst) }
  := by
  simp only [openDeploy, Checks.check_bind_eq_ok, Checks.pure_eq_ok, errorIf, trapIf,
    Checks.rejectIf_eq_ok, Option.isSome_iff_ne_none, ne_eq, not_not] at h
  obtain ⟨_, hregistry, hinstance, rfl⟩ := h
  exact ⟨hregistry, hinstance, _, rfl, rfl, rfl⟩

theorem mark_eq_true {t : Terms} {rfqId quoteId : BytesN32} :
  (c.mark t).settled rfqId quoteId = true
    ↔ (rfqId = t.rfqId ∧ quoteId = t.quoteId) ∨ c.settled rfqId quoteId = true
  := by
  simp only [Chain.mark, Function.update_apply]
  grind

/-- What happens without a call being opened leaves the markers, the registry and the history of the
settlements. -/
theorem EffectStep.frame {k : Effect} (h : EffectStep host c k c') :
  c'.settled = c.settled ∧ c'.registry = c.registry ∧ c'.completed = c.completed
    ∧ InstancesKept c.instances c'.instances
  := by
  have hkept : InstancesKept c.instances c.instances := fun _ inst hinst => ⟨inst, hinst, rfl⟩
  cases h with
  | refuse => exact ⟨rfl, rfl, rfl, hkept⟩
  | settlerSetAdmin h =>
    rw [Registry.settlerSetAdmin, Checks.check_bind_eq_ok, Checks.pure_eq_ok] at h
    obtain ⟨_, rfl⟩ := h
    exact ⟨rfl, rfl, rfl, hkept⟩
  | setWasmHash h =>
    rw [Registry.setWasmHash, Checks.check_bind_eq_ok, Checks.pure_eq_ok] at h
    obtain ⟨_, rfl⟩ := h
    exact ⟨rfl, rfl, rfl, hkept⟩
  | factorySetAdmin h =>
    rw [Registry.factorySetAdmin, Checks.check_bind_eq_ok, Checks.pure_eq_ok] at h
    obtain ⟨_, rfl⟩ := h
    exact ⟨rfl, rfl, rfl, hkept⟩
  | move h => exact ⟨rfl, rfl, rfl, h⟩

theorem Sound.effect (h : Sound host c opened) {k : Effect} (hstep : EffectStep host c k c') :
  Sound host c' opened
  := by
  obtain ⟨hsettled, hregistry, hcompleted, hinstances⟩ := hstep.frame
  have hsettlements : settlements c' opened = settlements c opened := by
    rw [settlements, settlements, hcompleted]
  constructor
  · rw [hsettlements]
    apply h.once
  · rw [hsettlements, hsettled]
    apply h.marked
  · intro s hs
    rw [hsettlements] at hs
    obtain ⟨htoken, hbuyer, hseller⟩ := h.honest s hs
    rw [← hregistry] at htoken
    exact ⟨htoken, hbuyer, hseller⟩
  · intro init canonical hmem
    obtain ⟨hnone, inst, hinst, horigin⟩ := h.deploying init canonical hmem
    obtain ⟨inst', hinst', horigin'⟩ := hinstances _ inst hinst
    rw [← hregistry] at hnone
    exact ⟨hnone, inst', hinst', horigin'.trans horigin⟩
  · apply h.apart

theorem settlements_acceptQuote (s : Settlement) :
  settlements c (.acceptQuote s :: opened) = c.completed ++ s :: opened.filterMap Call.settlement
  := rfl

theorem artworks_deploy (init : Token.TokenInit) (canonical : BytesN32) :
  List.filterMap Call.artwork (.deploy init canonical :: opened)
    = init.artworkId :: opened.filterMap Call.artwork
  := rfl

/-- A settlement that is opened is added to the others. -/
theorem settlements_open (s : Settlement) :
  (settlements (c.mark s.terms) (.acceptQuote s :: opened)).Perm (s :: settlements c opened)
  := by
  rw [settlements_acceptQuote]
  apply List.perm_middle

theorem Sound.openAcceptQuote (h : Sound host c opened) {s : Settlement}
    (hunsettled : c.settled s.terms.rfqId s.terms.quoteId = false) (hhonest : s.Honest host c) :
  Sound host (c.mark s.terms) (.acceptQuote s :: opened)
  := by
  have hperm : (settlements (c.mark s.terms) (.acceptQuote s :: opened)).Perm
      (s :: settlements c opened) := settlements_open s
  constructor
  · rw [(hperm.map Settlement.pair).nodup_iff, List.map_cons, List.nodup_cons]
    refine ⟨?_, h.once⟩
    intro hmem
    rw [Settlement.pair, ← h.marked, hunsettled] at hmem
    cases hmem
  · intro rfqId quoteId
    rw [mark_eq_true, (hperm.map Settlement.pair).mem_iff, List.map_cons, List.mem_cons, h.marked,
      Settlement.pair, Prod.mk.injEq]
  · intro s' hs'
    have hsame : s'.Honest host c := by
      rcases List.mem_cons.mp (hperm.mem_iff.mp hs') with rfl | hs'
      · apply hhonest
      · apply h.honest s' hs'
    exact ⟨hsame.token, hsame.buyer, hsame.seller⟩
  · intro init canonical hmem
    rcases List.mem_cons.mp hmem with heq | hmem
    · cases heq
    · apply h.deploying init canonical hmem
  · apply h.apart

theorem Sound.openDeploy (h : Sound host c opened) {init : Token.TokenInit} {inst : Instance}
    (hregistry : c.registry init.artworkId = none)
    (hfree : c.instances (host.tokenAddress init.artworkId) = none) (horigin : inst.origin = c.wasmHash) :
  Sound host { c with
    instances := Function.update c.instances (host.tokenAddress init.artworkId) (some inst) }
    (.deploy init c.wasmHash :: opened)
  := by
  constructor
  · apply h.once
  · apply h.marked
  · intro s hs
    obtain ⟨htoken, hbuyer, hseller⟩ := h.honest s hs
    exact ⟨htoken, hbuyer, hseller⟩
  · intro init' canonical hmem
    rcases List.mem_cons.mp hmem with heq | hmem
    · obtain ⟨rfl, rfl⟩ := Call.deploy.inj heq
      exact ⟨hregistry, inst, Function.update_self .., horigin⟩
    · obtain ⟨hnone, inst', hinst', horigin'⟩ := h.deploying init' canonical hmem
      refine ⟨hnone, inst', ?_, horigin'⟩
      change Function.update c.instances _ _ _ = _
      rw [Function.update_of_ne, hinst']
      intro heq
      rw [heq, hfree] at hinst'
      cases hinst'
  · rw [artworks_deploy, List.nodup_cons]
    refine ⟨?_, h.apart⟩
    intro hmem
    obtain ⟨call, hcall, hartwork⟩ := List.mem_filterMap.mp hmem
    cases call with
    | deploy init' canonical =>
      obtain ⟨_, inst', hinst', _⟩ := h.deploying init' canonical hcall
      rw [Option.some.inj hartwork, hfree] at hinst'
      cases hinst'
    | acceptQuote s => cases hartwork
    | other => cases hartwork

theorem Sound.closeAcceptQuote {s : Settlement} (h : Sound host c (.acceptQuote s :: opened)) :
  Sound host { c with completed := c.completed ++ [s] } opened
  := by
  have hsettlements : settlements { c with completed := c.completed ++ [s] } opened
      = settlements c (.acceptQuote s :: opened) := by
    rw [settlements_acceptQuote, settlements, List.append_assoc]
    rfl
  constructor
  · rw [hsettlements]
    apply h.once
  · rw [hsettlements]
    apply h.marked
  · intro s' hs'
    rw [hsettlements] at hs'
    obtain ⟨htoken, hbuyer, hseller⟩ := h.honest s' hs'
    exact ⟨htoken, hbuyer, hseller⟩
  · exact fun init canonical hmem => h.deploying init canonical (List.mem_cons_of_mem _ hmem)
  · apply h.apart

theorem Sound.closeDeploy {init : Token.TokenInit} {canonical : BytesN32}
    (h : Sound host c (.deploy init canonical :: opened)) :
  Sound host (closeDeploy host init.artworkId c) opened
  := by
  obtain ⟨hnone, _⟩ := h.deploying init canonical List.mem_cons_self
  constructor
  · apply h.once
  · apply h.marked
  · intro s hs
    obtain ⟨htoken, hbuyer, hseller⟩ := h.honest s hs
    refine ⟨?_, hbuyer, hseller⟩
    change Function.update c.registry _ _ _ = _
    rw [Function.update_of_ne, htoken]
    intro heq
    rw [heq, hnone] at htoken
    cases htoken
  · intro init' canonical' hmem
    obtain ⟨hnone', hinst⟩ := h.deploying init' canonical' (List.mem_cons_of_mem _ hmem)
    refine ⟨?_, hinst⟩
    change Function.update c.registry _ _ _ = _
    rw [Function.update_of_ne, hnone']
    intro heq
    have hapart := h.apart
    rw [artworks_deploy, List.nodup_cons] at hapart
    apply hapart.1
    exact List.mem_filterMap.mpr ⟨_, hmem, congrArg some heq⟩
  · have hapart := h.apart
    rw [artworks_deploy, List.nodup_cons] at hapart
    apply hapart.2

/-- What all calls keep, they keep. -/
theorem sound_kept (host : Host) :
  Kept (calls host) (Sound host)
  := by
  constructor
  · exact fun _ _ _ _ h => h.effect
  · intro c call c' opened h hstep
    cases hstep with
    | acceptQuote hok =>
      obtain ⟨hunsettled, hhonest, rfl⟩ := openAcceptQuote_eq_ok hok
      apply h.openAcceptQuote hunsettled hhonest
    | deploy hok =>
      obtain ⟨hregistry, hfree, inst, horigin, _, rfl⟩ := openDeploy_eq_ok hok
      apply h.openDeploy hregistry hfree horigin
    | other => exact ⟨h.once, h.marked, h.honest, fun init canonical hmem => by
        rcases List.mem_cons.mp hmem with heq | hmem
        · cases heq
        · apply h.deploying init canonical hmem, h.apart⟩
  · intro c call c' opened h hstep
    cases hstep with
    | acceptQuote => exact h.closeAcceptQuote
    | deploy => exact h.closeDeploy
    | other => exact ⟨h.once, h.marked, h.honest,
        fun init canonical hmem => h.deploying init canonical (List.mem_cons_of_mem _ hmem), h.apart⟩

end Sound

/-! ### Whole runs -/

/-- What holds of the settler, the factory and the tokens in a state, and of what is done from it
on. -/
structure OneShotCanonical (host : Host) (n : Nested Chain Call) : Prop where
  /-- For each RFQ and quote, `settle_trade` has completed at most once. -/
  once : (n.current.completed.map Settlement.pair).Nodup
  /-- Between the calls, the markers are those of the settlements that have completed. -/
  marked : n.stack = [] → ∀ rfqId quoteId, n.current.settled rfqId quoteId = true
    ↔ ∃ s ∈ n.current.completed, s.pair = (rfqId, quoteId)
  /-- A settlement that has completed is honest. -/
  honest : ∀ s ∈ n.current.completed, s.Honest host n.current
  /-- A call of `accept_quote` that fails at once, or after its token has been called, changes
  nothing. -/
  refused : ∀ n', Step (calls host) n (.effect .refuse) n' → n' = n
  undone : ∀ s n₁ ls n₂ call n₃, Step (calls host) n (.enter (.acceptQuote s)) n₁ →
    (within (calls host) Chain.New n.stack.length).Run n₁ ls n₂ →
    Step (calls host) n₂ (.undo call) n₃ → n₃.stack.length = n.stack.length →
    n₃ = n ∧ n₃.current.settled s.terms.rfqId s.terms.quoteId = false
  /-- Only `deploy` sets an entry of the registry, unless a call is undone, and an entry that has
  been set stays. -/
  set : ∀ l n' artworkId, Step (calls host) n l n' →
    n'.current.registry artworkId ≠ n.current.registry artworkId → (∃ call, l = .undo call)
      ∨ ∃ init canonical, l = .leave (.deploy init canonical) ∧ init.artworkId = artworkId
  stays : n.stack = [] → ∀ ls n' artworkId token, (machine host).Run n ls n' →
    n.current.registry artworkId = some token → n'.current.registry artworkId = some token
  /-- The token that `deploy` registers has been instantiated from the executable that was
  canonical when `deploy` was called, and it records this executable. -/
  deployed : ∀ init canonical n₁ ls n₂ call n₃,
    Step (calls host) n (.enter (.deploy init canonical)) n₁ →
    (within (calls host) Chain.New n.stack.length).Run n₁ ls n₂ →
    Step (calls host) n₂ (.leave call) n₃ → n₃.stack.length = n.stack.length →
    (∃ inst, n₁.current.instances (host.tokenAddress init.artworkId) = some inst
      ∧ inst.storage.implWasmHash = some n.current.wasmHash)
    ∧ n₃.current.registry init.artworkId = some (host.tokenAddress init.artworkId)
    ∧ ∃ inst, n₃.current.instances (host.tokenAddress init.artworkId) = some inst
      ∧ inst.origin = n.current.wasmHash

section Runs

variable {host : Host} {n n' n₁ n₂ n₃ : Nested Chain Call} {ls : List (Label Effect Call)}

theorem sound_of_reachable (h : (machine host).Reachable n) :
  Sound host n.current n.calls
  := by
  refine (sound_kept host).reachable ?_ h
  intro c hnew
  have hsettlements : settlements c [] = [] := by
    rw [settlements, hnew.completed]
    rfl
  constructor
  · rw [hsettlements]
    apply List.nodup_nil
  · intro rfqId quoteId
    rw [hsettlements, hnew.unsettled]
    simp
  · intro s hs
    rw [hsettlements] at hs
    cases hs
  · intro _ _ hmem
    cases hmem
  · apply List.nodup_nil

theorem LeaveStep.registry {c c' : Chain} {call : Call} (h : LeaveStep host c call c')
    {artworkId : BytesN32} (hne : c'.registry artworkId ≠ c.registry artworkId) :
  ∃ init canonical, call = .deploy init canonical ∧ init.artworkId = artworkId
  := by
  cases h with
  | acceptQuote => exact absurd rfl hne
  | @deploy init canonical =>
    refine ⟨init, canonical, rfl, ?_⟩
    by_contra hartwork
    apply hne
    apply Function.update_of_ne (Ne.symm hartwork)
  | other => exact absurd rfl hne

theorem EnterStep.registry {c c' : Chain} {call : Call} (h : EnterStep host c call c') :
  c'.registry = c.registry
  := by
  cases h with
  | acceptQuote hok =>
    obtain ⟨_, _, rfl⟩ := openAcceptQuote_eq_ok hok
    rfl
  | deploy hok =>
    obtain ⟨_, _, _, _, _, rfl⟩ := openDeploy_eq_ok hok
    rfl
  | other => rfl

/-- Along with what all calls keep, they keep an entry of the registry. -/
theorem registered_kept (host : Host) (artworkId : BytesN32) (token : Address) :
  Kept (calls host) fun c opened => Sound host c opened ∧ c.registry artworkId = some token
  := by
  have hkept := sound_kept host
  constructor
  · rintro c k c' opened ⟨h, hregistry⟩ hstep
    refine ⟨hkept.effect c k c' opened h hstep, ?_⟩
    rw [(EffectStep.frame hstep).2.1, hregistry]
  · rintro c call c' opened ⟨h, hregistry⟩ hstep
    refine ⟨hkept.enter c call c' opened h hstep, ?_⟩
    rw [EnterStep.registry hstep, hregistry]
  · rintro c call c' opened ⟨h, hregistry⟩ hstep
    refine ⟨hkept.leave c call c' opened h hstep, ?_⟩
    by_contra hne
    obtain ⟨init, canonical, rfl, rfl⟩ := LeaveStep.registry hstep (by rwa [hregistry])
    rw [(h.deploying init canonical List.mem_cons_self).1] at hregistry
    cases hregistry

/-- In every run of the settler, the factory and the tokens, settlements are one-shot, and the
registry is canonical. -/
theorem oneShotCanonical (h : (machine host).Reachable n) :
  OneShotCanonical host n
  := by
  have hsound := sound_of_reachable h
  constructor
  · have honce := hsound.once
    rw [settlements, List.map_append] at honce
    apply (List.nodup_append.mp honce).1
  · intro hstack rfqId quoteId
    rw [hsound.marked, settlements, Nested.calls, hstack]
    simp [eq_comm]
  · exact fun s hs => hsound.honest s (List.mem_append_left _ hs)
  · intro n' hstep
    cases hstep with
    | effect heffect =>
      cases heffect
      rfl
  · intro s n₁ ls n₂ call n₃ henter hrun hundo hdepth
    cases henter with
    | enter henter =>
      cases henter with
      | acceptQuote hok =>
        rw [undo_restores hrun hundo hdepth]
        exact ⟨rfl, (openAcceptQuote_eq_ok hok).1⟩
  · intro l n' artworkId hstep hne
    cases hstep with
    | effect heffect => exact absurd (congrFun heffect.frame.2.1 _) hne
    | enter henter => exact absurd (congrFun (EnterStep.registry henter) _) hne
    | leave hleave =>
      obtain ⟨init, canonical, rfl, hartwork⟩ := LeaveStep.registry hleave hne
      exact .inr ⟨init, canonical, rfl, hartwork⟩
    | undo => exact .inl ⟨_, rfl⟩
  · intro hstack ls n' artworkId token hrun hregistry
    have hthroughout : Throughout (fun c opened => Sound host c opened
        ∧ c.registry artworkId = some token) n.current n.stack := by
      rw [Nested.calls, hstack] at hsound
      rw [hstack]
      exact ⟨hsound, hregistry⟩
    exact ((registered_kept host artworkId token).run hrun hthroughout).current.2
  · intro init canonical n₁ ls n₂ call n₃ henter hrun hleave hdepth
    have hsound₂ := sound_of_reachable ((h.step henter).run (System.Run.of_restrict _ hrun))
    have hcanonical : n.current.wasmHash = canonical ∧ ∃ inst,
        n₁.current.instances (host.tokenAddress init.artworkId) = some inst
          ∧ inst.storage.implWasmHash = some n.current.wasmHash := by
      cases henter with
      | enter henter =>
        cases henter with
        | deploy hok =>
          obtain ⟨_, _, inst, _, himpl, rfl⟩ := openDeploy_eq_ok hok
          exact ⟨rfl, inst, Function.update_self .., himpl⟩
    have hcall : call = .deploy init canonical := by
      cases henter with
      | enter _ => exact (leave_matches hrun hleave hdepth).1
    subst hcall
    refine ⟨hcanonical.2, ?_⟩
    cases hleave with
    | leave hleave =>
      obtain ⟨_, inst, hinst, horigin⟩ := hsound₂.deploying init canonical List.mem_cons_self
      cases hleave with
      | deploy =>
        exact ⟨Function.update_self .., inst, hinst, horigin.trans hcanonical.1.symm⟩

end Runs

/-! ### A token that is deployed and traded -/

def sampleHost : Host where
  signed _ _ _ := true
  tokenAddress artworkId := .contract artworkId

/-- The settler and the factory, and a buyer with 100 units of USDC. -/
def sampleNew : Chain where
  settlerAdmin := .account 1
  settled _ _ := false
  factoryAdmin := .account 1
  wasmHash := 9
  registry _ := none
  instances _ := none
  usdc _ a := if a = .account 20 then 100 else 0
  completed := []

def sampleTerms : Terms where
  rfqId := 1
  quoteId := 1
  artworkId := 1
  buyer := .account 20
  seller := .account 30
  count := 3
  gross := 100

/-- What the token of the artwork stores when it has been deployed. -/
def sampleInstance : Instance where
  origin := 9
  storage := { (Token.sampleToken (.account 11)).storage with implWasmHash := some 9 }
  holdings := (Token.sampleToken (.account 11)).holdings

/-- The token has been deployed, although the caller has named another executable. -/
def sampleDeployed : Chain :=
  { sampleNew with
    instances := Function.update sampleNew.instances (.contract 1) (some sampleInstance) }

theorem sampleDeployed_reachable :
  (machine sampleHost).Reachable ⟨closeDeploy sampleHost 1 sampleDeployed, []⟩
  := by
  have hnew : (machine sampleHost).Reachable ⟨sampleNew, []⟩ :=
    .init ⟨⟨fun _ _ => rfl, fun _ => rfl, rfl⟩, rfl⟩
  have hopen : openDeploy sampleHost 0 (Token.sampleInit (.account 11)) sampleNew
      = .ok sampleDeployed := rfl
  apply (hnew.step (.enter (.deploy hopen))).step (.leave .deploy)

/-- After a token has been deployed and traded, the settlement is one-shot, and the registry is
canonical. -/
theorem oneShotCanonical_sample :
  ∃ n, (machine sampleHost).Reachable n ∧ n.current.completed = [⟨0, sampleTerms, .contract 1⟩]
    ∧ OneShotCanonical sampleHost n
  := by
  have hopen : openAcceptQuote sampleHost 0 sampleTerms (closeDeploy sampleHost 1 sampleDeployed)
      = .ok ((closeDeploy sampleHost 1 sampleDeployed).mark sampleTerms, .contract 1) := rfl
  have hreachable := (sampleDeployed_reachable.step (.enter (.acceptQuote hopen))).step
    (.leave .acceptQuote)
  exact ⟨_, hreachable, rfl, oneShotCanonical hreachable⟩

end Registry
