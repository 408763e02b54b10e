import Tove.Base.Transition
import Tove.Soroban

/-!
# The wallet factory

The contract `FractionWalletFactory` of `tove-wallet-factory`: the admin deploys a wallet at an
address that the host derives from a salt, from the code whose hash is stored. The host refuses a
second contract at an address, and it runs the constructor of the wallet, which may fail. The
lifetime extensions of storage entries are left out.
-/

namespace WalletFactory

open Soroban Transition

/-- A signer of a wallet: an address of its own, or a key that a verifier knows. -/
inductive Signer where
  | delegated (address : Address)
  | external (verifier : Address) (keyData : List UInt8)
  deriving DecidableEq, Repr

/-- The errors of the contract. No function returns one. -/
inductive Error where
  | NotInitialized
  | Unauthorized
  deriving DecidableEq, Repr

/-- The outcome of a call. -/
abbrev Outcome (α : Type) : Type := Except (Failure Error) α

/-- The code of a wallet, and the arguments of its constructor. -/
structure Wallet (Val : Type) where
  wasmHash : BytesN32
  signers : List Signer
  policies : List (Address × Val)

/-- The slots of the contract, and the wallets that it has deployed. -/
structure Storage (Val : Type) where
  admin : Address
  wasmHash : BytesN32
  wallets : Address → Option (Wallet Val)

variable {Val : Type} (address : BytesN32 → Address)

/-- `__constructor`. -/
def construct (admin : Address) (wasmHash : BytesN32) : Storage Val :=
  ⟨admin, wasmHash, fun _ => none⟩

/-- `deploy_v2`, of the code whose hash is stored. -/
def Storage.deploy (s : Storage Val) (deployed : Address) (signers : List Signer)
    (policies : List (Address × Val)) : Storage Val :=
  { s with wallets := Function.update s.wallets deployed (some ⟨s.wasmHash, signers, policies⟩) }

/-- `deploy_wallet`. The constructor of the wallet accepts its arguments, or it traps. -/
def deployWallet (env : Env) (accepts : Bool) (salt : BytesN32) (signers : List Signer)
    (policies : List (Address × Val)) (s : Storage Val) : Outcome (Storage Val × Address) := do
  requireAuth env s.admin
  trapIf ((s.wallets (address salt)).isSome = true)
  trapIf (accepts = false)
  return (s.deploy (address salt) signers policies, address salt)

/-- `set_wasm_hash`. -/
def setWasmHash (env : Env) (newWasmHash : BytesN32) (s : Storage Val) : Outcome (Storage Val) := do
  requireAuth env s.admin
  return { s with wasmHash := newWasmHash }

/-- `set_admin`. -/
def setAdmin (env : Env) (newAdmin : Address) (s : Storage Val) : Outcome (Storage Val) := do
  requireAuth env s.admin
  return { s with admin := newAdmin }

/-- A call that may change the storage. -/
inductive Call (Val : Type) where
  | deployWallet (accepts : Bool) (salt : BytesN32) (signers : List Signer)
      (policies : List (Address × Val))
  | setWasmHash (newWasmHash : BytesN32)
  | setAdmin (newAdmin : Address)

/-- Run a call. -/
def perform (env : Env) : Call Val → Storage Val → Outcome (Storage Val)
  | .deployWallet accepts salt signers policies, s => do
    let (s', _) ← deployWallet address env accepts salt signers policies s
    return s'
  | .setWasmHash newWasmHash, s => setWasmHash env newWasmHash s
  | .setAdmin newAdmin, s => setAdmin env newAdmin s

/-- A call that goes through, or fails. -/
inductive Label (Val : Type) where
  | call (env : Env) (c : Call Val)
  | failed (env : Env) (c : Call Val) (failure : Failure Error)

/-- The steps of the contract. A failed call changes nothing. -/
inductive Step : Storage Val → Label Val → Storage Val → Prop where
  | call {env : Env} {c : Call Val} {s s' : Storage Val} : perform address env c s = .ok s' →
      Step s (.call env c) s'
  | failed {env : Env} {c : Call Val} {s : Storage Val} {failure : Failure Error} :
      perform address env c s = .error failure → Step s (.failed env c failure) s

/-- The contract from its deployment on, as a transition system. -/
def system (admin : Address) (wasmHash : BytesN32) : Transition.System (Storage Val) (Label Val) where
  init s := s = construct admin wasmHash
  step := Step address

/-! ### What a call does -/

section Calls

variable {address} {env : Env} {accepts : Bool} {salt : BytesN32} {signers : List Signer}
  {policies : List (Address × Val)} {s s' : Storage Val} {deployed : Address} {c : Call Val}
  {l : Label Val}

theorem deployWallet_eq_ok :
  deployWallet address env accepts salt signers policies s = .ok (s', deployed)
    ↔ (env.auth s.admin = true ∧ s.wallets (address salt) = none ∧ accepts = true)
      ∧ s.deploy (address salt) signers policies = s' ∧ address salt = deployed
  := by
  simp only [deployWallet, trapIf, requireAuth_eq_ok, Checks.bind_eq_ok, Checks.rejectIf_eq_ok,
    Checks.pure_eq_ok, exists_const, Prod.mk.injEq, Bool.not_eq_true, Bool.not_eq_false,
    Option.isSome_eq_false_iff, Option.isNone_iff_eq_none]
  tauto

theorem setWasmHash_eq_ok {newWasmHash : BytesN32} :
  setWasmHash env newWasmHash s = .ok s'
    ↔ env.auth s.admin = true ∧ { s with wasmHash := newWasmHash } = s'
  := by
  simp only [setWasmHash, requireAuth_eq_ok, Checks.bind_eq_ok, Checks.pure_eq_ok, exists_const]

theorem setAdmin_eq_ok {newAdmin : Address} :
  setAdmin env newAdmin s = .ok s' ↔ env.auth s.admin = true ∧ { s with admin := newAdmin } = s'
  := by
  simp only [setAdmin, requireAuth_eq_ok, Checks.bind_eq_ok, Checks.pure_eq_ok, exists_const]

/-- Only the admin changes anything. -/
theorem auth_of_perform (h : perform address env c s = .ok s') :
  env.auth s.admin = true
  := by
  cases c with
  | deployWallet =>
    simp only [perform, Checks.bind_eq_ok, Checks.pure_eq_ok] at h
    obtain ⟨⟨_, _⟩, hdeploy, _⟩ := h
    exact (deployWallet_eq_ok.mp hdeploy).1.1
  | setWasmHash => exact (setWasmHash_eq_ok.mp h).1
  | setAdmin => exact (setAdmin_eq_ok.mp h).1

/-- What a call does to the wallets. -/
theorem wallets_of_perform (h : perform address env c s = .ok s') :
  s'.wallets = s.wallets ∨ ∃ accepts salt signers policies,
    c = .deployWallet accepts salt signers policies ∧ s.wallets (address salt) = none
      ∧ s'.wallets = Function.update s.wallets (address salt)
        (some ⟨s.wasmHash, signers, policies⟩)
  := by
  cases c with
  | deployWallet accepts salt signers policies =>
    simp only [perform, Checks.bind_eq_ok, Checks.pure_eq_ok] at h
    obtain ⟨⟨_, _⟩, hdeploy, rfl⟩ := h
    obtain ⟨⟨_, hnone, _⟩, rfl, _⟩ := deployWallet_eq_ok.mp hdeploy
    exact .inr ⟨accepts, salt, signers, policies, rfl, hnone, rfl⟩
  | setWasmHash =>
    obtain ⟨_, rfl⟩ := setWasmHash_eq_ok.mp h
    exact .inl rfl
  | setAdmin =>
    obtain ⟨_, rfl⟩ := setAdmin_eq_ok.mp h
    exact .inl rfl

/-- A wallet stays as it was deployed. -/
theorem Step.keeps (h : Step address s l s') {wallet : Wallet Val}
    (hwallet : s.wallets deployed = some wallet) :
  s'.wallets deployed = some wallet
  := by
  cases h with
  | call hok =>
    rcases wallets_of_perform hok with heq | ⟨_, salt, _, _, _, hnone, heq⟩
    · rw [heq, hwallet]
    · rw [heq, ← hwallet]
      apply Function.update_of_ne
      rintro rfl
      rw [hnone] at hwallet
      cases hwallet
  | failed => exact hwallet

end Calls

/-! ### Runs -/

section Runs

variable {address} {admin : Address} {wasmHash : BytesN32} {s t : Storage Val}
  {ls ls' : List (Label Val)} {deployed : Address} {wallet : Wallet Val}

theorem keeps_of_run (hrun : (system address admin wasmHash).Run s ls t)
    (hwallet : s.wallets deployed = some wallet) :
  t.wallets deployed = some wallet
  := hrun.preserves (I := fun s => s.wallets deployed = some wallet)
    (fun _ _ _ hwallet (hstep : Step address _ _ _) => hstep.keeps hwallet) hwallet

/-- Where a wallet comes from: a call that the admin of the time has authorised has deployed it,
from the code of the time. -/
def Origin (address : BytesN32 → Address) (admin : Address) (wasmHash : BytesN32)
    (ls : List (Label Val)) (deployed : Address) (wallet : Wallet Val) : Prop :=
  ∃ before after env accepts salt u,
    ls = before ++ .call env (.deployWallet accepts salt wallet.signers wallet.policies) :: after
      ∧ (system address admin wasmHash).Run (construct admin wasmHash) before u
      ∧ env.auth u.admin = true ∧ wallet.wasmHash = u.wasmHash
      ∧ deployed = address salt ∧ u.wallets deployed = none

theorem Origin.append (h : Origin address admin wasmHash ls deployed wallet) :
  Origin address admin wasmHash (ls ++ ls') deployed wallet
  := by
  obtain ⟨before, after, env, accepts, salt, u, rfl, hcall⟩ := h
  exact ⟨before, after ++ ls', env, accepts, salt, u, by simp, hcall⟩

theorem origin_of_run (hrun : (system address admin wasmHash).Run s ls t)
    (hs : s = construct admin wasmHash) (hwallet : t.wallets deployed = some wallet) :
  Origin address admin wasmHash ls deployed wallet
  := by
  induction hrun with
  | nil =>
    rw [hs] at hwallet
    cases hwallet
  | @snoc u t ls l hrun hl ih =>
    cases hbefore : u.wallets deployed with
    | some wallet' =>
      rw [Step.keeps hl hbefore, Option.some_inj] at hwallet
      subst hwallet
      exact (ih hbefore).append
    | none =>
      cases hl with
      | @call env c _ _ hok =>
        rcases wallets_of_perform hok with heq | ⟨accepts, salt, signers, policies, rfl, _, heq⟩
        · rw [heq, hbefore] at hwallet
          cases hwallet
        · rw [heq, Function.update_apply] at hwallet
          split at hwallet
          · rename_i hdeployed
            obtain rfl := Option.some.inj hwallet
            subst hs
            exact ⟨ls, [], env, accepts, salt, u, rfl, hrun, auth_of_perform hok, rfl, hdeployed,
              hbefore⟩
          · rw [hbefore] at hwallet
            cases hwallet
      | failed =>
        rw [hbefore] at hwallet
        cases hwallet

/-- In every run of the contract, whoever calls it: each wallet was deployed by one call of
`deploy_wallet` that the admin of the time had authorised, at the address of its salt, from the
code whose hash was stored then; it stays as it was deployed, and a second call for its salt fails.
Nothing changes without the admin. -/
theorem deployed_once (hrun : (system address admin wasmHash).Run (construct admin wasmHash) ls s) :
  (∀ deployed wallet, s.wallets deployed = some wallet →
      Origin address admin wasmHash ls deployed wallet)
    ∧ (∀ ls' t deployed wallet, (system address admin wasmHash).Run s ls' t →
      s.wallets deployed = some wallet → t.wallets deployed = some wallet)
    ∧ (∀ env accepts salt signers policies result, s.wallets (address salt) ≠ none →
      deployWallet address env accepts salt signers policies s ≠ .ok result)
    ∧ ∀ l t, Step address s l t → t ≠ s → ∃ env c, l = .call env c ∧ env.auth s.admin = true
  := by
  refine ⟨fun deployed wallet => origin_of_run hrun rfl, fun ls' t deployed wallet => keeps_of_run,
    ?_, ?_⟩
  · rintro env accepts salt signers policies ⟨s', deployed⟩ hsome hok
    exact hsome (deployWallet_eq_ok.mp hok).1.2.1
  · intro l t hl hne
    cases hl with
    | @call env c _ _ hok => exact ⟨env, c, rfl, auth_of_perform hok⟩
    | failed => exact absurd rfl hne

/-- A wallet that was deployed before the hash is replaced has the old code. -/
theorem deployed_once_rotated :
  Origin .contract (.account 1) 7
    [.call ⟨fun _ => true, true, true⟩ (.deployWallet true 3 [] []),
      .call ⟨fun _ => true, true, true⟩ (.setWasmHash 8)]
    (.contract 3) (⟨7, [], []⟩ : Wallet Unit)
  := by
  let env : Env := ⟨fun _ => true, true, true⟩
  let deploys : Call Unit := .deployWallet true 3 [] []
  let s : Storage Unit := (construct (.account 1) 7).deploy (.contract 3) [] []
  have hinit : (system .contract (.account 1) 7).Run (construct (.account 1) 7 : Storage Unit) []
      (construct (.account 1) 7) := .nil _
  have hdeploy : Step .contract (construct (.account 1) 7) (.call env deploys) s := .call rfl
  have hrotate : Step .contract s (.call env (.setWasmHash 8)) { s with wasmHash := 8 } := .call rfl
  have hrun := (hinit.snoc hdeploy).snoc hrotate
  exact (deployed_once hrun).1 (.contract 3) ⟨7, [], []⟩ rfl

end Runs

end WalletFactory
