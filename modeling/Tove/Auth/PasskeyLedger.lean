import Tove.Auth.Passkeys
import Tove.Base.Calls

/-!
# What the tables and the chain record of passkeys

A wallet on the chain was deployed for a credential that has been registered, and the relayer gives
a registration the address of such a wallet. A transaction writes one wallet and one credential, so
a credential that is committed has its wallet, in the table and on the chain.
-/

namespace Passkeys

open Js ReadCommitted ReadCommitted.Store Transition Calls Soroban WalletFactory

/-! ### What a call has -/

def Phase.registration : Phase → Option Registration
  | .verified r | .unbound r | .checking r | .building r _ | .polling r _ _ | .caught r _ _
  | .consuming r _ | .savingUser r _ | .savingWallet r _ _ | .savingCredential r _ _ _
  | .committing r _ _ _ _ => some r
  | .idle | .answering _ _ | .asserted _ _ _ | .issuing _ _ _ => none

/-- The address that the relayer has given. -/
def Phase.deployed : Phase → Option Address
  | .consuming _ a | .savingUser _ a | .savingWallet _ a _ | .savingCredential _ a _ _
  | .committing _ a _ _ _ => some a
  | _ => none

/-- The transaction for whose outcome a call polls. -/
def Phase.tx : Phase → Option ℕ
  | .polling _ _ i => some i
  | _ => none

/-- The wallet that the transaction of a call has written. -/
def Phase.wallet : Phase → Option (ℕ × EmbeddedWallet)
  | .savingCredential _ a userId walletId | .committing _ a userId walletId _ =>
    some (walletId, ⟨userId, a⟩)
  | _ => none

/-- The credential that the transaction of a call has written. -/
def Phase.credential : Phase → Option (ℕ × PasskeyCredential)
  | .committing r _ _ walletId id => some (id, ⟨walletId, r.credentialId, r.publicKey⟩)
  | _ => none

/-! ### The tables -/

/-- The transaction of a call has written what its phase says. -/
structure Known (s : State) (n : ℕ) : Prop where
  wallet : s.wallets.Wrote n (s.calls n).wallet
  credential : s.credentials.Wrote n (s.calls n).credential

/-- A step of another call leaves a call alone. -/
structure Frame (s s' : State) (m : ℕ) : Prop where
  calls : s'.calls m = s.calls m
  challenges : s'.challenges.writes m = s.challenges.writes m
  wallets : s'.wallets.writes m = s.wallets.writes m
  credentials : s'.credentials.writes m = s.credentials.writes m

section Tables

variable {cfg : Config} {s s' : State} {l : Label} {m n : ℕ} {phase : Phase}

/-- Wallets are only inserted, one for each address. -/
theorem Step.wallets_inserts (h : Step cfg s l s') (a : Address) :
  ∃ n, Inserts (EmbeddedWallet.HasAddress a) n s.wallets s'.wallets
  := by
  cases h with
  | @saveWallet n userId walletId r contractAddress _ hfresh hadmits =>
    refine ⟨n, .insert hfresh ?_⟩
    rintro rfl
    exact hadmits
  | @commit n => exact ⟨n, .commit⟩
  | @stop n => exact ⟨n, .abort⟩
  | _ => exact ⟨0, .nothing⟩

/-- Credentials are only inserted, one for each credential id. -/
theorem Step.credentials_inserts (h : Step cfg s l s') (credentialId : JsString) :
  ∃ n, Inserts (PasskeyCredential.HasCredentialId credentialId) n s.credentials s'.credentials
  := by
  cases h with
  | @saveCredential n userId walletId id r contractAddress _ hfresh hadmits =>
    refine ⟨n, .insert hfresh ?_⟩
    rintro rfl
    exact hadmits
  | @commit n => exact ⟨n, .commit⟩
  | @stop n => exact ⟨n, .abort⟩
  | _ => exact ⟨0, .nothing⟩

theorem known_enter (hs : ∀ n, Known s n) (hwallets : s'.wallets = s.wallets)
    (hcredentials : s'.credentials = s.credentials)
    (hcalls : s'.calls = Function.update s.calls n phase)
    (hwallet : phase.wallet = (s.calls n).wallet)
    (hcredential : phase.credential = (s.calls n).credential) :
  Known s' m
  := by
  have hphase : (s'.calls m).wallet = (s.calls m).wallet
      ∧ (s'.calls m).credential = (s.calls m).credential := by
    rw [hcalls]
    by_cases hm : m = n
    · subst hm
      rw [Function.update_self]
      exact ⟨hwallet, hcredential⟩
    · rw [Function.update_of_ne hm]
      exact ⟨rfl, rfl⟩
  refine ⟨?_, ?_⟩
  · rw [hphase.1, hwallets]
    exact (hs m).wallet
  · rw [hphase.2, hcredentials]
    exact (hs m).credential

theorem known_of (hcalls : s.calls m = phase) (hwallet : s.wallets.Wrote m phase.wallet)
    (hcredential : s.credentials.Wrote m phase.credential) :
  Known s m
  := by
  refine ⟨?_, ?_⟩
  · rw [hcalls]
    exact hwallet
  · rw [hcalls]
    exact hcredential

theorem Known.of_frame (hs : Known s m) (h : Frame s s' m) :
  Known s' m
  := by
  refine ⟨?_, ?_⟩
  · rw [h.calls]
    exact hs.wallet.of_writes h.wallets
  · rw [h.calls]
    exact hs.credential.of_writes h.credentials

theorem Step.known (hs : ∀ n, Known s n) (h : Step cfg s l s') (m : ℕ) :
  Known s' m
  := by
  cases h with
  | issue | delete | tick | alter | land | fail | drop | others =>
    exact ⟨(hs m).wallet, (hs m).credential⟩
  | register hphase | replay hphase | unbound hphase | deploy hphase | found hphase
  | absent hphase | submit hphase | duplicate hphase | reject hphase | confirm hphase
  | timeout hphase | heal hphase | retry hphase | consume hphase | saveUser hphase
  | answer hphase | assert hphase | login hphase | issueTokens hphase =>
    exact known_enter hs rfl rfl rfl (by rw [hphase]; rfl) (by rw [hphase]; rfl)
  | @saveWallet n userId walletId r contractAddress hphase =>
    have hwallet := (hs n).wallet
    have hcredential := (hs n).credential
    rw [hphase] at hwallet hcredential
    by_cases hm : m = n
    · subst hm
      exact known_of (Function.update_self ..) (Store.Wrote.write hwallet) hcredential
    · exact (hs m).of_frame
        ⟨Function.update_of_ne hm .., rfl, write_writes_of_ne hm, rfl⟩
  | @saveCredential n userId walletId id r contractAddress hphase =>
    have hwallet := (hs n).wallet
    have hcredential := (hs n).credential
    rw [hphase] at hwallet hcredential
    by_cases hm : m = n
    · subst hm
      exact known_of (Function.update_self ..) hwallet (Store.Wrote.write hcredential)
    · exact (hs m).of_frame
        ⟨Function.update_of_ne hm .., rfl, rfl, write_writes_of_ne hm⟩
  | @commit n =>
    by_cases hm : m = n
    · subst hm
      exact known_of (Function.update_self ..) (wrote_of_clean commit_writes)
        (wrote_of_clean commit_writes)
    · exact (hs m).of_frame ⟨Function.update_of_ne hm .., commit_writes_of_ne hm,
        commit_writes_of_ne hm, commit_writes_of_ne hm⟩
  | @stop n =>
    by_cases hm : m = n
    · subst hm
      exact known_of (Function.update_self ..) (wrote_of_clean abort_writes)
        (wrote_of_clean abort_writes)
    · exact (hs m).of_frame ⟨Function.update_of_ne hm .., abort_writes_of_ne hm,
        abort_writes_of_ne hm, abort_writes_of_ne hm⟩

/-- The tables of wallets and of credentials are in order. -/
structure Ordered (s : State) : Prop where
  known : ∀ n, Known s n
  wallets : ∀ a, Inserted (EmbeddedWallet.HasAddress a) s.wallets
  credentials : ∀ credentialId,
    Inserted (PasskeyCredential.HasCredentialId credentialId) s.credentials

theorem Step.ordered (hs : Ordered s) (h : Step cfg s l s') :
  Ordered s'
  := by
  refine ⟨h.known hs.known, ?_, ?_⟩
  · intro a
    obtain ⟨n, hn⟩ := h.wallets_inserts a
    exact (hs.wallets a).step hn
  · intro credentialId
    obtain ⟨n, hn⟩ := h.credentials_inserts credentialId
    exact (hs.credentials credentialId).step hn

theorem Step.keeps_wallet (hs : Ordered s) (h : Step cfg s l s') {k : ℕ} {row : EmbeddedWallet}
    (hcommitted : s.wallets.committed k = some row) :
  s'.wallets.committed k = some row
  := by
  obtain ⟨n, hn⟩ := h.wallets_inserts row.contractAddress
  exact (hs.wallets _).keeps hn hcommitted

theorem Step.keeps_credential (hs : Ordered s) (h : Step cfg s l s') {k : ℕ}
    {row : PasskeyCredential} (hcommitted : s.credentials.committed k = some row) :
  s'.credentials.committed k = some row
  := by
  obtain ⟨n, hn⟩ := h.credentials_inserts row.credentialId
  exact (hs.credentials _).keeps hn hcommitted

end Tables

/-! ### The chain -/

/-- The credential has been registered with a key, whose signers these are. -/
def Registered (cfg : Config) (events : List Event) (credentialId : JsString)
    (signers : List Signer) : Prop :=
  ∃ challenge publicKey, .registered challenge credentialId publicKey ∈ events
    ∧ cfg.signers credentialId publicKey = some signers

/-- What a call has rests on what has happened, and on the chain. -/
structure Phase.Grounded (cfg : Config) (s : State) (phase : Phase) : Prop where
  registered : ∀ r, phase.registration = some r →
    .registered r.challenge r.credentialId r.publicKey ∈ s.events
      ∧ .issued r.challenge r.row.email ∈ s.events
  sent : ∀ r i, phase.registration = some r → phase.tx = some i →
    ∃ tx : Tx, s.txs[i]? = some tx ∧ tx.credentialId = r.credentialId
  deployed : ∀ r a, phase.registration = some r → phase.deployed = some a →
    a = cfg.walletOf r.credentialId ∧ s.factory.wallets a ≠ none

/-- What a transaction of the relayer rests on. -/
def Tx.Grounded (cfg : Config) (s : State) (tx : Tx) : Prop :=
  Registered cfg s.events tx.credentialId tx.signers
    ∧ ∀ a, tx.status = .success a → a = cfg.walletOf tx.credentialId ∧ s.factory.wallets a ≠ none

/-- The calls, the transactions and the wallets on the chain rest on registrations. -/
structure Chain (cfg : Config) (s : State) : Prop where
  calls : ∀ n, (s.calls n).Grounded cfg s
  txs : ∀ (i : ℕ) (tx : Tx), s.txs[i]? = some tx → tx.Grounded cfg s
  wallets : ∀ a wallet, s.factory.wallets a = some wallet →
    ∃ credentialId, a = cfg.walletOf credentialId
      ∧ Registered cfg s.events credentialId wallet.signers
  issued : ∀ challenge row, s.challenges.Version challenge row →
    .issued challenge row.email ∈ s.events

/-- What has happened, been deployed, or been sent, stays so. -/
structure Grows (s s' : State) : Prop where
  events : ∀ e ∈ s.events, e ∈ s'.events
  wallets : ∀ a wallet, s.factory.wallets a = some wallet → s'.factory.wallets a = some wallet
  txs : ∀ (i : ℕ) (tx : Tx), s.txs[i]? = some tx →
    ∃ tx' : Tx, s'.txs[i]? = some tx' ∧ tx'.credentialId = tx.credentialId

section Chain

variable {cfg : Config} {s s' : State} {l : Label} {m n : ℕ} {phase phase' : Phase}

theorem Registered.mono {events events' : List Event} {credentialId : JsString}
    {signers : List Signer} (h : Registered cfg events credentialId signers)
    (hevents : ∀ e ∈ events, e ∈ events') :
  Registered cfg events' credentialId signers
  := by
  obtain ⟨challenge, publicKey, hmem, hsigners⟩ := h
  exact ⟨challenge, publicKey, hevents _ hmem, hsigners⟩

theorem Grows.wallets_ne_none (h : Grows s s') {a : Address} (hsome : s.factory.wallets a ≠ none) :
  s'.factory.wallets a ≠ none
  := by
  obtain ⟨wallet, hwallet⟩ := Option.ne_none_iff_exists'.mp hsome
  rw [h.wallets a wallet hwallet]
  nofun

theorem Phase.Grounded.mono (h : phase.Grounded cfg s) (hg : Grows s s') :
  phase.Grounded cfg s'
  := by
  refine ⟨?_, ?_, ?_⟩
  · intro r hr
    obtain ⟨hregistered, hissued⟩ := h.registered r hr
    exact ⟨hg.events _ hregistered, hg.events _ hissued⟩
  · intro r i hr hi
    obtain ⟨tx, htx, hcredential⟩ := h.sent r i hr hi
    obtain ⟨tx', htx', heq⟩ := hg.txs i tx htx
    exact ⟨tx', htx', heq.trans hcredential⟩
  · intro r a hr ha
    obtain ⟨heq, hsome⟩ := h.deployed r a hr ha
    exact ⟨heq, hg.wallets_ne_none hsome⟩

/-- A call that goes on with its registration, or without one. -/
theorem Phase.Grounded.follow (h : phase.Grounded cfg s)
    (hregistration : ∀ r, phase'.registration = some r → phase.registration = some r)
    (htx : phase'.tx = none)
    (hdeployed : ∀ a, phase'.deployed = some a → phase.deployed = some a) :
  phase'.Grounded cfg s
  := by
  refine ⟨fun r hr => h.registered r (hregistration r hr), ?_, ?_⟩
  · intro r i _ hi
    rw [htx] at hi
    cases hi
  · intro r a hr ha
    exact h.deployed r a (hregistration r hr) (hdeployed a ha)

/-- The relayer has found the wallet. -/
theorem Phase.Grounded.deploy (h : phase.Grounded cfg s) {r : Registration} {a : Address}
    (hr : phase.registration = some r) (heq : a = cfg.walletOf r.credentialId)
    (hsome : s.factory.wallets a ≠ none) :
  (Phase.consuming r a).Grounded cfg s
  := by
  refine ⟨?_, nofun, ?_⟩
  · intro r' hr'
    obtain rfl := Option.some.inj hr'
    exact h.registered r hr
  · intro r' a' hr' ha'
    obtain rfl := Option.some.inj hr'
    obtain rfl := Option.some.inj ha'
    exact ⟨heq, hsome⟩

theorem grounded_of_none (hregistration : phase.registration = none) :
  phase.Grounded cfg s
  := by
  refine ⟨?_, ?_, ?_⟩
  · intro r hr
    rw [hregistration] at hr
    cases hr
  · intro r i hr
    rw [hregistration] at hr
    cases hr
  · intro r a hr
    rw [hregistration] at hr
    cases hr

/-- Others do not deploy wallets. -/
theorem wallets_of_others {env : Env} {c : WalletFactory.Call Unit}
    {factory factory' : WalletFactory.Storage Unit}
    (hothers : ∀ accepts salt signers policies, c = .deployWallet accepts salt signers policies →
      env.auth factory.admin = false)
    (h : perform cfg.deriveWalletAddress env c factory = .ok factory') :
  factory'.wallets = factory.wallets
  := by
  rcases wallets_of_perform h with heq | ⟨accepts, salt, signers, policies, hc, _⟩
  · exact heq
  · have hauth := auth_of_perform h
    rw [hothers accepts salt signers policies hc] at hauth
    cases hauth

theorem settle_txs {i j : ℕ} {tx tx' : Tx} {status : TxStatus}
    (htx' : (s.settle i tx status).txs[j]? = some tx') :
  s.txs[j]? = some tx' ∨ j = i ∧ tx' = { tx with status }
  := by
  have hset : (s.txs.set i { tx with status })[j]? = some tx' := htx'
  rw [List.getElem?_set] at hset
  split at hset
  · rename_i hj
    split at hset
    · exact .inr ⟨hj.symm, (Option.some.inj hset).symm⟩
    · cases hset
  · exact .inl hset

theorem settle_keeps {i j : ℕ} {tx tx' : Tx} {status : TxStatus} (htx : s.txs[i]? = some tx)
    (htx' : s.txs[j]? = some tx') :
  ∃ tx'' : Tx, (s.settle i tx status).txs[j]? = some tx'' ∧ tx''.credentialId = tx'.credentialId
  := by
  by_cases hj : i = j
  · subst hj
    rw [htx] at htx'
    obtain rfl := Option.some.inj htx'
    have hlt : i < s.txs.length := (List.getElem?_eq_some_iff.mp htx).1
    exact ⟨{ tx with status }, List.getElem?_set_self hlt, rfl⟩
  · exact ⟨tx', (List.getElem?_set_ne hj).trans htx', rfl⟩

theorem Step.grows (h : Step cfg s l s') :
  Grows s s'
  := by
  have hlog : ∀ {e' : Event}, ∀ e ∈ s.events, e ∈ s.events ++ [e'] :=
    fun e he => List.mem_append_left _ he
  cases h with
  | issue | register | commit | assert | login | issueTokens =>
    exact ⟨hlog, fun _ _ => id, fun _ tx htx => ⟨tx, htx, rfl⟩⟩
  | submit =>
    refine ⟨fun _ => id, fun _ _ => id, ?_⟩
    intro i tx htx
    have hlt : i < s.txs.length := (List.getElem?_eq_some_iff.mp htx).1
    exact ⟨tx, (List.getElem?_append_left hlt).trans htx, rfl⟩
  | land htx _ hdeploy =>
    obtain ⟨⟨_, hnone, _⟩, rfl, rfl⟩ := deployWallet_eq_ok.mp hdeploy
    refine ⟨fun _ => id, ?_, fun _ _ => settle_keeps htx⟩
    intro a wallet hwallet
    refine (Function.update_of_ne ?_ ..).trans hwallet
    rintro rfl
    rw [hnone] at hwallet
    cases hwallet
  | fail htx => exact ⟨fun _ => id, fun _ _ => id, fun _ _ => settle_keeps htx⟩
  | drop htx => exact ⟨fun _ => id, fun _ _ => id, fun _ _ => settle_keeps htx⟩
  | others hothers hperform =>
    refine ⟨fun _ => id, ?_, fun _ tx htx => ⟨tx, htx, rfl⟩⟩
    intro a wallet hwallet
    exact (congrFun (wallets_of_others hothers hperform) a).trans hwallet
  | _ => exact ⟨fun _ => id, fun _ _ => id, fun _ tx htx => ⟨tx, htx, rfl⟩⟩

theorem grounded_enter (hs : ∀ n, (s.calls n).Grounded cfg s) (hg : Grows s s')
    (hcalls : s'.calls = Function.update s.calls n phase) (hphase : phase.Grounded cfg s') (m : ℕ) :
  (s'.calls m).Grounded cfg s'
  := by
  rw [hcalls, Function.update_apply]
  split
  · exact hphase
  · exact (hs m).mono hg

theorem Step.grounded (hs : Chain cfg s) (h : Step cfg s l s') (m : ℕ) :
  (s'.calls m).Grounded cfg s'
  := by
  have hg := h.grows
  cases h with
  | issue | delete | tick | alter | land | fail | drop | others => exact (hs.calls m).mono hg
  | @register n challenge credentialId row publicKey _ _ hcommitted =>
    refine grounded_enter hs.calls hg rfl ⟨?_, nofun, nofun⟩ m
    intro r hr
    obtain rfl := Option.some.inj hr
    refine ⟨List.mem_append_right _ (List.mem_singleton_self _), ?_⟩
    exact hg.events _ (hs.issued challenge row (.inl hcommitted))
  | @unbound n r hphase | @deploy n r hphase | @absent n r hphase | @reject n attempt r _ hphase
  | @timeout n attempt i r _ hphase | @retry n attempt r hphase =>
    have hn := (hs.calls n).mono hg
    rw [hphase] at hn
    exact grounded_enter hs.calls hg rfl (hn.follow (fun _ => id) rfl nofun) m
  | @consume n r a _ hphase | @saveUser n userId r a hphase
  | @saveWallet n userId walletId r a hphase | @saveCredential n userId walletId k r a hphase =>
    have hn := (hs.calls n).mono hg
    rw [hphase] at hn
    exact grounded_enter hs.calls hg rfl (hn.follow (fun _ => id) rfl fun _ => id) m
  | @found n r hphase hsome | @heal n attempt r _ hphase hsome =>
    have hn := (hs.calls n).mono hg
    rw [hphase] at hn
    exact grounded_enter hs.calls hg rfl (hn.deploy rfl rfl hsome) m
  | @confirm n attempt i r tx a hphase htx hstatus =>
    have hn := (hs.calls n).mono hg
    rw [hphase] at hn
    obtain ⟨tx', htx', hcredential⟩ := hn.sent r i rfl rfl
    obtain rfl := Option.some.inj (htx'.symm.trans htx)
    obtain ⟨heq, hsome⟩ := (hs.txs i tx' htx).2 a hstatus
    rw [hcredential] at heq
    exact grounded_enter hs.calls hg rfl (hn.deploy rfl heq hsome) m
  | @submit n attempt r signers hphase =>
    have hn := (hs.calls n).mono hg
    rw [hphase] at hn
    refine grounded_enter hs.calls hg rfl ⟨hn.registered, ?_, nofun⟩ m
    intro r' i hr hi
    obtain rfl := Option.some.inj hr
    obtain rfl := Option.some.inj hi
    exact ⟨_, List.getElem?_concat_length, rfl⟩
  | @duplicate n attempt i r tx hphase htx hcredential =>
    have hn := (hs.calls n).mono hg
    rw [hphase] at hn
    refine grounded_enter hs.calls hg rfl ⟨hn.registered, ?_, nofun⟩ m
    intro r' j hr hj
    obtain rfl := Option.some.inj hr
    obtain rfl := Option.some.inj hj
    exact ⟨tx, htx, hcredential⟩
  | replay | commit | answer | assert | login | issueTokens | stop =>
    exact grounded_enter hs.calls hg rfl (grounded_of_none rfl) m

theorem Tx.Grounded.mono {tx : Tx} (h : tx.Grounded cfg s) (hg : Grows s s') :
  tx.Grounded cfg s'
  := by
  refine ⟨h.1.mono hg.events, ?_⟩
  intro a hstatus
  obtain ⟨heq, hsome⟩ := h.2 a hstatus
  exact ⟨heq, hg.wallets_ne_none hsome⟩

/-- A transaction that has not been applied. -/
theorem Tx.Grounded.settle {tx : Tx} {status : TxStatus} (h : tx.Grounded cfg s)
    (hstatus : ∀ a, status ≠ .success a) :
  Tx.Grounded cfg s { tx with status }
  := ⟨h.1, fun a ha => absurd ha (hstatus a)⟩

theorem Step.txs_grounded (hs : Chain cfg s) (h : Step cfg s l s') {j : ℕ} {tx' : Tx}
    (htx' : s'.txs[j]? = some tx') :
  tx'.Grounded cfg s'
  := by
  have hg := h.grows
  cases h with
  | @submit n attempt r signers hphase hsigners =>
    have happend : (s.txs ++ [⟨r.credentialId, signers, .pending⟩])[j]? = some tx' := htx'
    rw [List.getElem?_append] at happend
    split at happend
    · exact (hs.txs j tx' happend).mono hg
    · have hn := hs.calls n
      rw [hphase] at hn
      obtain rfl := List.mem_singleton.mp (List.mem_of_getElem? happend)
      exact ⟨⟨r.challenge, r.publicKey, (hn.registered r rfl).1, hsigners⟩, nofun⟩
  | @land i tx accepts factory a htx _ hdeploy =>
    rcases settle_txs htx' with hbefore | ⟨rfl, rfl⟩
    · exact (hs.txs j tx' hbefore).mono hg
    · obtain ⟨_, rfl, rfl⟩ := deployWallet_eq_ok.mp hdeploy
      refine ⟨((hs.txs _ tx htx).mono hg).1, ?_⟩
      intro a ha
      obtain rfl := TxStatus.success.inj ha
      refine ⟨rfl, ?_⟩
      exact ne_of_eq_of_ne (Function.update_self ..) nofun
  | @fail i tx accepts failure htx =>
    rcases settle_txs htx' with hbefore | ⟨rfl, rfl⟩
    · exact (hs.txs j tx' hbefore).mono hg
    · exact ((hs.txs _ tx htx).mono hg).settle nofun
  | @drop i tx htx =>
    rcases settle_txs htx' with hbefore | ⟨rfl, rfl⟩
    · exact (hs.txs j tx' hbefore).mono hg
    · exact ((hs.txs _ tx htx).mono hg).settle nofun
  | _ => exact (hs.txs j tx' htx').mono hg

theorem Step.wallets_registered (hs : Chain cfg s) (h : Step cfg s l s') {a : Address}
    {wallet : Wallet Unit} (hwallet : s'.factory.wallets a = some wallet) :
  ∃ credentialId, a = cfg.walletOf credentialId
    ∧ Registered cfg s'.events credentialId wallet.signers
  := by
  have hbefore : s.factory.wallets a = some wallet →
      ∃ credentialId, a = cfg.walletOf credentialId
        ∧ Registered cfg s'.events credentialId wallet.signers := by
    intro hsome
    obtain ⟨credentialId, heq, hregistered⟩ := hs.wallets a wallet hsome
    exact ⟨credentialId, heq, hregistered.mono h.grows.events⟩
  cases h with
  | @land i tx accepts factory a' htx _ hdeploy =>
    obtain ⟨_, rfl, rfl⟩ := deployWallet_eq_ok.mp hdeploy
    have hupdate : Function.update s.factory.wallets (cfg.walletOf tx.credentialId)
        (some ⟨s.factory.wasmHash, tx.signers, []⟩) a = some wallet := hwallet
    rw [Function.update_apply] at hupdate
    split at hupdate
    · rename_i ha
      obtain rfl := Option.some.inj hupdate
      exact ⟨tx.credentialId, ha, (hs.txs i tx htx).1⟩
    · exact hbefore hupdate
  | others hothers hperform =>
    exact hbefore ((congrFun (wallets_of_others hothers hperform) a).symm.trans hwallet)
  | _ => exact hbefore hwallet

/-- The email of a challenge stays. -/
theorem Step.issued (hs : Chain cfg s) (h : Step cfg s l s') {challenge : JsString}
    {row : PasskeyChallenge} (hversion : s'.challenges.Version challenge row) :
  .issued challenge row.email ∈ s'.events
  := by
  have hbefore : s.challenges.Version challenge row → .issued challenge row.email ∈ s'.events :=
    fun hv => h.grows.events _ (hs.issued challenge row hv)
  have hput : ∀ {challenge' : JsString} {row' : Option PasskeyChallenge},
      (s.challenges.put challenge' row').Version challenge row →
      s.challenges.Version challenge row ∨ challenge = challenge' ∧ row' = some row := by
    rintro challenge' row' (hcommitted | hheld)
    · rcases of_put_committed hcommitted with hnew | ⟨_, hcommitted⟩
      · exact .inr hnew
      · exact .inl (.inl hcommitted)
    · exact .inl (.inr hheld)
  cases h with
  | issue =>
    rcases hput hversion with hv | ⟨rfl, hrow⟩
    · exact hbefore hv
    · obtain rfl := Option.some.inj hrow
      exact List.mem_append_right _ (List.mem_singleton_self _)
  | delete =>
    rcases hput hversion with hv | ⟨_, hrow⟩
    · exact hbefore hv
    · cases hrow
  | @login n userId challenge' credentialId row' _ hcommitted =>
    rcases hput hversion with hv | ⟨rfl, hrow⟩
    · exact hbefore hv
    · obtain rfl := Option.some.inj hrow
      exact List.mem_append_left _ (hs.issued challenge row' (.inl hcommitted))
  | @consume n r a row' _ hview =>
    rcases version_of_write hversion with ⟨rfl, rfl⟩ | hv
    · exact hs.issued _ row' (version_of_view hview)
    · exact hbefore hv
  | commit => exact hbefore (version_of_commit hversion)
  | stop => exact hbefore (version_of_abort hversion)
  | _ => exact hbefore hversion

theorem Step.chain (hs : Chain cfg s) (h : Step cfg s l s') :
  Chain cfg s'
  where
  calls := h.grounded hs
  txs _ _ := h.txs_grounded hs
  wallets _ _ := h.wallets_registered hs
  issued _ _ := h.issued hs

end Chain

/-! ### The account of a credential -/

/-- A credential that is committed has its wallet, and a wallet has its credential. -/
structure Bound (cfg : Config) (s : State) : Prop where
  wallet : ∀ k credential, s.credentials.committed k = some credential →
    ∃ row, s.wallets.committed credential.walletId = some row
      ∧ row.contractAddress = cfg.walletOf credential.credentialId
      ∧ s.factory.wallets row.contractAddress ≠ none
  registered : ∀ k credential, s.credentials.committed k = some credential →
    ∃ challenge, .registered challenge credential.credentialId credential.publicKey ∈ s.events
  credential : ∀ walletId row, s.wallets.committed walletId = some row →
    ∃ k credential, s.credentials.committed k = some credential ∧ credential.walletId = walletId
  single : ∀ k k' credential credential', s.credentials.committed k = some credential →
    s.credentials.committed k' = some credential' → credential.walletId = credential'.walletId →
    k = k'

section Bound

variable {cfg : Config} {s s' : State} {l : Label} {n : ℕ}

/-- Nothing is committed in the step. -/
theorem Bound.mono (hs : Bound cfg s) (hg : Grows s s')
    (hwallets : s'.wallets.committed = s.wallets.committed)
    (hcredentials : s'.credentials.committed = s.credentials.committed) :
  Bound cfg s'
  := by
  refine ⟨?_, ?_, ?_, by rw [hcredentials]; exact hs.single⟩
  · intro k credential hcommitted
    rw [hcredentials] at hcommitted
    obtain ⟨row, hrow, haddress, hsome⟩ := hs.wallet k credential hcommitted
    rw [hwallets]
    exact ⟨row, hrow, haddress, hg.wallets_ne_none hsome⟩
  · intro k credential hcommitted
    rw [hcredentials] at hcommitted
    obtain ⟨challenge, hregistered⟩ := hs.registered k credential hcommitted
    exact ⟨challenge, hg.events _ hregistered⟩
  · intro walletId row hrow
    rw [hwallets] at hrow
    rw [hcredentials]
    exact hs.credential walletId row hrow

/-- The wallet and the credential that a registration commits. -/
theorem account_of_commit {r : Registration} {a : Address} {userId walletId k : ℕ}
    (hknown : Known s n) (hphase : s.calls n = .committing r a userId walletId k) :
  (s.wallets.commit n).committed walletId = some ⟨userId, a⟩
    ∧ (s.credentials.commit n).committed k = some ⟨walletId, r.credentialId, r.publicKey⟩
  := by
  obtain ⟨hwallet, hcredential⟩ := hknown
  rw [hphase] at hwallet hcredential
  exact ⟨view_of_writes ((hwallet walletId _).mpr rfl),
    view_of_writes ((hcredential k _).mpr rfl)⟩

/-- A registration is committed: its wallet and its credential are new. -/
theorem Bound.commit {r : Registration} {a : Address} {userId walletId k : ℕ} (hs : Bound cfg s)
    (hordered : Ordered s) (hchain : Chain cfg s) (hstep : Step cfg s l s')
    (hphase : s.calls n = .committing r a userId walletId k)
    (hwallets : s'.wallets = s.wallets.commit n)
    (hcredentials : s'.credentials = s.credentials.commit n) :
  Bound cfg s'
  := by
  have hg := hstep.grows
  have hknown := hordered.known n
  have hgrounded := hchain.calls n
  obtain ⟨hrow, hbound⟩ := account_of_commit hknown hphase
  rw [← hwallets] at hrow
  rw [← hcredentials] at hbound
  obtain ⟨hwallet, hcredential⟩ := hknown
  rw [hphase] at hwallet hcredential hgrounded
  have hcases : ∀ k' credential, s'.credentials.committed k' = some credential →
      s.credentials.committed k' = some credential
        ∨ k' = k ∧ credential = ⟨walletId, r.credentialId, r.publicKey⟩ := by
    intro k' credential hcommitted
    rw [hcredentials] at hcommitted
    rcases of_view hcommitted with hwrites | ⟨_, hbefore⟩
    · have heq := Option.some.inj ((hcredential k' credential).mp hwrites)
      exact .inr ⟨(Prod.mk.inj heq).1.symm, (Prod.mk.inj heq).2.symm⟩
    · exact .inl hbefore
  have hnew : ∀ k' credential, s.credentials.committed k' = some credential →
      credential.walletId ≠ walletId := by
    rintro k' credential hbefore rfl
    obtain ⟨row, hsome, _⟩ := hs.wallet k' credential hbefore
    have hfresh := (hordered.wallets a).fresh n _ _ ((hwallet _ _).mpr rfl)
    rw [hfresh] at hsome
    cases hsome
  refine ⟨?_, ?_, ?_, ?_⟩
  · intro k' credential hcommitted
    rcases hcases k' credential hcommitted with hbefore | ⟨_, rfl⟩
    · obtain ⟨row, hrow, haddress, hsome⟩ := hs.wallet k' credential hbefore
      exact ⟨row, hstep.keeps_wallet hordered hrow, haddress, hg.wallets_ne_none hsome⟩
    · obtain ⟨heq, hsome⟩ := hgrounded.deployed r a rfl rfl
      exact ⟨_, hrow, heq, hg.wallets_ne_none hsome⟩
  · intro k' credential hcommitted
    rcases hcases k' credential hcommitted with hbefore | ⟨_, rfl⟩
    · obtain ⟨challenge, hregistered⟩ := hs.registered k' credential hbefore
      exact ⟨challenge, hg.events _ hregistered⟩
    · exact ⟨r.challenge, hg.events _ (hgrounded.registered r rfl).1⟩
  · intro walletId' row' hcommitted
    rw [hwallets] at hcommitted
    rcases of_view hcommitted with hwrites | ⟨_, hbefore⟩
    · have heq := Option.some.inj ((hwallet walletId' row').mp hwrites)
      exact ⟨k, _, hbound, (Prod.mk.inj heq).1⟩
    · obtain ⟨k', credential, hcredential', heq⟩ := hs.credential walletId' row' hbefore
      exact ⟨k', credential, hstep.keeps_credential hordered hcredential', heq⟩
  · intro k₁ k₂ credential₁ credential₂ hcommitted₁ hcommitted₂ heq
    rcases hcases k₁ credential₁ hcommitted₁ with hbefore₁ | ⟨rfl, rfl⟩ <;>
      rcases hcases k₂ credential₂ hcommitted₂ with hbefore₂ | ⟨rfl, rfl⟩
    · exact hs.single k₁ k₂ credential₁ credential₂ hbefore₁ hbefore₂ heq
    · exact absurd heq (hnew k₁ credential₁ hbefore₁)
    · exact absurd heq.symm (hnew k₂ credential₂ hbefore₂)
    · rfl

theorem Step.bound (hs : Bound cfg s) (hordered : Ordered s) (hchain : Chain cfg s)
    (h : Step cfg s l s') :
  Bound cfg s'
  := by
  have hstep := h
  cases h with
  | commit hphase => exact hs.commit hordered hchain hstep hphase rfl rfl
  | _ => exact hs.mono hstep.grows rfl rfl

end Bound

/-! ### Runs -/

/-- What holds in every state that is reached. -/
structure Inv (cfg : Config) (s : State) : Prop where
  ordered : Ordered s
  chain : Chain cfg s
  bound : Bound cfg s

section Runs

variable {cfg : Config} {s s' : State} {l : Label}

theorem inserted_of_clean {κ ρ : Type} {p : ρ → Prop} {db : Store κ ρ}
    (hclean : ∀ n, db.writes n = fun _ => none) (hnone : ∀ k, db.committed k = none) :
  Inserted p db
  := by
  refine ⟨consistent_of_clean hclean ?_, fun _ k _ _ => hnone k⟩
  intro k k' row row' hcommitted
  rw [hnone] at hcommitted
  cases hcommitted

theorem inv_of_init (h : (system cfg).init s) :
  Inv cfg s
  := by
  obtain ⟨hcalls, hchallenges, hwallets, hcredentials, hcleanChallenges, _, hcleanWallets,
    hcleanCredentials, hfactory, htxs, _⟩ := h
  refine ⟨⟨?_, ?_, ?_⟩, ⟨?_, ?_, ?_, ?_⟩, ⟨?_, ?_, ?_, ?_⟩⟩
  · intro n
    exact known_of (hcalls n) (wrote_of_clean (hcleanWallets n))
      (wrote_of_clean (hcleanCredentials n))
  · exact fun a => inserted_of_clean hcleanWallets hwallets
  · exact fun credentialId => inserted_of_clean hcleanCredentials hcredentials
  · intro n
    rw [hcalls]
    exact grounded_of_none rfl
  · intro i tx htx
    rw [htxs] at htx
    cases htx
  · intro a wallet hwallet
    rw [hfactory] at hwallet
    cases hwallet
  · rintro challenge row (hcommitted | ⟨n, hwrites⟩)
    · rw [hchallenges] at hcommitted
      cases hcommitted
    · rw [hcleanChallenges] at hwrites
      cases hwrites
  · intro k credential hcommitted
    rw [hcredentials] at hcommitted
    cases hcommitted
  · intro k credential hcommitted
    rw [hcredentials] at hcommitted
    cases hcommitted
  · intro walletId row hcommitted
    rw [hwallets] at hcommitted
    cases hcommitted
  · intro k k' credential credential' hcommitted
    rw [hcredentials] at hcommitted
    cases hcommitted

theorem Step.inv (hs : Inv cfg s) (h : Step cfg s l s') :
  Inv cfg s'
  := ⟨h.ordered hs.ordered, h.chain hs.chain, h.bound hs.bound hs.ordered hs.chain⟩

theorem inv_of_reachable (hs : (system cfg).Reachable s) :
  Inv cfg s
  := hs.invariant (fun _ => inv_of_init) fun _ _ _ hs hstep => Step.inv hs hstep

end Runs

end Passkeys
