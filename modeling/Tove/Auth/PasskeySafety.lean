import Tove.Auth.PasskeyLedger

/-!
# What an account with a passkey rests on

A credential that is bound has a wallet of its own, and the wallet on the chain has the signers of
the credential, unless another registration was for the same wallet. Tokens rest on a registration
or on a log-in with the credential. A challenge is consumed once, by a registration or by a log-in.
-/

namespace Passkeys

open Js ReadCommitted ReadCommitted.Store Transition Calls Soroban WalletFactory

/-! ### A sign-up -/

/-- A configuration, with the hash of the bytes 1, 2 and 3. -/
def sampleConfig : Config where
  factoryAdmin := .account 1
  webauthnVerifierAddress := .contract 2
  deriveWalletAddress := .contract
  sha256 _ := 0x039058c6f2c0cb492c533b0a4d14ef77cc0f78abccced5287d84a1a2011cfb81
  decodeCoseToRawP256 publicKey :=
    some (4 :: ((publicKey.drop 10).take 32 ++ (publicKey.drop 45).take 32))

def sampleState : State where
  challenges := ⟨fun _ => none, fun _ _ => none⟩
  users := ⟨fun _ => none, fun _ _ => none⟩
  wallets := ⟨fun _ => none, fun _ _ => none⟩
  credentials := ⟨fun _ => none, fun _ _ => none⟩
  now := 0
  factory := construct (.account 1) 7
  txs := []
  calls _ := .idle
  events := []

/-- The identifier `AQID` of a credential, and its COSE key. -/
def sampleId : JsString := [65, 81, 73, 68]

def sampleKey : List UInt8 :=
  [0xa5, 1, 2, 3, 0x26, 0x20, 1, 0x21, 0x58, 0x20] ++ List.replicate 32 5
    ++ [0x22, 0x58, 0x20] ++ List.replicate 32 6

theorem reachable_signUp :
  ∃ s, (system sampleConfig).Reachable s
    ∧ s.credentials.committed 0 = some ⟨0, sampleId, sampleKey⟩
    ∧ .consumed [1] ∈ s.events ∧ .tokens [1] sampleId 0 ∈ s.events
  := by
  let email : JsString := [97]
  let r : Registration := ⟨[1], ⟨email, 300, false⟩, sampleId, sampleKey⟩
  have hinit : (system sampleConfig).Reachable sampleState :=
    .init ⟨fun _ => rfl, fun _ => rfl, fun _ => rfl, fun _ => rfl, fun _ => rfl, fun _ => rfl,
      fun _ => rfl, fun _ => rfl, fun _ => rfl, rfl, rfl⟩
  have hissue := hinit.step (@Step.issue sampleConfig _ [1] ⟨email, 300, false⟩ nofun rfl)
  have hregister := hissue.step
    (@Step.register sampleConfig _ 0 [1] sampleId _ sampleKey _ rfl rfl rfl)
  have hunbound := hregister.step (@Step.unbound sampleConfig _ 0 r rfl nofun)
  have hdeploy := hunbound.step
    (@Step.deploy sampleConfig _ 0 r rfl rfl (by decide) nofun)
  have habsent := hdeploy.step (@Step.absent sampleConfig _ 0 r rfl)
  have hsubmit := habsent.step (@Step.submit sampleConfig _ 0 0 r _ rfl rfl)
  have hland := hsubmit.step (@Step.land sampleConfig _ 0 _ true _ _ rfl rfl rfl)
  have hconfirm := hland.step (@Step.confirm sampleConfig _ 0 0 0 r _ _ rfl rfl rfl)
  have hconsume := hconfirm.step
    (@Step.consume sampleConfig _ 0 r _ ⟨email, 300, false⟩ rfl rfl rfl fun _ _ => rfl)
  have hsaveUser := hconsume.step
    (@Step.saveUser sampleConfig _ 0 0 r _ rfl (fun _ => nofun) ⟨nofun, nofun⟩)
  have hsaveWallet := hsaveUser.step
    (@Step.saveWallet sampleConfig _ 0 0 0 r _ rfl (fun _ => nofun) ⟨nofun, nofun⟩)
  have hsaveCredential := hsaveWallet.step
    (@Step.saveCredential sampleConfig _ 0 0 0 0 r _ rfl (fun _ => nofun) ⟨nofun, nofun⟩)
  have hcommit := hsaveCredential.step (@Step.commit sampleConfig _ 0 0 0 0 r _ rfl)
  have hissueTokens := hcommit.step (@Step.issueTokens sampleConfig _ 0 0 [1] sampleId rfl)
  have hlast : ∀ (e : Event) (events : List Event), e ∈ events ++ [e] :=
    fun e _ => List.mem_append_right _ (List.mem_singleton_self e)
  exact ⟨_, hissueTokens, rfl, List.mem_append_left _ (hlast _ _), hlast _ _⟩

/-! ### Accounts -/

/-- Every registration for the wallet of the credential was with the credential and its key. -/
def Sole (cfg : Config) (s : State) (credential : PasskeyCredential) : Prop :=
  ∀ challenge credentialId publicKey, .registered challenge credentialId publicKey ∈ s.events →
    cfg.walletOf credentialId = cfg.walletOf credential.credentialId →
    credentialId = credential.credentialId ∧ publicKey = credential.publicKey

/-- The wallet of a credential, in the table and on the chain. -/
structure Backed (cfg : Config) (s : State) (credential : PasskeyCredential)
    (row : EmbeddedWallet) (wallet : Wallet Unit) : Prop where
  saved : s.wallets.committed credential.walletId = some row
  address : row.contractAddress = cfg.walletOf credential.credentialId
  deployed : s.factory.wallets row.contractAddress = some wallet
  signers : ∃ credentialId, cfg.walletOf credentialId = row.contractAddress
    ∧ Registered cfg s.events credentialId wallet.signers
  sole : Sole cfg s credential →
    cfg.signers credential.credentialId credential.publicKey = some wallet.signers

section Accounts

variable {cfg : Config} {s s' : State} {l : Label}

/-- A credential that is bound has its wallet, in the table and on the chain, where the signers of
the wallet are those of a credential that was registered for it: of this one, when no other was.
No two credentials have one id or one wallet, and no wallet in the table is without a credential. -/
theorem wallets_agree (hs : (system cfg).Reachable s) :
  (∀ k credential, s.credentials.committed k = some credential →
      (∃ row wallet, Backed cfg s credential row wallet)
        ∧ ∀ k' credential', s.credentials.committed k' = some credential' →
          credential'.credentialId = credential.credentialId
            ∨ credential'.walletId = credential.walletId → k' = k)
    ∧ ∀ walletId row, s.wallets.committed walletId = some row →
      ∃ k credential, s.credentials.committed k = some credential ∧ credential.walletId = walletId
  := by
  obtain ⟨hordered, hchain, hbound⟩ := inv_of_reachable hs
  refine ⟨?_, hbound.credential⟩
  intro k credential hcommitted
  refine ⟨?_, ?_⟩
  · obtain ⟨row, hrow, haddress, hsome⟩ := hbound.wallet k credential hcommitted
    obtain ⟨wallet, hwallet⟩ := Option.ne_none_iff_exists'.mp hsome
    obtain ⟨credentialId, heq, hregistered⟩ := hchain.wallets _ wallet hwallet
    refine ⟨row, wallet, hrow, haddress, hwallet, ⟨credentialId, heq.symm, hregistered⟩, ?_⟩
    intro hsole
    obtain ⟨challenge, publicKey, hevent, hsigners⟩ := hregistered
    obtain ⟨rfl, rfl⟩ := hsole challenge credentialId publicKey hevent (heq.symm.trans haddress)
    exact hsigners
  · rintro k' credential' hcommitted' (hid | hwalletId)
    · exact (hordered.credentials credential.credentialId).unique k' k credential' credential
        hcommitted' hcommitted hid rfl
    · exact hbound.single k' k credential' credential hcommitted' hcommitted hwalletId

theorem wallets_agree_signUp :
  ∃ s, s.credentials.committed 0 = some ⟨0, sampleId, sampleKey⟩
    ∧ ∃ row wallet, Backed sampleConfig s ⟨0, sampleId, sampleKey⟩ row wallet
  := by
  obtain ⟨s, hs, hcommitted, _⟩ := reachable_signUp
  exact ⟨s, hcommitted, ((wallets_agree hs).1 0 _ hcommitted).1⟩

end Accounts

/-! ### Tokens -/

/-- A user may have tokens for a challenge: a credential that is bound to the user has answered the
challenge, in a log-in with its key, or in a registration. -/
def Entitled (s : State) (challenge credentialId : JsString) (userId : ℕ) : Prop :=
  ∃ k credential row email publicKey, s.credentials.committed k = some credential
    ∧ credential.credentialId = credentialId
    ∧ s.wallets.committed credential.walletId = some row ∧ row.userId = userId
    ∧ .issued challenge email ∈ s.events
    ∧ (.asserted challenge credentialId publicKey ∈ s.events ∧ publicKey = credential.publicKey
      ∨ .registered challenge credentialId publicKey ∈ s.events)

/-- What a call that has answered a challenge rests on. -/
def Phase.Entitled (s : State) : Phase → Prop
  | .answering challenge email => .issued challenge email ∈ s.events
  | .asserted challenge credentialId userId | .issuing challenge credentialId userId =>
    Passkeys.Entitled s challenge credentialId userId
  | _ => True

/-- The calls that issue tokens may, and those that have issued tokens might. -/
structure Tokens (s : State) : Prop where
  calls : ∀ n, (s.calls n).Entitled s
  issued : ∀ challenge credentialId userId, .tokens challenge credentialId userId ∈ s.events →
    Entitled s challenge credentialId userId

section Tokens

variable {cfg : Config} {s s' : State} {l : Label} {phase : Phase} {n : ℕ}

/-- What a user may have, the user may have later. -/
theorem Entitled.step {challenge credentialId : JsString} {userId : ℕ} (hs : Ordered s)
    (h : Step cfg s l s') (hentitled : Entitled s challenge credentialId userId) :
  Entitled s' challenge credentialId userId
  := by
  obtain ⟨k, credential, row, email, publicKey, hcommitted, hid, hrow, huser, hissued, hkey⟩ :=
    hentitled
  have hevents := h.grows.events
  refine ⟨k, credential, row, email, publicKey, h.keeps_credential hs hcommitted, hid,
    h.keeps_wallet hs hrow, huser, hevents _ hissued, ?_⟩
  rcases hkey with ⟨hasserted, heq⟩ | hregistered
  · exact .inl ⟨hevents _ hasserted, heq⟩
  · exact .inr (hevents _ hregistered)

theorem Phase.Entitled.step (hs : Ordered s) (h : Step cfg s l s') (hphase : phase.Entitled s) :
  phase.Entitled s'
  := by
  cases phase with
  | answering => exact h.grows.events _ hphase
  | asserted => exact Passkeys.Entitled.step hs h hphase
  | issuing => exact Passkeys.Entitled.step hs h hphase
  | _ => trivial

theorem entitled_enter (hs : Ordered s) (htokens : Tokens s) (h : Step cfg s l s')
    (hcalls : s'.calls = Function.update s.calls n phase) (hphase : phase.Entitled s') (m : ℕ) :
  (s'.calls m).Entitled s'
  := by
  rw [hcalls, Function.update_apply]
  split
  · exact hphase
  · exact (htokens.calls m).step hs h

theorem Step.entitled (hs : Inv cfg s) (htokens : Tokens s) (h : Step cfg s l s') (m : ℕ) :
  (s'.calls m).Entitled s'
  := by
  have hstep := h
  cases h with
  | issue | delete | tick | alter | land | fail | drop | others =>
    exact (htokens.calls m).step hs.ordered hstep
  | @replay n k r credential wallet user hphase hcommitted hid hwallet =>
    have hgrounded := hs.chain.calls n
    rw [hphase] at hgrounded
    obtain ⟨hregistered, hissued⟩ := hgrounded.registered r rfl
    refine entitled_enter hs.ordered htokens hstep rfl ?_ m
    exact ⟨k, credential, wallet, r.row.email, r.publicKey, hcommitted, hid, hwallet, rfl, hissued,
      .inr hregistered⟩
  | @commit n userId walletId k r a hphase =>
    have hgrounded := hs.chain.calls n
    rw [hphase] at hgrounded
    obtain ⟨hregistered, hissued⟩ := hgrounded.registered r rfl
    obtain ⟨hrow, hbound⟩ := account_of_commit (hs.ordered.known n) hphase
    refine entitled_enter hs.ordered htokens hstep rfl ?_ m
    exact ⟨k, _, _, r.row.email, r.publicKey, hbound, rfl, hrow, rfl,
      hstep.grows.events _ hissued, .inr (hstep.grows.events _ hregistered)⟩
  | @answer n challenge row _ hcommitted =>
    refine entitled_enter hs.ordered htokens hstep rfl ?_ m
    exact hs.chain.issued challenge row (.inl hcommitted)
  | @assert n k challenge email credential wallet user hphase hcommitted hwallet =>
    have hissued := htokens.calls n
    rw [hphase] at hissued
    refine entitled_enter hs.ordered htokens hstep rfl ?_ m
    exact ⟨k, credential, wallet, email, credential.publicKey, hcommitted, rfl, hwallet, rfl,
      hstep.grows.events _ hissued,
      .inl ⟨List.mem_append_right _ (List.mem_singleton_self _), rfl⟩⟩
  | @login n userId challenge credentialId row hphase =>
    have hentitled := htokens.calls n
    rw [hphase] at hentitled
    exact entitled_enter hs.ordered htokens hstep rfl (hentitled.step hs.ordered hstep) m
  | _ => exact entitled_enter hs.ordered htokens hstep rfl trivial m

theorem Step.tokens (hs : Inv cfg s) (htokens : Tokens s) (h : Step cfg s l s') :
  Tokens s'
  := by
  have hstep := h
  refine ⟨h.entitled hs htokens, ?_⟩
  intro challenge credentialId userId hevent
  have hbefore : .tokens challenge credentialId userId ∈ s.events →
      Entitled s' challenge credentialId userId :=
    fun hmem => (htokens.issued _ _ _ hmem).step hs.ordered hstep
  cases h with
  | issue | register | commit | assert | login =>
    rcases List.mem_append.mp hevent with hmem | hmem
    · exact hbefore hmem
    · cases List.mem_singleton.mp hmem
  | @issueTokens n userId challenge credentialId hphase =>
    rcases List.mem_append.mp hevent with hmem | hmem
    · exact hbefore hmem
    · obtain ⟨rfl, rfl, rfl⟩ := Event.tokens.inj (List.mem_singleton.mp hmem)
      have hentitled := htokens.calls n
      rw [hphase] at hentitled
      exact Passkeys.Entitled.step hs.ordered hstep hentitled
  | _ => exact hbefore hevent

theorem tokens_of_init (h : (system cfg).init s) :
  Tokens s
  := by
  obtain ⟨hcalls, _, _, _, _, _, _, _, _, _, hevents⟩ := h
  refine ⟨?_, ?_⟩
  · intro n
    rw [hcalls]
    trivial
  · intro challenge credentialId userId hevent
    rw [hevents] at hevent
    cases hevent

/-- Tokens are issued to the user to whom a credential is bound, for a challenge that was issued for
an email, and that the credential has answered: in a log-in, with its key, or in a registration,
which was with its key as well when there was no other for its wallet. -/
theorem tokens_proven {challenge credentialId : JsString} {userId : ℕ}
    (hs : (system cfg).Reachable s) (h : .tokens challenge credentialId userId ∈ s.events) :
  ∃ k credential row email publicKey, s.credentials.committed k = some credential
    ∧ credential.credentialId = credentialId
    ∧ s.wallets.committed credential.walletId = some row ∧ row.userId = userId
    ∧ .issued challenge email ∈ s.events
    ∧ (.asserted challenge credentialId publicKey ∈ s.events ∧ publicKey = credential.publicKey
      ∨ .registered challenge credentialId publicKey ∈ s.events)
    ∧ (Sole cfg s credential → publicKey = credential.publicKey)
  := by
  have hinv : Inv cfg s ∧ Tokens s := by
    refine hs.invariant (I := fun s => Inv cfg s ∧ Tokens s) ?_ ?_
    · exact fun s₀ hinit => ⟨inv_of_init hinit, tokens_of_init hinit⟩
    · exact fun s₀ _ s₁ hs₀ hstep => ⟨Step.inv hs₀.1 hstep, Step.tokens hs₀.1 hs₀.2 hstep⟩
  obtain ⟨k, credential, row, email, publicKey, hcommitted, hid, hrow, huser, hissued, hkey⟩ :=
    hinv.2.issued challenge credentialId userId h
  refine ⟨k, credential, row, email, publicKey, hcommitted, hid, hrow, huser, hissued, hkey, ?_⟩
  intro hsole
  rcases hkey with ⟨_, heq⟩ | hregistered
  · exact heq
  · rw [← hid] at hregistered
    exact (hsole challenge _ publicKey hregistered rfl).2

theorem tokens_proven_signUp :
  ∃ s : State, .tokens [1] sampleId 0 ∈ s.events ∧ ∃ k credential row email publicKey,
    s.credentials.committed k = some credential
      ∧ credential.credentialId = sampleId
      ∧ s.wallets.committed credential.walletId = some row ∧ row.userId = 0
      ∧ .issued [1] email ∈ s.events
      ∧ (.asserted [1] sampleId publicKey ∈ s.events ∧ publicKey = credential.publicKey
        ∨ .registered [1] sampleId publicKey ∈ s.events)
      ∧ (Sole sampleConfig s credential → publicKey = credential.publicKey)
  := by
  obtain ⟨s, hs, _, _, htokens⟩ := reachable_signUp
  exact ⟨s, htokens, tokens_proven hs htokens⟩

end Tokens

/-! ### Challenges -/

/-- The challenge that the transaction of a call has consumed. -/
def Phase.spends : Phase → Option JsString
  | .savingUser r _ | .savingWallet r _ _ | .savingCredential r _ _ _ | .committing r _ _ _ _ =>
    some r.challenge
  | _ => none

/-- A transaction holds the challenge that it has consumed, and no other; no two hold one. -/
structure Held (s : State) : Prop where
  spends : ∀ n challenge, s.challenges.writes n challenge ≠ none
    ↔ (s.calls n).spends = some challenge
  consumed : ∀ n challenge row, s.challenges.writes n challenge = some row → row.consumed = true
  exclusive : Exclusive Phase.spends s.calls

section Challenges

variable {cfg : Config} {s s' : State} {l : Label} {phase : Phase} {m n : ℕ}

/-- A call enters a phase in which it holds what it held. -/
theorem Held.enter (hs : Held s) (hchallenges : s'.challenges.writes = s.challenges.writes)
    (hcalls : s'.calls = Function.update s.calls n phase)
    (hspends : phase.spends = (s.calls n).spends) :
  Held s'
  := by
  have hcalls : ∀ m, (s'.calls m).spends = (s.calls m).spends := by
    intro m
    rw [hcalls, Function.update_apply]
    split
    · rename_i hm
      rw [hm, hspends]
    · rfl
  refine ⟨?_, ?_, ?_⟩
  · intro m challenge
    rw [hchallenges, hcalls]
    exact hs.spends m challenge
  · rw [hchallenges]
    exact hs.consumed
  · refine hs.exclusive.mono ?_
    intro m challenge
    rw [hcalls]
    exact id

/-- A transaction is over. -/
theorem Held.leave (hs : Held s)
    (hself : s'.challenges.writes n = fun _ => none)
    (hothers : ∀ m, m ≠ n → s'.challenges.writes m = s.challenges.writes m)
    (hcalls : s'.calls = Function.update s.calls n phase) (hspends : phase.spends = none) :
  Held s'
  := by
  refine ⟨?_, ?_, ?_⟩
  · intro m challenge
    rw [hcalls]
    by_cases hm : m = n
    · rw [hm, hself, Function.update_self, hspends]
      exact iff_of_false (fun h => h rfl) nofun
    · rw [hothers m hm, Function.update_of_ne hm]
      exact hs.spends m challenge
  · intro m challenge row hwrites
    by_cases hm : m = n
    · rw [hm, hself] at hwrites
      cases hwrites
    · rw [hothers m hm] at hwrites
      exact hs.consumed m challenge row hwrites
  · rw [hcalls]
    exact hs.exclusive.update_none hspends

/-- A transaction consumes a challenge that no other holds. -/
theorem Held.consume {challenge : JsString} {row : PasskeyChallenge} (hs : Held s)
    (hnone : (s.calls n).spends = none) (hfree : s.challenges.Free n challenge)
    (hchallenges : s'.challenges = s.challenges.write n challenge row) (hrow : row.consumed = true)
    (hcalls : s'.calls = Function.update s.calls n phase) (hspends : phase.spends = some challenge) :
  Held s'
  := by
  have hclean : ∀ challenge', s.challenges.writes n challenge' = none := by
    intro challenge'
    by_contra hwrites
    have hsome := (hs.spends n challenge').mp hwrites
    rw [hnone] at hsome
    cases hsome
  refine ⟨?_, ?_, ?_⟩
  · intro m challenge'
    rw [hchallenges, hcalls]
    by_cases hm : m = n
    · subst hm
      rw [write_writes, Function.update_self, hspends, Option.some_inj, Function.update_apply]
      split
      · rename_i heq
        exact iff_of_true nofun heq.symm
      · rename_i hne
        exact iff_of_false (fun h => h (hclean challenge')) (Ne.symm hne)
    · rw [write_writes_of_ne hm, Function.update_of_ne hm]
      exact hs.spends m challenge'
  · intro m challenge' row' hwrites
    rw [hchallenges] at hwrites
    rcases of_write_writes hwrites with ⟨_, _, rfl⟩ | ⟨_, hbefore⟩
    · exact hrow
    · exact hs.consumed m challenge' row' hbefore
  · rw [hcalls]
    refine hs.exclusive.update ?_
    intro m challenge' heq hm
    obtain rfl := Option.some.inj (heq.symm.trans hspends)
    by_contra hne
    exact (hs.spends m challenge').mpr hm (hfree m hne)

theorem Step.held (hs : Held s) (h : Step cfg s l s') :
  Held s'
  := by
  cases h with
  | issue | delete | tick | alter | land | fail | drop | others =>
    exact ⟨hs.spends, hs.consumed, hs.exclusive⟩
  | consume hphase _ _ hfree =>
    exact hs.consume (by rw [hphase]; rfl) hfree rfl rfl rfl rfl
  | commit => exact hs.leave commit_writes (fun _ => commit_writes_of_ne) rfl rfl
  | stop => exact hs.leave abort_writes (fun _ => abort_writes_of_ne) rfl rfl
  | register hphase | replay hphase | unbound hphase | deploy hphase | found hphase
  | absent hphase | submit hphase | duplicate hphase | reject hphase | confirm hphase
  | timeout hphase | heal hphase | retry hphase | saveUser hphase | saveWallet hphase
  | saveCredential hphase | answer hphase | assert hphase | login hphase | issueTokens hphase =>
    exact hs.enter rfl rfl (by rw [hphase]; rfl)

/-- A challenge that can be consumed has not been; one that has been was issued, and was consumed
once. -/
structure Once (s : State) : Prop where
  spends : ∀ n challenge, (s.calls n).spends = some challenge → .consumed challenge ∉ s.events
  fresh : ∀ challenge row, s.challenges.committed challenge = some row → row.consumed = false →
    .consumed challenge ∉ s.events
  issued : ∀ challenge, .consumed challenge ∈ s.events → ∃ email, .issued challenge email ∈ s.events
  once : ∀ challenge, s.events.count (.consumed challenge) ≤ 1

/-- No challenge is consumed in the step. -/
theorem Once.quiet (hs : Once s) (hg : Grows s s')
    (hcount : ∀ challenge,
      s'.events.count (.consumed challenge) = s.events.count (.consumed challenge))
    (hspends : ∀ m challenge, (s'.calls m).spends = some challenge →
      .consumed challenge ∉ s.events)
    (hfresh : ∀ challenge row, s'.challenges.committed challenge = some row →
      row.consumed = false → .consumed challenge ∉ s.events) :
  Once s'
  := by
  have hmem : ∀ challenge, .consumed challenge ∈ s'.events ↔ .consumed challenge ∈ s.events := by
    intro challenge
    rw [← List.count_pos_iff, hcount, List.count_pos_iff]
  refine ⟨?_, ?_, ?_, ?_⟩
  · intro m challenge h
    rw [hmem]
    exact hspends m challenge h
  · intro challenge row hcommitted hrow
    rw [hmem]
    exact hfresh challenge row hcommitted hrow
  · intro challenge h
    rw [hmem] at h
    obtain ⟨email, hissued⟩ := hs.issued challenge h
    exact ⟨email, hg.events _ hissued⟩
  · intro challenge
    rw [hcount]
    exact hs.once challenge

/-- A challenge is consumed in the step, after which nobody can consume it. -/
theorem Once.consume {challenge email : JsString} (hs : Once s)
    (hevents : s'.events = s.events ++ [.consumed challenge])
    (hnew : .consumed challenge ∉ s.events) (hissued : .issued challenge email ∈ s.events)
    (hspends : ∀ m challenge', (s'.calls m).spends = some challenge' →
      challenge' ≠ challenge ∧ .consumed challenge' ∉ s.events)
    (hfresh : ∀ challenge' row, s'.challenges.committed challenge' = some row →
      row.consumed = false → challenge' ≠ challenge ∧ .consumed challenge' ∉ s.events) :
  Once s'
  := by
  have hmem : ∀ challenge', .consumed challenge' ∈ s'.events ↔
      .consumed challenge' ∈ s.events ∨ challenge' = challenge := by
    intro challenge'
    rw [hevents, List.mem_append, List.mem_singleton, Event.consumed.injEq]
  refine ⟨?_, ?_, ?_, ?_⟩
  · intro m challenge' h
    obtain ⟨hne, hnot⟩ := hspends m challenge' h
    rw [hmem]
    exact not_or.mpr ⟨hnot, hne⟩
  · intro challenge' row hcommitted hrow
    obtain ⟨hne, hnot⟩ := hfresh challenge' row hcommitted hrow
    rw [hmem]
    exact not_or.mpr ⟨hnot, hne⟩
  · intro challenge' h
    rw [hevents]
    rcases (hmem challenge').mp h with hbefore | rfl
    · obtain ⟨email', hissued'⟩ := hs.issued challenge' hbefore
      exact ⟨email', List.mem_append_left _ hissued'⟩
    · exact ⟨email, List.mem_append_left _ hissued⟩
  · intro challenge'
    rw [hevents, List.count_append]
    by_cases heq : challenge' = challenge
    · subst heq
      rw [List.count_eq_zero_of_not_mem hnew, List.count_singleton_self]
    · rw [List.count_singleton, if_neg (by simpa using Ne.symm heq)]
      exact hs.once challenge'

theorem count_log {e : Event} (he : ∀ challenge, e ≠ .consumed challenge) (challenge : JsString) :
  (s.events ++ [e]).count (.consumed challenge) = s.events.count (.consumed challenge)
  := by
  rw [List.count_append, List.count_singleton, if_neg (by simpa using he challenge), Nat.add_zero]

/-- What is spent after a call has entered a phase was spent before, when this is so of the call. -/
theorem Once.enter (hs : Once s)
    (hphase : phase.spends = (s.calls n).spends ∨ phase.spends = none) (m : ℕ)
    {challenge : JsString} (h : (Function.update s.calls n phase m).spends = some challenge) :
  .consumed challenge ∉ s.events
  := by
  apply hs.spends m challenge
  refine @of_update _ _ Phase.spends _ _ _ _ _ ?_ h
  intro challenge' h'
  rcases hphase with heq | hnone
  · rw [← heq, h']
  · rw [hnone] at h'
    cases h'

/-- The transaction of a registration is committed. -/
theorem Once.commit {r : Registration} {email : JsString} (hs : Once s) (hheld : Held s)
    (hspends : (s.calls n).spends = some r.challenge)
    (hissued : .issued r.challenge email ∈ s.events)
    (hevents : s'.events = s.events ++ [.consumed r.challenge])
    (hchallenges : s'.challenges = s.challenges.commit n)
    (hcalls : s'.calls = Function.update s.calls n phase) (hphase : phase.spends = none) :
  Once s'
  := by
  refine hs.consume hevents (hs.spends n _ hspends) hissued ?_ ?_
  · intro m challenge h
    rw [hcalls] at h
    rcases update_cases (fun phase : Phase => phase.spends = some challenge) h with ⟨_, h⟩ | ⟨hm, h⟩
    · rw [hphase] at h
      cases h
    · refine ⟨?_, hs.spends m challenge h⟩
      rintro rfl
      exact hm (hheld.exclusive m n _ h hspends)
  · intro challenge row hcommitted hrow
    rw [hchallenges] at hcommitted
    rcases of_view hcommitted with hwrites | ⟨hnone, hbefore⟩
    · rw [hheld.consumed n challenge row hwrites] at hrow
      cases hrow
    · refine ⟨?_, hs.fresh challenge row hbefore hrow⟩
      rintro rfl
      exact (hheld.spends n _).mpr hspends hnone

theorem Step.once (hs : Inv cfg s) (hheld : Held s) (honce : Once s) (h : Step cfg s l s') :
  Once s'
  := by
  have hg := h.grows
  cases h with
  | @issue challenge row hissued =>
    refine honce.quiet hg (count_log nofun) honce.spends ?_
    intro challenge' row' hcommitted hrow hconsumed
    rcases of_put_committed hcommitted with ⟨rfl, _⟩ | ⟨_, hbefore⟩
    · obtain ⟨email, h⟩ := honce.issued _ hconsumed
      exact hissued email h
    · exact honce.fresh challenge' row' hbefore hrow hconsumed
  | delete =>
    refine honce.quiet hg (fun _ => rfl) honce.spends ?_
    intro challenge' row' hcommitted hrow
    rcases of_put_committed hcommitted with ⟨_, hnone⟩ | ⟨_, hbefore⟩
    · cases hnone
    · exact honce.fresh challenge' row' hbefore hrow
  | tick | alter | land | fail | drop | others =>
    exact honce.quiet hg (fun _ => rfl) honce.spends honce.fresh
  | register | assert | issueTokens =>
    exact honce.quiet hg (count_log nofun) (fun m _ => honce.enter (.inr rfl) m) honce.fresh
  | replay | unbound | deploy | found | absent | submit | duplicate | reject | confirm | timeout
  | heal | retry | answer | stop =>
    exact honce.quiet hg (fun _ => rfl) (fun m _ => honce.enter (.inr rfl) m) honce.fresh
  | saveUser hphase | saveWallet hphase | saveCredential hphase =>
    refine honce.quiet hg (fun _ => rfl) (fun m _ => honce.enter (.inl ?_) m) honce.fresh
    rw [hphase]
    rfl
  | @consume n r a row hphase hview hrow =>
    refine honce.quiet hg (fun _ => rfl) ?_ honce.fresh
    intro m challenge h
    rcases update_cases (fun phase : Phase => phase.spends = some challenge) h with ⟨_, h⟩ | ⟨_, h⟩
    · obtain rfl := Option.some.inj h
      rcases of_view hview with hwrites | ⟨_, hcommitted⟩
      · rw [hheld.consumed n _ row hwrites] at hrow
        cases hrow
      · exact honce.fresh _ row hcommitted hrow
    · exact honce.spends m challenge h
  | @commit n userId walletId k r a hphase =>
    have hgrounded := hs.chain.calls n
    rw [hphase] at hgrounded
    have hspends : (s.calls n).spends = some r.challenge := by
      rw [hphase]
      rfl
    exact honce.commit hheld hspends (hgrounded.registered r rfl).2 rfl rfl rfl rfl
  | @login n userId challenge credentialId row hphase hcommitted hrow hfree =>
    refine honce.consume rfl (honce.fresh challenge row hcommitted hrow)
      (hs.chain.issued challenge row (.inl hcommitted)) ?_ ?_
    · intro m challenge' h
      rcases update_cases (fun phase : Phase => phase.spends = some challenge') h with ⟨_, h⟩ | ⟨_, h⟩
      · cases h
      · refine ⟨?_, honce.spends m challenge' h⟩
        rintro rfl
        exact (hheld.spends m _).mpr h (hfree m)
    · intro challenge' row' hcommitted' hrow'
      rcases of_put_committed hcommitted' with ⟨_, hnew⟩ | ⟨hne, hbefore⟩
      · obtain rfl := Option.some.inj hnew
        cases hrow'
      · exact ⟨hne, honce.fresh challenge' row' hbefore hrow'⟩

theorem held_of_init (h : (system cfg).init s) :
  Held s
  := by
  obtain ⟨hcalls, _, _, _, hclean, _⟩ := h
  refine ⟨?_, ?_, ?_⟩
  · intro n challenge
    rw [hclean, hcalls]
    exact iff_of_false (fun h => h rfl) nofun
  · intro n challenge row hwrites
    rw [hclean] at hwrites
    cases hwrites
  · intro m n challenge hm
    rw [hcalls] at hm
    cases hm

theorem once_of_init (h : (system cfg).init s) :
  Once s
  := by
  obtain ⟨hcalls, hchallenges, _, _, _, _, _, _, _, _, hevents⟩ := h
  refine ⟨?_, ?_, ?_, ?_⟩
  · intro n challenge hspends
    rw [hcalls] at hspends
    cases hspends
  · intro challenge row hcommitted
    rw [hchallenges] at hcommitted
    cases hcommitted
  · intro challenge hconsumed
    rw [hevents] at hconsumed
    cases hconsumed
  · intro challenge
    rw [hevents]
    exact Nat.zero_le _

/-- Registrations and log-ins run side by side; a challenge is consumed once at most, and it was
issued before. Until it is, one transaction at most holds it. -/
theorem challenge_consumed_once (hs : (system cfg).Reachable s) (challenge : JsString) :
  s.events.count (.consumed challenge) ≤ 1
    ∧ (.consumed challenge ∈ s.events → ∃ email, .issued challenge email ∈ s.events)
    ∧ ∀ m n, s.challenges.writes m challenge ≠ none → s.challenges.writes n challenge ≠ none →
      m = n ∧ .consumed challenge ∉ s.events
  := by
  have hinv : Inv cfg s ∧ Held s ∧ Once s := by
    refine hs.invariant (I := fun s => Inv cfg s ∧ Held s ∧ Once s) ?_ ?_
    · exact fun s₀ hinit => ⟨inv_of_init hinit, held_of_init hinit, once_of_init hinit⟩
    · exact fun s₀ _ s₁ ⟨hinv, hheld, honce⟩ hstep =>
        ⟨Step.inv hinv hstep, Step.held hheld hstep, Step.once hinv hheld honce hstep⟩
  obtain ⟨_, hheld, honce⟩ := hinv
  refine ⟨honce.once challenge, honce.issued challenge, ?_⟩
  intro m n hm hn
  have hspends := (hheld.spends m challenge).mp hm
  exact ⟨hheld.exclusive m n challenge hspends ((hheld.spends n challenge).mp hn),
    honce.spends m challenge hspends⟩

theorem challenge_consumed_once_signUp :
  ∃ s : State, s.events.count (.consumed [1]) = 1
  := by
  obtain ⟨s, hs, _, hconsumed, _⟩ := reachable_signUp
  have hle := (challenge_consumed_once hs [1]).1
  exact ⟨s, le_antisymm hle (List.count_pos_iff.mpr hconsumed)⟩

end Challenges

end Passkeys
