import Tove.Auth.ChallengeLedger

/-!
# A challenge is consumed once

For a challenge tokens are issued once, to a user to whom a wallet is attached once; or a wallet
is attached once, to the user for whom the challenge was issued. A log in with a key that is new
does both: it attaches the wallet, and issues the tokens.
-/

namespace Sep10

open Js ReadCommitted Store Transition

variable {s s' : State} {l : Label} {n walletId userId : ℕ} {txHash : JsString}
  {phase phase' : Phase}

/-! ### Whose wallet it is -/

/-- The wallet that a transaction has written, with its user. -/
def Phase.attached : Phase → Option (ℕ × ℕ)
  | .running _ _ (.committing attached) => attached
  | _ => none

/-- A wallet that is brought back by a log in is one of the user. -/
def Operation.Owns (db : Store ℕ Wallet) : Operation → Prop
  | .reactivate _ walletId userId => db.Has Wallet.userId walletId userId
  | _ => True

/-- What a transaction knows of the wallet that it is to write, or has written. -/
def Stage.Owns (db : Store ℕ Wallet) (operation : Operation) : Stage → Prop
  | .counting (some walletId) | .saving (some walletId) _ =>
    ∃ userId, operation.userId = some userId ∧ db.Has Wallet.userId walletId userId
  | .committing (some attached) => (∀ txHash publicKey, operation ≠ .consume txHash publicKey)
    ∧ ∀ userId, operation.userId = some userId → attached.2 = userId
  | _ => True

def Phase.Owns (db : Store ℕ Wallet) : Phase → Prop
  | .running operation _ stage => operation.Owns db ∧ stage.Owns db operation
  | _ => True

theorem Phase.Owns.mono {db db' : Store ℕ Wallet} (h : phase.Owns db)
    (hhas : ∀ walletId userId, db.Has Wallet.userId walletId userId →
      db'.Has Wallet.userId walletId userId) :
  phase.Owns db'
  := by
  cases phase with
  | running operation allowPrimary stage =>
    obtain ⟨hoperation, hstage⟩ := h
    constructor
    · cases operation with
      | reactivate => exact hhas _ _ hoperation
      | _ => trivial
    · cases stage with
      | counting own | saving own =>
        cases own with
        | none => trivial
        | some walletId =>
          obtain ⟨userId, huser, howner⟩ := hstage
          exact ⟨userId, huser, hhas walletId userId howner⟩
      | consuming | searching | owning => trivial
      | committing attached => cases attached <;> exact hstage
  | _ => trivial

/-- No statement changes whose a wallet is, and each transaction has written at most the wallet
that it is to attach. -/
structure Owned (s : State) : Prop where
  fixed : Fixed Wallet.userId s.wallets
  clean : ∀ n, (s.calls n).attached = none → s.wallets.writes n = fun _ => none
  owns : ∀ n, (s.calls n).Owns s.wallets

theorem Owned.congr (hs : Owned s)
    (hwallets : s'.wallets = s.wallets) (hcalls : s'.calls = s.calls) :
  Owned s'
  := by
  refine ⟨?_, ?_, ?_⟩
  · rw [hwallets]
    exact hs.fixed
  · rw [hwallets, hcalls]
    exact hs.clean
  · rw [hwallets, hcalls]
    exact hs.owns

/-- A wallet is changed, but not whose it is. -/
theorem Owned.alter {row row' : Wallet} (hs : Owned s)
    (hcommitted : s.wallets.committed walletId = some row) (huser : row'.userId = row.userId) :
  Owned (s.alter walletId row')
  := by
  have hhas : ∀ walletId' userId, s.wallets.Has Wallet.userId walletId' userId →
      (s.alter walletId row').wallets.Has Wallet.userId walletId' userId := by
    rintro walletId' userId ⟨row₁, hrow₁, huser₁⟩
    by_cases hne : walletId' = walletId
    · subst hne
      obtain rfl := Option.some.inj (hcommitted.symm.trans hrow₁)
      exact ⟨row', Function.update_self .., huser.trans huser₁⟩
    · exact ⟨row₁, (Function.update_of_ne hne ..).trans hrow₁, huser₁⟩
  have hversion : ∀ walletId' row₁, (s.alter walletId row').wallets.Version walletId' row₁ →
      walletId' = walletId ∧ row₁ = row' ∨ s.wallets.Version walletId' row₁ := by
    rintro walletId' row₁ (h | hwritten)
    · have hrow₁ : Function.update s.wallets.committed walletId (some row') walletId' = some row₁ := h
      rw [Function.update_apply] at hrow₁
      split at hrow₁
      · rename_i heq
        exact .inl ⟨heq, (Option.some.inj hrow₁).symm⟩
      · exact .inr (.inl hrow₁)
    · exact .inr (.inr hwritten)
  refine ⟨?_, hs.clean, fun m => (hs.owns m).mono hhas⟩
  intro walletId' row₁ row₂ h₁ h₂
  rcases hversion walletId' row₁ h₁ with ⟨rfl, rfl⟩ | hbefore₁
  · rcases hversion walletId' row₂ h₂ with ⟨_, rfl⟩ | hbefore₂
    · rfl
    · rw [huser]
      exact hs.fixed walletId' row row₂ (.inl hcommitted) hbefore₂
  · rcases hversion walletId' row₂ h₂ with ⟨rfl, rfl⟩ | hbefore₂
    · rw [huser]
      exact hs.fixed walletId' row₁ row hbefore₁ (.inl hcommitted)
    · exact hs.fixed walletId' row₁ row₂ hbefore₁ hbefore₂

/-- A transaction writes its wallet. -/
theorem Owned.save {row : Wallet} {attached : ℕ × ℕ} (hs : Owned s)
    (hrow : ∀ row', s.wallets.Version walletId row' → row'.userId = row.userId)
    (hphase : phase.attached = some attached) (howns : phase.Owns s.wallets) :
  Owned (s.save n walletId row phase)
  := by
  refine ⟨hs.fixed.write hrow, ?_, ?_⟩
  · apply (Function.forall_update_iff s.calls fun m phase =>
      phase.attached = none → (s.wallets.write n walletId row).writes m = fun _ => none).mpr
    constructor
    · intro hnone
      cases hphase.symm.trans hnone
    · intro m hm hnone
      rw [write_writes_of_ne hm]
      exact hs.clean m hnone
  · apply (Function.forall_update_iff s.calls fun _ phase =>
      phase.Owns (s.wallets.write n walletId row)).mpr
    exact ⟨howns.mono fun _ _ => id, fun m _ => (hs.owns m).mono fun _ _ => id⟩

theorem Owned.commit (hs : Owned s) (howns : phase.Owns (s.wallets.commit n)) :
  Owned (s.commit n phase)
  := by
  refine ⟨hs.fixed.commit n, ?_, ?_⟩
  · apply (Function.forall_update_iff s.calls fun m phase =>
      phase.attached = none → (s.wallets.commit n).writes m = fun _ => none).mpr
    refine ⟨fun _ => commit_writes, fun m hm hnone => ?_⟩
    rw [commit_writes_of_ne hm]
    exact hs.clean m hnone
  · apply (Function.forall_update_iff s.calls fun _ phase => phase.Owns (s.wallets.commit n)).mpr
    exact ⟨howns, fun m _ => (hs.owns m).mono fun _ _ => hs.fixed.has_commit⟩

theorem Owned.abort (hs : Owned s) (howns : phase.Owns (s.wallets.abort n)) :
  Owned (s.abort n phase)
  := by
  refine ⟨hs.fixed.abort n, ?_, ?_⟩
  · apply (Function.forall_update_iff s.calls fun m phase =>
      phase.attached = none → (s.wallets.abort n).writes m = fun _ => none).mpr
    refine ⟨fun _ => abort_writes, fun m hm hnone => ?_⟩
    rw [abort_writes_of_ne hm]
    exact hs.clean m hnone
  · apply (Function.forall_update_iff s.calls fun _ phase => phase.Owns (s.wallets.abort n)).mpr
    exact ⟨howns, fun m _ => (hs.owns m).mono fun _ _ => id⟩

/-! ### The steps -/

/-- A call that has written no wallet enters a phase. -/
theorem Owned.enter (hs : Owned s) (hwallets : s'.wallets = s.wallets)
    (hcalls : s'.calls = Function.update s.calls n phase') (hphase : s.calls n = phase)
    (hattached : phase.attached = none) (howns : phase.Owns s.wallets → phase'.Owns s.wallets) :
  Owned s'
  := by
  subst hphase
  refine ⟨?_, ?_, ?_⟩
  · rw [hwallets]
    exact hs.fixed
  · rw [hwallets, hcalls]
    apply (Function.forall_update_iff s.calls fun m phase =>
      phase.attached = none → s.wallets.writes m = fun _ => none).mpr
    exact ⟨fun _ => hs.clean n hattached, fun m _ => hs.clean m⟩
  · rw [hwallets, hcalls]
    apply (Function.forall_update_iff s.calls fun _ phase => phase.Owns s.wallets).mpr
    exact ⟨howns (hs.owns n), fun m _ => hs.owns m⟩

/-- A row that is new has no versions. -/
theorem not_version_of_fresh {db : Store ℕ Wallet} {row : Wallet}
    (hnone : db.committed walletId = none)
    (hfresh : ∀ m, db.writes m walletId = none) :
  ¬ db.Version walletId row
  := by
  rintro (h | ⟨m, h⟩)
  · rw [hnone] at h
    cases h
  · rw [hfresh m] at h
    cases h

theorem Step.owned (hs : Owned s) (h : Step s l s') :
  Owned s'
  := by
  cases h with
  | build | delete | tick => exact hs.congr rfl rfl
  | alter hcommitted => exact hs.alter hcommitted rfl
  | login hphase | bind hphase | consume hphase | consumeBind hphase | search hphase | bound hphase
    | unowned hphase | absent hphase =>
    exact hs.enter rfl rfl hphase rfl fun _ => ⟨trivial, trivial⟩
  | unresolved hphase | issueTokens hphase => exact hs.enter rfl rfl hphase rfl fun _ => trivial
  | resolve hphase =>
    rcases hphase with hphase | hphase
    · exact hs.enter rfl rfl hphase rfl fun _ => trivial
    · exact hs.enter rfl rfl hphase rfl fun _ => trivial
  | @own n userId k txHash publicKey allowPrimary row hphase hview _ huser =>
    have hclean := hs.clean n (by rw [hphase]; rfl)
    rw [view_of_clean hclean] at hview
    exact hs.enter rfl rfl hphase rfl fun _ => ⟨trivial, userId, rfl, row, hview, huser⟩
  | @count n userId operation allowPrimary isPrimary own hphase =>
    refine hs.enter rfl rfl hphase rfl ?_
    rintro ⟨hoperation, hstage⟩
    refine ⟨hoperation, ?_⟩
    cases own <;> exact hstage
  | removed hphase hcommitted =>
    exact hs.enter rfl rfl hphase rfl fun _ =>
      ⟨⟨_, hcommitted, rfl⟩, _, rfl, _, hcommitted, rfl⟩
  | insert hphase hnone hfresh =>
    apply hs.save
    · exact fun row' hversion => absurd hversion (not_version_of_fresh hnone hfresh)
    · rfl
    · refine ⟨trivial, (fun _ _ h => by cases h), ?_⟩
      intro userId huser
      exact Option.some.inj huser
  | create hphase _ hnone hfresh =>
    apply hs.save
    · exact fun row' hversion => absurd hversion (not_version_of_fresh hnone hfresh)
    · rfl
    · exact ⟨trivial, (fun _ _ h => by cases h), fun _ h => by cases h⟩
  | @reactivateRow n walletId operation allowPrimary isPrimary row hphase hview =>
    have howns := hs.owns n
    rw [hphase] at howns
    obtain ⟨hoperation, userId, huser, row', hcommitted, howner⟩ := howns
    have hrow := hs.fixed walletId row row' (version_of_view hview) (.inl hcommitted)
    apply hs.save
    · exact fun row₁ hversion => hs.fixed walletId row₁ row hversion (version_of_view hview)
    · rfl
    · refine ⟨hoperation, ?_, ?_⟩
      · rintro txHash publicKey rfl
        cases huser
      · intro userId' huser'
        obtain rfl := Option.some.inj (huser.symm.trans huser')
        exact hrow.trans howner
  | @commit n operation allowPrimary attached hphase =>
    have hnext : (operation.next attached).Owns (s.wallets.commit n) := by
      cases operation <;> cases attached <;> trivial
    exact (hs.commit hnext).congr rfl rfl
  | raced hphase => exact hs.abort trivial
  | @retry n k userId operation own stage row hphase hrestart =>
    have howns := hs.owns n
    rw [hphase] at howns
    have habort : operation.Owns (s.wallets.abort n) := by
      cases operation with
      | reactivate => exact howns.1
      | _ => trivial
    apply hs.abort
    refine ⟨habort, ?_⟩
    cases operation with
    | bind =>
      obtain rfl := Option.some.inj hrestart
      trivial
    | reactivate txHash walletId userId =>
      obtain rfl := Option.some.inj hrestart
      exact ⟨userId, rfl, habort⟩
    | consume | create => cases hrestart
  | fail => exact hs.abort trivial

/-- A call enters a phase, and the challenges are as they were. -/
theorem Tracked.entered (hs : Tracked s) (hchallenges : s'.challenges = s.challenges)
    (hcalls : s'.calls = Function.update s.calls n phase') (hevents : s'.events = s.events)
    (hphase : s.calls n = phase) (hfollows : phase'.Follows phase)
    (hknown : Known s.events phase → Known s.events phase') :
  Tracked s'
  := by
  subst hphase
  have hentered := hs.enter hfollows (hknown (hs.known n))
  exact hentered.congr hchallenges hcalls hevents

/-- A challenge was issued once. -/
theorem Tracked.issuedTo_unique {userId userId' : Option ℕ} (hs : Tracked s)
    (h : IssuedTo s.events txHash userId) (h' : IssuedTo s.events txHash userId') :
  userId = userId'
  := by
  obtain ⟨challenge, hmem, rfl⟩ := h
  obtain ⟨challenge', hmem', rfl⟩ := h'
  rw [hs.issued txHash challenge challenge' hmem hmem']

/-- A log in has found the wallet of the key. -/
theorem Tracked.resolve (hs : Tracked s)
    (hphase : s.calls n = phase) (hholding : phase.holding = none)
    (hunattached : phase.unattached = some txHash) :
  Tracked (s.enter n (.issuing txHash userId))
  := by
  have hspent := Phase.spent_of_unattached hunattached
  refine hs.entered rfl rfl rfl hphase ⟨hholding.symm, ?_, fun _ h => by cases h⟩ ?_
  · intro txHash' h
    obtain rfl := Option.some.inj h
    exact hspent
  · intro hknown
    refine ⟨hknown.issuedTo_none hspent, ?_⟩
    intro walletId' userId' hmem
    subst hphase
    exact absurd hunattached ((hs.attached txHash walletId' userId' hmem).2.2 n)

/-- A log in has attached a wallet. -/
theorem Tracked.attach (hs : Tracked s) (hholding : (s.calls n).holding = none)
    (hunattached : (s.calls n).unattached = some txHash) :
  Tracked ((s.commit n (.issuing txHash userId)).log [.attached txHash walletId userId])
  := by
  have hspent := Phase.spent_of_unattached hunattached
  have hissued := (hs.known n).issuedTo_none hspent
  have hnew : ∀ walletId' userId', .attached txHash walletId' userId' ∉ s.events := by
    intro walletId' userId' hmem
    exact (hs.attached txHash walletId' userId' hmem).2.2 n hunattached
  have hchallenges : (s.commit n (.issuing txHash userId)).challenges = s.challenges :=
    commit_of_clean (hs.clean hholding)
  have hafter : Tracked (s.commit n (.issuing txHash userId)) :=
    (hs.resolve rfl hholding hunattached).congr hchallenges rfl rfl
  have hothers : ∀ m, m ≠ n → (s.calls m).spent ≠ some txHash :=
    fun m hm h => hm (hs.spentOnce m n txHash h hspent)
  apply hafter.log_attached (.inr hissued)
  · rw [hchallenges]
    exact hs.spent n txHash hspent
  · intro m h
    rw [commit_calls] at h
    by_cases hm : m = n
    · subst hm
      rw [Function.update_self] at h
      cases h
    · rw [Function.update_of_ne hm] at h
      exact hothers m hm (Phase.spent_of_unattached h)
  · exact hnew
  · intro m userId' h
    rw [commit_calls] at h
    by_cases hm : m = n
    · subst hm
      rw [Function.update_self] at h
      cases h
      rfl
    · rw [Function.update_of_ne hm] at h
      exact absurd (by rw [h]; rfl) (hothers m hm)
  · intro userId' hmem
    exact (hs.tokens txHash userId' hmem).2.2.1 n hspent

/-- A wallet has been bound. -/
theorem Tracked.bound {publicKey : JsString} {allowPrimary : Bool} {attached : Option (ℕ × ℕ)}
    (hs : Tracked s) (ho : Owned s) (hphase : s.calls n
      = .running (.bind txHash publicKey userId) allowPrimary (.committing attached)) :
  Tracked ((s.commit n .idle).log ((Operation.bind txHash publicKey userId).attached attached))
  := by
  have hholds : (s.calls n).holding = some txHash := by
    rw [hphase]
    rfl
  have hissued := hs.known n
  rw [hphase] at hissued
  have hidle : Known s.events .idle := fun _ h => by cases h
  obtain ⟨hafter, hconsumed⟩ := hs.commit hholds rfl (fun _ h => by cases h) hidle
  have hpending := (hs.holding n txHash hholds).2
  have hnobody : ¬ IssuedTo s.events txHash none := by
    intro h
    cases hs.issuedTo_unique hissued h
  cases attached with
  | none => exact hafter.congr rfl rfl (List.append_nil _)
  | some attached =>
    have howns := ho.owns n
    rw [hphase] at howns
    obtain ⟨walletId, userId'⟩ := attached
    obtain rfl : userId' = userId := howns.2.2 userId rfl
    apply hafter.log_attached (.inl hissued) hconsumed
    · intro m h
      exact hnobody ((hafter.known m).issuedTo_none (Phase.spent_of_unattached h))
    · intro walletId' userId' hmem
      exact (hs.attached txHash walletId' userId' hmem).2.1 hpending
    · intro m userId' h
      exact absurd ((hafter.known m).issuedTo_none (by rw [h]; rfl)) hnobody
    · intro userId' hmem
      exact hnobody (hs.tokens txHash userId' hmem).1

theorem Tracked.issueTokens (hs : Tracked s) (hphase : s.calls n = .issuing txHash userId) :
  Tracked ((s.enter n .idle).log [.tokens txHash userId])
  := by
  have hspent : (s.calls n).spent = some txHash := by
    rw [hphase]
    rfl
  have hknown := hs.known n
  rw [hphase] at hknown
  have hidle : Tracked (s.enter n .idle) := by
    refine hs.entered rfl rfl rfl hphase ⟨rfl, (fun _ h => by cases h), (fun _ h => by cases h)⟩ ?_
    exact fun _ _ h => by cases h
  apply hidle.log_tokens hknown.1 (hs.spent n txHash hspent)
  · intro m h
    rw [enter_calls] at h
    by_cases hm : m = n
    · subst hm
      rw [Function.update_self] at h
      cases h
    · rw [Function.update_of_ne hm] at h
      exact hm (hs.spentOnce m n txHash h hspent)
  · exact fun userId' hmem => (hs.tokens txHash userId' hmem).2.2.1 n hspent
  · exact hknown.2

theorem Step.tracked (hs : Tracked s) (ho : Owned s) (h : Step s l s') :
  Tracked s'
  := by
  have hidle : Known s.events .idle := fun _ h => by cases h
  cases h with
  | build hnew => exact hs.issue hnew
  | delete hfree => exact hs.delete hfree
  | tick | alter => exact hs.congr rfl rfl rfl
  | login hphase hcommitted _ huser =>
    refine hs.entered rfl rfl rfl hphase ⟨rfl, fun _ h => h, fun _ h => h⟩ fun _ => ?_
    have hissued := hs.rows _ _ (.inl hcommitted)
    rwa [huser] at hissued
  | bind hphase hcommitted _ huser =>
    refine hs.entered rfl rfl rfl hphase ⟨rfl, fun _ h => h, fun _ h => h⟩ fun _ => ?_
    have hissued := hs.rows _ _ (.inl hcommitted)
    rwa [huser] at hissued
  | @consume n txHash publicKey allowPrimary row hphase hview hrow hfree
  | @consumeBind n userId txHash publicKey allowPrimary row hphase hview hrow hfree =>
    have hknown := hs.known n
    rw [hphase] at hknown
    exact hs.consume (by rw [hphase]; rfl) hview hrow hfree rfl rfl hknown
  | search hphase | bound hphase | own hphase | unowned hphase | insert hphase | create hphase
    | unresolved hphase =>
    exact hs.entered rfl rfl rfl hphase ⟨rfl, fun _ h => h, fun _ h => h⟩ id
  | @count n userId operation allowPrimary isPrimary own hphase
  | @reactivateRow n userId operation allowPrimary isPrimary row hphase =>
    cases operation <;>
      exact hs.entered rfl rfl rfl hphase ⟨rfl, fun _ h => h, fun _ h => h⟩ id
  | removed hphase | absent hphase =>
    exact hs.entered rfl rfl rfl hphase ⟨rfl, fun _ h => h, fun _ h => h⟩ id
  | resolve hphase =>
    rcases hphase with hphase | hphase
    · exact hs.resolve hphase rfl rfl
    · exact hs.resolve hphase rfl rfl
  | @commit n operation allowPrimary attached hphase =>
    have hknown := hs.known n
    have howns := ho.owns n
    rw [hphase] at hknown howns
    cases operation with
    | bind txHash publicKey userId => exact hs.bound ho hphase
    | consume txHash publicKey =>
      have hnone : attached = none := by
        cases attached with
        | none => rfl
        | some attached => exact absurd rfl (howns.2.1 txHash publicKey)
      subst hnone
      have hholds : (s.calls n).holding = some txHash := by
        rw [hphase]
        rfl
      have hresolving : Known s.events (.resolving txHash publicKey) := by
        intro txHash' h
        obtain rfl := Option.some.inj h
        exact hknown
      obtain ⟨hcommitted, _⟩ : Tracked (s.commit n (.resolving txHash publicKey)) ∧ _ :=
        hs.commit hholds rfl (fun _ h => (Option.some.inj h).symm) hresolving
      exact hcommitted.congr rfl rfl (List.append_nil _)
    | reactivate txHash walletId userId =>
      have hholding : (s.calls n).holding = none := by rw [hphase]; rfl
      cases attached with
      | none =>
        exact hs.resolve hphase rfl rfl |>.congr (commit_of_clean (hs.clean hholding)) rfl
          (List.append_nil _)
      | some attached =>
        obtain ⟨walletId', userId'⟩ := attached
        obtain rfl : userId' = userId := howns.2.2 userId rfl
        exact hs.attach hholding (by rw [hphase]; rfl)
    | create txHash publicKey =>
      have hholding : (s.calls n).holding = none := by rw [hphase]; rfl
      cases attached with
      | none =>
        refine (hs.entered rfl rfl rfl hphase ⟨rfl, (fun _ h => by cases h),
          (fun _ h => by cases h)⟩ fun _ => hidle : Tracked (s.enter n .idle)).congr
          (commit_of_clean (hs.clean hholding)) rfl (List.append_nil _)
      | some attached => exact hs.attach hholding (by rw [hphase]; rfl)
  | @raced n k txHash publicKey allowPrimary stage row hphase =>
    have hknown := hs.known n
    rw [hphase] at hknown
    apply hs.abort rfl
    · rw [hphase]
      exact fun _ h => h
    · rw [hphase]
      exact fun _ h => h
    · exact hknown
  | @retry n k userId operation own stage row hphase hrestart =>
    have hknown := hs.known n
    rw [hphase] at hknown
    cases operation with
    | consume | create => cases hrestart
    | bind | reactivate =>
      obtain rfl := Option.some.inj hrestart
      apply hs.abort rfl
      · rw [hphase]
        exact fun _ h => h
      · rw [hphase]
        exact fun _ h => h
      · exact hknown
  | issueTokens hphase => exact hs.issueTokens hphase
  | fail => exact hs.abort rfl (fun _ h => by cases h) (fun _ h => by cases h) hidle

/-! ### The runs -/

theorem tracked_init (h : system.init s) :
  Tracked s ∧ Owned s
  := by
  obtain ⟨hempty, hclean, hunwritten, hidle, hevents⟩ := h
  constructor
  · constructor
    · intro n txHash row h
      rw [hclean] at h
      cases h
    · intro n txHash h
      rw [hidle] at h
      cases h
    · intro m n txHash h
      rw [hidle] at h
      cases h
    · intro n txHash h
      rw [hidle] at h
      cases h
    · intro m n txHash h
      rw [hidle] at h
      cases h
    · rintro txHash row (h | ⟨n, h⟩)
      · rw [hempty] at h
        cases h
      · rw [hclean] at h
        cases h
    · intro txHash challenge challenge' h
      rw [hevents] at h
      cases h
    · intro n
      rw [hidle]
      exact fun _ h => by cases h
    · rw [hevents]
      exact .nil
    · rw [hevents]
      exact .nil
    · intro txHash userId h
      rw [hevents] at h
      cases h
    · intro txHash walletId userId h
      rw [hevents] at h
      cases h
  · refine ⟨?_, fun n _ => hunwritten n, ?_⟩
    · have hcommitted : ∀ k row, s.wallets.Version k row → s.wallets.committed k = some row := by
        rintro k row (h | ⟨n, h⟩)
        · exact h
        · rw [hunwritten] at h
          cases h
      intro k row row' h h'
      obtain rfl := Option.some.inj ((hcommitted k row h).symm.trans (hcommitted k row' h'))
      rfl
    · intro n
      rw [hidle]
      trivial

theorem Reachable.tracked (h : system.Reachable s) :
  Tracked s ∧ Owned s
  := by
  apply h.invariant
  · exact fun s₀ hinit => tracked_init hinit
  · exact fun s₁ l s₂ hs₁ hstep => ⟨hstep.tracked hs₁.1 hs₁.2, hstep.owned hs₁.2⟩

theorem Tracked.consumedOnce (hs : Tracked s) :
  SingleUse s
  := by
  refine ⟨hs.tokensOnce, hs.attachedOnce, ?_, ?_⟩
  · intro txHash userId userId' hmem hissued
    exact hs.issuedTo_unique hissued (hs.tokens txHash userId hmem).1
  · intro txHash walletId userId userId' hmem hissued
    rcases (hs.attached txHash walletId userId hmem).1 with hbound | hanonymous
    · exact .inl (hs.issuedTo_unique hissued hbound)
    · refine .inr ⟨hs.issuedTo_unique hissued hanonymous, ?_⟩
      exact fun userId'' htokens => (hs.tokens txHash userId'' htokens).2.2.2 walletId userId hmem

/-- A transaction that binds a wallet takes nothing of its challenge with it when it is rolled
back. -/
theorem Step.restores (hs : Tracked s) (h : Step s l s') :
  Restores s l s'
  := by
  intro n txHash publicKey userId allowPrimary stage hl hphase
  have hpending : stage ≠ .consuming → Pending s.challenges txHash := by
    intro hstage
    apply (hs.holding n txHash _).2
    rw [hphase]
    cases stage <;> first | rfl | exact absurd rfl hstage
  have habort : ∀ phase, (s.abort n phase).challenges.writes n txHash = none := by
    intro phase
    rw [abort_challenges, abort_writes]
  cases h with
  | raced | retry | fail =>
    obtain rfl := Label.rollback.inj hl
    exact ⟨rfl, habort _, hpending⟩
  | _ => cases hl

/-- A challenge is used for one purpose, once, and what is rolled back does not use it. -/
theorem singleUse :
  (∀ s, system.Reachable s → SingleUse s) ∧ system.EveryStep Restores
  := by
  constructor
  · exact fun s h => (Reachable.tracked h).1.consumedOnce
  · exact fun s l s' h hstep => Step.restores (Reachable.tracked h).1 hstep

/-- A challenge for the key `[1]`, for a log in. -/
def sampleChallenge : AuthChallenge := ⟨[1], none, 0, false⟩

/-- There are no wallets, and no challenges. -/
def sampleState : State where
  challenges := { committed := fun _ => none, writes := fun _ _ => none }
  wallets := { committed := fun _ => none, writes := fun _ _ => none }
  now := 0
  calls := fun _ => .idle
  events := []

/-- A log in creates the wallet, when there are none, and issues tokens. -/
theorem sampleCreate (h : system.Reachable s) (hwallets : s.wallets = sampleState.wallets)
    (hphase : s.calls 0 = .running (.create [7] [1]) true (.saving none true)) :
  ∃ s', system.Reachable s' ∧ s'.events = s.events ++ [.attached [7] 0 0] ++ [.tokens [7] 0]
  := by
  have hversion : ∀ k row, ¬ s.wallets.Version k row := by
    rw [hwallets]
    exact fun _ _ => not_version_of_fresh rfl fun _ => rfl
  have hadmits : ∀ p, s.wallets.Admits p 0 0 := by
    intro p
    refine ⟨fun k row _ hview => absurd (version_of_view hview) (hversion k row), ?_⟩
    exact fun m k row _ hwrites => absurd (.inr ⟨m, hwrites⟩) (hversion k row)
  have hsaved := h.step (@Step.create _ 0 0 0 [7] [1] true hphase
    (fun k row hrow => absurd hrow (hversion k row)) (by rw [hwallets]; rfl)
    (fun m => by rw [hwallets]; rfl) ⟨fun _ => hadmits _, fun _ => hadmits _⟩)
  have hcommitted := hsaved.step (@Step.commit _ 0 (.create [7] [1]) true (some (0, 0)) rfl)
  exact ⟨_, hcommitted.step (@Step.issueTokens _ 0 0 [7] rfl), rfl⟩

/-- A wallet logs in whose key is new. -/
theorem sampleLogin :
  ∃ s, system.Reachable s
    ∧ s.events = [.issued [7] sampleChallenge, .attached [7] 0 0, .tokens [7] 0]
  := by
  have hinit : system.Reachable sampleState :=
    .init ⟨fun _ => rfl, fun _ => rfl, fun _ => rfl, fun _ => rfl, rfl⟩
  have hissued := hinit.step (@Step.build _ [7] sampleChallenge (fun _ h => by cases h) rfl)
  have hlogin := hissued.step (@Step.login _ 0 ⟨[7], [[1]]⟩ sampleChallenge rfl rfl
    ⟨rfl, Nat.le_refl 0, by decide⟩ rfl)
  have hconsumed := hlogin.step (@Step.consume _ 0 [7] [1] true sampleChallenge rfl rfl rfl
    (fun _ _ => rfl))
  have hcommitted := hconsumed.step (@Step.commit _ 0 (.consume [7] [1]) true none rfl)
  have hunresolved := hcommitted.step (@Step.unresolved _ 0 [7] [1] rfl (fun _ _ h => by cases h))
  have habsent := hunresolved.step (@Step.absent _ 0 [7] [1] rfl (fun _ _ h => by cases h))
  exact sampleCreate habsent (commit_of_clean rfl) rfl

theorem singleUse_sample :
  ∃ s, .tokens [7] 0 ∈ s.events ∧ SingleUse s
  := by
  obtain ⟨s, hs, hevents⟩ := sampleLogin
  refine ⟨s, ?_, singleUse.1 s hs⟩
  rw [hevents]
  decide

/-- The challenge has two effects: a wallet is attached, and tokens are issued. -/
theorem not_forall_oneEffect :
  ¬ ∀ s, system.Reachable s → OneEffect s
  := by
  intro h
  obtain ⟨s, hs, hevents⟩ := sampleLogin
  have hone := h s hs
  rw [OneEffect, hevents] at hone
  exact List.pairwise_iff_getElem.mp hone 1 2 (by decide) (by decide) (by decide) [7] rfl rfl

end Sep10
