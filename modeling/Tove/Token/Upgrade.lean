import Tove.Token.Configuration

/-!
# The upgrade gate

The first upgrade of a window records a snapshot and seals the token. While the seal is there,
no call changes what the snapshot is about, a further upgrade keeps the snapshot, and so the
migration of the admin succeeds.
-/

namespace Token

open Soroban Ledgers Transition

variable {pkg : Packages} {init : TokenInit} {host : Host} {w w' : World} {c : Call} {l : Label}
  {events : List Event}

/-! ### What the seal keeps -/

/-- The slots that are not written while the token is sealed: those that no call writes, with
the flag of the distribution and the leftover of the artist. -/
def Storage.guarded (s : Storage) : Storage :=
  { s.fixed with mintDone := s.mintDone, artistAbsorbedLeftover := s.artistAbsorbedLeftover }

/-- What a seal keeps: the configuration, the flag of the distribution, the leftover, the
balances and the supply. -/
structure Unchanged (w w' : World) : Prop where
  storage : w'.storage.guarded = w.storage.guarded
  balances : w'.holdings.balances = w.holdings.balances
  totalSupply : w'.holdings.totalSupply = w.holdings.totalSupply

theorem Unchanged.refl (w : World) :
  Unchanged w w
  := ⟨rfl, rfl, rfl⟩

theorem Unchanged.trans {w'' : World} (h : Unchanged w w') (h' : Unchanged w' w'') :
  Unchanged w w''
  := ⟨h'.storage.trans h.storage, h'.balances.trans h.balances, h'.totalSupply.trans h.totalSupply⟩

/-- A call of `upgrade`. -/
def Label.Upgrades : Label → Prop
  | .call _ (.upgrade _) _ => True
  | _ => False

/-- The seal of a token. -/
def Sealed (w : World) : Prop := w.storage.migrationPending.isSome = true

theorem sealed_iff :
  Sealed w ↔ migrationPending w.storage = true
  := Iff.rfl

/-- What a step does to the seal. A sealed token that stays sealed keeps its snapshot, a token
is sealed by an upgrade that takes a snapshot, and a token that is not sealed has no snapshot. -/
structure SealStep (pkg : Packages) (w : World) (l : Label) (w' : World) : Prop where
  keeps : Sealed w → Sealed w' →
    Unchanged w w' ∧ w'.storage.invariantSnapshot = w.storage.invariantSnapshot
  seals : ¬ Sealed w → Sealed w' → l.Upgrades ∧ Unchanged w w' ∧ ∃ snapshot,
    takeSnapshot pkg w = .ok snapshot ∧ w'.storage.invariantSnapshot = some snapshot
  unseals : (¬ Sealed w → w.storage.invariantSnapshot = none) → ¬ Sealed w' →
    w'.storage.invariantSnapshot = none

/-- A step that leaves the flag and the snapshot alone, and what the seal keeps. -/
theorem SealStep.quiet (hpending : w'.storage.migrationPending = w.storage.migrationPending)
    (hsnapshot : w'.storage.invariantSnapshot = w.storage.invariantSnapshot)
    (hunchanged : Sealed w → Unchanged w w') :
  SealStep pkg w l w'
  := by
  have hsealed : Sealed w' ↔ Sealed w := by rw [Sealed, Sealed, hpending]
  constructor
  · intro h _
    exact ⟨hunchanged h, hsnapshot⟩
  · intro h h'
    cases h (hsealed.mp h')
  · intro h h'
    rw [hsnapshot]
    apply h
    rwa [← hsealed]

theorem not_sealed_of_none (h : w.storage.migrationPending = none) :
  ¬ Sealed w
  := by simp [Sealed, h]

theorem Change.sealStep (h : Change pkg host w c w' events) :
  SealStep pkg w (.call host c events) w'
  := by
  cases h with
  | move _ _ hcleared =>
    exact .quiet rfl rfl fun h => absurd h (not_sealed_of_none hcleared.notPending)
  | mint hminter => exact .quiet rfl rfl fun h => absurd h (not_sealed_of_none hminter.notPending)
  | record hminter =>
    exact .quiet rfl rfl fun h => absurd h (not_sealed_of_none hminter.notPending)
  | approve hbalances hsupply => exact .quiet rfl rfl fun _ => ⟨rfl, hbalances, hsupply⟩
  | upgrade _ _ hstorage =>
    rcases recordSnapshot_cases hstorage with ⟨hpending, rfl⟩ | hfirst
    · exact .quiet rfl rfl fun _ => ⟨rfl, rfl, rfl⟩
    · obtain ⟨hpending, snapshot, hsnapshot, rfl⟩ := hfirst
      have hnot : ¬ Sealed w := by rw [sealed_iff, hpending]; exact Bool.false_ne_true
      constructor
      · intro h
        cases hnot h
      · intro _ _
        exact ⟨trivial, ⟨rfl, rfl, rfl⟩, snapshot, hsnapshot, rfl⟩
      · intro _ h
        cases h rfl
  | migrate _ hpending =>
    constructor
    · intro _ h
      cases h
    · intro h
      cases h hpending
    · intro _ _
      rfl
  | idle => exact .quiet rfl rfl fun _ => ⟨rfl, rfl, rfl⟩
  | configure => exact .quiet rfl rfl fun _ => ⟨rfl, rfl, rfl⟩

theorem Step.sealStep (laws : pkg.base.Lawful) (h : Step pkg w l w') :
  SealStep pkg w l w'
  := by
  cases h with
  | call hok => apply (change_of_perform laws hok).sealStep
  | failed => exact .quiet rfl rfl fun _ => .refl w
  | outside => exact .quiet rfl rfl fun _ => ⟨rfl, rfl, rfl⟩

/-! ### The migration -/

/-- The snapshot is about what the seal keeps. -/
theorem takeSnapshot_congr (h : Unchanged w w') :
  takeSnapshot pkg w' = takeSnapshot pkg w
  := by
  have hread : ∀ u : World, takeSnapshot pkg u
      = takeSnapshot pkg ⟨u.storage.guarded,
        ⟨fun _ => 0, u.holdings.totalSupply, fun _ _ => (0, 0)⟩,
        fun _ _ => 0⟩ := fun _ => rfl
  rw [hread w', hread w, h.storage, h.totalSupply]

/-- A state passes the comparison with its own snapshot. -/
theorem checkSnapshot_of_takeSnapshot {snapshot : InvariantSnapshot}
    (h : takeSnapshot pkg w = .ok snapshot) :
  checkSnapshot pkg snapshot w = .ok ()
  := by
  simp only [takeSnapshot, Checks.bind_eq_ok, Checks.pure_eq_ok, unwrap_eq_ok] at h
  obtain ⟨artistLockupUntil, hartist, treasuryLockupUntil, htreasury, digest, hdigest, rfl⟩ := h
  simp only [checkSnapshot, errorIf, Checks.bind_eq_ok, unwrap_eq_ok, Checks.rejectIf_eq_ok]
  refine ⟨_, hartist, _, htreasury, (), ?_, (), ?_, (), ?_, (), ?_, digest, hdigest, ?_⟩
  · exact not_not.mpr rfl
  · exact lt_irrefl artistLockupUntil
  · exact lt_irrefl treasuryLockupUntil
  · exact not_not.mpr rfl
  · exact not_not.mpr rfl

theorem requireProxyAdmin_eq_ok {s : Storage} {x : Unit} :
  requireProxyAdmin host s = .ok x ↔ ∃ admin, s.proxyAdmin = some admin ∧ host.auth admin = true
  := by
  simp only [requireProxyAdmin, Checks.bind_eq_ok, unwrap_eq_ok, requireAuth_eq_ok]

/-- The migration of the admin succeeds when the state passes the comparison, and it lifts the
seal. -/
theorem migrate_succeeds {snapshot : InvariantSnapshot} {admin : Address}
    (hadmin : w.storage.proxyAdmin = some admin) (hauth : host.auth admin = true) (hsealed : Sealed w)
    (hsnapshot : w.storage.invariantSnapshot = some snapshot)
    (hcheck : checkSnapshot pkg snapshot w = .ok ()) :
  ∃ w' events, migrate pkg host w = .ok (w', events) ∧ w'.storage.migrationPending = none
    ∧ w'.storage.invariantSnapshot = none
  := by
  refine ⟨{ w with storage := { w.storage with
      migrationPending := none
      invariantSnapshot := none
      schemaVersion := some CURRENT_SCHEMA_VERSION } },
    [.MigrationCompleted CURRENT_SCHEMA_VERSION], ?_, rfl, rfl⟩
  rw [migrate, if_pos (sealed_iff.mp hsealed)]
  simp only [errorIf, Checks.bind_eq_ok, requireProxyAdmin_eq_ok, Checks.rejectIf_eq_ok,
    unwrap_eq_ok, Checks.pure_eq_ok]
  exact ⟨(), ⟨admin, hadmin, hauth⟩, (), by decide, snapshot, hsnapshot, (), hcheck, trivial⟩

/-! ### Runs -/

/-- The window of a sealed state in a run: the first upgrade of the window, after which the
token has been sealed, with the snapshot that this upgrade took. -/
structure Window (pkg : Packages) (init : TokenInit) (w₀ : World) (ls : List Label) (w : World) :
    Prop where
  opened : ∃ before l after u v snapshot, ls = before ++ l :: after
    ∧ (system pkg init).Run w₀ before u ∧ ¬ Sealed u
    ∧ (system pkg init).step u l v ∧ l.Upgrades
    ∧ ((system pkg init).restrict fun s _ t => Sealed s ∧ Sealed t).Run v after w
    ∧ Unchanged u w
    ∧ takeSnapshot pkg u = .ok snapshot ∧ w.storage.invariantSnapshot = some snapshot

section Runs

variable (laws : pkg.base.Lawful)

include laws

/-- A state is sealed exactly when it has a snapshot, and then it is in a window. -/
theorem window_of_run {w₀ : World} {ls : List Label} (hinit : (system pkg init).init w₀)
    (h : (system pkg init).Run w₀ ls w) :
  (Sealed w → Window pkg init w₀ ls w) ∧ (¬ Sealed w → w.storage.invariantSnapshot = none)
  := by
  obtain ⟨usdc, rfl⟩ := hinit
  induction h with
  | nil => exact ⟨fun h => absurd h (not_sealed_of_none rfl), fun _ => rfl⟩
  | @snoc t t' ls l hrun hstep ih =>
    obtain ⟨hwindow, hnone⟩ := ih
    have hseal := Step.sealStep laws hstep
    use ?_, hseal.unseals hnone
    intro hsealed'
    by_cases hsealed : Sealed t
    · obtain ⟨before, l₀, after, u, v, snapshot, rfl, hbefore, hu, hopen, hupgrades, hafter,
        hunchanged, htaken, hsnapshot⟩ := (hwindow hsealed).opened
      obtain ⟨hunchanged', hsame⟩ := hseal.keeps hsealed hsealed'
      refine ⟨before, l₀, after ++ [l], u, v, snapshot, ?_, hbefore, hu, hopen, hupgrades, ?_,
        hunchanged.trans hunchanged', htaken, ?_⟩
      · rw [List.append_assoc, List.cons_append]
      · exact .snoc hafter ⟨hstep, hsealed, hsealed'⟩
      · rw [hsame, hsnapshot]
    · obtain ⟨hupgrades, hunchanged, snapshot, htaken, hsnapshot⟩ := hseal.seals hsealed hsealed'
      exact ⟨ls, l, [], t, t', snapshot, rfl, hrun, hsealed, hstep, hupgrades, .nil t', hunchanged,
        htaken, hsnapshot⟩

/-- In every run a snapshot is stored exactly while the token is sealed. A sealed token is in a
window that an upgrade has opened: since then nothing that the seal keeps has changed, the
snapshot is the one that this upgrade took, and the migration of the admin succeeds and clears
both. -/
theorem upgrade_gate {w₀ : World} {ls : List Label} (hinit : (system pkg init).init w₀)
    (h : (system pkg init).Run w₀ ls w) :
  (w.storage.invariantSnapshot.isSome = true ↔ Sealed w)
    ∧ (Sealed w → Window pkg init w₀ ls w)
    ∧ (Sealed w → ∀ host admin, w.storage.proxyAdmin = some admin → host.auth admin = true →
        ∃ w' events, migrate pkg host w = .ok (w', events) ∧ w'.storage.migrationPending = none
          ∧ w'.storage.invariantSnapshot = none)
  := by
  obtain ⟨hwindow, hnone⟩ := window_of_run laws hinit h
  refine ⟨⟨?_, ?_⟩, hwindow, ?_⟩
  · intro hsome
    by_contra hsealed
    rw [hnone hsealed] at hsome
    cases hsome
  · intro hsealed
    obtain ⟨_, _, _, _, _, snapshot, _, _, _, _, _, _, _, _, hsnapshot⟩ := (hwindow hsealed).opened
    rw [hsnapshot]
    rfl
  · intro hsealed host admin hadmin hauth
    obtain ⟨_, _, _, _, _, snapshot, _, _, _, _, _, _, hunchanged, htaken, hsnapshot⟩ :=
      (hwindow hsealed).opened
    apply migrate_succeeds hadmin hauth hsealed hsnapshot
    apply checkSnapshot_of_takeSnapshot
    rwa [takeSnapshot_congr hunchanged]

end Runs

/-! ### A small token -/

/-- The bytes of the configuration of the small token. -/
def sampleConfigBytes : List UInt8 :=
  plainPackages.bytesToXdr 1 ++ plainPackages.addressToXdr (.account 10)
    ++ plainPackages.addressToXdr (.account 12) ++ plainPackages.addressToXdr (.account 11)
    ++ plainPackages.addressToXdr (.contract 4) ++ plainPackages.addressToXdr (.contract 5)
    ++ plainPackages.addressToXdr (.contract 6)
    ++ plainPackages.i128ToXdr (sampleInit (.account 11)).artistRetention
    ++ plainPackages.i128ToXdr (sampleInit (.account 11)).treasuryRetention
    ++ plainPackages.i128ToXdr ⟨0, inI128_zero⟩

/-- A world in which the small token has been upgraded. -/
def sampleUpgraded (w : World) (supply : ℤ) (minted : Bool) : World :=
  { w with storage := { w.storage with
      migrationPending := some true
      invariantSnapshot := some ⟨supply, 100, 100, minted, plainPackages.sha256 sampleConfigBytes⟩
      implWasmHash := some 8 } }

/-- The label of the upgrade. -/
def sampleUpgrade : Label := .call sampleHost (.upgrade 8) [.ProxyUpgraded 7 8]

theorem sampleUpgraded_step :
  Step plainPackages (sampleMinted (.account 11) (.account 10)) sampleUpgrade
    (sampleUpgraded (sampleMinted (.account 11) (.account 10)) 7 true)
  := .call rfl

/-- The admin of the small token migrates it after the upgrade. -/
theorem upgrade_gate_sampleUpgraded :
  ∃ w' events,
    migrate plainPackages sampleHost
        (sampleUpgraded (sampleMinted (.account 11) (.account 10)) 7 true)
      = .ok (w', events) ∧ w'.storage.migrationPending = none
      ∧ w'.storage.invariantSnapshot = none
  := (upgrade_gate plainBase_lawful ⟨fun _ _ => 0, rfl⟩
    (.snoc (.single (sampleMinted_step (.account 11) (.account 10))) sampleUpgraded_step)).2.2
    rfl sampleHost (.account 1) rfl rfl

end Token
