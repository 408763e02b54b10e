import Tove.Token.Upgrade

/-!
# Recovery from a rogue executable

Between the upgrade that seals the token and a migration by the canonical executable, other
executables may have written every slot but the seal and the snapshot. The migration compares
the state with the snapshot, so what it lets pass agrees with the state at the first upgrade, up
to one thing: the digest of the configuration reads an empty leftover slot as a leftover of
zero.
-/

namespace Token

open Soroban Ledgers Transition Digits

/-! ### The interim -/

/-- A step while the token is sealed: a rogue executable writes, or the canonical executable
runs. -/
inductive InterimLabel where
  | rogue
  | canonical (l : Label)

/-- The steps while the token is sealed. A rogue executable writes anything but the seal and the
snapshot. -/
inductive InterimStep (pkg : Packages) : World → InterimLabel → World → Prop where
  | rogue {w w' : World} : w'.storage.migrationPending = w.storage.migrationPending →
    w'.storage.invariantSnapshot = w.storage.invariantSnapshot → InterimStep pkg w .rogue w'
  | canonical {w w' : World} {l : Label} : Step pkg w l w' → Sealed w' →
    InterimStep pkg w (.canonical l) w'

/-- The interim, which the upgrade of a reachable token begins. -/
def interim (pkg : Packages) (u : World) : System World InterimLabel where
  init v := ∃ host newWasmHash events, upgrade pkg host newWasmHash u = .ok (v, events)
  step := InterimStep pkg

/-! ### What the gate promises -/

/-- The slots that the digest covers, the leftover apart. -/
def Storage.digested (s : Storage) : Storage :=
  { s.fixed with artistLockupUntil := none, treasuryLockupUntil := none }

/-- The leftover as the digest reads it. -/
def Storage.leftover (s : Storage) : I128 := s.artistAbsorbedLeftover.getD ⟨0, inI128_zero⟩

/-- A lockup that is not shortened. -/
def Prolongs (lockup lockup' : Option ℕ) : Prop :=
  ∃ t ∈ lockup, ∃ t' ∈ lockup', t ≤ t'

/-- What the gate compares agrees: the supply and the digested slots are the same, no lockup is
shortened, the distribution is made or not, and the leftover reads the same. -/
structure Agrees (u w : World) : Prop where
  totalSupply : w.holdings.totalSupply = u.holdings.totalSupply
  digested : w.storage.digested = u.storage.digested
  artistLockupUntil : Prolongs u.storage.artistLockupUntil w.storage.artistLockupUntil
  treasuryLockupUntil : Prolongs u.storage.treasuryLockupUntil w.storage.treasuryLockupUntil
  mintDone : w.storage.mintDone.isSome = u.storage.mintDone.isSome
  leftover : w.storage.leftover = u.storage.leftover

/-- What the gate promises of a state `w` that other executables have written since the upgrade
of `u`. -/
structure GateHolds (pkg : Packages) (u w : World) : Prop where
  sound : ∀ host w' events, migrate pkg host w = .ok (w', events) →
    Agrees u w' ∧ w'.storage.artistAbsorbedLeftover = u.storage.artistAbsorbedLeftover
  complete : w.storage.guarded = u.storage.guarded →
    w.holdings.totalSupply = u.holdings.totalSupply →
    ∀ host admin, w.storage.proxyAdmin = some admin → host.auth admin = true →
      ∃ w' events, migrate pkg host w = .ok (w', events)
  sealed : Sealed w ∧ w.storage.invariantSnapshot.isSome = true
    ∧ ∀ host c, (c.movement.isSome = true
        ∨ (∃ operator recipients, c = .mintSettle operator recipients)
        ∨ ∃ operator amount, c = .recordAbsorbedLeftover operator amount) →
      ∀ r, perform pkg host c w ≠ .ok r

/-- An empty leftover slot has been filled with zero, or a leftover of zero has been removed,
and everything else that the gate compares agrees. -/
def LeftoverSwapped (u w : World) : Prop :=
  Agrees u w ∧ w.storage.artistAbsorbedLeftover ≠ u.storage.artistAbsorbedLeftover
    ∧ w.storage.proxyAdmin.isSome = true

/-! ### The encodings -/

/-- The encodings of values are delimited: what follows an encoding can be told from it. -/
structure Packages.Delimited (pkg : Packages) : Prop where
  bytes : ∀ {x y s t}, pkg.bytesToXdr x ++ s = pkg.bytesToXdr y ++ t → x = y ∧ s = t
  address : ∀ {x y s t}, pkg.addressToXdr x ++ s = pkg.addressToXdr y ++ t → x = y ∧ s = t
  i128 : ∀ {x y s t}, pkg.i128ToXdr x ++ s = pkg.i128ToXdr y ++ t → x = y ∧ s = t

theorem toNat_lt (b : BytesN32) :
  b.toNat < 256 ^ 32
  := b.isLt

/-- The encodings of XDR are delimited. -/
theorem plainPackages_delimited :
  plainPackages.Delimited
  := by
  constructor
  · intro x y s t h
    simp only [plainPackages, List.append_assoc] at h
    obtain ⟨_, h⟩ := bigEndian_append_inj (by decide) (by decide) h
    obtain ⟨_, h⟩ := bigEndian_append_inj (by decide) (by decide) h
    obtain ⟨hkey, h⟩ := bigEndian_append_inj (toNat_lt x) (toNat_lt y) h
    exact ⟨BitVec.eq_of_toNat_eq hkey, h⟩
  · intro x y s t h
    cases x <;> cases y
    all_goals
      simp only [plainPackages, List.append_assoc] at h
      obtain ⟨_, h⟩ := bigEndian_append_inj (by decide) (by decide) h
      obtain ⟨hvariant, h⟩ := bigEndian_append_inj (by decide) (by decide) h
    · obtain ⟨_, h⟩ := bigEndian_append_inj (by decide) (by decide) h
      obtain ⟨hkey, h⟩ := bigEndian_append_inj (toNat_lt _) (toNat_lt _) h
      exact ⟨congrArg _ (BitVec.eq_of_toNat_eq hkey), h⟩
    · cases hvariant
    · cases hvariant
    · obtain ⟨hkey, h⟩ := bigEndian_append_inj (toNat_lt _) (toNat_lt _) h
      exact ⟨congrArg _ (BitVec.eq_of_toNat_eq hkey), h⟩
  · intro x y s t h
    simp only [plainPackages, List.append_assoc] at h
    obtain ⟨_, h⟩ := bigEndian_append_inj (by decide) (by decide) h
    obtain ⟨hvalue, h⟩ := bigEndian_append_inj (by omega) (by omega) h
    refine ⟨Subtype.ext ?_, h⟩
    obtain ⟨hlow, hhigh⟩ := x.property
    obtain ⟨hlow', hhigh'⟩ := y.property
    simp only [MIN_I128, MAX_I128] at hlow hhigh hlow' hhigh'
    omega

variable {pkg : Packages} {host : Host} {u v w w' : World} {events : List Event}

/-- The bytes of the configuration determine the slots that the digest covers. -/
theorem configBytes_injective (hdelimited : pkg.Delimited) {s s' : Storage} {b : List UInt8}
    (h : configBytes pkg s = .ok b) (h' : configBytes pkg s' = .ok b) :
  s'.digested = s.digested ∧ s'.leftover = s.leftover
  := by
  simp only [configBytes, Checks.bind_eq_ok, unwrap_eq_ok, Checks.pure_eq_ok] at h h'
  obtain ⟨_, h₁, _, h₂, _, h₃, _, h₄, _, h₅, _, h₆, _, h₇, _, h₈, _, h₉, rfl⟩ := h
  obtain ⟨_, h₁', _, h₂', _, h₃', _, h₄', _, h₅', _, h₆', _, h₇', _, h₈', _, h₉', h'⟩ := h'
  simp only [List.append_assoc] at h'
  obtain ⟨e₁, h'⟩ := hdelimited.bytes h'
  obtain ⟨e₂, h'⟩ := hdelimited.address h'
  obtain ⟨e₃, h'⟩ := hdelimited.address h'
  obtain ⟨e₄, h'⟩ := hdelimited.address h'
  obtain ⟨e₅, h'⟩ := hdelimited.address h'
  obtain ⟨e₆, h'⟩ := hdelimited.address h'
  obtain ⟨e₇, h'⟩ := hdelimited.address h'
  obtain ⟨e₈, h'⟩ := hdelimited.i128 h'
  obtain ⟨e₉, h'⟩ := hdelimited.i128 h'
  have hleftover : pkg.i128ToXdr s'.leftover ++ [] = pkg.i128ToXdr s.leftover ++ [] := by
    rw [List.append_nil, List.append_nil]
    exact h'
  constructor
  · simp only [Storage.digested, Storage.fixed, h₁, h₂, h₃, h₄, h₅, h₆, h₇, h₈, h₉, h₁', h₂', h₃',
      h₄', h₅', h₆', h₇', h₈', h₉', e₁, e₂, e₃, e₄, e₅, e₆, e₇, e₈, e₉]
  · exact (hdelimited.i128 hleftover).1

/-- The bytes of the configuration are about the slots that the digest covers. -/
theorem configBytes_congr {s s' : Storage} (hdigested : s'.digested = s.digested)
    (hleftover : s'.leftover = s.leftover) :
  configBytes pkg s' = configBytes pkg s
  := by
  have hread : ∀ s : Storage, configBytes pkg s
      = configBytes pkg { s.digested with artistAbsorbedLeftover := some s.leftover } :=
    fun _ => rfl
  rw [hread s', hread s, hdigested, hleftover]

/-! ### The comparison -/

/-- What the snapshot of a state says. -/
theorem takeSnapshot_eq_ok {snapshot : InvariantSnapshot} (h : takeSnapshot pkg u = .ok snapshot) :
  snapshot.totalSupply = u.holdings.totalSupply
    ∧ u.storage.artistLockupUntil = some snapshot.artistLockupUntil
    ∧ u.storage.treasuryLockupUntil = some snapshot.treasuryLockupUntil
    ∧ snapshot.minted = u.storage.mintDone.isSome
    ∧ ∃ b, configBytes pkg u.storage = .ok b ∧ snapshot.configDigest = pkg.sha256 b
  := by
  simp only [takeSnapshot, configDigest, Checks.bind_eq_ok, Checks.pure_eq_ok, unwrap_eq_ok] at h
  obtain ⟨_, hartist, _, htreasury, _, ⟨b, hb, rfl⟩, rfl⟩ := h
  exact ⟨rfl, hartist, htreasury, rfl, b, hb, rfl⟩

theorem checkSnapshot_eq_ok {snapshot : InvariantSnapshot} {x : Unit} :
  checkSnapshot pkg snapshot w = .ok x
    ↔ (∃ t, w.storage.artistLockupUntil = some t ∧ snapshot.artistLockupUntil ≤ t)
      ∧ (∃ t, w.storage.treasuryLockupUntil = some t ∧ snapshot.treasuryLockupUntil ≤ t)
      ∧ w.holdings.totalSupply = snapshot.totalSupply
      ∧ w.storage.mintDone.isSome = snapshot.minted
      ∧ ∃ b, configBytes pkg w.storage = .ok b ∧ pkg.sha256 b = snapshot.configDigest
  := by
  simp only [checkSnapshot, configDigest, errorIf, Checks.bind_eq_ok, Checks.pure_eq_ok,
    unwrap_eq_ok, Checks.rejectIf_eq_ok, exists_const, ne_eq, not_not, not_lt]
  constructor
  · rintro ⟨t, ht, t', ht', hsupply, hle, hle', hminted, _, ⟨b, hb, rfl⟩, hdigest⟩
    exact ⟨⟨t, ht, hle⟩, ⟨t', ht', hle'⟩, hsupply, hminted, b, hb, hdigest⟩
  · rintro ⟨⟨t, ht, hle⟩, ⟨t', ht', hle'⟩, hsupply, hminted, b, hb, hdigest⟩
    exact ⟨t, ht, t', ht', hsupply, hle, hle', hminted, _, ⟨b, hb, rfl⟩, hdigest⟩

/-- No two configurations of the two states have the same hash. -/
def NoCollision (pkg : Packages) (u w : World) : Prop :=
  ∀ b b', configBytes pkg u.storage = .ok b → configBytes pkg w.storage = .ok b' →
    pkg.sha256 b = pkg.sha256 b' → b = b'

/-- A state passes the comparison with the snapshot of another state exactly when it agrees with
that state. -/
theorem checkSnapshot_iff_agrees (hdelimited : pkg.Delimited) (hcollision : NoCollision pkg u w)
    {snapshot : InvariantSnapshot} (htaken : takeSnapshot pkg u = .ok snapshot) {x : Unit} :
  checkSnapshot pkg snapshot w = .ok x ↔ Agrees u w
  := by
  obtain ⟨hsupply, hartist, htreasury, hminted, b, hb, hdigest⟩ := takeSnapshot_eq_ok htaken
  rw [checkSnapshot_eq_ok, hsupply, hminted, hdigest]
  constructor
  · rintro ⟨⟨t, ht, hle⟩, ⟨t', ht', hle'⟩, hsupply', hminted', b', hb', hdigest'⟩
    obtain rfl := hcollision b b' hb hb' hdigest'.symm
    obtain ⟨hdigested, hleftover⟩ := configBytes_injective hdelimited hb hb'
    exact ⟨hsupply', hdigested, ⟨_, hartist, t, ht, hle⟩, ⟨_, htreasury, t', ht', hle'⟩, hminted',
      hleftover⟩
  · intro h
    obtain ⟨_, hmem, t, ht, hle⟩ := h.artistLockupUntil
    obtain ⟨_, hmem', t', ht', hle'⟩ := h.treasuryLockupUntil
    obtain rfl := Option.some.inj (hartist.symm.trans hmem)
    obtain rfl := Option.some.inj (htreasury.symm.trans hmem')
    refine ⟨⟨t, ht, hle⟩, ⟨t', ht', hle'⟩, h.totalSupply, h.mintDone, b, ?_, rfl⟩
    rw [configBytes_congr h.digested h.leftover, hb]

/-! ### The interim keeps the seal -/

theorem InterimStep.keeps (laws : pkg.base.Lawful) {l : InterimLabel} (h : InterimStep pkg w l w')
    (hsealed : Sealed w) :
  Sealed w' ∧ w'.storage.invariantSnapshot = w.storage.invariantSnapshot
  := by
  cases h with
  | rogue hpending hsnapshot =>
    rw [Sealed, hpending]
    exact ⟨hsealed, hsnapshot⟩
  | canonical hstep hsealed' =>
    exact ⟨hsealed', ((Step.sealStep laws hstep).keeps hsealed hsealed').2⟩

/-- In the interim the token is sealed with the snapshot of the first upgrade. -/
theorem snapshot_of_interim (laws : pkg.base.Lawful) (hu : ¬ Sealed u)
    (h : (interim pkg u).Reachable w) :
  Sealed w ∧ ∃ snapshot, takeSnapshot pkg u = .ok snapshot
    ∧ w.storage.invariantSnapshot = some snapshot
  := by
  apply h.invariant (I := fun w => Sealed w ∧ ∃ snapshot, takeSnapshot pkg u = .ok snapshot
    ∧ w.storage.invariantSnapshot = some snapshot)
  · rintro v ⟨host, newWasmHash, events, hupgrade⟩
    have hchange := change_of_perform laws (show perform pkg host (.upgrade newWasmHash) u = _
      from hupgrade)
    cases hchange with
    | upgrade _ _ hstorage =>
      rcases recordSnapshot_cases hstorage with ⟨hpending, _⟩ | hfirst
      · cases hu hpending
      · obtain ⟨_, snapshot, hsnapshot, rfl⟩ := hfirst
        exact ⟨rfl, snapshot, hsnapshot, rfl⟩
    | move hmovement => cases hmovement
    | configure hconfigures => cases hconfigures
  · rintro w l w' ⟨hsealed, snapshot, htaken, hsnapshot⟩ hstep
    obtain ⟨hsealed', hsame⟩ := InterimStep.keeps laws hstep hsealed
    exact ⟨hsealed', snapshot, htaken, hsame.trans hsnapshot⟩

/-- A sealed token moves nothing, issues nothing and records no leftover. -/
theorem Sealed.rejects (laws : pkg.base.Lawful) (h : Sealed w) {c : Call}
    (hc : c.movement.isSome = true ∨ (∃ operator recipients, c = .mintSettle operator recipients)
      ∨ ∃ operator amount, c = .recordAbsorbedLeftover operator amount) (r : World × List Event) :
  perform pkg host c w ≠ .ok r
  := by
  obtain ⟨w', events⟩ := r
  intro hok
  have hchange := change_of_perform laws hok
  rcases hc with hmoves | ⟨operator, recipients, rfl⟩ | ⟨operator, amount, rfl⟩
  · obtain ⟨m, hm⟩ := Option.isSome_iff_exists.mp hmoves
    apply not_sealed_of_none (hchange.cleared hm).2.1.notPending h
  · cases hchange with
    | mint hminter => apply not_sealed_of_none hminter.notPending h
    | move hmovement => cases hmovement
    | configure hconfigures => cases hconfigures
  · cases hchange with
    | record hminter => apply not_sealed_of_none hminter.notPending h
    | move hmovement => cases hmovement
    | configure hconfigures => cases hconfigures

/-- What a successful migration of a sealed token has compared, and what it leaves. -/
theorem migrate_eq_ok {snapshot : InvariantSnapshot} (hsealed : Sealed w)
    (hsnapshot : w.storage.invariantSnapshot = some snapshot)
    (h : migrate pkg host w = .ok (w', events)) :
  w.storage.proxyAdmin.isSome = true ∧ checkSnapshot pkg snapshot w = .ok ()
    ∧ w' = { w with storage := { w.storage with
        migrationPending := none
        invariantSnapshot := none
        schemaVersion := some CURRENT_SCHEMA_VERSION } }
  := by
  rw [migrate, Checks.check_bind_eq_ok, requireProxyAdmin_eq_ok,
    if_pos (sealed_iff.mp hsealed)] at h
  simp only [Checks.bind_eq_ok, Checks.pure_eq_ok, unwrap_eq_ok, Prod.mk.injEq] at h
  obtain ⟨⟨admin, hadmin, _⟩, _, _, _, hsnapshot', _, hcheck, rfl, _⟩ := h
  obtain rfl := Option.some.inj (hsnapshot.symm.trans hsnapshot')
  exact ⟨hadmin ▸ rfl, hcheck, rfl⟩

/-- A state whose slots are untouched agrees with the state at the upgrade. -/
theorem agrees_of_untouched {snapshot : InvariantSnapshot}
    (htaken : takeSnapshot pkg u = .ok snapshot) (hstorage : w.storage.guarded = u.storage.guarded)
    (hsupply : w.holdings.totalSupply = u.holdings.totalSupply) :
  Agrees u w
  := by
  obtain ⟨_, hartist, htreasury, _⟩ := takeSnapshot_eq_ok htaken
  have hread : ∀ {α : Type} (f : Storage → α), f w.storage.guarded = f u.storage.guarded :=
    fun f => congrArg f hstorage
  constructor
  · apply hsupply
  · apply hread Storage.digested
  · exact ⟨_, hartist, _, (hread Storage.artistLockupUntil).trans hartist, le_rfl⟩
  · exact ⟨_, htreasury, _, (hread Storage.treasuryLockupUntil).trans htreasury, le_rfl⟩
  · apply hread fun s => s.mintDone.isSome
  · apply hread Storage.leftover

/-- The gate holds what it promises of every state that other executables leave, unless they
have only exchanged an empty leftover slot and a leftover of zero. -/
theorem gate_against_rogue (laws : pkg.base.Lawful) (hdelimited : pkg.Delimited)
    (hunsealed : ¬ Sealed u) (hw : (interim pkg u).Reachable w) (hcollision : NoCollision pkg u w) :
  GateHolds pkg u w ↔ ¬ LeftoverSwapped u w
  := by
  obtain ⟨hsealed, snapshot, htaken, hsnapshot⟩ := snapshot_of_interim laws hunsealed hw
  have hcheck : checkSnapshot pkg snapshot w = .ok () ↔ Agrees u w :=
    checkSnapshot_iff_agrees hdelimited hcollision htaken
  constructor
  · rintro h ⟨hagrees, hne, hadmin⟩
    obtain ⟨admin, hadmin⟩ := Option.isSome_iff_exists.mp hadmin
    obtain ⟨w', events, hmigrate, _⟩ := @migrate_succeeds pkg sampleHost _ _ _ hadmin rfl hsealed
      hsnapshot (hcheck.mpr hagrees)
    apply hne
    rw [← (h.sound _ _ _ hmigrate).2, (migrate_eq_ok hsealed hsnapshot hmigrate).2.2]
  · intro hswapped
    constructor
    · intro host w' events hmigrate
      obtain ⟨hadmin, hok, rfl⟩ := migrate_eq_ok hsealed hsnapshot hmigrate
      have hagrees := hcheck.mp hok
      constructor
      · exact ⟨hagrees.totalSupply, hagrees.digested, hagrees.artistLockupUntil,
          hagrees.treasuryLockupUntil, hagrees.mintDone, hagrees.leftover⟩
      · by_contra hne
        exact hswapped ⟨hagrees, hne, hadmin⟩
    · intro hstorage hsupply host admin hadmin hauth
      obtain ⟨w', events, hmigrate, _⟩ := migrate_succeeds hadmin hauth hsealed hsnapshot
        (hcheck.mpr (agrees_of_untouched htaken hstorage hsupply))
      exact ⟨w', events, hmigrate⟩
    · exact ⟨hsealed, hsnapshot ▸ rfl, fun _ _ hc r => hsealed.rejects laws hc r⟩

/-! ### A small token -/

/-- The small token, upgraded before its distribution. -/
def sampleInterim : World := sampleUpgraded (sampleToken (.account 11)) 0 false

/-- The small token after a rogue executable has replaced its allowlist. -/
def sampleRogue : World :=
  { sampleInterim with
    storage := { sampleInterim.storage with kycAllowlist := some (.contract 99) } }

/-- The small token after a rogue executable has recorded a leftover of zero. -/
def sampleZeroLeftover : World :=
  { sampleInterim with
    storage := { sampleInterim.storage with artistAbsorbedLeftover := some ⟨0, inI128_zero⟩ } }

theorem sampleInterim_reachable :
  (interim plainPackages (sampleToken (.account 11))).Reachable sampleInterim
  := .init ⟨sampleHost, 8, [.ProxyUpgraded 7 8], rfl⟩

theorem sampleRogue_reachable :
  (interim plainPackages (sampleToken (.account 11))).Reachable sampleRogue
  := sampleInterim_reachable.step (.rogue rfl rfl)

theorem sampleZeroLeftover_reachable :
  (interim plainPackages (sampleToken (.account 11))).Reachable sampleZeroLeftover
  := sampleInterim_reachable.step (.rogue rfl rfl)

/-- The gate holds for the small token with another allowlist. -/
theorem gate_against_rogue_sampleRogue :
  GateHolds plainPackages (sampleToken (.account 11)) sampleRogue
  := (gate_against_rogue plainBase_lawful plainPackages_delimited (not_sealed_of_none rfl)
    sampleRogue_reachable fun _ _ h h' _ => Except.ok.inj (h.symm.trans h')).mpr fun h => h.2.1 rfl

/-- The gate lets a recorded leftover of zero pass where no leftover was recorded. -/
theorem not_forall_gateHolds :
  ¬ ∀ (pkg : Packages) (init : TokenInit) (u w : World), pkg.base.Lawful → pkg.Delimited →
    (system pkg init).Reachable u → ¬ Sealed u → (interim pkg u).Reachable w → NoCollision pkg u w →
    GateHolds pkg u w
  := by
  intro h
  have hgate := h plainPackages _ _ _ plainBase_lawful plainPackages_delimited
    (sampleToken_reachable (.account 11)) (not_sealed_of_none rfl) sampleZeroLeftover_reachable
    fun _ _ hb hb' _ => Except.ok.inj (hb.symm.trans hb')
  obtain ⟨w', events, hmigrate, _⟩ := @migrate_succeeds plainPackages sampleHost sampleZeroLeftover
    ⟨0, 100, 100, false, plainPackages.sha256 sampleConfigBytes⟩ (.account 1) rfl rfl rfl rfl
    (checkSnapshot_eq_ok.mpr ⟨⟨100, rfl, le_rfl⟩, ⟨100, rfl, le_rfl⟩, rfl, rfl, _, rfl, rfl⟩)
  have hleftover := (hgate.sound _ _ _ hmigrate).2
  obtain ⟨_, _, rfl⟩ := migrate_eq_ok (w := sampleZeroLeftover) rfl rfl hmigrate
  cases hleftover

end Token
