import Tove.Token.Configuration

/-!
# Lockup floors

While a lockup is running, the account that is locked keeps its floor. The guard compares the
source of a movement with the artist first and with the treasury second, so an account that is
both is checked against the floor of the artist only.
-/

namespace Token

open Soroban Ledgers Transition

/-! ### One step -/

/-- The time at which a step calls the contract. -/
def Label.time : Label → Option ℕ
  | .call host _ _ | .failed host _ _ => some host.timestamp
  | .outside => none

/-- A step that is not a movement out of an account that is both the artist and the treasury, at
a time when only the floor of the treasury would hold it back. -/
def Separate (init : TokenInit) (w : World) : Label → Prop
  | .call host c _ => ∀ m, c.movement = some m → m.source = some init.treasury →
    init.artist = init.treasury → host.timestamp < init.treasuryLockupUntil →
    host.timestamp < init.artistLockupUntil ∧ (init.treasuryRetention : ℤ) ≤ w.storage.artistFloor
  | _ => True

variable {pkg : Packages} {init : TokenInit} {host : Host} {w w' : World} {c : Call} {l : Label}
  {events : List Event}

/-- A change keeps the floor of the artist while its lockup is running. -/
theorem Change.keeps_artistFloor (h : Change pkg host w c w' events)
    (hw : Configured init w.storage) (hminted : w.storage.mintDone.isSome = true)
    (htime : host.timestamp < init.artistLockupUntil) :
  KeepsFloor w.storage.artistFloor (w.holdings.balances init.artist)
    (w'.holdings.balances init.artist)
  := by
  rcases h.balances hminted with hsame | ⟨m, _, _, hcleared, hmoved⟩
  · rw [hsame]
    apply KeepsFloor.refl
  · rw [hmoved.balances]
    apply m.keepsFloor hmoved.nonneg
    intro hsource
    apply hcleared.artistFloor _ hsource hw.artist (hw.artistLocked htime)

/-- A change keeps the floor of the treasury while its lockup is running, unless the treasury is
the artist and is not held back as the artist. -/
theorem Change.keeps_treasuryFloor (h : Change pkg host w c w' events)
    (hw : Configured init w.storage) (hminted : w.storage.mintDone.isSome = true)
    (htime : host.timestamp < init.treasuryLockupUntil)
    (hseparate : Separate init w (.call host c events)) :
  KeepsFloor init.treasuryRetention (w.holdings.balances init.treasury)
    (w'.holdings.balances init.treasury)
  := by
  rcases h.balances hminted with hsame | ⟨m, hc, _, hcleared, hmoved⟩
  · rw [hsame]
    apply KeepsFloor.refl
  · rw [hmoved.balances]
    apply m.keepsFloor hmoved.nonneg
    intro hsource
    by_cases hartist : init.artist = init.treasury
    · obtain ⟨hlocked, hle⟩ := hseparate m hc hsource hartist htime
      apply hle.trans
      rw [← hartist] at hsource ⊢
      apply hcleared.artistFloor _ hsource hw.artist (hw.artistLocked hlocked)
    · have hne : w.storage.artist ≠ some init.treasury := by
        rw [hw.artist]
        intro heq
        apply hartist (Option.some.inj heq)
      rw [← hw.treasuryFloor]
      apply hcleared.treasuryFloor _ hsource hne hw.treasury (hw.treasuryLocked htime)

/-! ### Runs -/

/-- Both floors are kept between two states, as far as the lockups are running at all the times
of the steps between them. -/
structure FloorsKept (init : TokenInit) (ls : List Label) (w w' : World) : Prop where
  artist : (∀ l ∈ ls, ∀ time ∈ l.time, time < init.artistLockupUntil) →
    w'.storage.artistFloor = w.storage.artistFloor
      ∧ KeepsFloor w.storage.artistFloor (w.holdings.balances init.artist)
        (w'.holdings.balances init.artist)
  treasury : (∀ l ∈ ls, ∀ time ∈ l.time, time < init.treasuryLockupUntil) →
    KeepsFloor init.treasuryRetention (w.holdings.balances init.treasury)
      (w'.holdings.balances init.treasury)

theorem FloorsKept.nil (init : TokenInit) (w : World) :
  FloorsKept init [] w w
  := ⟨fun _ => ⟨rfl, .refl _ _⟩, fun _ => .refl _ _⟩

theorem FloorsKept.snoc {w'' : World} {ls : List Label} (h : FloorsKept init ls w w')
    (h' : FloorsKept init [l] w' w'') :
  FloorsKept init (ls ++ [l]) w w''
  := by
  constructor
  · intro htime
    obtain ⟨hfloor, hkept⟩ := h.artist fun l' hl' => htime l' (List.mem_append_left _ hl')
    obtain ⟨hfloor', hkept'⟩ := h'.artist fun l' hl' => htime l' (List.mem_append_right _ hl')
    rw [hfloor] at hkept' hfloor'
    exact ⟨hfloor', hkept.trans hkept'⟩
  · intro htime
    apply (h.treasury fun l' hl' => htime l' (List.mem_append_left _ hl')).trans
    apply h'.treasury fun l' hl' => htime l' (List.mem_append_right _ hl')

section Runs

variable (laws : pkg.base.Lawful)

include laws

/-- A step at a time when the lockup of the artist is running keeps its floor. -/
theorem Step.keeps_artistFloor (h : Step pkg w l w') (hw : Configured init w.storage)
    (hminted : w.storage.mintDone.isSome = true)
    (htime : ∀ time ∈ l.time, time < init.artistLockupUntil) :
  w'.storage.artistFloor = w.storage.artistFloor
    ∧ KeepsFloor w.storage.artistFloor (w.holdings.balances init.artist)
      (w'.holdings.balances init.artist)
  := by
  cases h with
  | @call host c _ _ events hok =>
    have hchange := change_of_perform laws hok
    use by
      rw [Storage.artistFloor, (hchange.minted hminted).2, (hchange.configured hw).artistRetention,
        ← hw.artistRetention]
      rfl
    apply hchange.keeps_artistFloor hw hminted (htime host.timestamp rfl)
  | failed => exact ⟨rfl, .refl _ _⟩
  | outside => exact ⟨rfl, .refl _ _⟩

/-- A run as long as the lockup of the artist is running keeps its floor. -/
theorem Run.keeps_artistFloor {ls : List Label} (hrun : (system pkg init).Run w ls w')
    (hw : Configured init w.storage) (hminted : w.storage.mintDone.isSome = true)
    (htime : ∀ l ∈ ls, ∀ time ∈ l.time, time < init.artistLockupUntil) :
  w'.storage.artistFloor = w.storage.artistFloor
    ∧ KeepsFloor w.storage.artistFloor (w.holdings.balances init.artist)
      (w'.holdings.balances init.artist)
  := by
  have hkept : (Configured init w'.storage ∧ w'.storage.mintDone.isSome = true)
      ∧ w'.storage.artistFloor = w.storage.artistFloor
      ∧ KeepsFloor w.storage.artistFloor (w.holdings.balances init.artist)
        (w'.holdings.balances init.artist) := by
    induction hrun with
    | nil => exact ⟨⟨hw, hminted⟩, rfl, .refl _ _⟩
    | snoc _ hstep ih =>
      obtain ⟨⟨hw', hminted'⟩, hfloor, hkept⟩ :=
        ih fun l' hl' => htime l' (List.mem_append_left _ hl')
      obtain ⟨hfloor', hkept'⟩ := Step.keeps_artistFloor laws hstep hw' hminted'
        (htime _ (List.mem_append_right _ (List.mem_singleton.mpr rfl)))
      rw [hfloor] at hfloor' hkept'
      exact ⟨⟨Step.configured laws hstep hw', (Step.minted laws hstep hminted').1⟩, hfloor',
        hkept.trans hkept'⟩
  exact hkept.2

theorem Step.floorsKept (h : Step pkg w l w') (hw : Configured init w.storage)
    (hminted : w.storage.mintDone.isSome = true) (hseparate : Separate init w l) :
  FloorsKept init [l] w w'
  := by
  constructor
  · intro htime
    apply Step.keeps_artistFloor laws h hw hminted (htime _ (List.mem_singleton.mpr rfl))
  · intro htime
    cases h with
    | @call host c _ _ events hok =>
      have hlt := htime _ (List.mem_singleton.mpr rfl) host.timestamp rfl
      apply (change_of_perform laws hok).keeps_treasuryFloor hw hminted hlt hseparate
    | failed => apply KeepsFloor.refl
    | outside => apply KeepsFloor.refl

/-- After the distribution, every run whose steps are separate keeps both floors while their
lockups are running. -/
theorem floors_kept {ls : List Label}
    (hw : (system pkg init).Reachable w)
    (hminted : w.storage.mintDone.isSome = true)
    (hrun : ((system pkg init).restrict fun w l _ => Separate init w l).Run w ls w') :
  FloorsKept init ls w w'
  := by
  have hconfigured := configured_of_reachable laws hw
  have hkept : FloorsKept init ls w w' ∧ Configured init w'.storage
      ∧ w'.storage.mintDone.isSome = true := by
    clear hw
    induction hrun with
    | nil => exact ⟨.nil init w, hconfigured, hminted⟩
    | snoc _ hstep ih =>
      obtain ⟨hkept, hconfigured', hminted'⟩ := ih
      obtain ⟨hstep, hseparate⟩ := hstep
      use hkept.snoc (Step.floorsKept laws hstep hconfigured' hminted' hseparate)
      exact ⟨Step.configured laws hstep hconfigured', (Step.minted laws hstep hminted').1⟩
  exact hkept.1

end Runs

/-! ### A small token -/

/-- The small token after its holder has sent five of its seven units away. -/
def sampleSent (treasury holder : Address) : World :=
  { sampleMinted treasury holder with
    holdings := ⟨Movement.post ⟨some holder, some (.account 20), 5⟩
      (sampleMinted treasury holder).holdings.balances, 7 + 0, fun _ _ => (0, 0)⟩ }

/-- The label of the transfer. -/
def sampleTransfer (holder : Address) : Label :=
  .call sampleHost (.transfer holder ⟨.account 20, none⟩ 5)
    [.Transfer holder (.account 20) none 5]

/-- The artist, who is not the treasury, sends what is above its floor. -/
theorem sampleTransfer_step :
  Step plainPackages (sampleMinted (.account 11) (.account 10)) (sampleTransfer (.account 10))
    (sampleSent (.account 11) (.account 10))
  := .call rfl

/-- An artist that is also the treasury sends what is above the floor of the artist. -/
theorem sampleTransfer_step_shared :
  Step plainPackages (sampleMinted (.account 10) (.account 10)) (sampleTransfer (.account 10))
    (sampleSent (.account 10) (.account 10))
  := .call rfl

/-- Both floors of the small token are kept by the transfer of its artist. -/
theorem floors_kept_sampleSent :
  FloorsKept (sampleInit (.account 11)) [sampleTransfer (.account 10)]
    (sampleMinted (.account 11) (.account 10)) (sampleSent (.account 11) (.account 10))
  := by
  apply floors_kept plainBase_lawful (sampleMinted_reachable (.account 11) (.account 10)) rfl
  apply System.Run.single
  use sampleTransfer_step
  intro m hm hsource hartist
  revert hartist
  decide

/-- Not every run keeps the floor of the treasury: an artist that is also the treasury takes its
balance below it. -/
theorem not_forall_floors_kept :
  ¬ ∀ (pkg : Packages) (init : TokenInit) (w w' : World) (ls : List Label), pkg.base.Lawful →
    (system pkg init).Reachable w → w.storage.mintDone.isSome = true →
    (system pkg init).Run w ls w' → FloorsKept init ls w w'
  := by
  intro h
  have hkept := h plainPackages (sampleInit (.account 10)) _ _ _ plainBase_lawful
    (sampleMinted_reachable (.account 10) (.account 10)) rfl (.single sampleTransfer_step_shared)
  have hbefore : ∀ l ∈ [sampleTransfer (.account 10)], ∀ time ∈ l.time,
      time < (sampleInit (.account 10)).treasuryLockupUntil := by
    intro l hl time htime
    rw [List.mem_singleton.mp hl] at htime
    obtain rfl := Option.some.inj htime
    decide
  have hfloor := hkept.treasury hbefore (.inl (by decide))
  revert hfloor
  decide

end Token
