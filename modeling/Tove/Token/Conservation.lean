import Tove.Token.Configuration

/-!
# Conservation

The balances of the token and its supply are what the events of the run say: the movements that
the events report, replayed from the empty ledger. The units are issued by one call, and only
burns destroy them.
-/

namespace Token

open Soroban Ledgers Totals Transition

/-! ### What a run reports -/

/-- The events that a step publishes. -/
def Label.events : Label → List Event
  | .call _ _ events => events
  | .failed _ _ _ | .outside => []

/-- The movements that the events of a run report, in their order. -/
def movementsOf (ls : List Label) : List (Movement Address) :=
  (ls.flatMap Label.events).filterMap Event.movement

/-- The call issues the initial distribution to the recipients. -/
def Call.Mints (recipients : List (Address × ℤ)) : Call → Prop
  | .mintSettle _ recipients' => recipients' = recipients
  | _ => False

/-- What a call burns. -/
def Call.burned : Call → ℤ
  | .burn _ amount | .burnFrom _ _ amount => amount
  | _ => 0

/-- A step that issues the initial distribution. -/
def Label.Mints (recipients : List (Address × ℤ)) : Label → Prop
  | .call _ c _ => c.Mints recipients
  | .failed _ _ _ | .outside => False

/-- What a step burns. -/
def Label.burned : Label → ℤ
  | .call _ c _ => c.burned
  | .failed _ _ _ | .outside => 0

theorem movementsOf_concat (ls : List Label) (l : Label) :
  movementsOf (ls ++ [l]) = movementsOf ls ++ l.events.filterMap Event.movement
  := by simp [movementsOf]

variable {pkg : Packages} {init : TokenInit} {host : Host} {w w' : World} {c : Call} {l : Label}
  {ls : List Label} {events : List Event}

/-! ### The ledger of a run -/

/-- The holdings are what the movements say, and no balance is negative. -/
structure Recorded (ms : List (Movement Address)) (h : Holdings) : Prop where
  balances : h.balances = replay ms
  totalSupply : h.totalSupply = supplyOf ms
  nonneg : ∀ a, 0 ≤ h.balances a

theorem Recorded.moved {ms : List (Movement Address)} {h h' : Holdings} {m : Movement Address}
    (hms : Recorded ms h) (hm : h.Moved m h') :
  Recorded (ms ++ [m]) h'
  := by
  constructor
  · rw [replay_concat, ← hms.balances, hm.balances]
  · rw [supplyOf_append, ← hms.totalSupply, hm.totalSupply, supplyOf, total_cons, total_nil,
      add_zero]
  · intro a
    rw [hm.balances]
    apply m.post_nonneg hm.nonneg hm.covered hms.nonneg

/-- Issuing units to recipients is recorded, one movement after the other. -/
theorem Recorded.issued {ms : List (Movement Address)} {h h' : Holdings}
    {recipients : List (Address × ℤ)} (hms : Recorded ms h)
    (hissued : Issued h recipients h' events) :
  Recorded (ms ++ recipients.map issue) h'
  := by
  constructor
  · rw [hissued.balances, hms.balances, replay, replay, List.foldl_append]
  · rw [hissued.totalSupply, hms.totalSupply, supplyOf_append]
    congr 1
    rw [supplyOf, total_map]
    apply total_congr
    intro r _
    exact (issued_issue r).symm
  · rw [hissued.balances]
    have hpositive := hissued.positive
    have hnonneg := hms.nonneg
    generalize h.balances = b at hnonneg ⊢
    clear hms hissued
    induction recipients generalizing b with
    | nil => apply hnonneg
    | cons r recipients ih =>
      apply ih fun c hc => hpositive c (List.mem_cons_of_mem r hc)
      apply (issue r).post_nonneg (hpositive r List.mem_cons_self).le
      · rintro c ⟨⟩
      · apply hnonneg

/-- Issuing units debits nobody, and credits every recipient. -/
theorem Issued.le_balances {h h' : Holdings} {recipients : List (Address × ℤ)}
    (hissued : Issued h recipients h' events) :
  (∀ a, h.balances a ≤ h'.balances a)
    ∧ ∀ r ∈ recipients, h.balances r.1 + r.2 ≤ h'.balances r.1
  := by
  rw [hissued.balances]
  have hpositive := hissued.positive
  generalize h.balances = b
  clear hissued
  induction recipients generalizing b with
  | nil => exact ⟨fun _ => le_refl _, nofun⟩
  | cons r recipients ih =>
    obtain ⟨hmono, hcredits⟩ := ih (fun c hc => hpositive c (List.mem_cons_of_mem r hc))
      ((issue r).post b)
    have hr := (hpositive r List.mem_cons_self).le
    have hle : ∀ a, b a ≤ (issue r).post b a := fun a => (issue r).le_post hr nofun
    constructor
    · intro a
      exact (hle a).trans (hmono a)
    · intro c hc
      rcases List.mem_cons.mp hc with rfl | hc
      · apply le_of_eq_of_le _ (hmono c.1)
        simp [Movement.post, Movement.delta, issue]
      · exact (Int.add_le_add_right (hle c.1) c.2).trans (hcredits c hc)

/-- What an event of a recipient reports. -/
theorem movement_mints (recipients : List (Address × ℤ)) :
  (recipients.map fun r => Event.Mint r.1 r.2).filterMap Event.movement = recipients.map issue
  := by
  induction recipients with
  | nil => rfl
  | cons r recipients ih =>
    rw [List.map_cons, List.filterMap_cons, ih]
    rfl

/-- What a change moves is what its events report. -/
theorem Change.recorded (h : Change pkg host w c w' events) {ms : List (Movement Address)}
    (hms : Recorded ms w.holdings) :
  Recorded (ms ++ events.filterMap Event.movement) w'.holdings
  := by
  cases h with
  | move _ _ _ hmoved hevents =>
    rw [hevents]
    apply hms.moved hmoved
  | mint _ _ hissued =>
    rw [hissued.events, movement_mints]
    apply hms.issued hissued
  | approve hbalances hsupply =>
    simp only [Event.movement, List.filterMap_cons, List.filterMap_nil, List.append_nil]
    exact ⟨hbalances.trans hms.balances, hsupply.trans hms.totalSupply,
      fun a => hbalances ▸ hms.nonneg a⟩
  | configure _ _ _ _ _ hevents => rwa [hevents, List.append_nil]
  | record | upgrade | migrate | idle =>
    have hms' : Recorded (ms ++ []) w.holdings := by rwa [List.append_nil]
    exact hms'

/-! ### The supply of a run -/

/-- Where the supply comes from: nothing is issued, or one step of the run has issued the
initial distribution and the steps after it have burned the rest. -/
inductive Issuance (ls : List Label) (w : World) : Prop where
  | none : w.storage.mintDone = none → (∀ l ∈ ls, ∀ recipients, ¬ l.Mints recipients) →
    w.holdings.totalSupply = 0 → (∀ a, w.holdings.balances a = 0) → Issuance ls w
  | once {before after : List Label} {mint : Label} {recipients : List (Address × ℤ)} :
    w.storage.mintDone.isSome = true → ls = before ++ mint :: after → mint.Mints recipients →
    (∀ l ∈ before, ∀ recipients, ¬ l.Mints recipients) →
    (∀ l ∈ after, ∀ recipients, ¬ l.Mints recipients) →
    w.holdings.totalSupply = total Prod.snd recipients - total Label.burned after → Issuance ls w

/-- A movement destroys what its call burns. -/
theorem Call.burned_of_movement {m : Movement Address} (hc : c.movement = some m) :
  c.burned = - m.issued
  := by
  cases c with
  | settleTrade | transfer | transferFrom =>
    obtain rfl := Option.some.inj hc
    rw [Movement.issued_of_transfer]
    rfl
  | burn | burnFrom =>
    obtain rfl := Option.some.inj hc
    rw [Movement.issued_of_burn, neg_neg]
    rfl
  | _ => cases hc

/-- While nobody has units, a movement moves nothing. -/
theorem Holdings.Moved.of_zero {h h' : Holdings} {m : Movement Address} (hm : h.Moved m h')
    {a : Address} (ha : m.source = some a) (hzero : ∀ c, h.balances c = 0) :
  m.issued = 0 ∧ ∀ c, h'.balances c = 0
  := by
  have hamount : m.amount = 0 := by
    have hcovered := hm.covered a ha
    rw [hzero a] at hcovered
    exact le_antisymm hcovered hm.nonneg
  constructor
  · simp [Movement.issued, Movement.delta, hamount]
  · intro c
    rw [hm.balances, Movement.post, hzero c]
    simp [Movement.delta, hamount]

/-- What a step does to the supply when it is not the distribution. -/
structure Burns (l : Label) (w w' : World) : Prop where
  notMint : ∀ recipients, ¬ l.Mints recipients
  mintDone : w'.storage.mintDone = w.storage.mintDone
  nonneg : 0 ≤ l.burned
  totalSupply : w'.holdings.totalSupply = w.holdings.totalSupply - l.burned
  of_zero : (∀ a, w.holdings.balances a = 0) → l.burned = 0 ∧ ∀ a, w'.holdings.balances a = 0

/-- A change either issues the distribution or burns. -/
theorem Change.issues_or_burns (h : Change pkg host w c w' events) :
  (w.storage.mintDone = none ∧ w'.storage.mintDone.isSome = true
      ∧ ∃ recipients, c.Mints recipients ∧ Issued w.holdings recipients w'.holdings events)
    ∨ Burns (.call host c events) w w'
  := by
  cases h with
  | mint hminter _ hissued => exact .inl ⟨hminter.notMinted, rfl, _, rfl, hissued⟩
  | move hc hsource _ hmoved =>
    right
    constructor
    · intro recipients hmints
      cases c with
      | mintSettle => cases hc
      | _ => cases hmints
    · rfl
    · obtain ⟨a, ha⟩ := hsource
      rw [Label.burned, Call.burned_of_movement hc, Left.nonneg_neg_iff]
      apply Movement.issued_nonpos _ hmoved.nonneg ha
    · rw [Label.burned, Call.burned_of_movement hc, hmoved.totalSupply, sub_neg_eq_add]
    · intro hzero
      obtain ⟨a, ha⟩ := hsource
      obtain ⟨hissued, hzero'⟩ := hmoved.of_zero ha hzero
      rw [Label.burned, Call.burned_of_movement hc, hissued]
      exact ⟨rfl, hzero'⟩
  | approve hbalances hsupply =>
    right
    refine ⟨fun _ => id, rfl, le_rfl, ?_, fun hzero => ⟨rfl, fun a => ?_⟩⟩
    · rw [hsupply]
      exact (sub_zero _).symm
    · rw [hbalances, hzero]
  | configure hc =>
    right
    cases c with
    | setProxyAdmin | setKycAllowlist | setFreezeSet =>
      exact ⟨fun _ => id, rfl, le_rfl, (sub_zero _).symm, fun hzero => ⟨rfl, hzero⟩⟩
    | _ => cases hc
  | upgrade _ _ hstorage =>
    right
    refine ⟨fun _ => id, ?_, le_rfl, (sub_zero _).symm, fun hzero => ⟨rfl, hzero⟩⟩
    rcases recordSnapshot_cases hstorage with ⟨_, rfl⟩ | ⟨_, _, _, rfl⟩
    · rfl
    · rfl
  | _ => exact .inr ⟨fun _ => id, rfl, le_rfl, (sub_zero _).symm, fun hzero => ⟨rfl, hzero⟩⟩

/-! ### Runs -/

section Runs

variable (laws : pkg.base.Lawful)

include laws

theorem Step.recorded {ms : List (Movement Address)} (h : Step pkg w l w')
    (hms : Recorded ms w.holdings) :
  Recorded (ms ++ l.events.filterMap Event.movement) w'.holdings
  := by
  cases h with
  | call hok => apply (change_of_perform laws hok).recorded hms
  | failed => rwa [Label.events, List.filterMap_nil, List.append_nil]
  | outside => rwa [Label.events, List.filterMap_nil, List.append_nil]

/-- A step issues the distribution, the first time, or it burns. -/
theorem Step.issues_or_burns (h : Step pkg w l w') :
  (w.storage.mintDone = none ∧ w'.storage.mintDone.isSome = true
      ∧ ∃ recipients, l.Mints recipients
        ∧ w'.holdings.totalSupply = w.holdings.totalSupply + total Prod.snd recipients)
    ∨ Burns l w w'
  := by
  cases h with
  | call hok =>
    rcases (change_of_perform laws hok).issues_or_burns with hissues | hburns
    · obtain ⟨hnone, hdone, recipients, hmints, hissued⟩ := hissues
      exact .inl ⟨hnone, hdone, recipients, hmints, hissued.totalSupply⟩
    · exact .inr hburns
  | failed => exact .inr ⟨fun _ => id, rfl, le_rfl, (sub_zero _).symm, fun h => ⟨rfl, h⟩⟩
  | outside => exact .inr ⟨fun _ => id, rfl, le_rfl, (sub_zero _).symm, fun h => ⟨rfl, h⟩⟩

omit laws in
/-- A step that burns extends the issuance of a run. -/
theorem Issuance.burns (h : Issuance ls w) (hburns : Burns l w w') :
  Issuance (ls ++ [l]) w'
  := by
  cases h with
  | none hdone hls hsupply hzero =>
    obtain ⟨hburned, hzero'⟩ := hburns.of_zero hzero
    refine .none (hburns.mintDone.trans hdone) ?_ ?_ hzero'
    · intro l' hl'
      rcases List.mem_append.mp hl' with hl' | hl'
      · apply hls l' hl'
      · rw [List.mem_singleton.mp hl']
        apply hburns.notMint
    · rw [hburns.totalSupply, hsupply, hburned, sub_zero]
  | @once before after mint recipients hdone heq hmint hbefore hafter hsupply =>
    refine @Issuance.once _ w' before (after ++ [l]) mint recipients ?_ ?_ hmint hbefore ?_ ?_
    · rwa [hburns.mintDone]
    · rw [heq, List.append_assoc, List.cons_append]
    · intro l' hl'
      rcases List.mem_append.mp hl' with hl' | hl'
      · apply hafter l' hl'
      · rw [List.mem_singleton.mp hl']
        apply hburns.notMint
    · rw [hburns.totalSupply, hsupply, total_append, total_cons, total_nil]
      ring

/-- A step extends the issuance of a run. -/
theorem Issuance.snoc (h : Issuance ls w) (hstep : Step pkg w l w') :
  Issuance (ls ++ [l]) w'
  := by
  rcases hstep.issues_or_burns laws with hissues | hburns
  · obtain ⟨hnone, hdone', recipients, hmints, hsupply'⟩ := hissues
    cases h with
    | none _ hls hsupply =>
      refine @Issuance.once _ w' ls [] l recipients hdone' rfl hmints hls ?_ ?_
      · rintro _ ⟨⟩
      · rw [hsupply', hsupply, total_nil]
        ring
    | once hdone =>
      rw [hnone] at hdone
      cases hdone
  · apply h.burns hburns

/-- Everything that a run records and issues. -/
theorem recorded_of_run {w₀ : World} (hinit : (system pkg init).init w₀)
    (h : (system pkg init).Run w₀ ls w) :
  Recorded (movementsOf ls) w.holdings ∧ Issuance ls w
  := by
  obtain ⟨usdc, rfl⟩ := hinit
  induction h with
  | nil =>
    constructor
    · exact ⟨rfl, rfl, fun _ => le_refl 0⟩
    · exact .none rfl (fun _ h => nomatch h) rfl fun _ => rfl
  | snoc _ hstep ih =>
    obtain ⟨hrecorded, hissuance⟩ := ih
    constructor
    · rw [movementsOf_concat]
      apply Step.recorded laws hstep hrecorded
    · apply hissuance.snoc laws hstep

/-- In every run the balances sum up to the supply, none is negative, the units are issued once
and only burned afterwards, and the events of the run replay to the balances and the supply. -/
theorem token_conserved {w₀ : World} (hinit : (system pkg init).init w₀)
    (h : (system pkg init).Run w₀ ls w) :
  FiniteLedger w.holdings.balances
    ∧ sumOfBalances w.holdings.balances = w.holdings.totalSupply
    ∧ (∀ a, 0 ≤ w.holdings.balances a)
    ∧ Issuance ls w
    ∧ (∀ l w', (system pkg init).step w l w' → (∀ recipients, ¬ l.Mints recipients) →
        w'.holdings.totalSupply ≤ w.holdings.totalSupply)
    ∧ w.holdings.balances = replay (movementsOf ls)
    ∧ w.holdings.totalSupply = supplyOf (movementsOf ls)
  := by
  obtain ⟨⟨hbalances, hsupply, hnonneg⟩, hissuance⟩ := recorded_of_run laws hinit h
  have hsum := sumOfBalances_replay (movementsOf ls)
  rw [← hbalances, ← hsupply] at hsum
  refine ⟨hsum.1, hsum.2, hnonneg, hissuance, ?_, hbalances, hsupply⟩
  intro l w' hstep hl
  rcases Step.issues_or_burns laws hstep with hissues | hburns
  · obtain ⟨_, _, recipients, hmints, _⟩ := hissues
    cases hl recipients hmints
  · rw [hburns.totalSupply]
    have := hburns.nonneg
    omega

end Runs

/-- The ledger of the small token is what its events say. -/
theorem token_conserved_sampleMinted :
  sumOfBalances (sampleMinted (.account 11) (.account 10)).holdings.balances = 7
  := (token_conserved plainBase_lawful ⟨fun _ _ => 0, rfl⟩
    (.single (sampleMinted_step (.account 11) (.account 10)))).2.1

end Token
