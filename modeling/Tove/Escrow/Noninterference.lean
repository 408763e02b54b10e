import Tove.Escrow.Bidders

/-!
# Bidders do not interfere with each other

What others do is not seen by a bidder, unless a bid of theirs takes one of its idempotency keys.
From states that look the same to the bidder, its calls succeed in the same cases and move the same
USDC.
-/

namespace Escrow

open Soroban Transition

section Steps

variable {selfAddr b : Address} {keys : Set BytesN32} {w w' w₁ w₁' : World} {env env' : Env}
  {c c' : Call} {l l' : Label} {effects : List Effect}

/-- A call succeeds and takes effect, or it fails and changes nothing. -/
theorem Step.cases_operation (h : Step selfAddr w l w₁) (hop : l.operation = some (env, c)) :
  (∃ effects, l = .call env c effects ∧ perform selfAddr env c w = .ok (w₁, effects))
    ∨ ∃ failure, l = .failed env c failure ∧ perform selfAddr env c w = .error failure ∧ w₁ = w
  := by
  cases h with
  | @call _ _ _ _ effects _ hcall =>
    obtain ⟨rfl, rfl⟩ := Prod.mk.inj (Option.some.inj hop)
    left
    use effects, rfl
  | @failed _ _ _ failure hfailed =>
    obtain ⟨rfl, rfl⟩ := Prod.mk.inj (Option.some.inj hop)
    right
    use failure, rfl
  | outside => cases hop

/-- Of calls that succeed in the same cases, both succeed or neither does. -/
theorem Step.both_cases (h : Step selfAddr w l w₁) (h' : Step selfAddr w' l' w₁')
    (hop : l.operation = some (env, c)) (hop' : l'.operation = some (env', c'))
    (hiff : (∃ r, perform selfAddr env c w = .ok r) ↔ ∃ r, perform selfAddr env' c' w' = .ok r) :
  (∃ effects effects', l = .call env c effects ∧ l' = .call env' c' effects'
      ∧ perform selfAddr env c w = .ok (w₁, effects)
      ∧ perform selfAddr env' c' w' = .ok (w₁', effects'))
    ∨ ∃ failure failure', l = .failed env c failure ∧ l' = .failed env' c' failure'
      ∧ w₁ = w ∧ w₁' = w'
  := by
  rcases h.cases_operation hop with ⟨effects, rfl, hok⟩ | ⟨failure, rfl, herror, rfl⟩
  · rcases h'.cases_operation hop' with ⟨effects', rfl, hok'⟩ | ⟨failure', _, herror', _⟩
    · left
      use effects, effects'
    · obtain ⟨r, hr⟩ := hiff.mp ⟨_, hok⟩
      rw [herror'] at hr
      cases hr
  · rcases h'.cases_operation hop' with ⟨effects', _, hok'⟩ | ⟨failure', rfl, _, rfl⟩
    · obtain ⟨r, hr⟩ := hiff.mpr ⟨_, hok'⟩
      rw [herror] at hr
      cases hr
    · right
      use failure, failure'

theorem perform_submitBid {bidder : Address} {price count : ℤ} {key : BytesN32} :
  perform selfAddr env (.submitBid bidder price count key) w = .ok (w₁, effects)
    ↔ ∃ id, submitBid selfAddr env bidder price count key w = .ok (id, w₁, effects)
  := by
  simp only [perform, Checks.bind_eq_ok, Checks.pure_eq_ok, Prod.exists, Prod.mk.injEq]
  constructor
  · rintro ⟨id, _, _, hcall, rfl, rfl⟩
    use id
  · rintro ⟨id, hcall⟩
    use id, w₁, effects, hcall

/-- A call that succeeds is authorised by its bidder, or by the administrator. -/
theorem auth_of_perform (h : perform selfAddr env c w = .ok (w₁, effects)) :
  env.auth (c.bidder.getD w.params.admin) = true
  := by
  cases c with
  | bindToken token => apply (bindToken_eq_ok.mp h).1
  | submitBid bidder price count key =>
    obtain ⟨id, hcall⟩ := perform_submitBid.mp h
    apply (submitBid_eq_ok.mp hcall).1
  | cancelBid caller id => apply (cancelBid_eq_ok.mp h).1
  | closeOffering => apply (closeOffering_eq_ok.mp h).1
  | cancelOffering => apply (cancelOffering_eq_ok.mp h).1
  | closeAndSettle clearingPrice allocations => apply (closeAndSettle_eq_ok.mp h).1

/-- A call of the administrator changes no bids while the contract is open. -/
theorem bids_of_admin (hc : c.bidder = none)
    (h : perform selfAddr env c w = .ok (w₁, effects)) :
  w₁.params.admin = w.params.admin ∧ w₁.idem = w.idem
    ∧ (w₁.status = .Open → w.status = .Open ∧ w₁.ownBids b = w.ownBids b)
  := by
  cases c with
  | bindToken token =>
    obtain ⟨_, _, rfl, _⟩ := bindToken_eq_ok.mp h
    use rfl, rfl
    intro hopen
    use hopen
    rfl
  | submitBid => cases hc
  | cancelBid => cases hc
  | closeOffering =>
    obtain ⟨_, _, rfl, _⟩ := closeOffering_eq_ok.mp h
    use rfl, rfl
    nofun
  | cancelOffering =>
    obtain ⟨_, _, _, rfl, _⟩ := cancelOffering_eq_ok.mp h
    use rfl, rfl
    nofun
  | closeAndSettle clearingPrice allocations =>
    obtain ⟨token, hs⟩ := settlement_of_eq_ok h
    rw [hs.world_eq]
    use rfl, rfl
    nofun

/-- What others do is not seen, unless a bid takes an idempotency key. -/
theorem alike_of_others (hstep : Step selfAddr w l w₁) (hothers : Others b w l)
    (hquiet : l.Succeeds → ∀ key ∈ l.key, key ∉ keys) :
  Alike b keys w w₁
  := by
  cases hstep with
  | failed => apply Alike.refl
  | outside => exact ⟨rfl, .rfl, fun _ _ => .rfl, fun _ => rfl⟩
  | @call env c _ _ effects houtside hcall =>
    have hauth := auth_of_perform hcall
    have hforeign := hothers env c rfl
    cases hc : c.bidder with
    | none =>
      rw [hc] at hauth hforeign
      rw [Option.getD_none, hforeign] at hauth
      cases hauth
    | some bidder =>
      rw [hc] at hauth hforeign
      rw [Option.getD_some] at hauth
      have hne : bidder ≠ b := by
        rintro rfl
        rw [hforeign rfl] at hauth
        cases hauth
      cases c with
      | submitBid bidder' price count key =>
        obtain rfl := Option.some.inj hc
        obtain ⟨id, hcall⟩ := perform_submitBid.mp hcall
        obtain ⟨_, _, _, _, _, _, _, _, _, rfl, _⟩ := submitBid_eq_ok.mp hcall
        constructor
        · rfl
        · rfl
        · intro key' hkey'
          have hdistinct : key' ≠ key := by
            rintro rfl
            apply hquiet trivial key' rfl hkey'
          have hidem : (w.withBid selfAddr bidder' price count key).idem key' = w.idem key' :=
            Function.update_of_ne hdistinct ..
          rw [hidem]
        · intro _
          rw [ownBids_withBid, if_neg hne, List.append_nil]
      | cancelBid caller id =>
        obtain rfl := Option.some.inj hc
        obtain ⟨_, _, bid, hbid, hbidder, _, _, _, _, rfl, _⟩ := cancelBid_eq_ok.mp hcall
        constructor
        · rfl
        · rfl
        · intro key _
          rfl
        · intro _
          apply ownBids_withoutBid_of_ne hbid
          rwa [hbidder]
      | bindToken => cases hc
      | closeOffering => cases hc
      | cancelOffering => cases hc
      | closeAndSettle => cases hc

end Steps

/-! ### Corresponding calls -/

section Corresponding

variable {selfAddr b : Address} {keys : Set BytesN32} {w w' w₁ w₁' : World} {env env' : Env}
  {l l' : Label} {effects : List Effect}

/-- When a bid is submitted, as far as the bidder can tell. -/
theorem submitBid_succeeds_iff {price count : ℤ} {key : BytesN32}
    (hample : Ample b w l) (hop : l.operation = some (env, .submitBid b price count key)) :
  (∃ r, perform selfAddr env (.submitBid b price count key) w = .ok r)
    ↔ env.auth b = true ∧ w.status = .Open ∧ (0 < price ∧ 0 < count) ∧ w.idem key = none
      ∧ InI128 (price * count)
  := by
  obtain ⟨haccepts, hsubmit⟩ := hample _ _ hop rfl
  constructor
  · rintro ⟨⟨w₁, effects⟩, h⟩
    obtain ⟨id, hcall⟩ := perform_submitBid.mp h
    obtain ⟨hauth, hopen, hpos, hkey, hescrow, _⟩ := submitBid_eq_ok.mp hcall
    exact ⟨hauth, hopen, hpos, hkey, hescrow⟩
  · rintro ⟨hauth, hopen, ⟨hprice, hcount⟩, hkey, hescrow⟩
    obtain ⟨hbalance, htotal, hid⟩ := hsubmit price count key rfl hprice hcount hescrow
    have hnonneg := (mul_pos hprice hcount).le
    exact ⟨_, perform_submitBid.mpr ⟨_, submitBid_eq_ok.mpr ⟨hauth, hopen, ⟨hprice, hcount⟩, hkey,
      hescrow, hid, htotal, ⟨haccepts, hnonneg, hbalance⟩, rfl, rfl, rfl⟩⟩⟩

/-- When a bid is cancelled, as far as the bidder can tell. -/
theorem cancelBid_succeeds_iff {id : ℕ} (hsolvent : Solvent selfAddr w) (hample : Ample b w l)
    (hop : l.operation = some (env, .cancelBid b id)) :
  (∃ r, perform selfAddr env (.cancelBid b id) w = .ok r)
    ↔ env.auth b = true ∧ w.status = .Open
      ∧ ∃ bid, (w.bids id = some bid ∧ bid.bidder = b) ∧ bid.active = true
  := by
  have haccepts := (hample _ _ hop rfl).1
  constructor
  · rintro ⟨⟨w₁, effects⟩, h⟩
    obtain ⟨hauth, hopen, bid, hbid, hbidder, hactive, _⟩ := cancelBid_eq_ok.mp h
    exact ⟨hauth, hopen, bid, ⟨hbid, hbidder⟩, hactive⟩
  · rintro ⟨hauth, hopen, bid, ⟨hbid, hbidder⟩, hactive⟩
    have hpos := (hsolvent.bid_sound id bid hbid).escrow_pos
    have hle := hsolvent.escrow_le_escrowTotal hbid hactive
    have htotal := hsolvent.escrowTotal_le
    have hbalance := hsolvent.balance_ge
    have hmin : MIN_I128 ≤ -MAX_I128 := by decide
    have hneg : InI128 (-bid.escrow) := by constructor <;> omega
    have hless : InI128 (w.escrowTotal + -bid.escrow) := by constructor <;> omega
    exact ⟨_, cancelBid_eq_ok.mpr ⟨hauth, hopen, bid, hbid, hbidder, hactive, hneg, hless,
      ⟨haccepts, hpos.le, hle.trans hbalance⟩, rfl, rfl⟩⟩

/-- A bid that is submitted in alike states. -/
theorem alike_withBid (h : Alike b keys w w') (hopen : w.status = .Open) (price count : ℤ)
    (key : BytesN32) :
  Alike b keys (w.withBid selfAddr b price count key) (w'.withBid selfAddr b price count key)
  := by
  constructor
  · apply h.admin_eq
  · apply h.open_iff
  · intro key' hkey'
    rcases eq_or_ne key' key with rfl | hne
    · have hidem : ∀ w : World, (w.withBid selfAddr b price count key').idem key'
          = some (w.bidSeq + 1) := fun w => Function.update_self ..
      rw [hidem, hidem]
      simp
    · have hidem : ∀ w : World, (w.withBid selfAddr b price count key).idem key' = w.idem key' :=
        fun w => Function.update_of_ne hne ..
      rw [hidem, hidem]
      apply h.idem_iff key' hkey'
  · intro _
    rw [ownBids_withBid, ownBids_withBid, h.ownBids_eq hopen]

/-- A bid that is submitted in both runs. -/
theorem submitBid_same {price count : ℤ} {key : BytesN32} (h : Alike b keys w w')
    (hkey : key ∈ keys) (hample : Ample b w l) (hample' : Ample b w' l')
    (hop : l.operation = some (env, .submitBid b price count key))
    (hop' : l'.operation = some (env', .submitBid b price count key)) (hauth : env'.auth = env.auth)
    (hstep : Step selfAddr w l w₁) (hstep' : Step selfAddr w' l' w₁') :
  Alike b keys w₁ w₁' ∧ SameForBidder b l l'
  := by
  have hiff : (∃ r, perform selfAddr env (.submitBid b price count key) w = .ok r)
      ↔ ∃ r, perform selfAddr env' (.submitBid b price count key) w' = .ok r := by
    rw [submitBid_succeeds_iff hample hop, submitBid_succeeds_iff hample' hop', hauth,
      h.open_iff, h.idem_iff key hkey]
  rcases hstep.both_cases hstep' hop hop' hiff with
    ⟨effects, effects', rfl, rfl, hok, hok'⟩ | ⟨failure, failure', rfl, rfl, rfl, rfl⟩
  · obtain ⟨id, hcall⟩ := perform_submitBid.mp hok
    obtain ⟨id', hcall'⟩ := perform_submitBid.mp hok'
    obtain ⟨_, hopen, _, _, _, _, _, _, _, rfl, rfl⟩ := submitBid_eq_ok.mp hcall
    obtain ⟨_, _, _, _, _, _, _, _, _, rfl, rfl⟩ := submitBid_eq_ok.mp hcall'
    use alike_withBid h hopen price count key
    intro _
    exact ⟨.rfl, rfl⟩
  · use h
    intro _
    exact ⟨.rfl, rfl⟩

/-- A bid that is cancelled in both runs. -/
theorem cancelBid_same {id id' : ℕ} (h : Alike b keys w w') (hsolvent : Solvent selfAddr w)
    (hsolvent' : Solvent selfAddr w')
    (hplace : ∀ n : ℕ, (w.ownIds b)[n]? = some id ↔ (w'.ownIds b)[n]? = some id')
    (hample : Ample b w l) (hample' : Ample b w' l')
    (hop : l.operation = some (env, .cancelBid b id))
    (hop' : l'.operation = some (env', .cancelBid b id')) (hauth : env'.auth = env.auth)
    (hstep : Step selfAddr w l w₁) (hstep' : Step selfAddr w' l' w₁') :
  Alike b keys w₁ w₁' ∧ SameForBidder b l l'
  := by
  have hown : w.status = .Open → ∀ bid, (w.bids id = some bid ∧ bid.bidder = b)
      ↔ w'.bids id' = some bid ∧ bid.bidder = b := by
    intro hopen bid
    rw [exists_place hsolvent, exists_place hsolvent', h.ownBids_eq hopen]
    simp only [hplace]
  have hiff : (∃ r, perform selfAddr env (.cancelBid b id) w = .ok r)
      ↔ ∃ r, perform selfAddr env' (.cancelBid b id') w' = .ok r := by
    rw [cancelBid_succeeds_iff hsolvent hample hop, cancelBid_succeeds_iff hsolvent' hample' hop',
      hauth, h.open_iff]
    apply and_congr_right
    intro _
    apply and_congr_right
    intro hopen
    simp only [hown hopen]
  rcases hstep.both_cases hstep' hop hop' hiff with
    ⟨effects, effects', rfl, rfl, hok, hok'⟩ | ⟨failure, failure', rfl, rfl, rfl, rfl⟩
  · obtain ⟨_, hopen, bid, hbid, hbidder, _, _, _, _, rfl, rfl⟩ := cancelBid_eq_ok.mp hok
    obtain ⟨_, _, bid', hbid', _, _, _, _, _, rfl, rfl⟩ := cancelBid_eq_ok.mp hok'
    obtain rfl : bid = bid' := by
      have heq := ((hown hopen bid).mp ⟨hbid, hbidder⟩).1
      rw [hbid'] at heq
      apply (Option.some.inj heq).symm
    obtain ⟨n, hn, _⟩ := (exists_place hsolvent).mp ⟨hbid, hbidder⟩
    constructor
    · constructor
      · apply h.admin_eq
      · apply h.open_iff
      · apply h.idem_iff
      · intro _
        rw [ownBids_withoutBid hbid hn, ownBids_withoutBid hbid' ((hplace n).mp hn),
          h.ownBids_eq hopen]
    · intro _
      exact ⟨.rfl, rfl⟩
  · use h
    intro _
    exact ⟨.rfl, rfl⟩

end Corresponding

/-! ### Calls of the administrator -/

section Administrator

variable {selfAddr b : Address} {keys : Set BytesN32} {w w' w₁ w₁' : World} {env env' : Env}
  {c c' : Call} {l l' : Label}

/-- A step of the administrator, whether it succeeds or not. -/
theorem bids_of_admin_step (hc : c.bidder = none) (hop : l.operation = some (env, c))
    (hstep : Step selfAddr w l w₁) :
  w₁.params.admin = w.params.admin ∧ w₁.idem = w.idem
    ∧ (w₁.status = .Open → w.status = .Open ∧ w₁.ownBids b = w.ownBids b)
  := by
  rcases hstep.cases_operation hop with ⟨effects, _, hok⟩ | ⟨failure, _, _, rfl⟩
  · apply bids_of_admin hc hok
  · exact ⟨rfl, rfl, fun hopen => ⟨hopen, rfl⟩⟩

/-- Steps of the administrator keep states alike, when they leave both open or none. -/
theorem admin_same (h : Alike b keys w w') (hc : c.bidder = none) (hc' : c'.bidder = none)
    (hop : l.operation = some (env, c)) (hop' : l'.operation = some (env', c'))
    (hstep : Step selfAddr w l w₁) (hstep' : Step selfAddr w' l' w₁')
    (hopen : w₁'.status = .Open ↔ w₁.status = .Open) :
  Alike b keys w₁ w₁' ∧ SameForBidder b l l'
  := by
  obtain ⟨hadmin, hidem, hbids⟩ := bids_of_admin_step hc hop hstep
  obtain ⟨hadmin', hidem', hbids'⟩ := bids_of_admin_step hc' hop' hstep'
  constructor
  · constructor
    · rw [hadmin', hadmin, h.admin_eq]
    · apply hopen
    · rw [hidem, hidem']
      apply h.idem_iff
    · intro hopen₁
      obtain ⟨hopen₀, heq⟩ := hbids hopen₁
      rw [heq, (hbids' (hopen.mpr hopen₁)).2, h.ownBids_eq hopen₀]
  · intro hbidder
    rw [Label.bidder, hop, Option.bind_some, hc] at hbidder
    cases hbidder

theorem status_of_bindToken {token : Address} (hop : l.operation = some (env, .bindToken token))
    (hstep : Step selfAddr w l w₁) :
  w₁.status = w.status
  := by
  rcases hstep.cases_operation hop with ⟨effects, _, hok⟩ | ⟨failure, _, _, rfl⟩
  · obtain ⟨_, _, rfl, _⟩ := bindToken_eq_ok.mp hok
    rfl
  · rfl

theorem closeOffering_succeeds_iff :
  (∃ r, perform selfAddr env .closeOffering w = .ok r)
    ↔ env.auth w.params.admin = true ∧ w.status = .Open
  := by
  constructor
  · rintro ⟨⟨w₁, effects⟩, h⟩
    obtain ⟨hauth, hopen, _⟩ := closeOffering_eq_ok.mp h
    exact ⟨hauth, hopen⟩
  · rintro ⟨hauth, hopen⟩
    exact ⟨_, closeOffering_eq_ok.mpr ⟨hauth, hopen, rfl, rfl⟩⟩

/-- A settlement neither begins nor ends in an open contract. -/
theorem open_of_closeAndSettle {clearingPrice : ℤ} {allocations : List (ℕ × ℤ)}
    (hop : l.operation = some (env, .closeAndSettle clearingPrice allocations))
    (hstep : Step selfAddr w l w₁) :
  w₁.status = .Open ↔ w.status = .Open
  := by
  rcases hstep.cases_operation hop with ⟨effects, _, hok⟩ | ⟨failure, _, _, rfl⟩
  · obtain ⟨token, hs⟩ := settlement_of_eq_ok hok
    rw [hs.world_eq, hs.closed]
    simp
  · rfl

/-- A cancellation, when it is refused, leaves the contract open; otherwise it does not. -/
theorem open_of_cancelOffering (hop : l.operation = some (env, .cancelOffering))
    (hstep : Step selfAddr w l w₁) :
  w₁.status = .Open ↔ w.status = .Open ∧ ¬ l.Succeeds
  := by
  rcases hstep.cases_operation hop with ⟨effects, rfl, hok⟩ | ⟨failure, rfl, _, rfl⟩
  · obtain ⟨_, _, _, rfl, _⟩ := cancelOffering_eq_ok.mp hok
    simp [Label.Succeeds]
  · simp [Label.Succeeds]

end Administrator

/-! ### Noninterference -/

/-- The escrow keeps alike what a bidder sees, when its keys are not taken and cancellations of the
offering have the same outcome. -/
theorem unwinding (selfAddr b : Address) (keys : Set BytesN32) :
  (system selfAddr).Unwinding (Others b) (Corresponds b)
    (fun l => l.Succeeds → ∀ key ∈ l.key, key ∉ keys)
    (fun l l' => (∀ key ∈ l.key, key ∈ keys)
      ∧ (l.operation.map Prod.snd = some .cancelOffering → (l.Succeeds ↔ l'.Succeeds)))
    (Alike b keys) (SameForBidder b)
  := by
  constructor
  · apply Alike.symm
  · intro w w' l w₁ _ h hothers hquiet hstep
    apply (alike_of_others hstep hothers hquiet).symm.trans h
  · rintro w w' l l' w₁ w₁' hw hw' h ⟨hample, hample', env, c, env', c', hop, hop', hauth, hsame⟩
      ⟨hkeys, hcancel⟩ hstep hstep'
    have hsolvent := solvent_of_reachable hw
    have hsolvent' := solvent_of_reachable hw'
    cases hsame with
    | submitBid price count key =>
      have hkey : key ∈ keys := by
        apply hkeys
        rw [Label.key, hop]
        rfl
      apply submitBid_same h hkey hample hample' hop hop' hauth hstep hstep'
    | cancelBid hplace =>
      apply cancelBid_same h hsolvent hsolvent' hplace hample hample' hop hop' hauth hstep hstep'
    | bindToken token =>
      apply admin_same h rfl rfl hop hop' hstep hstep'
      rw [status_of_bindToken hop hstep, status_of_bindToken hop' hstep']
      apply h.open_iff
    | closeOffering =>
      have hiff : (∃ r, perform selfAddr env .closeOffering w = .ok r)
          ↔ ∃ r, perform selfAddr env' .closeOffering w' = .ok r := by
        rw [closeOffering_succeeds_iff, closeOffering_succeeds_iff, hauth, h.admin_eq, h.open_iff]
      apply admin_same h rfl rfl hop hop' hstep hstep'
      rcases hstep.both_cases hstep' hop hop' hiff with
        ⟨effects, effects', _, _, hok, hok'⟩ | ⟨failure, failure', _, _, rfl, rfl⟩
      · obtain ⟨_, _, rfl, _⟩ := closeOffering_eq_ok.mp hok
        obtain ⟨_, _, rfl, _⟩ := closeOffering_eq_ok.mp hok'
        rfl
      · apply h.open_iff
    | cancelOffering =>
      have houtcome : l.Succeeds ↔ l'.Succeeds := by
        apply hcancel
        rw [hop]
        rfl
      apply admin_same h rfl rfl hop hop' hstep hstep'
      rw [open_of_cancelOffering hop hstep, open_of_cancelOffering hop' hstep', houtcome,
        h.open_iff]
    | closeAndSettle =>
      apply admin_same h rfl rfl hop hop' hstep hstep'
      rw [open_of_closeAndSettle hop hstep, open_of_closeAndSettle hop' hstep']
      apply h.open_iff

/-- A call of twin runs uses an idempotency key in both. -/
def UsesKey (ls : List (Twin Label)) (key : BytesN32) : Prop :=
  ∃ l l', Twin.both l l' ∈ ls ∧ key ∈ l.key

/-- A bid of others takes an idempotency key in one of the runs. -/
def TakesKey (ls : List (Twin Label)) (key : BytesN32) : Prop :=
  ∃ l, (Twin.first l ∈ ls ∨ Twin.second l ∈ ls) ∧ l.Succeeds ∧ key ∈ l.key

/-- Every cancellation of the offering has the same outcome in both runs. -/
def SameCancellations (ls : List (Twin Label)) : Prop :=
  ∀ l l', Twin.both l l' ∈ ls → l.operation.map Prod.snd = some .cancelOffering →
    (l.Succeeds ↔ l'.Succeeds)

/-- The calls of a bidder succeed in one run just when they do in the other, and move the same USDC:
whatever others do, as long as no bid of theirs takes an idempotency key of the bidder, and the
offering is not cancelled in one run only. -/
theorem bidder_noninterference {selfAddr b : Address} {w : World} {p : World × World}
    {ls : List (Twin Label)} (hw : (system selfAddr).Reachable w)
    (hrun : (bidderTwins selfAddr b).Run (w, w) ls p)
    (hkeys : ∀ key, UsesKey ls key → ¬ TakesKey ls key) (hcancel : SameCancellations ls) :
  ∀ l l', Twin.both l l' ∈ ls → SameForBidder b l l'
  := by
  have hallowed : ∀ l ∈ ls, l.Allowed
      (fun l => l.Succeeds → ∀ key ∈ l.key, key ∉ {key | UsesKey ls key})
      (fun l l' => (∀ key ∈ l.key, key ∈ {key | UsesKey ls key})
        ∧ (l.operation.map Prod.snd = some .cancelOffering → (l.Succeeds ↔ l'.Succeeds))) := by
    intro l hl
    cases l with
    | first l =>
      intro hsucceeds key hkey huses
      apply hkeys key huses ⟨l, .inl hl, hsucceeds, hkey⟩
    | second l =>
      intro hsucceeds key hkey huses
      apply hkeys key huses ⟨l, .inr hl, hsucceeds, hkey⟩
    | both l l' =>
      constructor
      · intro key hkey
        use l, l'
      · apply hcancel l l' hl
  apply ((unwinding selfAddr b {key | UsesKey ls key}).same_of_run hrun hw hw (.refl b _ w)
    hallowed).2

/-! ### A rival -/

/-- A bidder submits a bid; the id is given. -/
def sampleSubmit (id : ℕ) : Label :=
  .call sampleEnv (.submitBid (.account 20) 5 4 1)
    [.usdcTransfer (.escrow id) (.account 20) sampleEscrow 20,
      .event (.BidSubmitted (.account 20) id 5 4 20)]

/-- A rival submits a bid with a key. -/
def rivalSubmit (key : BytesN32) : Label :=
  .call sampleEnv (.submitBid (.account 21) 7 2 key)
    [.usdcTransfer (.escrow 1) (.account 21) sampleEscrow 14,
      .event (.BidSubmitted (.account 21) 1 7 2 14)]

/-- The small offering with the bid of the rival. -/
def rivalBid (key : BytesN32) : World := sampleWorld.withBid sampleEscrow (.account 21) 7 2 key

/-- Only in the second run there is a rival, with a key of its own. -/
def rivalRun : List (Twin Label) :=
    [.second (rivalSubmit 2), .both (sampleSubmit 1) (sampleSubmit 2)]

/-- The rival takes the key of the bidder. -/
def frontRun : List (Twin Label) :=
  [.second (rivalSubmit 1), .both (sampleSubmit 1)
    (.failed sampleEnv (.submitBid (.account 20) 5 4 1) (.error .DuplicateBid))]

/-- The offering is cancelled when there is no bid of the rival. -/
def abortRun : List (Twin Label) :=
  [.second (rivalSubmit 2),
    .both (.call sampleEnv .cancelOffering [.event .OfferingCancelled])
      (.failed sampleEnv .cancelOffering (.error .HasBids)),
    .both (.failed sampleEnv (.submitBid (.account 20) 5 4 1) (.error .OfferingNotOpen))
      (sampleSubmit 2)]

theorem others_rivalSubmit (w : World) (key : BytesN32) :
  Others (.account 20) w (rivalSubmit key)
  := by
  intro env c hop
  obtain ⟨rfl, rfl⟩ := Prod.mk.inj (Option.some.inj hop)
  intro heq
  cases heq

theorem rivalSubmit_step (key : BytesN32) :
  Step sampleEscrow sampleWorld (rivalSubmit key) (rivalBid key)
  := .call (show Address.account 21 ≠ sampleEscrow by decide) rfl

/-- The bidder can pay, whatever the outcome. -/
theorem ample_submit {w : World} {l : Label}
    (hop : l.operation = some (sampleEnv, .submitBid (.account 20) 5 4 1))
    (hbalance : 20 ≤ w.balances (.account 20)) (htotal : InI128 (w.escrowTotal + 20))
    (hid : w.bidSeq + 1 ≤ MAX_U32) :
  Ample (.account 20) w l
  := by
  intro env c hop' _
  rw [hop] at hop'
  obtain ⟨rfl, rfl⟩ := Prod.mk.inj (Option.some.inj hop')
  use rfl
  rintro price count key heq _ _ _
  obtain ⟨_, rfl, rfl, _⟩ := Call.submitBid.inj heq
  exact ⟨hbalance, htotal, hid⟩

theorem corresponds_submit {w w' : World} {l l' : Label}
    (hop : l.operation = some (sampleEnv, .submitBid (.account 20) 5 4 1))
    (hop' : l'.operation = some (sampleEnv, .submitBid (.account 20) 5 4 1))
    (hample : Ample (.account 20) w l) (hample' : Ample (.account 20) w' l') :
  Corresponds (.account 20) w w' l l'
  := ⟨hample, hample', _, _, _, _, hop, hop', rfl, .submitBid 5 4 1⟩

theorem rival_step (key : BytesN32) :
  (bidderTwins sampleEscrow (.account 20)).step (sampleWorld, sampleWorld)
    (.second (rivalSubmit key)) (sampleWorld, rivalBid key)
  := System.TwinStep.second (rivalSubmit_step key) (others_rivalSubmit sampleWorld key)

theorem ample_sampleWorld {l : Label}
    (hop : l.operation = some (sampleEnv, .submitBid (.account 20) 5 4 1)) :
  Ample (.account 20) sampleWorld l
  := ample_submit hop (by decide) (by decide) (by decide)

theorem ample_rivalBid {l : Label} (key : BytesN32)
    (hop : l.operation = some (sampleEnv, .submitBid (.account 20) 5 4 1)) :
  Ample (.account 20) (rivalBid key) l
  := ample_submit hop (show (20 : ℤ) ≤ (rivalBid 0).balances (.account 20) by decide)
    (show InI128 ((rivalBid 0).escrowTotal + 20) by decide)
    (show (rivalBid 0).bidSeq + 1 ≤ MAX_U32 by decide)

theorem rivalRun_run :
  (bidderTwins sampleEscrow (.account 20)).Run (sampleWorld, sampleWorld) rivalRun
    (sampleBid, (rivalBid 2).withBid sampleEscrow (.account 20) 5 4 1)
  := by
  have hsecond : Step sampleEscrow (rivalBid 2) (sampleSubmit 2)
      ((rivalBid 2).withBid sampleEscrow (.account 20) 5 4 1) :=
    .call (show Address.account 20 ≠ sampleEscrow by decide) rfl
  apply System.Run.snoc (System.Run.single (rival_step 2))
  apply System.TwinStep.both sampleBid_step hsecond
  apply corresponds_submit rfl rfl (ample_sampleWorld rfl) (ample_rivalBid 2 rfl)

theorem frontRun_run :
  (bidderTwins sampleEscrow (.account 20)).Run (sampleWorld, sampleWorld) frontRun
    (sampleBid, rivalBid 1)
  := by
  have hsecond : Step sampleEscrow (rivalBid 1)
      (.failed sampleEnv (.submitBid (.account 20) 5 4 1) (.error .DuplicateBid)) (rivalBid 1) :=
    .failed rfl
  apply System.Run.snoc (System.Run.single (rival_step 1))
  apply System.TwinStep.both sampleBid_step hsecond
  apply corresponds_submit rfl rfl (ample_sampleWorld rfl) (ample_rivalBid 1 rfl)

/-- The administrator is not a bidder. -/
theorem ample_cancelOffering {w : World} {l : Label} {env : Env}
    (hop : l.operation = some (env, .cancelOffering)) :
  Ample (.account 20) w l
  := by
  intro env' c hop' hbidder
  rw [hop] at hop'
  obtain ⟨rfl, rfl⟩ := Prod.mk.inj (Option.some.inj hop')
  cases hbidder

theorem abortRun_run :
  (bidderTwins sampleEscrow (.account 20)).Run (sampleWorld, sampleWorld) abortRun
    ({ sampleWorld with status := .Cancelled },
      (rivalBid 2).withBid sampleEscrow (.account 20) 5 4 1)
  := by
  have hcancel : Step sampleEscrow sampleWorld
      (.call sampleEnv .cancelOffering [.event .OfferingCancelled])
      { sampleWorld with status := .Cancelled } := .call trivial rfl
  have hrefused : Step sampleEscrow (rivalBid 2)
      (.failed sampleEnv .cancelOffering (.error .HasBids)) (rivalBid 2) := .failed rfl
  have hlate : Step sampleEscrow { sampleWorld with status := .Cancelled }
      (.failed sampleEnv (.submitBid (.account 20) 5 4 1) (.error .OfferingNotOpen))
      { sampleWorld with status := .Cancelled } := .failed rfl
  have hsubmit : Step sampleEscrow (rivalBid 2) (sampleSubmit 2)
      ((rivalBid 2).withBid sampleEscrow (.account 20) 5 4 1) :=
    .call (show Address.account 20 ≠ sampleEscrow by decide) rfl
  have hcancelled : (bidderTwins sampleEscrow (.account 20)).step (sampleWorld, rivalBid 2)
      (.both (.call sampleEnv .cancelOffering [.event .OfferingCancelled])
        (.failed sampleEnv .cancelOffering (.error .HasBids)))
      ({ sampleWorld with status := .Cancelled }, rivalBid 2) :=
    System.TwinStep.both hcancel hrefused ⟨ample_cancelOffering rfl, ample_cancelOffering rfl,
      _, _, _, _, rfl, rfl, rfl, .cancelOffering⟩
  apply System.Run.snoc (System.Run.snoc (System.Run.single (rival_step 2)) hcancelled)
  apply System.TwinStep.both hlate hsubmit
  apply corresponds_submit rfl rfl
  · apply ample_submit rfl <;> decide
  · apply ample_rivalBid 2 rfl

/-- The keys of the rival are not those of the bidder, when it submits its bid with another key. -/
theorem keysApart_of_rival {ls : List (Twin Label)}
    (huses : ∀ l l', Twin.both l l' ∈ ls → ∀ key ∈ l.key, key = 1)
    (htakes : ∀ l, Twin.first l ∈ ls ∨ Twin.second l ∈ ls → l = rivalSubmit 2) :
  ∀ key, UsesKey ls key → ¬ TakesKey ls key
  := by
  rintro key ⟨l, l', hmem, hkey⟩ ⟨l₁, hmem₁, _, hkey₁⟩
  rw [huses l l' hmem key hkey, htakes l₁ hmem₁] at hkey₁
  have heq : (2 : BytesN32) = 1 := Option.some.inj hkey₁
  exact absurd heq (by decide)

/-- The call of a bidder is the same in the presence of a rival with a key of its own. -/
theorem bidder_noninterference_rivalRun :
  SameForBidder (.account 20) (sampleSubmit 1) (sampleSubmit 2)
  := by
  apply bidder_noninterference sampleWorld_reachable rivalRun_run
  · apply keysApart_of_rival
    · simp [rivalRun, sampleSubmit, Label.key, Label.operation, Call.key]
    · simp [rivalRun]
  · simp [SameCancellations, rivalRun, sampleSubmit, Label.operation]
  · simp [rivalRun]

/-- A rival that takes the key of a bidder interferes with it, and so does a rival whose bid stops
the administrator from cancelling the offering. -/
theorem rivals_interfere :
  (system sampleEscrow).Reachable sampleWorld ∧ sampleWorld.status = .Open
    ∧ (bidderTwins sampleEscrow (.account 20)).Run (sampleWorld, sampleWorld) frontRun
      (sampleBid, rivalBid 1)
    ∧ SameCancellations frontRun
    ∧ ¬ (∀ l l', Twin.both l l' ∈ frontRun → SameForBidder (.account 20) l l')
    ∧ (bidderTwins sampleEscrow (.account 20)).Run (sampleWorld, sampleWorld) abortRun
      ({ sampleWorld with status := .Cancelled },
        (rivalBid 2).withBid sampleEscrow (.account 20) 5 4 1)
    ∧ (∀ key, UsesKey abortRun key → ¬ TakesKey abortRun key)
    ∧ ¬ ∀ l l', Twin.both l l' ∈ abortRun → SameForBidder (.account 20) l l'
  := by
  use sampleWorld_reachable, rfl, frontRun_run
  constructor
  · simp [SameCancellations, frontRun, sampleSubmit, Label.operation]
  constructor
  · intro hall
    have hsame := hall _ _ (List.mem_cons_of_mem _ List.mem_cons_self) rfl
    apply hsame.1.mp trivial
  use abortRun_run
  constructor
  · apply keysApart_of_rival
    · intro l l' hmem key hkey
      simp only [abortRun, List.mem_cons, List.not_mem_nil, or_false, reduceCtorEq, false_or,
        Twin.both.injEq] at hmem
      rcases hmem with ⟨rfl, _⟩ | ⟨rfl, _⟩
      · cases hkey
      · apply (Option.some.inj hkey).symm
    · simp [abortRun]
  · intro hall
    have hsame := hall _ _ (List.mem_cons_of_mem _ (List.mem_cons_of_mem _ List.mem_cons_self)) rfl
    apply hsame.1.mpr trivial

end Escrow
