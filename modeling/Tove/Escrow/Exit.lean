import Tove.Escrow.Settleable

/-!
# Which bids can leave the escrow

While an offering is open, every bid can be cancelled by its bidder. Once it is closed, the bids
can only leave through a settlement, and a settlement has to allocate the whole public float: an
offering that has been closed with less demand holds its bids for ever.
-/

namespace Escrow

open Soroban Ledgers Totals Transition

/-- A call in which the tokens accept all transfers and mints. -/
def Label.Accepting : Label → Prop
  | .call env _ _ => env.usdcAccepts = true ∧ env.mintSettleAccepts = true
  | _ => False

/-- Some sequence of calls leaves no bid active. -/
def HasExit (selfAddr : Address) (w : World) : Prop :=
  ∃ ls w', (system selfAddr).Run w ls w' ∧ (∀ l ∈ ls, l.Accepting)
    ∧ ∀ id bid, w'.bids id = some bid → bid.active = false

/-- The fractions that are offered to the public. -/
def Params.publicFloat (p : Params) : ℤ :=
  p.totalSupply - p.artistRetention - p.treasuryRetention - p.leftoverToArtist

/-- The demand of a bid, while it is active. -/
def activeCount (bids : ℕ → Option Bid) (id : ℕ) : ℤ := (activeBid bids id).elim 0 Bid.count

/-- The public float can be sold to the active bids, at the least price. -/
structure Sellable (selfAddr : Address) (w : World) : Prop where
  float_le : w.params.publicFloat ≤ total (activeCount w.bids) w.ids
  fee_le : w.params.publicFloat * PLATFORM_FEE_BPS ≤ MAX_I128
  treasury_ne : w.params.treasury = selfAddr → platformFee w.params.publicFloat = 0
  payout_ne : w.params.artistPayout = selfAddr →
    w.params.publicFloat - platformFee w.params.publicFloat = 0

/-- A host that lets everything go through. -/
def acceptingEnv : Env where
  auth _ := true
  usdcAccepts := true
  mintSettleAccepts := true

/-! ### The fee -/

theorem platformFee_zero :
  platformFee 0 = 0
  := rfl

theorem platformFee_mono {x y : ℤ} (hx : 0 ≤ x) (h : x ≤ y) :
  platformFee x ≤ platformFee y
  := by
  rw [platformFee, platformFee, Int.tdiv_eq_ediv_of_nonneg (mul_nonneg hx (by decide)),
    Int.tdiv_eq_ediv_of_nonneg (mul_nonneg (hx.trans h) (by decide)), PLATFORM_FEE_BPS]
  omega

/-- The fee is less than positive proceeds. -/
theorem platformFee_lt {x : ℤ} (hx : 0 < x) :
  platformFee x < x
  := by
  rw [platformFee, Int.tdiv_eq_ediv_of_nonneg (mul_nonneg hx.le (by decide)), PLATFORM_FEE_BPS]
  omega

/-! ### An open offering -/

section Open

variable {selfAddr : Address} {w : World}

/-- An active bid of an open offering can be cancelled. -/
theorem Solvent.cancelBid_succeeds (h : Solvent selfAddr w) (hopen : w.status = .Open) {id : ℕ}
    {bid : Bid} (hbid : w.bids id = some bid) (hactive : bid.active = true) :
  ∃ effects, Escrow.cancelBid selfAddr acceptingEnv bid.bidder id w
    = .ok (w.withoutBid selfAddr id bid, effects)
  := by
  have hpos := (h.bid_sound id bid hbid).escrow_pos
  have hle := h.escrow_le_escrowTotal hbid hactive
  have htotal := h.escrowTotal_le
  have hbalance := h.balance_ge
  have hmin : MIN_I128 ≤ -MAX_I128 := by decide
  refine ⟨_, cancelBid_eq_ok.mpr ⟨rfl, hopen, bid, hbid, rfl, hactive, ⟨?_, ?_⟩, ?_, ⟨rfl, ?_, ?_⟩,
    rfl, rfl⟩⟩
  · omega
  · omega
  · apply inI128_of_nonneg <;> omega
  · omega
  · omega

/-- The bids of an open offering can be cancelled one after the other. -/
theorem Solvent.hasExit_of_ids (h : Solvent selfAddr w) (hopen : w.status = .Open) (ids : List ℕ)
    (hids : ∀ id bid, w.bids id = some bid → bid.active = true → id ∈ ids) :
  HasExit selfAddr w
  := by
  induction ids generalizing w with
  | nil =>
    use [], w, .nil w, by simp
    intro id bid hbid
    rw [← Bool.not_eq_true]
    intro hactive
    cases hids id bid hbid hactive
  | cons k ids ih =>
    by_cases hk : ∃ bid, w.bids k = some bid ∧ bid.active = true
    · obtain ⟨bid, hbid, hactive⟩ := hk
      obtain ⟨effects, hcall⟩ := h.cancelBid_succeeds hopen hbid hactive
      have hrest : ∀ id b, (w.withoutBid selfAddr k bid).bids id = some b → b.active = true →
          id ∈ ids := by
        intro id b hb hb'
        have hne : id ≠ k := by
          rintro rfl
          have hself : (w.withoutBid selfAddr id bid).bids id = some { bid with active := false } :=
            Function.update_self ..
          obtain rfl := Option.some.inj (hself.symm.trans hb)
          cases hb'
        have hold : w.bids id = some b := (Function.update_of_ne hne ..).symm.trans hb
        apply List.mem_of_ne_of_mem hne (hids id b hold hb')
      obtain ⟨ls, w', hrun, haccepting, hnone⟩ := ih (h.cancelBid hcall) hopen hrest
      have hstep : Step selfAddr w (.call acceptingEnv (.cancelBid bid.bidder k) effects)
          (w.withoutBid selfAddr k bid) := .call trivial hcall
      refine ⟨_, w', (System.Run.single hstep).trans hrun, ?_, ?_⟩
      · rw [List.singleton_append, List.forall_mem_cons]
        exact ⟨⟨rfl, rfl⟩, haccepting⟩
      · apply hnone
    · apply ih h hopen
      intro id bid hbid hactive
      apply List.mem_of_ne_of_mem _ (hids id bid hbid hactive)
      rintro rfl
      apply hk ⟨bid, hbid, hactive⟩

end Open

/-! ### Selling the public float -/

/-- Allocate a quantity to the active bids in the order of their ids. -/
def fill (bids : ℕ → Option Bid) : ℤ → List ℕ → List (ℕ × ℤ)
  | _, [] => []
  | rest, id :: ids =>
    match activeBid bids id with
    | none => fill bids rest ids
    | some bid => (id, min bid.count rest) :: fill bids (rest - min bid.count rest) ids

section Fill

variable {bids : ℕ → Option Bid}

theorem fill_fst (rest : ℤ) (ids : List ℕ) :
  ((fill bids rest ids).map Prod.fst).Sublist ids
  := by
  induction ids generalizing rest with
  | nil => apply List.Sublist.refl
  | cons id ids ih =>
    rw [fill]
    split
    · apply (ih rest).cons
    · apply (ih _).cons_cons

/-- The allocations make up the quantity, when the demand covers it. -/
theorem total_fill (hcount : ∀ id, 0 ≤ activeCount bids id) {rest : ℤ} {ids : List ℕ}
    (hrest : 0 ≤ rest) (hle : rest ≤ total (activeCount bids) ids) :
  total Prod.snd (fill bids rest ids) = rest
  := by
  induction ids generalizing rest with
  | nil =>
    rw [total_nil] at hle
    rw [fill, total_nil]
    omega
  | cons id ids ih =>
    have hnonneg : 0 ≤ total (activeCount bids) ids := total_nonneg fun k _ => hcount k
    rw [total_cons, activeCount] at hle
    rw [fill]
    cases hbid : activeBid bids id with
    | none =>
      rw [hbid, Option.elim_none, zero_add] at hle
      apply ih hrest hle
    | some bid =>
      rw [hbid, Option.elim_some] at hle
      dsimp only
      rw [total_cons, ih (by omega) (by omega)]
      ring

/-- Every allocation is to an active bid, and within its count. -/
theorem mem_fill (hcount : ∀ id, 0 ≤ activeCount bids id) {rest : ℤ} (hrest : 0 ≤ rest)
    {ids : List ℕ} {entry : ℕ × ℤ} (h : entry ∈ fill bids rest ids) :
  ∃ bid, activeBid bids entry.1 = some bid ∧ 0 ≤ entry.2 ∧ entry.2 ≤ bid.count
  := by
  induction ids generalizing rest with
  | nil => cases h
  | cons id ids ih =>
    rw [fill] at h
    cases hbid : activeBid bids id with
    | none =>
      rw [hbid] at h
      apply ih hrest h
    | some bid =>
      rw [hbid] at h
      rcases List.mem_cons.mp h with rfl | h
      · have hnonneg := hcount id
        rw [activeCount, hbid, Option.elim_some] at hnonneg
        use bid, hbid
        dsimp only
        omega
      · apply ih (by omega) h

end Fill

section Closed

variable {selfAddr : Address} {w w' : World}

/-- The public float is not negative. -/
theorem Params.Sound.publicFloat_nonneg {p : Params} (h : p.Sound) :
  0 ≤ p.publicFloat
  := by
  have := h.retained_le
  rw [publicFloat]
  omega

theorem Solvent.activeCount_nonneg (h : Solvent selfAddr w) (id : ℕ) :
  0 ≤ activeCount w.bids id
  := by
  unfold activeCount
  cases hactive : activeBid w.bids id with
  | none => apply le_refl
  | some bid =>
    have hbid : w.bids id = some bid := (Option.filter_eq_some_iff.mp hactive).1
    apply (h.bid_sound id bid hbid).count_pos.le

/-- A sellable float is sold at the price of one. -/
theorem Sellable.balanced (hsell : Sellable selfAddr w) (h : Solvent selfAddr w) :
  Balanced selfAddr 1 (fill w.bids w.params.publicFloat w.ids) w
  := by
  have hfloat := h.params_sound.publicFloat_nonneg
  have htotal : total Prod.snd (fill w.bids w.params.publicFloat w.ids) = w.params.publicFloat :=
    total_fill h.activeCount_nonneg hfloat hsell.float_le
  constructor
  · constructor
    · apply (fill_fst _ _).nodup w.ids_nodup
    · intro entry hentry
      obtain ⟨bid, hbid, hnonneg, hle⟩ :=
        mem_fill h.activeCount_nonneg hfloat hentry
      obtain ⟨hbid, hactive⟩ := Option.filter_eq_some_iff.mp hbid
      have hsound := h.bid_sound _ bid hbid
      have hprice : 1 ≤ bid.price := hsound.price_pos
      have hescrow : bid.count ≤ bid.escrow := by
        rw [hsound.escrow_eq]
        apply le_mul_of_one_le_left hsound.count_pos.le hprice
      use bid, hbid, hactive, hnonneg, hle
      · intro _
        use one_pos
      · rw [one_mul]
        omega
  · rw [htotal, Params.publicFloat]
    ring
  · rw [htotal, one_mul]
    apply hsell.fee_le
  · rw [htotal, one_mul]
    apply hsell.treasury_ne
  · rw [htotal, one_mul]
    apply hsell.payout_ne

/-- A settlement sells the public float. -/
theorem Balanced.sellable {clearingPrice : ℤ} {allocations : List (ℕ × ℤ)}
    (hb : Balanced selfAddr clearingPrice allocations w) (h : Solvent selfAddr w) :
  Sellable selfAddr w
  := by
  have htotal : total Prod.snd allocations = w.params.publicFloat := by
    have := hb.supply
    rw [Params.publicFloat]
    omega
  have hdemand : w.params.publicFloat ≤ total (activeCount w.bids) w.ids := by
    have hmem : ∀ entry ∈ allocations, entry.1 ∈ w.ids := by
      intro entry hentry
      obtain ⟨bid, hvalid⟩ := hb.valid entry hentry
      apply (h.bids_iff _).mp ⟨bid, hvalid.bid_eq⟩
    rw [← htotal, ← total_allocOf w.ids_nodup hb.nodup hmem]
    apply total_le_total
    intro id _
    cases halloc : allocOf allocations id with
    | none =>
      rw [Option.getD_none]
      apply h.activeCount_nonneg
    | some allocated =>
      obtain ⟨bid, hvalid⟩ := hb.valid _ (mem_of_allocOf halloc)
      rw [activeCount, activeBid_of_active hvalid.bid_eq hvalid.active]
      apply hvalid.le_count
  rcases h.params_sound.publicFloat_nonneg.eq_or_lt with hzero | hpos
  · constructor
    · apply hdemand
    · rw [← hzero]
      decide
    · intro _
      rw [← hzero, platformFee_zero]
    · intro _
      rw [← hzero, platformFee_zero, sub_zero]
  · have hprice : 1 ≤ clearingPrice := by
      by_contra hprice
      have hnone : ∀ entry ∈ allocations, entry.2 ≤ 0 := by
        intro entry hentry
        obtain ⟨bid, hvalid⟩ := hb.valid entry hentry
        by_contra hpos
        have := (hvalid.price (by omega)).1
        omega
      have hle := total_le_total hnone
      rw [total_zero, htotal] at hle
      omega
    have hcost : w.params.publicFloat ≤ clearingPrice * w.params.publicFloat :=
      le_mul_of_one_le_left hpos.le hprice
    have hfee := hb.fee_le
    have htreasury := hb.treasury_ne
    have hpayout := hb.payout_ne
    rw [htotal] at hfee htreasury hpayout
    constructor
    · apply hdemand
    · rw [PLATFORM_FEE_BPS] at hfee ⊢
      omega
    · intro heq
      have hmono := platformFee_mono hpos.le hcost
      have hnonneg := (platformFee_mem_Icc hpos.le).1
      have := htreasury heq
      omega
    · intro heq
      have hlt := platformFee_lt (hpos.trans_le hcost)
      have := hpayout heq
      omega

/-- A closed offering whose float is sellable can be settled. -/
theorem Sellable.hasExit (hsell : Sellable selfAddr w) (h : Solvent selfAddr w)
    (hclosed : w.status = .Closed) {token : Address}
    (htoken : w.params.fractionToken = some token) :
  HasExit selfAddr w
  := by
  have henv : AcceptsSettlement acceptingEnv w := ⟨rfl, rfl, rfl⟩
  obtain ⟨w', effects, hcall⟩ := (hsell.balanced h).closeAndSettle_succeeds h hclosed htoken henv
  have hstep : Step selfAddr w (.call acceptingEnv (.closeAndSettle 1
      (fill w.bids w.params.publicFloat w.ids)) effects) w' := .call trivial hcall
  refine ⟨_, w', System.Run.single hstep, ?_, ?_⟩
  · rw [List.forall_mem_singleton]
    exact ⟨rfl, rfl⟩
  · apply (h.step hstep).inactive
    obtain ⟨_, hs⟩ := settlement_of_eq_ok hcall
    rw [hs.world_eq]
    left
    rfl

/-- A world that is closed with the bids and the parameters of another. -/
structure World.Stuck (w w' : World) : Prop where
  closed : w'.status = .Closed
  bids_eq : w'.bids = w.bids
  bidSeq_eq : w'.bidSeq = w.bidSeq
  params_eq : w'.params = w.params

/-- No step leads out of a closed offering with an active bid whose float cannot be sold. -/
theorem World.Stuck.step {w₀ : World} (hstuck : w₀.Stuck w) (h : Solvent selfAddr w)
    (hactive : ∃ id bid, w₀.bids id = some bid ∧ bid.active = true)
    (htoken : w₀.params.fractionToken ≠ none) (hunsellable : ¬ Sellable selfAddr w₀) {l : Label}
    (hstep : Step selfAddr w l w') :
  w₀.Stuck w'
  := by
  cases hstep with
  | call _ hcall =>
    rename_i env c effects _
    exfalso
    have hnotOpen : w.status ≠ .Open := by simp [hstuck.closed]
    cases c with
    | bindToken token =>
      have := (bindToken_eq_ok.mp hcall).2.1
      rw [hstuck.params_eq] at this
      apply htoken this
    | submitBid bidder price count key =>
      rw [perform, Checks.bind_eq_ok] at hcall
      obtain ⟨⟨id, w₁, effects₁⟩, hcall, _⟩ := hcall
      apply hnotOpen (submitBid_eq_ok.mp hcall).2.1
    | cancelBid caller id => apply hnotOpen (cancelBid_eq_ok.mp hcall).2.1
    | closeOffering => apply hnotOpen (closeOffering_eq_ok.mp hcall).2.1
    | cancelOffering =>
      obtain ⟨id, bid, hbid, hbidActive⟩ := hactive
      rw [← hstuck.bids_eq] at hbid
      have hle := h.escrow_le_escrowTotal hbid hbidActive
      have hpos := (h.bid_sound id bid hbid).escrow_pos
      have := (cancelOffering_eq_ok.mp hcall).2.2.1
      omega
    | closeAndSettle clearingPrice allocations =>
      obtain ⟨hfloat, hfee, htreasury, hpayout⟩ := (balanced_of_eq_ok h hcall).sellable h
      apply hunsellable
      rw [hstuck.params_eq, World.ids, hstuck.bidSeq_eq, hstuck.bids_eq] at hfloat
      rw [hstuck.params_eq] at hfee htreasury hpayout
      use hfloat, hfee, htreasury, hpayout
  | failed _ => apply hstuck
  | outside _ =>
    obtain ⟨h₁, h₂, h₃, h₄⟩ := hstuck
    use h₁, h₂, h₃, h₄

end Closed

/-! ### Exits of reachable worlds -/

section Exits

variable {selfAddr : Address} {w : World}

/-- A closed offering whose float cannot be sold has no exit. -/
theorem not_hasExit (h : Solvent selfAddr w) (hclosed : w.status = .Closed)
    (hactive : ∃ id bid, w.bids id = some bid ∧ bid.active = true)
    (htoken : w.params.fractionToken ≠ none) (hunsellable : ¬ Sellable selfAddr w) :
  ¬ HasExit selfAddr w
  := by
  rintro ⟨ls, w', hrun, _, hnone⟩
  have hstuck : w.Stuck w' ∧ Solvent selfAddr w' := by
    apply hrun.preserves (I := fun v => w.Stuck v ∧ Solvent selfAddr v)
    · rintro v l v' ⟨hstuck, hv⟩ hstep
      exact ⟨hstuck.step hv hactive htoken hunsellable hstep, hv.step hstep⟩
    · exact ⟨⟨hclosed, rfl, rfl, rfl⟩, h⟩
  obtain ⟨id, bid, hbid, hbidActive⟩ := hactive
  rw [← hstuck.1.bids_eq] at hbid
  cases hbidActive.symm.trans (hnone id bid hbid)

/-- From a reachable world with an active bid and a bound token, calls can lead to a world
without active bids exactly when the offering is open, or when its public float can be sold to
the active bids. -/
theorem hasExit_iff (h : (system selfAddr).Reachable w)
    (hactive : ∃ id bid, w.bids id = some bid ∧ bid.active = true)
    (htoken : w.params.fractionToken ≠ none) :
  HasExit selfAddr w ↔ w.status = .Open ∨ Sellable selfAddr w
  := by
  have hw := solvent_of_reachable h
  have hstatus : w.status = .Open ∨ w.status = .Closed := by
    obtain ⟨id, bid, hbid, hbidActive⟩ := hactive
    cases hstatus : w.status with
    | Open =>
      left
      rfl
    | Closed =>
      right
      rfl
    | Settled => cases hbidActive.symm.trans (hw.inactive (.inl hstatus) id bid hbid)
    | Cancelled => cases hbidActive.symm.trans (hw.inactive (.inr hstatus) id bid hbid)
  constructor
  · intro hexit
    rcases hstatus with hopen | hclosed
    · left
      apply hopen
    · right
      by_contra hunsellable
      apply not_hasExit hw hclosed hactive htoken hunsellable hexit
  · rcases hstatus with hopen | hclosed
    · intro _
      apply hw.hasExit_of_ids hopen w.ids
      intro id bid hbid _
      apply (hw.bids_iff id).mp ⟨bid, hbid⟩
    · rintro (hopen | hsell)
      · cases hclosed.symm.trans hopen
      · obtain ⟨token, htoken⟩ := Option.ne_none_iff_exists'.mp htoken
        apply hsell.hasExit hw hclosed htoken

/-- The small offering with its token bound. -/
def sampleBound : World :=
  { sampleBid with params := { sampleBid.params with fractionToken := some (.contract 2) } }

/-- The small offering, closed with a bid of four fractions for a public float of seven. -/
def sampleClosed : World := { sampleBound with status := .Closed }

theorem sampleBound_reachable :
  (system sampleEscrow).Reachable sampleBound
  := by
  apply sampleBid_reachable.step (l := .call sampleEnv (.bindToken (.contract 2))
    [.event (.TokenBound (.contract 2))])
  apply Step.call (by trivial) rfl

theorem sampleClosed_reachable :
  (system sampleEscrow).Reachable sampleClosed
  := by
  apply sampleBound_reachable.step (l := .call sampleEnv .closeOffering [.event .OfferingClosed])
  apply Step.call (by trivial) rfl

/-- The bid of the small offering, as long as it is open, has an exit. -/
theorem hasExit_iff_sampleBound :
  HasExit sampleEscrow sampleBound
    ↔ sampleBound.status = .Open ∨ Sellable sampleEscrow sampleBound
  := hasExit_iff sampleBound_reachable ⟨1, _, rfl, rfl⟩ nofun

/-- Not every bid can leave: the small offering, once it is closed, holds its bid for ever. -/
theorem not_forall_hasExit :
  ¬ ∀ selfAddr w, (system selfAddr).Reachable w →
    (∃ id bid, w.bids id = some bid ∧ bid.active = true) → w.params.fractionToken ≠ none →
    HasExit selfAddr w
  := by
  intro hall
  have hunsellable : ¬ Sellable sampleEscrow sampleClosed := by
    intro hsell
    have := hsell.float_le
    revert this
    decide
  have hactive : ∃ id bid, sampleClosed.bids id = some bid ∧ bid.active = true := ⟨1, _, rfl, rfl⟩
  apply not_hasExit (solvent_of_reachable sampleClosed_reachable) rfl hactive nofun hunsellable
  apply hall sampleEscrow sampleClosed sampleClosed_reachable hactive nofun

end Exits

end Escrow
