import Tove.Escrow.Settle

/-!
# The escrow is solvent

`Solvent` is the invariant of the contract: the running total is what is held for the active
bids, the bids are numbered without gaps, the idempotency keys point to bids, and the balance of
the contract covers the total. Every call preserves it.
-/

namespace Escrow

open Soroban Ledgers Totals Transition

/-- A recorded bid holds its price times its count. -/
structure Bid.Sound (b : Bid) : Prop where
  price_pos : 0 < b.price
  count_pos : 0 < b.count
  escrow_eq : b.escrow = b.price * b.count
  escrow_le : b.escrow ≤ MAX_I128

theorem Bid.Sound.escrow_pos {b : Bid} (h : b.Sound) :
  0 < b.escrow
  := by
  rw [h.escrow_eq]
  apply mul_pos h.price_pos h.count_pos

/-- The invariant of the contract. -/
structure Solvent (selfAddr : Address) (w : World) : Prop where
  escrowTotal_eq : w.escrowTotal = total (activeEscrow w.bids) w.ids
  escrowTotal_le : w.escrowTotal ≤ MAX_I128
  balance_ge : w.escrowTotal ≤ w.balances selfAddr
  bids_iff : ∀ id, (∃ bid, w.bids id = some bid) ↔ id ∈ w.ids
  bid_sound : ∀ id bid, w.bids id = some bid → bid.Sound
  bidder_ne : ∀ id bid, w.bids id = some bid → bid.bidder ≠ selfAddr
  idem_mem : ∀ key id, w.idem key = some id → id ∈ w.ids
  idem_inj : ∀ key key' id, w.idem key = some id → w.idem key' = some id → key = key'
  inactive : w.status = .Settled ∨ w.status = .Cancelled →
    ∀ id bid, w.bids id = some bid → bid.active = false
  params_sound : w.params.Sound
  bidSeq_le : w.bidSeq ≤ MAX_U32

/-! ### What is held for a bid -/

section ActiveEscrow

variable {bids : ℕ → Option Bid} {id : ℕ} {bid : Bid}

theorem activeEscrow_of_active (h : bids id = some bid) (hactive : bid.active = true) :
  activeEscrow bids id = bid.escrow
  := by
  rw [activeEscrow, activeBid_of_active h hactive]
  rfl

theorem activeEscrow_of_inactive (h : bids id = some bid) (hactive : bid.active = false) :
  activeEscrow bids id = 0
  := by
  rw [activeEscrow, activeBid_of_inactive h hactive]
  rfl

theorem activeEscrow_of_none (h : bids id = none) :
  activeEscrow bids id = 0
  := by
  rw [activeEscrow, activeBid_of_none h]
  rfl

theorem activeEscrow_update_of_ne (b : Option Bid) {k : ℕ} (h : k ≠ id) :
  activeEscrow (Function.update bids id b) k = activeEscrow bids k
  := by simp [activeEscrow, activeBid, Function.update_of_ne h]

theorem activeEscrow_nonneg (h : ∀ bid, bids id = some bid → bid.Sound) :
  0 ≤ activeEscrow bids id
  := by
  cases hbid : bids id with
  | none => rw [activeEscrow_of_none hbid]
  | some bid =>
    cases hactive : bid.active with
    | false => rw [activeEscrow_of_inactive hbid hactive]
    | true =>
      rw [activeEscrow_of_active hbid hactive]
      apply (h bid hbid).escrow_pos.le

end ActiveEscrow

/-! ### Consequences of the invariant -/

section Consequences

variable {selfAddr : Address} {w : World} (h : Solvent selfAddr w)

include h

theorem Solvent.escrowTotal_nonneg :
  0 ≤ w.escrowTotal
  := by
  rw [h.escrowTotal_eq]
  apply total_nonneg
  intro id _
  apply activeEscrow_nonneg (h.bid_sound id)

/-- The total covers each active bid. -/
theorem Solvent.escrow_le_escrowTotal {id : ℕ} {bid : Bid} (hbid : w.bids id = some bid)
    (hactive : bid.active = true) :
  bid.escrow ≤ w.escrowTotal
  := by
  rw [h.escrowTotal_eq, ← activeEscrow_of_active hbid hactive]
  apply le_total_of_mem
  · intro k _
    apply activeEscrow_nonneg (h.bid_sound k)
  · apply (h.bids_iff id).mp ⟨bid, hbid⟩

/-- A total of zero means that no bid is active. -/
theorem Solvent.inactive_of_escrowTotal (hle : w.escrowTotal ≤ 0) {id : ℕ} {bid : Bid}
    (hbid : w.bids id = some bid) :
  bid.active = false
  := by
  rw [← Bool.not_eq_true]
  intro hactive
  have := h.escrow_le_escrowTotal hbid hactive
  have := (h.bid_sound id bid hbid).escrow_pos
  omega

/-- When no bid is active the total is zero. -/
theorem Solvent.escrowTotal_eq_zero
    (hinactive : ∀ id bid, w.bids id = some bid → bid.active = false) :
  w.escrowTotal = 0
  := by
  rw [h.escrowTotal_eq, ← total_zero w.ids]
  apply total_congr
  intro id _
  cases hbid : w.bids id with
  | none => apply activeEscrow_of_none hbid
  | some bid => apply activeEscrow_of_inactive hbid (hinactive id bid hbid)

/-- The id of the next bid is fresh. -/
theorem Solvent.bids_next :
  w.bids (w.bidSeq + 1) = none
  := by
  by_contra hne
  obtain ⟨bid, hbid⟩ := Option.ne_none_iff_exists'.mp hne
  have := World.mem_ids.mp ((h.bids_iff _).mp ⟨bid, hbid⟩)
  omega

end Consequences

/-! ### The calls preserve the invariant -/

section Calls

variable {selfAddr : Address} {env : Env} {w w' : World} {effects : List Effect}

theorem solvent_of_construct {args : ConstructorArgs} {balances : Ledger Address}
    (hbalance : 0 ≤ balances selfAddr) (h : construct args balances = .ok w) :
  Solvent selfAddr w
  := by
  obtain ⟨hw, hparams⟩ := construct_eq_ok h
  rw [hw]
  constructor
  · rfl
  · show 0 ≤ MAX_I128
    decide
  · apply hbalance
  · simp [World.ids]
  · simp
  · simp
  · simp
  · simp
  · simp
  · apply hparams
  · apply Nat.zero_le

theorem Solvent.bindToken (h : Solvent selfAddr w) {token : Address}
    (hcall : bindToken env token w = .ok (w', effects)) :
  Solvent selfAddr w'
  := by
  obtain ⟨_, _, rfl, _⟩ := bindToken_eq_ok.mp hcall
  obtain ⟨h₁, h₂, h₃, h₄, h₅, h₆, h₇, h₈, h₉, ⟨p₁, p₂, p₃, p₄, p₅, p₆⟩, h₁₁⟩ := h
  exact ⟨h₁, h₂, h₃, h₄, h₅, h₆, h₇, h₈, h₉, ⟨p₁, p₂, p₃, p₄, p₅, p₆⟩, h₁₁⟩

/-- The ids after a bid has been recorded. -/
theorem ids_withBid (w : World) (bidder : Address) (price count : ℤ) (key : BytesN32) :
  (w.withBid selfAddr bidder price count key).ids = w.ids ++ [w.bidSeq + 1]
  := by
  rw [World.ids, World.withBid, List.range'_concat, World.ids]
  congr 2
  omega

theorem Solvent.submitBid (h : Solvent selfAddr w) {bidder : Address} {price count : ℤ}
    {key : BytesN32} {id : ℕ} (hbidder : bidder ≠ selfAddr)
    (hcall : submitBid selfAddr env bidder price count key w = .ok (id, w', effects)) :
  Solvent selfAddr w'
  := by
  obtain ⟨_, hopen, ⟨hprice, hcount⟩, hkey, hescrow, hseq, htotal, _, _, rfl, _⟩ :=
    submitBid_eq_ok.mp hcall
  set new : Bid := ⟨bidder, price, count, price * count, true⟩ with hnew
  have hbids : ∀ k bid, (w.withBid selfAddr bidder price count key).bids k = some bid →
      (k = w.bidSeq + 1 ∧ bid = new) ∨ w.bids k = some bid := by
    intro k bid hbid
    simp only [World.withBid, Function.update_apply] at hbid
    split at hbid
    · next hk =>
      left
      use hk, (Option.some.inj hbid).symm
    · right
      apply hbid
  have hnewSound : new.Sound := ⟨hprice, hcount, rfl, hescrow.2⟩
  constructor
  · have hrest : total (activeEscrow (w.withBid selfAddr bidder price count key).bids) w.ids
        = total (activeEscrow w.bids) w.ids := by
      apply total_congr
      intro k hk
      apply activeEscrow_update_of_ne
      have := (World.mem_ids.mp hk).2
      omega
    have hself : activeEscrow (w.withBid selfAddr bidder price count key).bids (w.bidSeq + 1)
        = price * count := activeEscrow_of_active (Function.update_self ..) rfl
    rw [ids_withBid, total_append, hrest, total_cons, total_nil, hself, ← h.escrowTotal_eq,
      add_zero]
    rfl
  · apply htotal.2
  · have := h.balance_ge
    simp only [World.withBid, Ledger.move_target _ _ hbidder.symm]
    omega
  · intro k
    rw [ids_withBid, List.mem_append, List.mem_singleton, ← h.bids_iff, World.withBid]
    by_cases hk : k = w.bidSeq + 1
    · simp [hk]
    · simp [hk]
  · intro k bid hbid
    rcases hbids k bid hbid with ⟨_, rfl⟩ | hbid
    · apply hnewSound
    · apply h.bid_sound k bid hbid
  · intro k bid hbid
    rcases hbids k bid hbid with ⟨_, rfl⟩ | hbid
    · apply hbidder
    · apply h.bidder_ne k bid hbid
  · intro key' k hk
    rw [ids_withBid, List.mem_append, List.mem_singleton]
    simp only [World.withBid, Function.update_apply] at hk
    split at hk
    · right
      apply (Option.some.inj hk).symm
    · left
      apply h.idem_mem key' k hk
  · have hfresh : ∀ key', w.idem key' ≠ some (w.bidSeq + 1) := by
      intro key' heq
      have := (World.mem_ids.mp (h.idem_mem key' _ heq)).2
      omega
    intro key₁ key₂ k h₁ h₂
    simp only [World.withBid, Function.update_apply] at h₁ h₂
    split at h₁ <;> split at h₂
    · next hk₁ hk₂ => rw [hk₁, hk₂]
    · obtain rfl := Option.some.inj h₁
      cases hfresh key₂ h₂
    · obtain rfl := Option.some.inj h₂
      cases hfresh key₁ h₁
    · apply h.idem_inj key₁ key₂ k h₁ h₂
  · rintro (hstatus | hstatus) <;> cases hopen.symm.trans hstatus
  · apply h.params_sound
  · apply hseq

/-- Deactivating a bid takes its escrow from what is held. -/
theorem total_activeEscrow_withoutBid {id : ℕ} {bid : Bid} (hmem : id ∈ w.ids)
    (hbid : w.bids id = some bid) (hactive : bid.active = true) :
  total (activeEscrow (w.withoutBid selfAddr id bid).bids) w.ids
    = total (activeEscrow w.bids) w.ids - bid.escrow
  := by
  have hself : activeEscrow (w.withoutBid selfAddr id bid).bids id = 0 :=
    activeEscrow_of_inactive (Function.update_self ..) rfl
  have hrest : ∀ k ∈ w.ids, k ≠ id →
      activeEscrow (w.withoutBid selfAddr id bid).bids k = activeEscrow w.bids k :=
    fun k _ hk => activeEscrow_update_of_ne _ hk
  rw [total_update w.ids_nodup hmem hrest, hself, activeEscrow_of_active hbid hactive]
  ring

theorem Solvent.cancelBid (h : Solvent selfAddr w) {caller : Address} {id : ℕ}
    (hcall : cancelBid selfAddr env caller id w = .ok (w', effects)) :
  Solvent selfAddr w'
  := by
  obtain ⟨_, hopen, bid, hbid, _, hactive, _, htotal, _, rfl, _⟩ := cancelBid_eq_ok.mp hcall
  have hbids : ∀ k b, (w.withoutBid selfAddr id bid).bids k = some b →
      ∃ b', w.bids k = some b' ∧ b = { b' with active := b.active } := by
    intro k b hb
    simp only [World.withoutBid, Function.update_apply] at hb
    split at hb
    · next hk =>
      subst hk
      obtain rfl := Option.some.inj hb
      use bid, hbid
    · use b, hb
  constructor
  · have hmem : id ∈ w.ids := (h.bids_iff id).mp ⟨bid, hbid⟩
    rw [show (w.withoutBid selfAddr id bid).ids = w.ids from rfl,
      total_activeEscrow_withoutBid hmem hbid hactive, ← h.escrowTotal_eq]
    rfl
  · apply htotal.2
  · have := h.balance_ge
    simp only [World.withoutBid, Ledger.move_source _ _ (h.bidder_ne id bid hbid)]
    omega
  · intro k
    rw [show (w.withoutBid selfAddr id bid).ids = w.ids from rfl, ← h.bids_iff k]
    by_cases hk : k = id
    · subst hk
      simp [World.withoutBid, hbid]
    · simp [World.withoutBid, hk]
  · intro k b hb
    obtain ⟨b', hb', heq⟩ := hbids k b hb
    obtain ⟨h₁, h₂, h₃, h₄⟩ := h.bid_sound k b' hb'
    rw [heq]
    exact ⟨h₁, h₂, h₃, h₄⟩
  · intro k b hb
    obtain ⟨b', hb', heq⟩ := hbids k b hb
    rw [heq]
    apply h.bidder_ne k b' hb'
  · apply h.idem_mem
  · apply h.idem_inj
  · rintro (hstatus | hstatus) <;> cases hopen.symm.trans hstatus
  · apply h.params_sound
  · apply h.bidSeq_le

theorem Solvent.closeOffering (h : Solvent selfAddr w)
    (hcall : closeOffering env w = .ok (w', effects)) :
  Solvent selfAddr w'
  := by
  obtain ⟨_, _, rfl, _⟩ := closeOffering_eq_ok.mp hcall
  obtain ⟨h₁, h₂, h₃, h₄, h₅, h₆, h₇, h₈, _, h₁₀, h₁₁⟩ := h
  exact ⟨h₁, h₂, h₃, h₄, h₅, h₆, h₇, h₈, by simp, h₁₀, h₁₁⟩

theorem Solvent.cancelOffering (h : Solvent selfAddr w)
    (hcall : cancelOffering env w = .ok (w', effects)) :
  Solvent selfAddr w'
  := by
  obtain ⟨_, _, hle, rfl, _⟩ := cancelOffering_eq_ok.mp hcall
  have hinactive := fun id bid => @Solvent.inactive_of_escrowTotal _ _ h hle id bid
  obtain ⟨h₁, h₂, h₃, h₄, h₅, h₆, h₇, h₈, _, h₁₀, h₁₁⟩ := h
  exact ⟨h₁, h₂, h₃, h₄, h₅, h₆, h₇, h₈, fun _ => hinactive, h₁₀, h₁₁⟩

/-- A bid of a world in which all bids have been deactivated. -/
theorem deactivate_eq_some {bids : ℕ → Option Bid} {ids : List ℕ} {id : ℕ} {bid : Bid}
    (hids : ∀ bid, bids id = some bid → id ∈ ids) (h : deactivate bids ids id = some bid) :
  ∃ bid', bids id = some bid' ∧ bid = { bid' with active := false }
  := by
  unfold deactivate at h
  split at h
  · obtain ⟨bid', hbid', rfl⟩ := Option.map_eq_some_iff.mp h
    use bid', hbid'
  · next hid => cases hid (hids bid h)

theorem Solvent.closeAndSettle (h : Solvent selfAddr w) {clearingPrice : ℤ}
    {allocations : List (ℕ × ℤ)}
    (hcall : closeAndSettle selfAddr env clearingPrice allocations w = .ok (w', effects)) :
  Solvent selfAddr w'
  := by
  obtain ⟨token, hsettled⟩ := settlement_of_eq_ok hcall
  have hbalance := hsettled.balance_nonneg (h.escrowTotal_nonneg.trans h.balance_ge)
  have hbids : ∀ k b, deactivate w.bids w.ids k = some b →
      ∃ b', w.bids k = some b' ∧ b = { b' with active := false } :=
    fun k b hb => deactivate_eq_some (fun b' hb' => (h.bids_iff k).mp ⟨b', hb'⟩) hb
  have hinactive : ∀ k b, deactivate w.bids w.ids k = some b → b.active = false := by
    intro k b hb
    obtain ⟨b', _, rfl⟩ := hbids k b hb
    rfl
  rw [hsettled.world_eq]
  constructor
  · simp only
    rw [← total_zero w.ids]
    apply total_congr
    intro k _
    cases hk : deactivate w.bids w.ids k with
    | none => rw [activeEscrow_of_none hk]
    | some b => rw [activeEscrow_of_inactive hk (hinactive k b hk)]
  · show 0 ≤ MAX_I128
    decide
  · apply hbalance
  · intro k
    apply Iff.trans _ (h.bids_iff k)
    simp only [deactivate]
    split <;> simp
  · intro k b hb
    obtain ⟨b', hb', heq⟩ := hbids k b hb
    obtain ⟨h₁, h₂, h₃, h₄⟩ := h.bid_sound k b' hb'
    rw [heq]
    exact ⟨h₁, h₂, h₃, h₄⟩
  · intro k b hb
    obtain ⟨b', hb', heq⟩ := hbids k b hb
    rw [heq]
    apply h.bidder_ne k b' hb'
  · apply h.idem_mem
  · apply h.idem_inj
  · intro _
    apply hinactive
  · apply h.params_sound
  · apply h.bidSeq_le

/-- Every call from outside preserves the invariant. -/
theorem Solvent.perform (h : Solvent selfAddr w) {c : Call} (hc : c.FromOutside selfAddr)
    (hcall : perform selfAddr env c w = .ok (w', effects)) :
  Solvent selfAddr w'
  := by
  cases c with
  | bindToken token => apply h.bindToken hcall
  | submitBid bidder price count key =>
    rw [Escrow.perform, Checks.bind_eq_ok] at hcall
    obtain ⟨⟨id, w₁, effects₁⟩, hcall, heq⟩ := hcall
    rw [Checks.pure_eq_ok, Prod.mk.injEq] at heq
    obtain ⟨rfl, rfl⟩ := heq
    apply h.submitBid hc hcall
  | cancelBid caller id => apply h.cancelBid hcall
  | closeOffering => apply h.closeOffering hcall
  | cancelOffering => apply h.cancelOffering hcall
  | closeAndSettle clearingPrice allocations => apply h.closeAndSettle hcall

theorem Solvent.step (h : Solvent selfAddr w) {l : Label} (hstep : Step selfAddr w l w') :
  Solvent selfAddr w'
  := by
  cases hstep with
  | call hc hcall => apply h.perform hc hcall
  | failed _ => apply h
  | outside hle =>
    obtain ⟨h₁, h₂, h₃, h₄, h₅, h₆, h₇, h₈, h₉, h₁₀, h₁₁⟩ := h
    exact ⟨h₁, h₂, h₃.trans hle, h₄, h₅, h₆, h₇, h₈, h₉, h₁₀, h₁₁⟩

end Calls

/-! ### Reachable states -/

/-- Every reachable world satisfies the invariant. -/
theorem solvent_of_reachable {selfAddr : Address} {w : World}
    (h : (system selfAddr).Reachable w) :
  Solvent selfAddr w
  := by
  apply h.invariant
  · rintro w₀ ⟨args, balances, hbalance, hconstruct⟩
    apply solvent_of_construct hbalance hconstruct
  · intro w₀ l w₁ hsolvent hstep
    apply hsolvent.step hstep

/-- In every reachable world the running total is the escrow of the active bids, each of which
holds its price times its count, the bids are numbered from one, the idempotency index is
injective into the numbers of the bids, the balance of the contract covers the total, and after
the offering has been settled or cancelled nothing is held. -/
theorem escrow_solvent {selfAddr : Address} {w : World} (h : (system selfAddr).Reachable w) :
  w.escrowTotal = total (fun id => (w.bids id).elim 0 fun bid =>
      if bid.active then bid.escrow else 0) (List.range' 1 w.bidSeq)
    ∧ (∀ id bid, w.bids id = some bid → bid.escrow = bid.price * bid.count ∧ 0 < bid.escrow)
    ∧ (∀ id, (∃ bid, w.bids id = some bid) ↔ 1 ≤ id ∧ id ≤ w.bidSeq)
    ∧ (∀ key id, w.idem key = some id → 1 ≤ id ∧ id ≤ w.bidSeq)
    ∧ (∀ key key' id, w.idem key = some id → w.idem key' = some id → key = key')
    ∧ w.escrowTotal ≤ w.balances selfAddr
    ∧ (w.status = .Settled ∨ w.status = .Cancelled →
        (∀ id bid, w.bids id = some bid → bid.active = false) ∧ w.escrowTotal = 0)
  := by
  have hw := solvent_of_reachable h
  constructor
  · rw [hw.escrowTotal_eq]
    apply total_congr
    intro id _
    cases hbid : w.bids id with
    | none => rw [activeEscrow_of_none hbid, Option.elim_none]
    | some bid =>
      cases hactive : bid.active with
      | false => simp [activeEscrow_of_inactive hbid hactive, hactive]
      | true => simp [activeEscrow_of_active hbid hactive, hactive]
  constructor
  · intro id bid hbid
    have := hw.bid_sound id bid hbid
    use this.escrow_eq, this.escrow_pos
  constructor
  · intro id
    rw [hw.bids_iff, World.mem_ids]
  constructor
  · intro key id hid
    apply World.mem_ids.mp (hw.idem_mem key id hid)
  constructor
  · apply hw.idem_inj
  constructor
  · apply hw.balance_ge
  · intro hstatus
    have hinactive := hw.inactive hstatus
    use hinactive, hw.escrowTotal_eq_zero hinactive

/-! ### A small offering -/

/-- The address of the contract in the small offering. -/
def sampleEscrow : Address := .contract 0

/-- An offering of ten fractions, three of which are retained. -/
def sampleArgs : ConstructorArgs where
  usdc := .contract 1
  totalSupply := 10
  artist := .account 10
  artistRetention := 2
  treasury := .account 11
  treasuryRetention := 1
  leftoverToArtist := 0
  artistPayout := .account 12
  admin := .account 13
  totalSupply_le := by decide

/-- A host that authorises everyone but the contract, and accepts all calls of the tokens. -/
def sampleEnv : Env where
  auth a := a ≠ sampleEscrow
  usdcAccepts := true
  mintSettleAccepts := true

/-- The small offering, newly deployed. -/
def sampleWorld : World where
  params := ⟨none, .contract 1, 10, .account 10, 2, .account 11, 1, 0, .account 12, .account 13⟩
  status := .Open
  bidSeq := 0
  escrowTotal := 0
  bids := fun _ => none
  idem := fun _ => none
  balances := fun _ => 1000

/-- The small offering with a bid of four fractions at a price of five. -/
def sampleBid : World := sampleWorld.withBid sampleEscrow (.account 20) 5 4 1

theorem sampleWorld_reachable :
  (system sampleEscrow).Reachable sampleWorld
  := by
  apply System.Reachable.init
  use sampleArgs, fun _ => 1000
  exact ⟨by decide, rfl⟩

theorem sampleBid_step :
  Step sampleEscrow sampleWorld (.call sampleEnv (.submitBid (.account 20) 5 4 1)
    [.usdcTransfer (.escrow 1) (.account 20) sampleEscrow 20,
      .event (.BidSubmitted (.account 20) 1 5 4 20)]) sampleBid
  := .call (show Address.account 20 ≠ sampleEscrow by decide) rfl

theorem sampleBid_reachable :
  (system sampleEscrow).Reachable sampleBid
  := sampleWorld_reachable.step sampleBid_step

/-- The small offering with its bid is solvent. -/
theorem escrow_solvent_sampleBid :
  sampleBid.escrowTotal = total (fun id => (sampleBid.bids id).elim 0 fun bid =>
      if bid.active then bid.escrow else 0) (List.range' 1 sampleBid.bidSeq)
    ∧ (∀ id bid, sampleBid.bids id = some bid →
        bid.escrow = bid.price * bid.count ∧ 0 < bid.escrow)
    ∧ (∀ id, (∃ bid, sampleBid.bids id = some bid) ↔ 1 ≤ id ∧ id ≤ sampleBid.bidSeq)
    ∧ (∀ key id, sampleBid.idem key = some id → 1 ≤ id ∧ id ≤ sampleBid.bidSeq)
    ∧ (∀ key key' id, sampleBid.idem key = some id → sampleBid.idem key' = some id → key = key')
    ∧ sampleBid.escrowTotal ≤ sampleBid.balances sampleEscrow
    ∧ (sampleBid.status = .Settled ∨ sampleBid.status = .Cancelled →
        (∀ id bid, sampleBid.bids id = some bid → bid.active = false)
          ∧ sampleBid.escrowTotal = 0)
  := escrow_solvent sampleBid_reachable

end Escrow
