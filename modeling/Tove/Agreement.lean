import Tove.Clearing.Correct
import Tove.Escrow.Exit

/-!
# The clearing and the settlement agree

The settle worker computes the clearing of an offering off chain, encodes the allocations of the
winners, and calls `close_and_settle`.  When the book mirrors the active bids of the closed
contract, the call succeeds and does what the result of the clearing says.
-/

namespace Agreement

open Js Soroban Ledgers Totals Clearing Escrow

/-! ### The arguments of the call -/

/-- One winner allocation to encode. -/
structure AllocationArg where
  bidId : ℤ
  allocated : ℤ
  deriving DecidableEq, Repr

/-- One round of the checks of `encodeAllocations`, with the ids seen so far. -/
def checkArg (seen : List ℤ) (a : AllocationArg) : Except RangeError (List ℤ) := do
  throwIf (a.bidId < 1 ∨ a.bidId > MAX_U32)
    s!"allocation bidId {a.bidId} is not a valid u32 in [1, {MAX_U32}]"
  throwIf (a.bidId ∈ seen) s!"duplicate allocation bidId {a.bidId}"
  throwIf (a.allocated ≤ 0) s!"allocation for bidId {a.bidId} must be positive"
  return a.bidId :: seen

/-- The allocations as the pairs of the call, after they have been checked. -/
def encodeAllocations (allocations : List AllocationArg) : Except RangeError (List (ℕ × ℤ)) := do
  let _ ← allocations.foldlM checkArg []
  return allocations.map fun a => (a.bidId.toNat, a.allocated)

/-- The allocations that the settle worker hands over. -/
def allocationArgs (result : ClearingResult) : List AllocationArg :=
  result.winners.map fun x => ⟨x.chainBidId, x.allocatedCount⟩

/-- Distinct valid ids with positive allocations are encoded as they are. -/
theorem encodeAllocations_eq_ok {allocations : List AllocationArg}
    (hid : ∀ a ∈ allocations, 1 ≤ a.bidId ∧ a.bidId ≤ MAX_U32)
    (hnodup : (allocations.map AllocationArg.bidId).Nodup)
    (hpos : ∀ a ∈ allocations, 0 < a.allocated) :
  encodeAllocations allocations
    = .ok (allocations.map fun a => (a.bidId.toNat, a.allocated))
  := by
  have hchecks : ∃ seen, allocations.foldlM checkArg [] = .ok seen := by
    apply Checks.foldlM_succeeds
      (motive := fun pre seen => seen = (pre.map AllocationArg.bidId).reverse) rfl
    · rintro pre a seen hpre rfl
      have ha : a ∈ allocations := hpre.mem (by simp)
      obtain ⟨hge, hle⟩ := hid a ha
      have hfresh : a.bidId ∉ pre.map AllocationArg.bidId := by
        have hdistinct := (hpre.sublist.map AllocationArg.bidId).nodup hnodup
        rw [List.map_append, List.nodup_append] at hdistinct
        intro hseen
        apply hdistinct.2.2 _ hseen a.bidId (by simp) rfl
      have hallocated := hpos a ha
      refine ⟨_, Checks.check_bind_eq_ok.mpr ⟨Checks.rejectIf_eq_ok.mpr ?_,
        Checks.check_bind_eq_ok.mpr ⟨Checks.rejectIf_eq_ok.mpr ?_,
          Checks.check_bind_eq_ok.mpr ⟨Checks.rejectIf_eq_ok.mpr ?_, rfl⟩⟩⟩⟩
      · omega
      · rw [List.mem_reverse]
        apply hfresh
      · omega
    · rintro pre a seen seen' _ rfl hstep
      simp only [checkArg, throwIf, Checks.check_bind_eq_ok, Checks.rejectIf_eq_ok,
        Checks.pure_eq_ok] at hstep
      rw [← hstep.2.2.2, List.map_append, List.reverse_append]
      rfl
  obtain ⟨seen, hseen⟩ := hchecks
  rw [encodeAllocations, hseen]
  rfl

/-! ### Books that mirror the contract -/

/-- A bid of the book is a bid of the contract. -/
structure Reflects (b : ClearingBidInput) (id : ℕ) (bid : Bid) : Prop where
  id_eq : b.chainBidId = id
  price_eq : b.priceStroops = bid.price
  count_eq : b.count = bid.count
  escrow_eq : b.escrowAmountStroops = bid.escrow

/-- The bids of the book are the active bids of the contract. -/
structure Mirrors (bids : List ClearingBidInput) (w : World) : Prop where
  listed : ∀ id bid, w.bids id = some bid → bid.active = true → ∃ b ∈ bids, Reflects b id bid
  active : ∀ b ∈ bids, ∃ id bid, w.bids id = some bid ∧ bid.active = true ∧ Reflects b id bid

/-- The settlement has carried out the result of a clearing. -/
structure CarriedOut (result : ClearingResult) (w w' : World) (effects : List Effect) : Prop where
  settled : w'.status = .Settled
  minted : ∃ recipients,
    mints effects = [recipients ++ retentions w.params w.params.artistRetention]
      ∧ List.Forall₂ (fun x entry => ∃ bid, w.bids x.chainBidId.toNat = some bid
          ∧ entry = (bid.bidder, x.allocatedCount)) result.winners recipients
  minted_total : ∀ recipients ∈ mints effects, total Prod.snd recipients = w.params.totalSupply
  refunded_winner : ∀ x ∈ result.winners, ∃ bid, w.bids x.chainBidId.toNat = some bid
    ∧ outflows x.chainBidId.toNat effects = payment bid.bidder x.refundStroops
  refunded_loser : ∀ id bid, w.bids id = some bid → bid.active = true →
    (id : ℤ) ∉ result.winners.map ClearingWinner.chainBidId →
    outflows id effects = [(bid.bidder, bid.escrow)]
  refunded_else : ∀ id, (∀ bid, w.bids id = some bid → bid.active = false) →
    outflows id effects = []
  fee_paid : paidOn .platformFee effects = payment w.params.treasury result.platformFeeStroops
  net_paid : paidOn .artistNet effects = payment w.params.artistPayout result.artistNetStroops
  balances_eq : w'.balances = applyEffects w.balances effects

section Agreement

variable {selfAddr : Address} {env : Env} {bids : List ClearingBidInput} {publicFloat P : ℤ}
  {r : ClearingResult} {w : World}

/-- A winner of a cleared book that mirrors the contract has a bid there, and its allocation is
valid. -/
structure WinnerReflects (P : ℤ) (w : World) (x : ClearingWinner) (bid : Bid) : Prop where
  id_eq : (x.chainBidId.toNat : ℤ) = x.chainBidId
  valid : ValidAllocation P w.bids x.chainBidId.toNat x.allocatedCount bid
  pos : 0 < x.allocatedCount
  refund_eq : x.refundStroops = bid.escrow - P * x.allocatedCount

variable (hbook : ValidBook bids) (hmirror : Mirrors bids w)
  (hcleared : ClearedAt bids publicFloat P r)

include hbook hmirror hcleared

theorem winnerReflects_of_mem {x : ClearingWinner} (hx : x ∈ r.winners) :
  ∃ bid, WinnerReflects P w x bid
  := by
  obtain ⟨b, hb, hpos, rfl⟩ := hcleared.mem_winners.mp hx
  obtain ⟨id, bid, hbid, hactive, ⟨hid, hprice, hcount, hescrow⟩⟩ := hmirror.active b hb
  have hrefund := hcleared.refund_nonneg hbook hb hpos
  have hle := (hcleared.clears.allocation_mem_Icc hbook.count_pos hb).2
  have hPpos : 0 < P := by
    obtain ⟨⟨c, hc, rfl⟩, _⟩ := (hcleared.uniformPriceClearing hbook).isGreatest.1
    apply hbook.price_pos c hc
  have hPle := le_price_of_pos hpos
  have hidNat : b.chainBidId.toNat = id := by rw [hid, Int.toNat_natCast]
  use bid
  constructor
  · show (b.chainBidId.toNat : ℤ) = b.chainBidId
    rw [hidNat, hid]
  · constructor
    · show w.bids b.chainBidId.toNat = some bid
      rw [hidNat, hbid]
    · apply hactive
    · apply hpos.le
    · rw [← hcount]
      apply hle
    · intro _
      rw [← hprice]
      use hPpos, hPle
    · rw [← hescrow]
      apply hrefund
  · apply hpos
  · rw [← hescrow]
    rfl

/-- The pairs of the call. -/
def callArgs (r : ClearingResult) : List (ℕ × ℤ) :=
  r.winners.map fun x => (x.chainBidId.toNat, x.allocatedCount)

theorem callArgs_fst :
  ((callArgs r).map Prod.fst).map (Nat.cast : ℕ → ℤ) = r.winners.map ClearingWinner.chainBidId
  := by
  rw [callArgs, List.map_map, List.map_map]
  apply List.map_congr_left
  intro x hx
  obtain ⟨bid, hbid⟩ := winnerReflects_of_mem hbook hmirror hcleared hx
  apply hbid.id_eq

theorem validAllocations_callArgs :
  ValidAllocations P w.bids (callArgs r)
  := by
  constructor
  · apply List.Nodup.of_map (Nat.cast : ℕ → ℤ)
    rw [callArgs_fst hbook hmirror hcleared]
    apply hcleared.winners_nodup hbook
  · intro entry hentry
    obtain ⟨x, hx, rfl⟩ := List.mem_map.mp hentry
    obtain ⟨bid, hbid⟩ := winnerReflects_of_mem hbook hmirror hcleared hx
    exact ⟨bid, hbid.valid⟩

theorem encodeAllocations_allocationArgs (h : Solvent selfAddr w) :
  encodeAllocations (allocationArgs r) = .ok (callArgs r)
  := by
  rw [encodeAllocations_eq_ok, allocationArgs, List.map_map]
  · rfl
  · intro a ha
    obtain ⟨x, hx, rfl⟩ := List.mem_map.mp ha
    obtain ⟨bid, hbid⟩ := winnerReflects_of_mem hbook hmirror hcleared hx
    have hmem := World.mem_ids.mp ((h.bids_iff _).mp ⟨bid, hbid.valid.bid_eq⟩)
    have hid := hbid.id_eq
    have hle := h.bidSeq_le
    dsimp only
    omega
  · rw [allocationArgs, List.map_map]
    apply hcleared.winners_nodup hbook
  · intro a ha
    obtain ⟨x, hx, rfl⟩ := List.mem_map.mp ha
    obtain ⟨bid, hbid⟩ := winnerReflects_of_mem hbook hmirror hcleared hx
    apply hbid.pos

omit hmirror in
theorem total_callArgs :
  total Prod.snd (callArgs r) = publicFloat
  := by
  rw [callArgs, total_map]
  apply (hcleared.uniformPriceClearing hbook).sold

/-- The allocation of a winner is found under its chain id. -/
theorem allocOf_callArgs {x : ClearingWinner} (hx : x ∈ r.winners) :
  allocOf (callArgs r) x.chainBidId.toNat = some x.allocatedCount
  := by
  have hnodup := (validAllocations_callArgs hbook hmirror hcleared).nodup
  apply allocOf_of_mem hnodup
  apply List.mem_map_of_mem hx

/-- The call mints to each winner its allocation. -/
theorem winners_callArgs :
  List.Forall₂ (fun x entry => ∃ bid, w.bids x.chainBidId.toNat = some bid
    ∧ entry = (bid.bidder, x.allocatedCount)) r.winners (winners w.bids (callArgs r))
  := by
  have hmem := fun x hx => @winnerReflects_of_mem _ _ _ _ _ hbook hmirror hcleared x hx
  rw [callArgs]
  generalize r.winners = xs at hmem ⊢
  induction xs with
  | nil => apply List.Forall₂.nil
  | cons x xs ih =>
    obtain ⟨⟨bid, hbid⟩, hrest⟩ := List.forall_mem_cons.mp hmem
    have hhead : winners w.bids [(x.chainBidId.toNat, x.allocatedCount)]
        = [(bid.bidder, x.allocatedCount)] := by
      simp [winners, hbid.pos, hbid.valid.bid_eq]
    rw [List.map_cons, winners_cons, hhead, List.singleton_append]
    apply List.Forall₂.cons
    · exact ⟨bid, hbid.valid.bid_eq, rfl⟩
    · apply ih hrest

section Settlement

variable (h : Solvent selfAddr w) {token : Address} {w' : World} {effects : List Effect}
  (hs : Settlement selfAddr env P (callArgs r) token w w' effects)

include h hs

/-- A winner gets its refund. -/
theorem outflows_winner {x : ClearingWinner} (hx : x ∈ r.winners) :
  ∃ bid, w.bids x.chainBidId.toNat = some bid
    ∧ outflows x.chainBidId.toNat effects = payment bid.bidder x.refundStroops
  := by
  obtain ⟨bid, hbid⟩ := winnerReflects_of_mem hbook hmirror hcleared hx
  use bid, hbid.valid.bid_eq
  rw [hs.outflows_eq h, activeBid_of_active hbid.valid.bid_eq hbid.valid.active, Option.elim_some,
    allocOf_callArgs hbook hmirror hcleared hx, Option.getD_some, hbid.refund_eq]

omit hbook hmirror hcleared in
/-- An active bid that is allocated nothing gets its escrow back. -/
theorem outflows_loser {id : ℕ} {bid : Bid} (hbid : w.bids id = some bid)
    (hactive : bid.active = true) (hnone : allocOf (callArgs r) id = none) :
  outflows id effects = [(bid.bidder, bid.escrow)]
  := by
  have hpos := (h.bid_sound id bid hbid).escrow_pos
  rw [hs.outflows_eq h, activeBid_of_active hbid hactive, Option.elim_some, hnone,
    Option.getD_none, mul_zero, sub_zero, payment, if_pos hpos]

omit hbook hmirror hcleared in
/-- Nothing is paid for a bid that is not active. -/
theorem outflows_inactive {id : ℕ} (hinactive : ∀ bid, w.bids id = some bid → bid.active = false) :
  outflows id effects = []
  := by
  rw [hs.outflows_eq h]
  cases hbid : w.bids id with
  | none => rw [activeBid_of_none hbid, Option.elim_none]
  | some bid => rw [activeBid_of_inactive hbid (hinactive bid hbid), Option.elim_none]

/-- The settlement with the pairs of the call carries out the result. -/
theorem carriedOut (hleftover : w.params.leftoverToArtist = 0) :
  CarriedOut r w w' effects
  := by
  have htotal := total_callArgs hbook hcleared
  have hmints := hs.mints_eq
  rw [hleftover, add_zero] at hmints
  constructor
  · rw [hs.world_eq]
  · use winners w.bids (callArgs r), hmints
    apply winners_callArgs hbook hmirror hcleared
  · intro recipients hrecipients
    rw [hmints, List.mem_singleton] at hrecipients
    have hparams := h.params_sound
    have hsupply := hs.supply
    rw [hrecipients, total_append, hs.total_winners,
      total_retentions hparams.artistRetention_nonneg hparams.treasuryRetention_nonneg]
    omega
  · intro x hx
    apply outflows_winner hbook hmirror hcleared h hs hx
  · intro id bid hbid hactive hlost
    apply outflows_loser h hs hbid hactive
    rw [Option.eq_none_iff_forall_ne_some]
    intro allocated halloc
    apply hlost
    rw [← callArgs_fst hbook hmirror hcleared]
    apply List.mem_map_of_mem (List.mem_map_of_mem (mem_of_allocOf halloc))
  · intro id hinactive
    apply outflows_inactive h hs hinactive
  · rw [hs.paidOn_eq (by simp), paidOn_payEffects, paidOn_payEffects, if_pos rfl, if_neg (by simp),
      List.append_nil, htotal, hcleared.fee_eq]
    rfl
  · rw [hs.paidOn_eq (by simp), paidOn_payEffects, paidOn_payEffects, if_neg (by simp), if_pos rfl,
      List.nil_append, htotal, hcleared.net_eq]
    rfl
  · apply hs.balances_eq

end Settlement

end Agreement

/-! ### The agreement -/

/-- The clearing of a book that mirrors the active bids of a closed contract, when the demand
reaches the public float, can be settled: the allocations of the winners are encoded, the call of
`close_and_settle` succeeds, and it carries out the result of the clearing. -/
theorem closeAndSettle_carries_out {selfAddr : Address} {w : World} {env : Env}
    {bids : List ClearingBidInput} {publicFloat : ℤ} {r : ClearingResult}
    (hreachable : (Escrow.system selfAddr).Reachable w) (hclosed : w.status = .Closed)
    (hbound : w.params.fractionToken ≠ none) (hleftover : w.params.leftoverToArtist = 0)
    (hfloat : w.params.totalSupply - w.params.artistRetention - w.params.treasuryRetention
      = publicFloat)
    (htreasury : w.params.treasury ≠ selfAddr) (hpayout : w.params.artistPayout ≠ selfAddr)
    (hbook : ValidBook bids) (hmirror : Mirrors bids w)
    (hdemand : publicFloat ≤ total ClearingBidInput.count bids)
    (hr : computeClearing bids publicFloat = .ok r)
    (hproceeds : r.proceedsStroops * 300 ≤ Soroban.MAX_I128) (henv : AcceptsSettlement env w) :
  ∃ P args w' effects, r.clearingPriceStroops = some P
    ∧ encodeAllocations (allocationArgs r) = .ok args
    ∧ closeAndSettle selfAddr env P args w = .ok (w', effects)
    ∧ CarriedOut r w w' effects
  := by
  have h := solvent_of_reachable hreachable
  obtain ⟨token, htoken⟩ := Option.ne_none_iff_exists'.mp hbound
  obtain ⟨P, r', hr', hcleared⟩ :=
    computeClearing_of_le hbook (publicFloat_pos_of_eq_ok hr) hdemand
  obtain rfl : r = r' := Except.ok.inj (hr.symm.trans hr')
  have htotal := total_callArgs hbook hcleared
  have hbalanced : Balanced selfAddr P (callArgs r) w := by
    constructor
    · apply validAllocations_callArgs hbook hmirror hcleared
    · rw [htotal]
      omega
    · rw [htotal, ← hcleared.proceeds_eq]
      apply hproceeds
    · intro heq
      cases htreasury heq
    · intro heq
      cases hpayout heq
  obtain ⟨w', effects, hcall⟩ := hbalanced.closeAndSettle_succeeds h hclosed htoken henv
  obtain ⟨_, hs⟩ := settlement_of_eq_ok hcall
  use P, callArgs r, w', effects, hcleared.price_eq
  use encodeAllocations_allocationArgs hbook hmirror hcleared h, hcall
  apply carriedOut hbook hmirror hcleared h hs hleftover

/-- The small offering with a second bid, of five fractions at a price of six. -/
def sampleFull : World := sampleBound.withBid sampleEscrow (.account 21) 6 5 2

/-- The small offering, closed with two bids. -/
def sampleFullClosed : World := { sampleFull with status := .Closed }

/-- The book of the small offering. -/
def sampleBook : List ClearingBidInput :=
  [⟨[1], 1, [1], 5, 4, [10], 20⟩, ⟨[2], 2, [2], 6, 5, [20], 30⟩]

/-- The clearing of the small offering: five fractions for the second bid, two for the first. -/
def sampleResult : ClearingResult where
  clearingPriceStroops := some 5
  fullySubscribed := true
  totalDemand := 9
  winners := [⟨[2], 2, [2], 6, 5, 5, 5⟩, ⟨[1], 1, [1], 5, 4, 2, 10⟩]
  proceedsStroops := 35
  platformFeeStroops := 1
  artistNetStroops := 34
  bidsSnapshot := [⟨2, [2], 6, 5, [20]⟩, ⟨1, [1], 5, 4, [10]⟩]

theorem sampleFull_reachable :
  (Escrow.system sampleEscrow).Reachable sampleFull
  := by
  have hbid : Step sampleEscrow sampleBound (.call sampleEnv (.submitBid (.account 21) 6 5 2)
      [.usdcTransfer (.escrow 2) (.account 21) sampleEscrow 30,
        .event (.BidSubmitted (.account 21) 2 6 5 30)]) sampleFull :=
    .call (show Address.account 21 ≠ sampleEscrow by decide) rfl
  apply sampleBound_reachable.step hbid

theorem sampleFullClosed_reachable :
  (Escrow.system sampleEscrow).Reachable sampleFullClosed
  := by
  have hclose : Step sampleEscrow sampleFull
      (.call sampleEnv .closeOffering [.event .OfferingClosed]) sampleFullClosed :=
    .call trivial rfl
  apply sampleFull_reachable.step hclose

theorem sampleBook_valid :
  ValidBook sampleBook
  where
  nodup := by decide
  price_pos := by decide
  count_pos := by decide
  escrow_eq := by decide

/-- The bids of the small offering. -/
theorem sampleFull_bids {id : ℕ} {bid : Bid} (hbid : sampleFull.bids id = some bid) :
  (id = 2 ∧ bid = ⟨.account 21, 6, 5, 30, true⟩) ∨ (id = 1 ∧ bid = ⟨.account 20, 5, 4, 20, true⟩)
  := by
  have hbook : sampleFull.bids = Function.update (Function.update (fun _ => none) 1
      (some ⟨.account 20, 5, 4, 20, true⟩)) 2 (some ⟨.account 21, 6, 5, 30, true⟩) := rfl
  rw [hbook, Function.update_apply, Function.update_apply] at hbid
  split at hbid
  · next hid =>
    left
    use hid, (Option.some.inj hbid).symm
  · split at hbid
    · next hid =>
      right
      use hid, (Option.some.inj hbid).symm
    · cases hbid

theorem sampleBook_mirrors :
  Mirrors sampleBook sampleFullClosed
  := by
  constructor
  · intro id bid hbid _
    rcases sampleFull_bids hbid with ⟨rfl, rfl⟩ | ⟨rfl, rfl⟩
    · exact ⟨_, List.mem_cons_of_mem _ List.mem_cons_self, rfl, rfl, rfl, rfl⟩
    · exact ⟨_, List.mem_cons_self, rfl, rfl, rfl, rfl⟩
  · intro b hb
    rcases List.mem_cons.mp hb with rfl | hb
    · exact ⟨1, _, rfl, rfl, rfl, rfl, rfl, rfl⟩
    · obtain rfl := List.mem_singleton.mp hb
      exact ⟨2, _, rfl, rfl, rfl, rfl, rfl, rfl⟩

/-- The small offering can be settled as its clearing says. -/
theorem closeAndSettle_carries_out_sampleBook :
  ∃ P args w' effects, sampleResult.clearingPriceStroops = some P
    ∧ encodeAllocations (allocationArgs sampleResult) = .ok args
    ∧ closeAndSettle sampleEscrow sampleEnv P args sampleFullClosed = .ok (w', effects)
    ∧ CarriedOut sampleResult sampleFullClosed w' effects
  := closeAndSettle_carries_out sampleFullClosed_reachable rfl nofun rfl rfl (by decide) (by decide)
    sampleBook_valid sampleBook_mirrors (by decide) rfl (by decide) ⟨by decide, rfl, rfl⟩

end Agreement
