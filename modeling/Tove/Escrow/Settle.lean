import Tove.Escrow.Calls

/-!
# Settlement

`close_and_settle` runs three loops. The first one validates the allocations, the second one
collects the winners, the third one refunds every active bid. Each loop is described by what
holds of the part of its list that it has passed; the descriptions are put together in
`Settlement`, which is all that a successful settlement does.
-/

namespace Escrow

open Soroban Ledgers Totals

/-! ### The validation of the allocations -/

/-- The map of the allocations. -/
def allocOf (allocations : List (ℕ × ℤ)) (id : ℕ) : Option ℤ := allocations.lookup id

/-- A valid allocation is to an active bid, and within its count.  A winner bids at least the
clearing price, which is positive, and pays no more than it has in escrow. -/
structure ValidAllocation (clearingPrice : ℤ) (bids : ℕ → Option Bid) (id : ℕ) (allocated : ℤ)
    (bid : Bid) : Prop where
  bid_eq : bids id = some bid
  active : bid.active = true
  nonneg : 0 ≤ allocated
  le_count : allocated ≤ bid.count
  price : 0 < allocated → 0 < clearingPrice ∧ clearingPrice ≤ bid.price
  refund_nonneg : 0 ≤ bid.escrow - clearingPrice * allocated

/-- A winner pays a positive price, and everyone else nothing. -/
theorem ValidAllocation.cost_nonneg {clearingPrice allocated : ℤ} {bids : ℕ → Option Bid} {id : ℕ}
    {bid : Bid} (h : ValidAllocation clearingPrice bids id allocated bid) :
  0 ≤ clearingPrice * allocated
  := by
  rcases h.nonneg.eq_or_lt with hzero | hpos
  · rw [← hzero, mul_zero]
  · apply mul_nonneg (h.price hpos).1.le h.nonneg

/-- Valid allocations: each is valid, and no bid is listed twice. -/
structure ValidAllocations (clearingPrice : ℤ) (bids : ℕ → Option Bid)
    (allocations : List (ℕ × ℤ)) : Prop where
  nodup : (allocations.map Prod.fst).Nodup
  valid : ∀ entry ∈ allocations, ∃ bid, ValidAllocation clearingPrice bids entry.1 entry.2 bid

section Validate

variable {clearingPrice : ℤ} {bids : ℕ → Option Bid} {v v' : Validated} {id : ℕ} {allocated : ℤ}

theorem validate_eq_ok :
  validate clearingPrice bids v (id, allocated) = .ok v'
    ↔ ∃ bid, ValidAllocation clearingPrice bids id allocated bid
      ∧ v.alloc id = none
      ∧ InI128 (clearingPrice * allocated)
      ∧ InI128 (bid.escrow - clearingPrice * allocated)
      ∧ InI128 (v.sumAllocated + allocated)
      ∧ InI128 (v.proceeds + clearingPrice * allocated)
      ∧ Validated.mk (Function.update v.alloc id (some allocated)) (v.sumAllocated + allocated)
          (v.proceeds + clearingPrice * allocated) = v'
  := by
  unfold validate
  cases hbid : bids id with
  | none =>
    simp only [hbid, Checks.throw_eq_ok, false_iff, not_exists, not_and]
    intro bid hvalid
    cases hbid ▸ hvalid.bid_eq
  | some bid =>
    simp only [hbid, errorIf, Checks.bind_eq_ok, Checks.rejectIf_eq_ok, i128_eq_ok,
      Checks.pure_eq_ok, exists_const, and_assoc, exists_and_left, exists_eq_left', not_or, not_and,
      not_lt, not_le, ne_eq, not_not, Bool.not_eq_false, gt_iff_lt]
    constructor
    · rintro ⟨hactive, hnonneg, hle, halloc, hprice, h₁, h₂, hrefund, h₃, h₄, h⟩
      use bid, ⟨hbid, hactive, hnonneg, hle, hprice, hrefund⟩, halloc, h₁, h₂, h₃, h₄
    · rintro ⟨bid', hvalid, halloc, h₁, h₂, h₃, h₄, h⟩
      obtain rfl : bid = bid' := Option.some.inj (hbid.symm.trans hvalid.bid_eq)
      use hvalid.active, hvalid.nonneg, hvalid.le_count, halloc, hvalid.price, h₁, h₂,
        hvalid.refund_nonneg, h₃, h₄

/-- What the validation has established of the allocations that it has passed. -/
structure ValidatedSoFar (clearingPrice : ℤ) (bids : ℕ → Option Bid) (pre : List (ℕ × ℤ))
    (v : Validated) : Prop extends ValidAllocations clearingPrice bids pre where
  alloc_eq : v.alloc = allocOf pre
  sum_eq : v.sumAllocated = total Prod.snd pre
  proceeds_eq : v.proceeds = clearingPrice * total Prod.snd pre

theorem ValidatedSoFar.nil :
  ValidatedSoFar clearingPrice bids [] ⟨fun _ => none, 0, 0⟩
  := by
  constructor
  · constructor <;> simp
  · rfl
  · rfl
  · simp

/-- One round of the validation. -/
theorem ValidatedSoFar.snoc {pre : List (ℕ × ℤ)} (h : ValidatedSoFar clearingPrice bids pre v)
    (hstep : validate clearingPrice bids v (id, allocated) = .ok v') :
  ValidatedSoFar clearingPrice bids (pre ++ [(id, allocated)]) v'
  := by
  obtain ⟨bid, hvalid, hnone, _, _, _, _, rfl⟩ := validate_eq_ok.mp hstep
  constructor
  · constructor
    · rw [List.map_append, List.nodup_append]
      use h.nodup, List.nodup_singleton _
      rintro a ha b hb rfl
      rw [List.map_singleton, List.mem_singleton] at hb
      subst hb
      rw [h.alloc_eq, allocOf, List.lookup_eq_none_iff] at hnone
      obtain ⟨entry, hentry, heq⟩ := List.mem_map.mp ha
      have := hnone entry hentry
      simp [heq] at this
    · intro entry hentry
      rcases List.mem_append.mp hentry with hentry | hentry
      · apply h.valid entry hentry
      · rw [List.mem_singleton] at hentry
        subst hentry
        exact ⟨bid, hvalid⟩
  · funext k
    by_cases hk : k = id
    · subst hk
      rw [h.alloc_eq, allocOf] at hnone
      simp [allocOf, List.lookup_append, hnone]
    · have hbeq : (k == id) = false := beq_eq_false_iff_ne.mpr hk
      simp only [h.alloc_eq, allocOf, Function.update_of_ne hk, List.lookup_append,
        List.lookup_cons, hbeq]
      simp
  · simp [h.sum_eq]
  · rw [total_append, total_cons, total_nil, h.proceeds_eq]
    ring

/-- A successful validation establishes its description for all allocations. -/
theorem validatedSoFar_of_eq_ok {allocations : List (ℕ × ℤ)}
    (h : allocations.foldlM (validate clearingPrice bids) ⟨fun _ => none, 0, 0⟩ = .ok v) :
  ValidatedSoFar clearingPrice bids allocations v
  := by
  apply Checks.foldlM_invariant ValidatedSoFar.nil _ h
  rintro pre ⟨id, allocated⟩ t t' _ hpre hstep
  apply hpre.snoc hstep

end Validate

/-! ### The winners -/

/-- The recipients of the allocations, in the order of the list. -/
def winners (bids : ℕ → Option Bid) (allocations : List (ℕ × ℤ)) : List (Address × ℤ) :=
  (allocations.filter (0 < ·.2)).filterMap fun entry =>
    (bids entry.1).map fun bid => (bid.bidder, entry.2)

theorem pushWinner_eq_ok {bids : ℕ → Option Bid} {recipients recipients' : List (Address × ℤ)}
    {entry : ℕ × ℤ} :
  pushWinner bids recipients entry = .ok recipients'
    ↔ (0 < entry.2 → bids entry.1 ≠ none) ∧ recipients ++ winners bids [entry] = recipients'
  := by
  unfold pushWinner winners
  by_cases hpos : 0 < entry.2
  · cases hbid : bids entry.1 <;> simp [hpos, hbid]
  · simp [hpos]

theorem winners_append (bids : ℕ → Option Bid) (allocations allocations' : List (ℕ × ℤ)) :
  winners bids (allocations ++ allocations') = winners bids allocations ++ winners bids allocations'
  := by simp [winners]

theorem winners_cons (bids : ℕ → Option Bid) (entry : ℕ × ℤ) (allocations : List (ℕ × ℤ)) :
  winners bids (entry :: allocations) = winners bids [entry] ++ winners bids allocations
  := winners_append bids [entry] allocations

theorem winners_of_eq_ok {bids : ℕ → Option Bid} {allocations : List (ℕ × ℤ)}
    {recipients : List (Address × ℤ)}
    (h : allocations.foldlM (pushWinner bids) [] = .ok recipients) :
  recipients = winners bids allocations
  := by
  apply Checks.foldlM_invariant (motive := fun pre recipients => recipients = winners bids pre)
    _ _ h
  · rfl
  · rintro pre entry t t' _ rfl hstep
    rw [winners_append]
    apply (pushWinner_eq_ok.mp hstep).2.symm

/-! ### Payments -/

/-- The effect of a payment, when the amount is positive. -/
def payEffects (selfAddr : Address) (leg : Leg) (target : Address) (amount : ℤ) : List Effect :=
  if 0 < amount then [.usdcTransfer leg selfAddr target amount] else []

/-- The balances after an effect: a transfer moves its amount, and nothing else moves money. -/
def Effect.apply (balances : Ledger Address) : Effect → Ledger Address
  | .usdcTransfer _ source target amount => balances.move source target amount
  | _ => balances

/-- The balances after some effects, one after the other. -/
def applyEffects (balances : Ledger Address) (effects : List Effect) : Ledger Address :=
  effects.foldl Effect.apply balances

theorem applyEffects_append (balances : Ledger Address) (effects effects' : List Effect) :
  applyEffects balances (effects ++ effects')
    = applyEffects (applyEffects balances effects) effects'
  := List.foldl_append

section PayOut

variable {selfAddr : Address} {env : Env} {leg : Leg} {target : Address} {amount : ℤ}
  {paid paid' : Ledger Address × List Effect}

theorem payOut_eq_ok :
  payOut selfAddr env leg target amount paid = .ok paid'
    ↔ (0 < amount → env.usdcAccepts = true ∧ amount ≤ paid.1 selfAddr)
      ∧ (if 0 < amount then paid.1.move selfAddr target amount else paid.1,
          paid.2 ++ payEffects selfAddr leg target amount) = paid'
  := by
  unfold payOut payEffects
  by_cases hpos : 0 < amount
  · simp only [gt_iff_lt, hpos, if_true, Checks.bind_eq_ok, usdcTransfer_eq_ok, Checks.pure_eq_ok,
      and_assoc, exists_and_left, exists_eq_left', hpos.le, true_and, forall_const]
  · simp [hpos]

/-- A payment has the effect that it records. -/
theorem balances_of_payOut (h : payOut selfAddr env leg target amount paid = .ok paid') :
  paid'.1 = applyEffects paid.1 (payEffects selfAddr leg target amount)
    ∧ paid'.2 = paid.2 ++ payEffects selfAddr leg target amount
  := by
  obtain ⟨_, rfl⟩ := payOut_eq_ok.mp h
  constructor
  · unfold payEffects
    dsimp only
    split <;> rfl
  · rfl

/-- A payment costs its amount at most. -/
theorem balance_ge_of_payOut (h : payOut selfAddr env leg target amount paid = .ok paid')
    (hnonneg : 0 ≤ amount) :
  paid.1 selfAddr - amount ≤ paid'.1 selfAddr
  := by
  obtain ⟨_, rfl⟩ := payOut_eq_ok.mp h
  dsimp only
  split
  · apply Ledger.le_move_source _ _ _ hnonneg
  · omega

/-- A payment leaves no debt. -/
theorem balance_nonneg_of_payOut (h : payOut selfAddr env leg target amount paid = .ok paid')
    (hpaid : 0 ≤ paid.1 selfAddr) :
  0 ≤ paid'.1 selfAddr
  := by
  by_cases hpos : 0 < amount
  · have hge := balance_ge_of_payOut h hpos.le
    have hle := (payOut_eq_ok.mp h).1 hpos
    omega
  · obtain ⟨_, rfl⟩ := payOut_eq_ok.mp h
    simp only [hpos, if_false]
    apply hpaid

/-- A payment to somebody else costs its amount. -/
theorem balance_eq_of_payOut (h : payOut selfAddr env leg target amount paid = .ok paid')
    (htarget : target = selfAddr → amount = 0) (hnonneg : 0 ≤ amount) :
  paid'.1 selfAddr = paid.1 selfAddr - amount
  := by
  obtain ⟨_, rfl⟩ := payOut_eq_ok.mp h
  rcases hnonneg.eq_or_lt with rfl | hpos
  · simp
  · have hne : target ≠ selfAddr := by
      intro heq
      have := htarget heq
      omega
    simp only [hpos, if_true, Ledger.move_source _ _ hne]

/-- A payment that the balance covers goes through. -/
theorem payOut_succeeds (husdc : env.usdcAccepts = true) (hle : amount ≤ paid.1 selfAddr)
    (htarget : target = selfAddr → amount = 0) (hnonneg : 0 ≤ amount) :
  ∃ paid', payOut selfAddr env leg target amount paid = .ok paid'
    ∧ paid'.1 selfAddr = paid.1 selfAddr - amount
  := by
  obtain ⟨paid', hpaid⟩ : ∃ paid', payOut selfAddr env leg target amount paid = .ok paid' :=
    ⟨_, payOut_eq_ok.mpr ⟨fun _ => ⟨husdc, hle⟩, rfl⟩⟩
  use paid', hpaid
  apply balance_eq_of_payOut hpaid htarget hnonneg

/-- A payment to the contract itself leaves its balance. -/
theorem balance_eq_of_payOut_self (h : payOut selfAddr env leg selfAddr amount paid = .ok paid') :
  paid'.1 selfAddr = paid.1 selfAddr
  := by
  obtain ⟨_, rfl⟩ := payOut_eq_ok.mp h
  rw [Ledger.move_self, ite_self]

/-- A payment does not add to the balance. -/
theorem balance_le_of_payOut (h : payOut selfAddr env leg target amount paid = .ok paid') :
  paid'.1 selfAddr ≤ paid.1 selfAddr
  := by
  by_cases htarget : target = selfAddr
  · rw [htarget] at h
    apply (balance_eq_of_payOut_self h).le
  · obtain ⟨_, rfl⟩ := payOut_eq_ok.mp h
    dsimp only
    split
    · rw [Ledger.move_source _ _ htarget]
      omega
    · apply le_refl

end PayOut

/-! ### The refunds -/

/-- The bid with the given id, if it is active. -/
def activeBid (bids : ℕ → Option Bid) (id : ℕ) : Option Bid := (bids id).filter Bid.active

theorem activeBid_of_active {bids : ℕ → Option Bid} {id : ℕ} {bid : Bid} (h : bids id = some bid)
    (hactive : bid.active = true) :
  activeBid bids id = some bid
  := by rw [activeBid, h, Option.filter_some_pos hactive]

theorem activeBid_of_inactive {bids : ℕ → Option Bid} {id : ℕ} {bid : Bid} (h : bids id = some bid)
    (hactive : bid.active = false) :
  activeBid bids id = none
  := by rw [activeBid, h, Option.filter_some_neg (by simp [hactive])]

theorem activeBid_of_none {bids : ℕ → Option Bid} {id : ℕ} (h : bids id = none) :
  activeBid bids id = none
  := by rw [activeBid, h, Option.filter_none]

/-- What is held for a bid: its escrow, while it is active. -/
def activeEscrow (bids : ℕ → Option Bid) (id : ℕ) : ℤ := (activeBid bids id).elim 0 Bid.escrow

/-- What an active bid gets back at settlement. -/
def refundDue (clearingPrice : ℤ) (alloc : ℕ → Option ℤ) (bids : ℕ → Option Bid) (id : ℕ) : ℤ :=
  (activeBid bids id).elim 0 fun bid => bid.escrow - clearingPrice * (alloc id).getD 0

/-- The transfer that refunds an active bid, when there is something to refund. -/
def refundEffects (selfAddr : Address) (clearingPrice : ℤ) (alloc : ℕ → Option ℤ)
    (bids : ℕ → Option Bid) (id : ℕ) : List Effect :=
  (activeBid bids id).elim [] fun bid =>
    payEffects selfAddr (.settleRefund id) bid.bidder (bid.escrow - clearingPrice * (alloc id).getD 0)

/-- The bids after those with the given ids have been deactivated. -/
def deactivate (bids : ℕ → Option Bid) (ids : List ℕ) (k : ℕ) : Option Bid :=
  if k ∈ ids then (bids k).map fun bid => { bid with active := false } else bids k

section Refunds

variable {selfAddr : Address} {env : Env} {clearingPrice : ℤ} {alloc : ℕ → Option ℤ}
  {bids : ℕ → Option Bid} {start : Ledger Address × List Effect} {r r' : Refunded} {id : ℕ}

theorem refundBid_eq_ok :
  refundBid selfAddr env clearingPrice alloc r id = .ok r'
    ↔ ∃ bid, r.bids id = some bid
      ∧ ((bid.active = false ∧ r = r')
        ∨ (bid.active = true
          ∧ InI128 (clearingPrice * (alloc id).getD 0)
          ∧ InI128 (bid.escrow - clearingPrice * (alloc id).getD 0)
          ∧ ∃ paid, payOut selfAddr env (.settleRefund id) bid.bidder
              (bid.escrow - clearingPrice * (alloc id).getD 0) r.paid = .ok paid
            ∧ InI128 (r.sumRefund + (bid.escrow - clearingPrice * (alloc id).getD 0))
            ∧ InI128 (r.sumEscrow + bid.escrow)
            ∧ Refunded.mk (Function.update r.bids id (some { bid with active := false })) paid
                (r.sumRefund + (bid.escrow - clearingPrice * (alloc id).getD 0))
                (r.sumEscrow + bid.escrow) = r'))
  := by
  unfold refundBid
  cases hbid : r.bids id with
  | none => simp
  | some bid =>
    cases hactive : bid.active with
    | false => simp [hactive]
    | true =>
      simp only [Bool.true_eq_false, if_false, Checks.bind_eq_ok, i128_eq_ok, Checks.pure_eq_ok,
        and_assoc, exists_and_left, exists_eq_left', Option.some.injEq, false_and,
          false_or, hactive,
        true_and]

/-- What the refund loop has done for the ids that it has passed. -/
structure RefundedSoFar (selfAddr : Address) (clearingPrice : ℤ) (alloc : ℕ → Option ℤ)
    (bids : ℕ → Option Bid) (start : Ledger Address × List Effect) (pre : List ℕ) (r : Refunded) :
    Prop where
  bids_eq : r.bids = deactivate bids pre
  balances_eq : r.paid.1
    = applyEffects start.1 (pre.flatMap (refundEffects selfAddr clearingPrice alloc bids))
  effects_eq : r.paid.2 = start.2 ++ pre.flatMap (refundEffects selfAddr clearingPrice alloc bids)
  sumRefund_eq : r.sumRefund = total (refundDue clearingPrice alloc bids) pre
  sumEscrow_eq : r.sumEscrow = total (activeEscrow bids) pre
  nonneg : 0 ≤ start.1 selfAddr → 0 ≤ r.paid.1 selfAddr
  balance_eq : (∀ id bid, bids id = some bid → bid.bidder ≠ selfAddr) →
    (∀ id ∈ pre, 0 ≤ refundDue clearingPrice alloc bids id) →
    r.paid.1 selfAddr = start.1 selfAddr - total (refundDue clearingPrice alloc bids) pre

theorem RefundedSoFar.nil :
  RefundedSoFar selfAddr clearingPrice alloc bids start [] ⟨bids, start, 0, 0⟩
  := by
  constructor
  · funext k
    simp [deactivate]
  · rfl
  · simp
  · rfl
  · rfl
  · intro h
    apply h
  · simp

/-- One round of the refund loop. -/
theorem RefundedSoFar.snoc {pre : List ℕ}
    (h : RefundedSoFar selfAddr clearingPrice alloc bids start pre r) (hid : id ∉ pre)
    (hstep : refundBid selfAddr env clearingPrice alloc r id = .ok r') :
  RefundedSoFar selfAddr clearingPrice alloc bids start (pre ++ [id]) r'
  := by
  obtain ⟨bid, hbid, hcases⟩ := refundBid_eq_ok.mp hstep
  have hbids : bids id = some bid := by
    rw [h.bids_eq, deactivate, if_neg hid] at hbid
    apply hbid
  have hdeactivate : deactivate bids (pre ++ [id])
      = Function.update (deactivate bids pre) id (some { bid with active := false }) := by
    funext k
    by_cases hk : k = id
    · subst hk
      simp [deactivate, hbids]
    · simp [deactivate, hk]
  rcases hcases with ⟨hactive, rfl⟩ | ⟨hactive, _, _, paid, hpaid, _, _, rfl⟩
  · have hnone : activeBid bids id = none := activeBid_of_inactive hbids hactive
    have hkeep : deactivate bids (pre ++ [id]) = deactivate bids pre := by
      rw [hdeactivate, Function.update_eq_self_iff, deactivate, if_neg hid, hbids, ← hactive]
    constructor
    · rw [hkeep, h.bids_eq]
    · simp [h.balances_eq, refundEffects, hnone]
    · simp [h.effects_eq, refundEffects, hnone]
    · simp [h.sumRefund_eq, refundDue, hnone]
    · simp [h.sumEscrow_eq, activeEscrow, hnone]
    · apply h.nonneg
    · intro hne hnonneg
      rw [h.balance_eq hne fun k hk => hnonneg k (by simp [hk])]
      simp [refundDue, hnone]
  · have hsome : activeBid bids id = some bid := activeBid_of_active hbids hactive
    have hdue : refundDue clearingPrice alloc bids id
        = bid.escrow - clearingPrice * (alloc id).getD 0 := by simp [refundDue, hsome]
    constructor
    · rw [hdeactivate, h.bids_eq]
    · rw [(balances_of_payOut hpaid).1, h.balances_eq, ← applyEffects_append]
      simp [refundEffects, hsome]
    · rw [(balances_of_payOut hpaid).2]
      simp [h.effects_eq, refundEffects, hsome]
    · simp [h.sumRefund_eq, hdue]
    · simp [h.sumEscrow_eq, activeEscrow, hsome]
    · intro hstart
      apply balance_nonneg_of_payOut hpaid (h.nonneg hstart)
    · intro hne hnonneg
      have hbalance := balance_eq_of_payOut hpaid (fun heq => absurd heq (hne id bid hbids))
        (hdue ▸ hnonneg id (by simp))
      rw [hbalance, h.balance_eq hne fun k hk => hnonneg k (by simp [hk])]
      simp only [total_append, total_cons, total_nil, hdue]
      ring

/-- A loop over distinct ids has not passed the next one. -/
theorem not_mem_of_concat {ids pre : List ℕ} (hnodup : ids.Nodup) (hpre : pre ++ [id] <+: ids) :
  id ∉ pre
  := by
  have hdisjoint := hpre.sublist.nodup hnodup
  rw [List.nodup_append] at hdisjoint
  intro hid
  apply hdisjoint.2.2 id hid id (List.mem_singleton_self id) rfl

/-- A successful refund loop establishes its description for all ids. -/
theorem refundedSoFar_of_eq_ok {ids : List ℕ} (hnodup : ids.Nodup)
    (h : ids.foldlM (refundBid selfAddr env clearingPrice alloc) ⟨bids, start, 0, 0⟩ = .ok r) :
  RefundedSoFar selfAddr clearingPrice alloc bids start ids r
  := by
  apply Checks.foldlM_invariant RefundedSoFar.nil _ h
  intro pre id t t' hpre hmotive hstep
  apply hmotive.snoc (not_mem_of_concat hnodup hpre) hstep

end Refunds

/-! ### The settlement as a whole -/

/-- The platform fee on the proceeds. -/
def platformFee (proceeds : ℤ) : ℤ := (proceeds * PLATFORM_FEE_BPS).tdiv 10000

theorem checkSupply_eq_ok {params : Params} {sumAllocated : ℤ} {x : Unit} :
  checkSupply params sumAllocated = .ok x
    ↔ InI128 (sumAllocated + params.artistRetention)
      ∧ InI128 (sumAllocated + params.artistRetention + params.treasuryRetention)
      ∧ InI128 (sumAllocated + params.artistRetention + params.treasuryRetention
            + params.leftoverToArtist)
      ∧ sumAllocated + params.artistRetention + params.treasuryRetention + params.leftoverToArtist
        = params.totalSupply
  := by
  simp only [checkSupply, errorIf, Checks.bind_eq_ok, Checks.rejectIf_eq_ok, i128_eq_ok, and_assoc,
    exists_and_left, exists_eq_left', ne_eq, not_not]

/-- The ids of the bids of a world. -/
def World.ids (w : World) : List ℕ := List.range' 1 w.bidSeq

theorem World.ids_nodup (w : World) :
  w.ids.Nodup
  := List.nodup_range'

theorem World.mem_ids {w : World} {id : ℕ} :
  id ∈ w.ids ↔ 1 ≤ id ∧ id ≤ w.bidSeq
  := by
  rw [ids, List.mem_range'_1]
  omega

/-- A settlement at a clearing price: every active bid is refunded what it does not pay and
deactivated, the allocations are minted, and the proceeds are split. -/
structure Settlement (selfAddr : Address) (env : Env) (clearingPrice : ℤ)
    (allocations : List (ℕ × ℤ)) (token : Address) (w w' : World) (effects : List Effect) :
    Prop extends ValidAllocations clearingPrice w.bids allocations where
  auth : env.auth w.params.admin = true
  closed : w.status = .Closed
  token_eq : w.params.fractionToken = some token
  supply : total Prod.snd allocations + w.params.artistRetention + w.params.treasuryRetention
    + w.params.leftoverToArtist = w.params.totalSupply
  world_eq : w' = { w with
    status := .Settled
    escrowTotal := 0
    bids := deactivate w.bids w.ids
    balances := w'.balances }
  effects_eq : effects =
    .mintSettle token (winners w.bids allocations
        ++ retentions w.params (w.params.artistRetention + w.params.leftoverToArtist))
      :: w.ids.flatMap (refundEffects selfAddr clearingPrice (allocOf allocations) w.bids)
    ++ payEffects selfAddr .platformFee w.params.treasury
        (platformFee (clearingPrice * total Prod.snd allocations))
    ++ payEffects selfAddr .artistNet w.params.artistPayout
        (clearingPrice * total Prod.snd allocations
          - platformFee (clearingPrice * total Prod.snd allocations))
    ++ [.event (.OfferingSettled clearingPrice (clearingPrice * total Prod.snd allocations)
        (platformFee (clearingPrice * total Prod.snd allocations))
        (clearingPrice * total Prod.snd allocations
          - platformFee (clearingPrice * total Prod.snd allocations)))]
  balances_eq : w'.balances = applyEffects w.balances effects
  balance_nonneg : 0 ≤ w.balances selfAddr → 0 ≤ w'.balances selfAddr

section Settlement

variable {selfAddr : Address} {env : Env} {clearingPrice : ℤ} {allocations : List (ℕ × ℤ)}
  {token : Address} {w w' : World} {effects : List Effect}

theorem requireClosed_eq_ok {x : Unit} :
  requireClosed w = .ok x ↔ w.status = .Closed
  := by
  unfold requireClosed
  cases w.status <;> simp

theorem boundToken_eq_ok :
  boundToken w = .ok token ↔ w.params.fractionToken = some token
  := by
  unfold boundToken
  cases w.params.fractionToken <;> simp

/-- The checks and the loops that a successful `close_and_settle` goes through. -/
theorem closeAndSettle_eq_ok :
  closeAndSettle selfAddr env clearingPrice allocations w = .ok (w', effects)
    ↔ env.auth w.params.admin = true
      ∧ w.status = .Closed
      ∧ ∃ token, w.params.fractionToken = some token
      ∧ ∃ v, allocations.foldlM (validate clearingPrice w.bids) ⟨fun _ => none, 0, 0⟩ = .ok v
      ∧ checkSupply w.params v.sumAllocated = .ok ()
      ∧ ∃ recipients, allocations.foldlM (pushWinner w.bids) [] = .ok recipients
      ∧ InI128 (w.params.artistRetention + w.params.leftoverToArtist)
      ∧ env.mintSettleAccepts = true
      ∧ ∃ r, w.ids.foldlM (refundBid selfAddr env clearingPrice v.alloc)
          ⟨w.bids, (w.balances, [.mintSettle token (recipients
            ++ retentions w.params (w.params.artistRetention + w.params.leftoverToArtist))]), 0, 0⟩
          = .ok r
      ∧ InI128 (v.proceeds * PLATFORM_FEE_BPS)
      ∧ InI128 (v.proceeds - platformFee v.proceeds)
      ∧ ∃ paid, payOut selfAddr env .platformFee w.params.treasury (platformFee v.proceeds) r.paid
          = .ok paid
      ∧ ∃ paid', payOut selfAddr env .artistNet w.params.artistPayout
          (v.proceeds - platformFee v.proceeds) paid = .ok paid'
      ∧ InI128 (r.sumRefund + platformFee v.proceeds)
      ∧ InI128 (r.sumRefund + platformFee v.proceeds + (v.proceeds - platformFee v.proceeds))
      ∧ r.sumRefund + platformFee v.proceeds + (v.proceeds - platformFee v.proceeds) = r.sumEscrow
      ∧ InI128 (w.balances selfAddr - paid'.1 selfAddr)
      ∧ w.balances selfAddr - paid'.1 selfAddr = r.sumEscrow
      ∧ { w with status := .Settled, escrowTotal := 0, bids := r.bids, balances := paid'.1 } = w'
      ∧ paid'.2 ++ [.event (.OfferingSettled clearingPrice v.proceeds (platformFee v.proceeds)
          (v.proceeds - platformFee v.proceeds))] = effects
  := by
  simp only [closeAndSettle, errorIf, trapIf, Checks.bind_eq_ok, Checks.rejectIf_eq_ok,
    requireAuth_eq_ok, requireClosed_eq_ok, boundToken_eq_ok, checkSupply_eq_ok, i128_eq_ok,
    Checks.pure_eq_ok, exists_const, and_assoc, exists_and_left, exists_eq_left', ne_eq, not_not,
    Bool.not_eq_false, Prod.mk.injEq]
  rfl

/-- What a successful `close_and_settle` does. -/
theorem settlement_of_eq_ok
    (h : closeAndSettle selfAddr env clearingPrice allocations w = .ok (w', effects)) :
  ∃ token, Settlement selfAddr env clearingPrice allocations token w w' effects
  := by
  obtain ⟨hauth, hclosed, token, htoken, v, hv, hsupply, recipients, hrecipients, _, _, r, hr, _, _,
    paid, hpaid, paid', hpaid', _, _, _, _, _, rfl, rfl⟩ := closeAndSettle_eq_ok.mp h
  have hvalidated := validatedSoFar_of_eq_ok hv
  have hrefunded := refundedSoFar_of_eq_ok w.ids_nodup hr
  obtain rfl := winners_of_eq_ok hrecipients
  use token, hvalidated.toValidAllocations, hauth, hclosed, htoken
  · rw [← hvalidated.sum_eq]
    apply (checkSupply_eq_ok.mp hsupply).2.2.2
  · rw [hrefunded.bids_eq]
  · rw [(balances_of_payOut hpaid').2, (balances_of_payOut hpaid).2]
    simp only [hrefunded.effects_eq, hvalidated.alloc_eq, hvalidated.proceeds_eq]
    rfl
  · rw [(balances_of_payOut hpaid').1, (balances_of_payOut hpaid).1, hrefunded.balances_eq,
      (balances_of_payOut hpaid').2, (balances_of_payOut hpaid).2, hrefunded.effects_eq]
    simp only [applyEffects_append]
    rfl
  · intro hnonneg
    apply balance_nonneg_of_payOut hpaid'
    apply balance_nonneg_of_payOut hpaid
    apply hrefunded.nonneg hnonneg

end Settlement

end Escrow
