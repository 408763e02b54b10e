import Tove.Escrow.Solvency

/-!
# The effects of the calls

The money that a list of effects moves, and the mints that it makes.  A settlement pays back what
is due to the active bids, splits the rest of the running total, and mints once.
-/

namespace Escrow

open Soroban Ledgers Totals Transition

/-! ### Reading effects -/

/-- The USDC that an effect pays in for a bid. -/
def Effect.paidIn : Effect → ℤ
  | .usdcTransfer (.escrow _) _ _ amount => amount
  | _ => 0

/-- The USDC that an effect pays back for a bid. -/
def Effect.paidBack : Effect → ℤ
  | .usdcTransfer (.cancelRefund _) _ _ amount => amount
  | .usdcTransfer (.settleRefund _) _ _ amount => amount
  | _ => 0

/-- The USDC that an effect pays to the treasury or to the artist. -/
def Effect.paidSplit : Effect → ℤ
  | .usdcTransfer .platformFee _ _ amount => amount
  | .usdcTransfer .artistNet _ _ amount => amount
  | _ => 0

/-- The payment of an effect to the bidder of the given bid. -/
def Effect.outflow (id : ℕ) : Effect → Option (Address × ℤ)
  | .usdcTransfer (.cancelRefund k) _ target amount => if k = id then some (target, amount) else none
  | .usdcTransfer (.settleRefund k) _ target amount => if k = id then some (target, amount) else none
  | _ => none

/-- The payments to the bidder of the given bid. -/
def outflows (id : ℕ) (effects : List Effect) : List (Address × ℤ) :=
  effects.filterMap (Effect.outflow id)

/-- A payment, when the amount is positive. -/
def payment (target : Address) (amount : ℤ) : List (Address × ℤ) :=
  if 0 < amount then [(target, amount)] else []

/-- The payment of an effect on a leg. -/
def Effect.onLeg (leg : Leg) : Effect → Option (Address × ℤ)
  | .usdcTransfer k _ target amount => if k = leg then some (target, amount) else none
  | _ => none

/-- The payments on a leg. -/
def paidOn (leg : Leg) (effects : List Effect) : List (Address × ℤ) :=
  effects.filterMap (Effect.onLeg leg)

/-- The recipients to whom an effect mints. -/
def Effect.mint : Effect → Option (List (Address × ℤ))
  | .mintSettle _ recipients => some recipients
  | _ => none

/-- The mints among a list of effects, each with its recipients. -/
def mints (effects : List Effect) : List (List (Address × ℤ)) := effects.filterMap Effect.mint

theorem outflows_append (id : ℕ) (effects effects' : List Effect) :
  outflows id (effects ++ effects') = outflows id effects ++ outflows id effects'
  := List.filterMap_append

theorem mints_append (effects effects' : List Effect) :
  mints (effects ++ effects') = mints effects ++ mints effects'
  := List.filterMap_append

theorem mints_mintSettle_cons (token : Address) (recipients : List (Address × ℤ))
    (effects : List Effect) :
  mints (.mintSettle token recipients :: effects) = recipients :: mints effects
  := rfl

theorem outflows_mintSettle_cons (id : ℕ) (token : Address) (recipients : List (Address × ℤ))
    (effects : List Effect) :
  outflows id (.mintSettle token recipients :: effects) = outflows id effects
  := rfl

theorem outflows_event (id : ℕ) (e : Event) :
  outflows id [.event e] = []
  := rfl

/-- The payments for one of several distinct ids, when each id has its own effects. -/
theorem outflows_flatMap {id : ℕ} (g : ℕ → List Effect)
    (hg : ∀ k, k ≠ id → outflows id (g k) = []) {ids : List ℕ} (hids : ids.Nodup) :
  outflows id (ids.flatMap g) = if id ∈ ids then outflows id (g id) else []
  := by
  induction ids with
  | nil => rfl
  | cons k ids ih =>
    obtain ⟨hk, hids⟩ := List.nodup_cons.mp hids
    rw [List.flatMap_cons, outflows_append, ih hids]
    by_cases heq : k = id
    · subst heq
      simp [hk]
    · simp [hg k heq, Ne.symm heq]

theorem total_flatMap {α β : Type} (f : β → ℤ) (g : α → List β) (ℓ : List α) :
  total f (ℓ.flatMap g) = total (fun a => total f (g a)) ℓ
  := by
  induction ℓ with
  | nil => rfl
  | cons a ℓ ih => rw [List.flatMap_cons, total_append, ih, total_cons]

/-! ### The effects of a settlement -/

section Payments

variable {selfAddr target : Address} {amount : ℤ}

theorem total_payEffects (f : Effect → ℤ) {leg : Leg}
    (hf : f (.usdcTransfer leg selfAddr target amount) = amount) (h : 0 ≤ amount) :
  total f (payEffects selfAddr leg target amount) = amount
  := by
  unfold payEffects
  split
  · rw [total_cons, total_nil, hf, add_zero]
  · rw [total_nil]
    omega

theorem total_payEffects_of_zero (f : Effect → ℤ) {leg : Leg}
    (hf : f (.usdcTransfer leg selfAddr target amount) = 0) :
  total f (payEffects selfAddr leg target amount) = 0
  := by
  unfold payEffects
  split <;> simp [hf]

theorem outflows_payEffects (id : ℕ) (leg : Leg) :
  outflows id (payEffects selfAddr leg target amount)
    = if 0 < amount then
        ((Effect.usdcTransfer leg selfAddr target amount).outflow id).toList else []
  := by
  unfold payEffects outflows
  split
  · cases h : (Effect.usdcTransfer leg selfAddr target amount).outflow id <;> simp [h]
  · rfl

theorem paidOn_payEffects (leg leg' : Leg) :
  paidOn leg (payEffects selfAddr leg' target amount)
    = if leg' = leg then payment target amount else []
  := by
  unfold payEffects paidOn payment
  by_cases hpos : 0 < amount
  · by_cases hleg : leg' = leg
    · simp [hpos, hleg, Effect.onLeg]
    · simp [hpos, hleg, Effect.onLeg]
  · simp [hpos]

end Payments

theorem mem_of_allocOf {allocations : List (ℕ × ℤ)} {id : ℕ} {allocated : ℤ}
    (h : allocOf allocations id = some allocated) :
  (id, allocated) ∈ allocations
  := by
  obtain ⟨s, t, rfl, _⟩ := List.lookup_eq_some_iff.mp h
  simp

/-- A listed allocation is found under its id. -/
theorem allocOf_of_mem {allocations : List (ℕ × ℤ)} (hnodup : (allocations.map Prod.fst).Nodup)
    {id : ℕ} {allocated : ℤ} (h : (id, allocated) ∈ allocations) :
  allocOf allocations id = some allocated
  := by
  cases halloc : allocOf allocations id with
  | none =>
    have := List.lookup_eq_none_iff.mp halloc _ h
    simp at this
  | some allocated' =>
    have heq := List.inj_on_of_nodup_map hnodup (mem_of_allocOf halloc) h rfl
    rw [(Prod.mk.inj heq).2]

/-- The total of the listed allocations, over ids that include those listed. -/
theorem total_allocOf {allocations : List (ℕ × ℤ)} {ids : List ℕ} (hids : ids.Nodup)
    (hnodup : (allocations.map Prod.fst).Nodup) (hmem : ∀ entry ∈ allocations, entry.1 ∈ ids) :
  total (fun id => (allocOf allocations id).getD 0) ids = total Prod.snd allocations
  := by
  induction allocations with
  | nil => apply total_zero
  | cons entry allocations ih =>
    rw [List.map_cons, List.nodup_cons] at hnodup
    have hnone : allocOf allocations entry.1 = none := by
      rw [allocOf, List.lookup_eq_none_iff]
      intro entry' hentry'
      rw [bne_iff_ne]
      intro heq
      apply hnodup.1
      rw [heq]
      apply List.mem_map_of_mem hentry'
    have hrest : ∀ id ∈ ids, id ≠ entry.1 →
        (allocOf (entry :: allocations) id).getD 0 = (allocOf allocations id).getD 0 := by
      intro id _ hne
      rw [allocOf, List.lookup_cons, beq_eq_false_iff_ne.mpr hne]
      rfl
    have hself : allocOf (entry :: allocations) entry.1 = some entry.2 := List.lookup_cons_self
    rw [total_update hids (hmem entry List.mem_cons_self) hrest,
      ih hnodup.2 fun entry' h => hmem entry' (List.mem_cons_of_mem entry h), hnone, hself,
      total_cons, Option.getD_none, Option.getD_some]
    ring

section Allotments

variable {selfAddr : Address} {clearingPrice : ℤ} {allocations : List (ℕ × ℤ)} {w : World}
  (h : Solvent selfAddr w) (hs : ValidAllocations clearingPrice w.bids allocations)

include h hs

/-- A settled bid gets no more than it asks for, and pays no more than its price. -/
theorem ValidAllocations.allotted {id : ℕ} {bid : Bid} (hbid : w.bids id = some bid) :
  0 ≤ (allocOf allocations id).getD 0
    ∧ (allocOf allocations id).getD 0 ≤ bid.count
    ∧ clearingPrice * (allocOf allocations id).getD 0
      ≤ bid.price * (allocOf allocations id).getD 0
    ∧ 0 ≤ bid.escrow - clearingPrice * (allocOf allocations id).getD 0
  := by
  have hsound := h.bid_sound id bid hbid
  cases halloc : allocOf allocations id with
  | none =>
    have := hsound.count_pos
    have := hsound.escrow_pos
    simp only [Option.getD_none, mul_zero, sub_zero]
    omega
  | some allocated =>
    have hvalid : ∃ bid', ValidAllocation clearingPrice w.bids id allocated bid' :=
      hs.valid _ (mem_of_allocOf halloc)
    obtain ⟨bid', hvalid⟩ := hvalid
    obtain rfl : bid' = bid := Option.some.inj (hvalid.bid_eq.symm.trans hbid)
    use hvalid.nonneg, hvalid.le_count
    constructor
    · rw [Option.getD_some]
      rcases hvalid.nonneg.eq_or_lt with hzero | hpos
      · rw [← hzero, mul_zero, mul_zero]
      · apply mul_le_mul_of_nonneg_right (hvalid.price hpos).2 hvalid.nonneg
    · apply hvalid.refund_nonneg

omit h in
/-- A settled bid pays nothing, or a positive price for what it gets. -/
theorem ValidAllocations.cost_nonneg (id : ℕ) :
  0 ≤ clearingPrice * (allocOf allocations id).getD 0
  := by
  cases halloc : allocOf allocations id with
  | none => rw [Option.getD_none, mul_zero]
  | some allocated =>
    obtain ⟨bid, hvalid⟩ := hs.valid _ (mem_of_allocOf halloc)
    rw [Option.getD_some]
    apply hvalid.cost_nonneg

omit h in
/-- A bid that is not active is allocated nothing. -/
theorem ValidAllocations.allocOf_eq_none {id : ℕ}
    (hinactive : ∀ bid, w.bids id = some bid → bid.active = false) :
  allocOf allocations id = none
  := by
  rw [Option.eq_none_iff_forall_ne_some]
  intro allocated halloc
  obtain ⟨bid, hvalid⟩ := hs.valid _ (mem_of_allocOf halloc)
  cases hvalid.active.symm.trans (hinactive bid hvalid.bid_eq)

theorem ValidAllocations.refundDue_nonneg (id : ℕ) :
  0 ≤ refundDue clearingPrice (allocOf allocations) w.bids id
  := by
  unfold refundDue
  cases hactive : activeBid w.bids id with
  | none => apply le_refl
  | some bid =>
    have hbid : w.bids id = some bid := (Option.filter_eq_some_iff.mp hactive).1
    apply (hs.allotted h hbid).2.2.2

omit h in
/-- A bid is refunded what it does not pay. -/
theorem ValidAllocations.refundDue_add (id : ℕ) :
  refundDue clearingPrice (allocOf allocations) w.bids id
      + clearingPrice * (allocOf allocations id).getD 0
    = activeEscrow w.bids id
  := by
  unfold refundDue activeEscrow
  cases hactive : activeBid w.bids id with
  | none =>
    have hinactive : ∀ bid, w.bids id = some bid → bid.active = false := by
      intro bid hbid
      rw [← Bool.not_eq_true]
      intro htrue
      rw [activeBid_of_active hbid htrue] at hactive
      cases hactive
    rw [hs.allocOf_eq_none hinactive]
    simp
  | some bid =>
    simp only [Option.elim_some]
    ring

/-- The refunds and the proceeds are the running total. -/
theorem ValidAllocations.accounting :
  total (refundDue clearingPrice (allocOf allocations) w.bids) w.ids
      + clearingPrice * total Prod.snd allocations
    = w.escrowTotal
  := by
  have hmem : ∀ entry ∈ allocations, entry.1 ∈ w.ids := by
    intro entry hentry
    obtain ⟨bid, hvalid⟩ := hs.valid entry hentry
    apply (h.bids_iff _).mp ⟨bid, hvalid.bid_eq⟩
  rw [h.escrowTotal_eq, ← total_allocOf w.ids_nodup hs.nodup hmem, ← total_mul_left, ← total_add]
  apply total_congr
  intro id _
  apply hs.refundDue_add

omit h in
theorem ValidAllocations.proceeds_nonneg :
  0 ≤ clearingPrice * total Prod.snd allocations
  := by
  rw [← total_mul_left]
  apply total_nonneg
  intro entry hentry
  obtain ⟨bid, hvalid⟩ := hs.valid entry hentry
  apply hvalid.cost_nonneg

end Allotments

/-- The winners of valid allocations are allotted what is listed. -/
theorem ValidAllocations.total_winners {clearingPrice : ℤ} {bids : ℕ → Option Bid}
    {allocations : List (ℕ × ℤ)} (h : ValidAllocations clearingPrice bids allocations) :
  total Prod.snd (winners bids allocations) = total Prod.snd allocations
  := by
  have hvalid := h.valid
  clear h
  induction allocations with
  | nil => rfl
  | cons entry allocations ih =>
    obtain ⟨hentry, hrest⟩ := List.forall_mem_cons.mp hvalid
    obtain ⟨bid, hbid⟩ := hentry
    have hhead : total Prod.snd (winners bids [entry]) = entry.2 := by
      have hnonneg := hbid.nonneg
      unfold winners
      by_cases hpos : 0 < entry.2
      · simp [hpos, hbid.bid_eq]
      · have hzero : entry.2 = 0 := by omega
        simp [hzero]
    rw [winners_cons, total_append, hhead, ih hrest, total_cons]

/-- What is retained is minted. -/
theorem total_retentions {params : Params} {artistAmount : ℤ} (hartist : 0 ≤ artistAmount)
    (htreasury : 0 ≤ params.treasuryRetention) :
  total Prod.snd (retentions params artistAmount) = artistAmount + params.treasuryRetention
  := by
  unfold retentions
  rw [total_append]
  congr 1
  · split
    · simp
    · rw [total_nil]
      omega
  · split
    · simp
    · rw [total_nil]
      omega

/-- The platform fee is a part of the proceeds. -/
theorem platformFee_mem_Icc {proceeds : ℤ} (h : 0 ≤ proceeds) :
  0 ≤ platformFee proceeds ∧ platformFee proceeds ≤ proceeds
  := by
  rw [platformFee, Int.tdiv_eq_ediv_of_nonneg (mul_nonneg h (by decide)), PLATFORM_FEE_BPS]
  omega

section SettlementEffects

variable {selfAddr : Address} {env : Env} {clearingPrice : ℤ} {allocations : List (ℕ × ℤ)}
  {token : Address} {w w' : World} {effects : List Effect} (h : Solvent selfAddr w)
  (hs : Settlement selfAddr env clearingPrice allocations token w w' effects)

include hs

/-- A total over the effects of a settlement, by its parts. -/
theorem Settlement.total_effects (f : Effect → ℤ) (hmint : ∀ token recipients,
      f (.mintSettle token recipients) = 0) (hevent : ∀ e, f (.event e) = 0) :
  total f effects
    = total (fun id => total f
        (refundEffects selfAddr clearingPrice (allocOf allocations) w.bids id)) w.ids
      + total f (payEffects selfAddr .platformFee w.params.treasury
          (platformFee (clearingPrice * total Prod.snd allocations)))
      + total f (payEffects selfAddr .artistNet w.params.artistPayout
          (clearingPrice * total Prod.snd allocations
            - platformFee (clearingPrice * total Prod.snd allocations)))
  := by
  rw [hs.effects_eq]
  simp only [List.cons_append, total_cons, total_append, total_flatMap, total_nil, hmint, hevent]
  ring

theorem Settlement.paidIn_eq :
  total Effect.paidIn effects = 0
  := by
  have hrefunds : ∀ id ∈ w.ids, total Effect.paidIn
      (refundEffects selfAddr clearingPrice (allocOf allocations) w.bids id) = 0 := by
    intro id _
    unfold refundEffects
    cases activeBid w.bids id with
    | none => rfl
    | some bid => apply total_payEffects_of_zero Effect.paidIn rfl
  rw [hs.total_effects _ (fun _ _ => rfl) (fun _ => rfl), total_congr hrefunds, total_zero,
    total_payEffects_of_zero _ rfl, total_payEffects_of_zero _ rfl]
  rfl

theorem Settlement.paidSplit_eq :
  total Effect.paidSplit effects = clearingPrice * total Prod.snd allocations
  := by
  have hrefunds : ∀ id ∈ w.ids, total Effect.paidSplit
      (refundEffects selfAddr clearingPrice (allocOf allocations) w.bids id) = 0 := by
    intro id _
    unfold refundEffects
    cases activeBid w.bids id with
    | none => rfl
    | some bid => apply total_payEffects_of_zero Effect.paidSplit rfl
  obtain ⟨hfee, hle⟩ := platformFee_mem_Icc hs.proceeds_nonneg
  rw [hs.total_effects _ (fun _ _ => rfl) (fun _ => rfl), total_congr hrefunds, total_zero,
    total_payEffects _ rfl hfee, total_payEffects _ rfl (by omega)]
  ring

include h in
theorem Settlement.paidBack_eq :
  total Effect.paidBack effects
    = total (refundDue clearingPrice (allocOf allocations) w.bids) w.ids
  := by
  have hrefunds : ∀ id ∈ w.ids, total Effect.paidBack
        (refundEffects selfAddr clearingPrice (allocOf allocations) w.bids id)
      = refundDue clearingPrice (allocOf allocations) w.bids id := by
    intro id _
    have hnonneg := hs.refundDue_nonneg h id
    unfold refundEffects
    unfold refundDue at hnonneg ⊢
    cases hactive : activeBid w.bids id with
    | none => rfl
    | some bid =>
      rw [hactive] at hnonneg
      apply total_payEffects Effect.paidBack rfl hnonneg
  rw [hs.total_effects _ (fun _ _ => rfl) (fun _ => rfl), total_congr hrefunds,
    total_payEffects_of_zero _ rfl, total_payEffects_of_zero _ rfl]
  ring

/-- A settlement mints once. -/
theorem Settlement.mints_eq :
  mints effects = [winners w.bids allocations
    ++ retentions w.params (w.params.artistRetention + w.params.leftoverToArtist)]
  := by
  have hpay : ∀ leg target amount, mints (payEffects selfAddr leg target amount) = [] := by
    intro leg target amount
    unfold payEffects
    split <;> rfl
  have hrefunds : mints (w.ids.flatMap
      (refundEffects selfAddr clearingPrice (allocOf allocations) w.bids)) = [] := by
    rw [mints, List.filterMap_eq_nil_iff]
    intro e he
    obtain ⟨id, _, he⟩ := List.mem_flatMap.mp he
    unfold refundEffects at he
    cases hactive : activeBid w.bids id with
    | none => simp [hactive] at he
    | some bid =>
      rw [hactive, Option.elim_some] at he
      apply List.filterMap_eq_nil_iff.mp (hpay _ _ _) e he
  rw [hs.effects_eq, mints_append, mints_append, mints_append, hpay, hpay, List.append_nil,
    List.append_nil, mints_mintSettle_cons, hrefunds]
  rfl

include h in
/-- A settlement pays each active bid what it is due, and nothing to the others. -/
theorem Settlement.outflows_eq (id : ℕ) :
  outflows id effects = (activeBid w.bids id).elim [] fun bid =>
    payment bid.bidder (bid.escrow - clearingPrice * (allocOf allocations id).getD 0)
  := by
  have hfee : ∀ target amount,
    outflows id (payEffects selfAddr .platformFee target amount) = [] := by
    intro target amount
    rw [outflows_payEffects]
    split <;> rfl
  have hnet : ∀ target amount, outflows id (payEffects selfAddr .artistNet target amount) = [] := by
    intro target amount
    rw [outflows_payEffects]
    split <;> rfl
  have hother : ∀ k, k ≠ id → outflows id
      (refundEffects selfAddr clearingPrice (allocOf allocations) w.bids k) = [] := by
    intro k hk
    unfold refundEffects
    cases activeBid w.bids k with
    | none => rfl
    | some bid =>
      rw [Option.elim_some, outflows_payEffects]
      simp [Effect.outflow, hk]
  have hrefunds := outflows_flatMap _ hother w.ids_nodup
  rw [hs.effects_eq, outflows_append, outflows_append, outflows_append, hfee, hnet,
    List.append_nil, List.append_nil, outflows_mintSettle_cons, hrefunds, outflows_event,
    List.append_nil, refundEffects]
  cases hactive : activeBid w.bids id with
  | none =>
    rw [Option.elim_none, Option.elim_none]
    apply ite_self
  | some bid =>
    have hbid : w.bids id = some bid := (Option.filter_eq_some_iff.mp hactive).1
    rw [if_pos ((h.bids_iff id).mp ⟨bid, hbid⟩), Option.elim_some, Option.elim_some,
      outflows_payEffects, payment]
    simp [Effect.outflow]

/-- What a settlement pays to the treasury and to the artist. -/
theorem Settlement.paidOn_eq {leg : Leg} (hleg : ∀ id, leg ≠ .settleRefund id) :
  paidOn leg effects
    = paidOn leg (payEffects selfAddr .platformFee w.params.treasury
          (platformFee (clearingPrice * total Prod.snd allocations)))
      ++ paidOn leg (payEffects selfAddr .artistNet w.params.artistPayout
          (clearingPrice * total Prod.snd allocations
            - platformFee (clearingPrice * total Prod.snd allocations)))
  := by
  have hrefunds : paidOn leg (w.ids.flatMap
      (refundEffects selfAddr clearingPrice (allocOf allocations) w.bids)) = [] := by
    rw [paidOn, List.filterMap_eq_nil_iff]
    intro e he
    obtain ⟨id, _, he⟩ := List.mem_flatMap.mp he
    unfold refundEffects at he
    cases hactive : activeBid w.bids id with
    | none => simp [hactive] at he
    | some bid =>
      rw [hactive, Option.elim_some, payEffects] at he
      split at he
      · obtain rfl := List.mem_singleton.mp he
        rw [Effect.onLeg, if_neg (hleg id).symm]
      · cases he
  rw [hs.effects_eq]
  unfold paidOn at hrefunds ⊢
  simp only [List.cons_append, List.filterMap_cons, List.filterMap_append, hrefunds, Effect.onLeg,
    List.filterMap_nil, List.nil_append, List.append_nil]

end SettlementEffects

end Escrow
