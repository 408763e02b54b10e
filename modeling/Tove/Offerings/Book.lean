import Tove.Offerings.Settle

/-!
# The rows and the contract

As long as the rows and the contract agree, a row that is escrowed stands for an active bid, a
row that is canceled for a refunded one, and every active bid has a row. Then the input of the
clearing is a book that mirrors the contract, and when `close_and_settle` has been called with
the result, the rows that are settled with the same result say what the call has done.
-/

namespace Offerings

open Js Soroban Clearing Relay Agreement Escrow

/-! ### The agreement -/

/-- The columns of a row that are never updated once the bid has been escrowed. -/
def OfferingBid.key (bid : OfferingBid) : JsString × Option ℕ × Address × ℤ × ℤ :=
  (bid.id, bid.chainBidId, bid.collectorWallet, bid.priceStroops, bid.count)

section Tables

variable {w w' : World} {bids : List OfferingBid} {bid bid' : OfferingBid} {id : ℕ} {b : Bid}

theorem id_of_key (h : bid'.key = bid.key) :
  bid'.id = bid.id
  := congrArg Prod.fst h

theorem chainBidId_of_key (h : bid'.key = bid.key) :
  bid'.chainBidId = bid.chainBidId
  := congrArg (fun key => key.2.1) h

theorem Backed.congr (h : Backed w bid id b) (hkey : bid'.key = bid.key) :
  Backed w bid' id b
  := by
  simp only [OfferingBid.key, Prod.mk.injEq] at hkey
  obtain ⟨_, hchain, hwallet, hprice, hcount⟩ := hkey
  obtain ⟨hid, hbid, hbidder, hp, hc⟩ := h
  exact ⟨hchain.trans hid, hbid, hbidder.trans hwallet.symm, hp.trans hprice.symm,
    hc.trans hcount.symm⟩

/-- A row stands for its bid wherever the bid is the same. -/
theorem Backed.frame (h : Backed w bid id b) {b' : Bid} (hb' : w'.bids id = some b')
    (hbidder : b'.bidder = b.bidder) (hprice : b'.price = b.price) (hcount : b'.count = b.count) :
  Backed w' bid id b'
  := ⟨h.chainBidId_eq, hb', hbidder.trans h.bidder_eq, hprice.trans h.price_eq,
    hcount.trans h.count_eq⟩

theorem Backed.unique (h : Backed w bid id b) {id' : ℕ} {b' : Bid} (h' : Backed w bid id' b') :
  id' = id ∧ b' = b
  := by
  obtain rfl := Option.some.inj (h.chainBidId_eq.symm.trans h'.chainBidId_eq)
  exact ⟨rfl, Option.some.inj (h'.bid_eq.symm.trans h.bid_eq)⟩

theorem Keyed.eq_of_id (h : Keyed bids) (hbid : bid ∈ bids) (hbid' : bid' ∈ bids)
    (heq : bid.id = bid'.id) :
  bid = bid'
  := List.inj_on_of_nodup_map h.nodup hbid hbid' heq

theorem Keyed.eq_of_chainBidId (h : Keyed bids) (hbid : bid ∈ bids) (hbid' : bid' ∈ bids)
    (heq : bid.chainBidId = some id) (heq' : bid'.chainBidId = some id) :
  bid = bid'
  := h.eq_of_id hbid hbid' (h.chainBidId_inj bid hbid bid' hbid' id heq heq')

theorem Keyed.map (h : Keyed bids) {f : OfferingBid → OfferingBid}
    (hkey : ∀ bid, (f bid).key = bid.key) :
  Keyed (bids.map f)
  := by
  constructor
  · rw [List.map_map]
    convert h.nodup using 2
    funext bid
    apply id_of_key (hkey bid)
  · intro bid₁ hbid₁ bid₂ hbid₂ id heq₁ heq₂
    obtain ⟨bid, hbid, rfl⟩ := List.mem_map.mp hbid₁
    obtain ⟨bid', hbid', rfl⟩ := List.mem_map.mp hbid₂
    rw [chainBidId_of_key (hkey _)] at heq₁ heq₂
    rw [id_of_key (hkey _), id_of_key (hkey _)]
    apply h.chainBidId_inj bid hbid bid' hbid' id heq₁ heq₂

/-- Updates of the rows keep the agreement, when the new rows say what is so. -/
theorem Tables.map (h : Tables w bids) {f : OfferingBid → OfferingBid}
    (hkey : ∀ bid, (f bid).key = bid.key) (hstanding : ∀ bid ∈ bids, Standing w (f bid)) :
  Tables w (bids.map f)
  := by
  constructor
  · apply h.keyed.map hkey
  · intro bid₁ hbid₁
    obtain ⟨bid, hbid, rfl⟩ := List.mem_map.mp hbid₁
    apply hstanding bid hbid
  · intro id b hb hactive
    obtain ⟨bid, hbid, hid⟩ := h.listed id b hb hactive
    refine ⟨f bid, List.mem_map_of_mem hbid, ?_⟩
    rw [← hid]
    apply chainBidId_of_key (hkey bid)

/-- The agreement is about the bids of the contract. -/
theorem Tables.congr (h : Tables w bids) (hbids : w'.bids = w.bids) :
  Tables w' bids
  := by
  constructor
  · apply h.keyed
  · intro bid hbid
    rcases h.standing bid hbid with ⟨id, b, hb, hallows⟩ | hnone
    · refine .inl ⟨id, b, hb.frame ?_ rfl rfl rfl, hallows⟩
      rw [hbids, hb.bid_eq]
    · exact .inr hnone
  · rw [hbids]
    apply h.listed

/-- A row that has an id on chain stands for a bid. -/
theorem Tables.backed (h : Tables w bids) (hbid : bid ∈ bids) (hid : bid.chainBidId = some id) :
  ∃ b, Backed w bid id b ∧ Allows bid.status b.active
  := by
  rcases h.standing bid hbid with ⟨k, b, hb, hallows⟩ | ⟨hnone, _⟩
  · obtain rfl := Option.some.inj (hid.symm.trans hb.chainBidId_eq)
    exact ⟨b, hb, hallows⟩
  · cases hnone.symm.trans hid

/-- A bid is refunded whose row is being canceled. -/
theorem Tables.cancel (h : Tables w bids) (hbid : bid ∈ bids) (hid : bid.chainBidId = some id)
    (hstatus : bid.status = .canceling ∨ bid.status = .canceled) (hb : w.bids id = some b)
    (hbids : w'.bids = Function.update w.bids id (some { b with active := false })) :
  Tables w' bids
  := by
  have hself : w'.bids id = some { b with active := false } := by
    rw [hbids, Function.update_self]
  constructor
  · apply h.keyed
  · intro bid' hbid'
    rcases eq_or_ne bid' bid with rfl | hne
    · obtain ⟨b', hb', _⟩ := h.backed hbid' hid
      obtain rfl := Option.some.inj (hb.symm.trans hb'.bid_eq)
      refine .inl ⟨id, _, hb'.frame hself rfl rfl rfl, ?_⟩
      rcases hstatus with hstatus | hstatus
      · rw [hstatus]
        trivial
      · rw [hstatus]
        rfl
    · rcases h.standing bid' hbid' with ⟨k, b', hb', hallows⟩ | hnone
      · have hk : k ≠ id := by
          rintro rfl
          exact hne (h.keyed.eq_of_chainBidId hbid' hbid hb'.chainBidId_eq hid)
        refine .inl ⟨k, b', hb'.frame ?_ rfl rfl rfl, hallows⟩
        rw [hbids, Function.update_of_ne hk, hb'.bid_eq]
      · exact .inr hnone
  · intro k b' hb' hactive
    rw [hbids] at hb'
    rcases eq_or_ne k id with rfl | hne
    · rw [Function.update_self] at hb'
      rw [← Option.some.inj hb'] at hactive
      cases hactive
    · rw [Function.update_of_ne hne] at hb'
      apply h.listed k b' hb' hactive

end Tables

/-! ### The input of the clearing -/

/-- No bid is in flight. -/
def AtRest (bids : List OfferingBid) : Prop :=
  ∀ bid ∈ bids, bid.status ≠ .submitted ∧ bid.status ≠ .canceling

/-- No bid has been settled. -/
def Unsettled (bids : List OfferingBid) : Prop :=
  ∀ bid ∈ bids, bid.status ≠ .won ∧ bid.status ≠ .lost

section Inputs

variable {selfAddr : Address} {w : World} {bids : List OfferingBid}
  {inputs : List ClearingBidInput}

/-- The inputs are those of the rows that are escrowed. -/
theorem mem_settleInputs (h : settleInputs bids = some inputs) {input : ClearingBidInput} :
  input ∈ inputs
    ↔ ∃ bid ∈ bids, bid.status = .escrowed ∧ toClearingInput bid = some input
  := by
  have hmap := map_eq_of_mapM h
  have hmem : input ∈ inputs ↔ some input ∈ (listBidsForClearing bids).map toClearingInput := by
    rw [hmap]
    simp
  rw [hmem, List.mem_map]
  simp only [mem_listBidsForClearing, and_assoc]

theorem toClearingInput_eq_some {bid : OfferingBid} {input : ClearingBidInput} :
  toClearingInput bid = some input
    ↔ ∃ id, bid.chainBidId = some id
      ∧ (⟨bid.id, id, bid.collectorSub, bid.priceStroops, bid.count, bid.createdAt,
          bid.escrowAmountStroops⟩ : ClearingBidInput) = input
  := by rw [toClearingInput, Option.map_eq_some_iff]

/-- A row that is escrowed stands for an active bid. -/
theorem Tables.escrowed (h : Tables w bids) {bid : OfferingBid} (hbid : bid ∈ bids)
    (hstatus : bid.status = .escrowed) :
  ∃ id b, Backed w bid id b ∧ b.active = true
  := by
  rcases h.standing bid hbid with ⟨id, b, hb, hallows⟩ | ⟨_, hnone⟩
  · rw [hstatus] at hallows
    exact ⟨id, b, hb, hallows⟩
  · simp [hstatus] at hnone

/-- An input reflects the bid that its row stands for. -/
theorem Backed.reflects {bid : OfferingBid} {id : ℕ} {b : Bid} {input : ClearingBidInput}
    (h : Backed w bid id b) (hsolvent : Solvent selfAddr w)
    (hinput : toClearingInput bid = some input) :
  Reflects input id b
  := by
  obtain ⟨id', hid', rfl⟩ := toClearingInput_eq_some.mp hinput
  obtain rfl := Option.some.inj (h.chainBidId_eq.symm.trans hid')
  refine ⟨rfl, h.price_eq.symm, h.count_eq.symm, ?_⟩
  rw [(hsolvent.bid_sound id b h.bid_eq).escrow_eq, h.price_eq, h.count_eq]
  rfl

section Settleable

variable (htables : Tables w bids) (hsolvent : Solvent selfAddr w)
  (hinputs : settleInputs bids = some inputs)

include htables hinputs

/-- The inputs have distinct ids on chain. -/
theorem inputs_nodup :
  (inputs.map ClearingBidInput.chainBidId).Nodup
  := by
  have hrows : (listBidsForClearing bids).Nodup := by
    rw [listBidsForClearing, (Js.sort_perm compareBidRows _).nodup_iff]
    apply List.Nodup.filter
    apply List.Nodup.of_map _ htables.keyed.nodup
  have hids : ((listBidsForClearing bids).map OfferingBid.chainBidId).Nodup := by
    apply List.Nodup.map_on _ hrows
    intro bid hbid bid' hbid' heq
    obtain ⟨hmem, hstatus⟩ := mem_listBidsForClearing.mp hbid
    obtain ⟨id, b, hb, _⟩ := htables.escrowed hmem hstatus
    apply htables.keyed.eq_of_chainBidId hmem (mem_listBidsForClearing.mp hbid').1
      hb.chainBidId_eq (heq ▸ hb.chainBidId_eq)
  have hmap : inputs.map (fun input => some input.chainBidId)
      = ((listBidsForClearing bids).map OfferingBid.chainBidId).map (Option.map Nat.cast) := by
    have h := congrArg (List.map (Option.map ClearingBidInput.chainBidId)) (map_eq_of_mapM hinputs)
    rw [List.map_map, List.map_map] at h
    rw [List.map_map]
    refine h.symm.trans ?_
    apply List.map_congr_left
    intro bid _
    cases hid : bid.chainBidId with
    | none => simp [toClearingInput, hid]
    | some id => simp [toClearingInput, hid]
  apply List.Nodup.of_map some
  rw [List.map_map]
  show (inputs.map (fun input => some input.chainBidId)).Nodup
  rw [hmap]
  apply hids.map
  apply Option.map_injective Nat.cast_injective

include hsolvent

theorem inputs_valid :
  ValidBook inputs
  := by
  have hbacked : ∀ input ∈ inputs, ∃ id b, w.bids id = some b ∧ Reflects input id b := by
    intro input hinput
    obtain ⟨bid, hbid, hstatus, hinput⟩ := (mem_settleInputs hinputs).mp hinput
    obtain ⟨id, b, hb, _⟩ := htables.escrowed hbid hstatus
    exact ⟨id, b, hb.bid_eq, hb.reflects hsolvent hinput⟩
  constructor
  · apply inputs_nodup htables hinputs
  · intro input hinput
    obtain ⟨id, b, hb, hreflects⟩ := hbacked input hinput
    rw [hreflects.price_eq]
    apply (hsolvent.bid_sound id b hb).price_pos
  · intro input hinput
    obtain ⟨id, b, hb, hreflects⟩ := hbacked input hinput
    rw [hreflects.count_eq]
    apply (hsolvent.bid_sound id b hb).count_pos
  · intro input hinput
    obtain ⟨id, b, hb, hreflects⟩ := hbacked input hinput
    rw [hreflects.escrow_eq, hreflects.price_eq, hreflects.count_eq]
    apply (hsolvent.bid_sound id b hb).escrow_eq

/-- Once no bid is in flight, the rows that are escrowed are the active bids. -/
theorem inputs_mirror (hrest : AtRest bids) (hunsettled : Unsettled bids) :
  Mirrors inputs w
  := by
  constructor
  · intro id b hb hactive
    obtain ⟨bid, hbid, hid⟩ := htables.listed id b hb hactive
    obtain ⟨b', hb', hallows⟩ := htables.backed hbid hid
    obtain rfl := Option.some.inj (hb.symm.trans hb'.bid_eq)
    have hstatus : bid.status = .escrowed := by
      have hrest := hrest bid hbid
      have hunsettled := hunsettled bid hbid
      cases hcase : bid.status <;> simp_all [Allows]
    have hinput : toClearingInput bid = some _ := toClearingInput_eq_some.mpr ⟨id, hid, rfl⟩
    refine ⟨_, (mem_settleInputs hinputs).mpr ⟨bid, hbid, hstatus, hinput⟩, ?_⟩
    apply hb'.reflects hsolvent hinput
  · intro input hinput
    obtain ⟨bid, hbid, hstatus, hinput⟩ := (mem_settleInputs hinputs).mp hinput
    obtain ⟨id, b, hb, hactive⟩ := htables.escrowed hbid hstatus
    exact ⟨id, b, hb.bid_eq, hactive, hb.reflects hsolvent hinput⟩

/-- The rows clear at a price, when nothing is in flight or settled: their inputs are a book
that mirrors the contract, and the result is its clearing. -/
structure Cleared (publicFloat : ℤ) (w : World) (bids : List OfferingBid)
    (inputs : List ClearingBidInput) (P : ℤ) (r : ClearingResult) : Prop where
  mem_inputs : ∀ input, input ∈ inputs
    ↔ ∃ bid ∈ bids, bid.status = .escrowed ∧ toClearingInput bid = some input
  valid : ValidBook inputs
  mirrors : Mirrors inputs w
  cleared : ClearedAt inputs publicFloat P r

theorem cleared_of_eq_ok (hrest : AtRest bids) (hunsettled : Unsettled bids) {publicFloat P : ℤ}
    {r : ClearingResult} (hr : computeClearing inputs publicFloat = .ok r)
    (hP : r.clearingPriceStroops = some P) :
  Cleared publicFloat w bids inputs P r
  := by
  have hvalid := inputs_valid htables hsolvent hinputs
  constructor
  · apply fun input => mem_settleInputs hinputs
  · apply hvalid
  · apply inputs_mirror htables hsolvent hinputs hrest hunsettled
  · apply clearedAt_of_eq_ok hvalid hr hP

end Settleable

end Inputs

/-! ### Receipts -/

/-- What a row says of its bid is what the settlement has done with it: a winner has been
allocated its count, which is minted to its bidder, and refunded; a loser has been refunded its
escrow; and a bid that has been canceled has had no part in it. -/
def Receipt (c : Settled) (bid : OfferingBid) : Prop :=
  match bid.status with
  | .won => ∃ id b allocated refund, Backed c.before bid id b
      ∧ bid.allocatedCount = some allocated
      ∧ bid.settleRefundStroops = some refund
      ∧ 0 < allocated
      ∧ allocOf c.allocations id = some allocated
      ∧ outflows id c.effects = payment bid.collectorWallet refund
  | .lost => ∃ id b, Backed c.before bid id b
      ∧ bid.allocatedCount = some 0
      ∧ bid.settleRefundStroops = some bid.escrowAmountStroops
      ∧ allocOf c.allocations id = none
      ∧ outflows id c.effects = [(bid.collectorWallet, bid.escrowAmountStroops)]
  | .canceled => ∃ id b, Backed c.before bid id b
      ∧ b.active = false
      ∧ allocOf c.allocations id = none
      ∧ outflows id c.effects = []
  | .failed => bid.chainBidId = none
  | .submitted | .escrowed | .canceling => False

/-- The rows are the receipts of the settlement: each says what has been done with its bid,
every bid that was settled has a row, and the rows that have won are the allocations, which have
been minted. -/
structure Receipts (c : Settled) (bids : List OfferingBid) : Prop where
  receipt : ∀ bid ∈ bids, Receipt c bid
  listed : ∀ id b, c.before.bids id = some b → b.active = true →
    ∃ bid ∈ bids, bid.chainBidId = some id
  won : ∀ entry ∈ c.allocations, ∃ bid ∈ bids, bid.status = .won
    ∧ bid.chainBidId = some entry.1 ∧ bid.allocatedCount = some entry.2
  minted : mints c.effects = [winners c.before.bids c.allocations ++ retentions c.before.params
    (c.before.params.artistRetention + c.before.params.leftoverToArtist)]

section Receipts

variable {selfAddr : Address} {w w' : World} {bids : List OfferingBid}
  {inputs : List ClearingBidInput} {publicFloat P : ℤ} {r : ClearingResult}
  (htables : Tables w bids) (h : Cleared publicFloat w bids inputs P r)

/-- Either a row is that of a winner, or it is that of none. -/
theorem outcome_cases (winners : List ClearingWinner) {bid : OfferingBid}
    (hstatus : bid.status = .escrowed) :
  (∃ x ∈ winners, x.id = bid.id ∧ bid.outcome winners = bid.win x)
    ∨ (∀ x ∈ winners, x.id ≠ bid.id) ∧ bid.outcome winners = bid.lose
  := by
  rw [OfferingBid.outcome, if_pos hstatus]
  cases hfind : winners.find? fun x => x.id = bid.id with
  | none =>
    right
    constructor
    · intro x hx
      simpa using List.find?_eq_none.mp hfind x hx
    · rfl
  | some x =>
    left
    exact ⟨x, List.mem_of_find?_eq_some hfind, by simpa using List.find?_some hfind, rfl⟩

theorem outcome_of_ne {winners : List ClearingWinner} {bid : OfferingBid}
    (hstatus : bid.status ≠ .escrowed) :
  bid.outcome winners = bid
  := if_neg hstatus

theorem outcome_key (winners : List ClearingWinner) (bid : OfferingBid) :
  (bid.outcome winners).key = bid.key
  := by
  by_cases hstatus : bid.status = .escrowed
  · rcases outcome_cases winners hstatus with ⟨x, _, _, heq⟩ | ⟨_, heq⟩
    · rw [heq]
      rfl
    · rw [heq]
      rfl
  · rw [outcome_of_ne hstatus]

/-- The rows say what is so after they have been settled. -/
theorem Tables.standing_outcome (h : Tables w bids) (winners : List ClearingWinner)
    {bid : OfferingBid} (hbid : bid ∈ bids) :
  Standing w (bid.outcome winners)
  := by
  by_cases hstatus : bid.status = .escrowed
  · obtain ⟨id, b, hb, hactive⟩ := h.escrowed hbid hstatus
    refine .inl ⟨id, b, hb.congr (outcome_key winners bid), ?_⟩
    rcases outcome_cases winners hstatus with ⟨x, _, _, heq⟩ | ⟨_, heq⟩
    · rw [heq]
      exact hactive
    · rw [heq]
      exact hactive
  · rw [outcome_of_ne hstatus]
    apply h.standing bid hbid

theorem Tables.outcome (h : Tables w bids) (winners : List ClearingWinner) :
  Tables w (bids.map (OfferingBid.outcome winners))
  := h.map (outcome_key winners) fun _ hbid => h.standing_outcome winners hbid

theorem AtRest.outcome (h : AtRest bids) (winners : List ClearingWinner) :
  AtRest (bids.map (OfferingBid.outcome winners))
  := by
  intro bid' hbid'
  obtain ⟨bid, hbid, rfl⟩ := List.mem_map.mp hbid'
  by_cases hstatus : bid.status = .escrowed
  · rcases outcome_cases winners hstatus with ⟨x, _, _, heq⟩ | ⟨_, heq⟩
    · rw [heq]
      exact ⟨nofun, nofun⟩
    · rw [heq]
      exact ⟨nofun, nofun⟩
  · rw [outcome_of_ne hstatus]
    apply h bid hbid

include h

/-- A winner has a row, which is escrowed. -/
theorem exists_row_of_winner {x : ClearingWinner} (hx : x ∈ r.winners) :
  ∃ bid ∈ bids, bid.status = .escrowed ∧ bid.id = x.id
    ∧ bid.chainBidId = some x.chainBidId.toNat ∧ 0 < x.allocatedCount
  := by
  obtain ⟨input, hinput, hpos, rfl⟩ := h.cleared.mem_winners.mp hx
  obtain ⟨bid, hbid, hstatus, hinput⟩ := (h.mem_inputs input).mp hinput
  obtain ⟨id, hid, rfl⟩ := toClearingInput_eq_some.mp hinput
  exact ⟨bid, hbid, hstatus, rfl, hid, hpos⟩

include htables

/-- The row with the id of a winner is its row. -/
theorem chainBidId_of_winner {x : ClearingWinner} (hx : x ∈ r.winners) {bid : OfferingBid}
    (hbid : bid ∈ bids) (hid : x.id = bid.id) :
  bid.chainBidId = some x.chainBidId.toNat ∧ 0 < x.allocatedCount
  := by
  obtain ⟨bid', hbid', _, hid', hchain, hpos⟩ := exists_row_of_winner h hx
  obtain rfl := htables.keyed.eq_of_id hbid' hbid (hid'.trans hid)
  exact ⟨hchain, hpos⟩

/-- A bid of the settlement is allocated something when its row is that of a winner. -/
theorem allocOf_eq_none {bid : OfferingBid} (hbid : bid ∈ bids) {id : ℕ}
    (hid : bid.chainBidId = some id)
    (hnone : bid.status = .escrowed → ∀ x ∈ r.winners, x.id ≠ bid.id) :
  allocOf (callArgs r) id = none
  := by
  rw [Option.eq_none_iff_forall_ne_some]
  intro allocated halloc
  obtain ⟨x, hx, heq⟩ := List.mem_map.mp (mem_of_allocOf halloc)
  obtain ⟨hxid, _⟩ := Prod.mk.inj heq
  obtain ⟨bid', hbid', hstatus, hid', hchain, _⟩ := exists_row_of_winner h hx
  rw [hxid] at hchain
  obtain rfl := htables.keyed.eq_of_chainBidId hbid' hbid hchain hid
  apply hnone hstatus x hx hid'.symm

variable (hsolvent : Solvent selfAddr w) {env : Env} {token : Address} {effects : List Effect}
  (hs : Settlement selfAddr env P (callArgs r) token w w' effects)

include hsolvent hs

/-- The outcome of a row is its receipt. -/
theorem receipt_outcome (hrest : AtRest bids) (hunsettled : Unsettled bids) {bid : OfferingBid}
    (hbid : bid ∈ bids) :
  Receipt ⟨env, w, P, callArgs r, effects⟩ (bid.outcome r.winners)
  := by
  obtain ⟨hsubmitted, hcanceling⟩ := hrest bid hbid
  obtain ⟨hwon, hlost⟩ := hunsettled bid hbid
  cases hstatus : bid.status with
  | submitted => cases hsubmitted hstatus
  | canceling => cases hcanceling hstatus
  | won => cases hwon hstatus
  | lost => cases hlost hstatus
  | escrowed =>
    obtain ⟨id, b, hb, hactive⟩ := htables.escrowed hbid hstatus
    rcases outcome_cases r.winners hstatus with ⟨x, hx, hid, heq⟩ | ⟨hnone, heq⟩
    · obtain ⟨hchain, hpos⟩ := chainBidId_of_winner htables h hx hbid hid
      obtain rfl := Option.some.inj (hb.chainBidId_eq.symm.trans hchain)
      obtain ⟨b', hb', hrefunded⟩ := outflows_winner h.valid h.mirrors h.cleared hsolvent hs hx
      obtain rfl := Option.some.inj (hb.bid_eq.symm.trans hb')
      rw [hb.bidder_eq] at hrefunded
      rw [heq]
      exact ⟨_, b, x.allocatedCount, x.refundStroops, hb.congr rfl, rfl, rfl, hpos,
        allocOf_callArgs h.valid h.mirrors h.cleared hx, hrefunded⟩
    · have halloc := allocOf_eq_none htables h hbid hb.chainBidId_eq fun _ => hnone
      have hrefunded := outflows_loser hsolvent hs hb.bid_eq hactive halloc
      rw [hb.bidder_eq, (hsolvent.bid_sound id b hb.bid_eq).escrow_eq, hb.price_eq, hb.count_eq]
        at hrefunded
      rw [heq]
      exact ⟨id, b, hb.congr rfl, rfl, rfl, halloc, hrefunded⟩
  | canceled =>
    have heq : bid.outcome r.winners = bid := outcome_of_ne (by simp [hstatus])
    rcases htables.standing bid hbid with ⟨id, b, hb, hallows⟩ | ⟨_, hnone⟩
    · rw [hstatus] at hallows
      have halloc := allocOf_eq_none htables h hbid hb.chainBidId_eq (by simp [hstatus])
      have hinactive : ∀ b', w.bids id = some b' → b'.active = false := by
        intro b' hb'
        obtain rfl := Option.some.inj (hb.bid_eq.symm.trans hb')
        exact hallows
      rw [heq, Receipt, hstatus]
      exact ⟨id, b, hb, hallows, halloc, outflows_inactive hsolvent hs hinactive⟩
    · simp [hstatus] at hnone
  | failed =>
    have heq : bid.outcome r.winners = bid := outcome_of_ne (by simp [hstatus])
    rcases htables.standing bid hbid with ⟨id, b, hb, hallows⟩ | ⟨hnone, _⟩
    · rw [hstatus] at hallows
      cases hallows
    · rw [heq, Receipt, hstatus]
      exact hnone

/-- The rows that have been settled are the receipts of the settlement. -/
theorem receipts_outcome (hrest : AtRest bids) (hunsettled : Unsettled bids) :
  Receipts ⟨env, w, P, callArgs r, effects⟩ (bids.map (OfferingBid.outcome r.winners))
  := by
  constructor
  · intro bid' hbid'
    obtain ⟨bid, hbid, rfl⟩ := List.mem_map.mp hbid'
    apply receipt_outcome htables h hsolvent hs hrest hunsettled hbid
  · apply (htables.outcome r.winners).listed
  · intro entry hentry
    obtain ⟨x, hx, rfl⟩ := List.mem_map.mp hentry
    obtain ⟨bid, hbid, hstatus, hid, hchain, _⟩ := exists_row_of_winner h hx
    refine ⟨_, List.mem_map_of_mem hbid, ?_⟩
    rcases outcome_cases r.winners hstatus with ⟨x', hx', hid', heq⟩ | ⟨hnone, _⟩
    · obtain ⟨hchain', _⟩ := chainBidId_of_winner htables h hx' hbid hid'
      have halloc := allocOf_callArgs h.valid h.mirrors h.cleared hx
      have halloc' := allocOf_callArgs h.valid h.mirrors h.cleared hx'
      rw [← Option.some.inj (hchain.symm.trans hchain'), halloc] at halloc'
      rw [heq]
      exact ⟨rfl, hchain, halloc'.symm⟩
    · cases hnone x hx hid.symm
  · apply hs.mints_eq

end Receipts

end Offerings
