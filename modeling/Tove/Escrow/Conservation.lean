import Tove.Escrow.Effects

/-!
# Conservation over runs

Along a run of the contract the USDC that bidders have paid in is what they have been paid back,
what has been paid to the treasury and to the artist, and the running total.  The escrow of
a bid leaves the contract at most once: when the bid is cancelled, or in the one settlement.
-/

namespace Escrow

open Soroban Ledgers Totals Transition

/-! ### Runs -/

/-- The effects of a step. -/
def Label.effects : Label → List Effect
  | .call _ _ effects => effects
  | _ => []

/-- The effects of a run. -/
def effectsOf (ls : List Label) : List Effect := ls.flatMap Label.effects

theorem effectsOf_snoc (ls : List Label) (l : Label) :
  effectsOf (ls ++ [l]) = effectsOf ls ++ l.effects
  := by simp [effectsOf]

/-- The transfer of an effect is between the contract and the party that its leg names. -/
def Effect.Routed (selfAddr : Address) (w : World) : Effect → Prop
  | .usdcTransfer (.escrow id) source target _ =>
    target = selfAddr ∧ ∃ bid, w.bids id = some bid ∧ bid.bidder = source
  | .usdcTransfer (.cancelRefund id) source target _ =>
    source = selfAddr ∧ ∃ bid, w.bids id = some bid ∧ bid.bidder = target
  | .usdcTransfer (.settleRefund id) source target _ =>
    source = selfAddr ∧ ∃ bid, w.bids id = some bid ∧ bid.bidder = target
  | .usdcTransfer .platformFee source target _ => source = selfAddr ∧ target = w.params.treasury
  | .usdcTransfer .artistNet source target _ => source = selfAddr ∧ target = w.params.artistPayout
  | _ => True

/-! ### The fate of a bid -/

/-- A bid has been cancelled in a run: it has been paid back in full, once. -/
structure CancelledIn (ls : List Label) (id : ℕ) (bid : Bid) : Prop where
  called : ∃ env effects, Label.call env (.cancelBid bid.bidder id) effects ∈ ls
  outflows_eq : outflows id (effectsOf ls) = [(bid.bidder, bid.price * bid.count)]

/-- A bid has been settled in a run, by a settlement at a clearing price: it has been allocated
a part of its count, for which it pays no more than its price, it has been paid back the rest of
its escrow, once, and the run has minted the allocations of the settlement to their bidders,
beside the retentions, and nothing else. -/
structure SettledIn (ls : List Label) (w : World) (id : ℕ) (bid : Bid) (clearingPrice : ℤ)
    (allocations : List (ℕ × ℤ)) (allocated : ℤ) : Prop where
  status_eq : w.status = .Settled
  called : ∃ env effects, Label.call env (.closeAndSettle clearingPrice allocations) effects ∈ ls
  allocated_eq : allocated = (allocOf allocations id).getD 0
  nonneg : 0 ≤ allocated
  le_count : allocated ≤ bid.count
  cost_le : clearingPrice * allocated ≤ bid.price * allocated
  refund_nonneg : 0 ≤ bid.escrow - clearingPrice * allocated
  outflows_eq : outflows id (effectsOf ls)
    = payment bid.bidder (bid.escrow - clearingPrice * allocated)
  mints_eq : mints (effectsOf ls) = [winners w.bids allocations
    ++ retentions w.params (w.params.artistRetention + w.params.leftoverToArtist)]
  minted_eq : winners w.bids (allocations.filter (·.1 = id)) = payment bid.bidder allocated

/-- What has become of a bid in a run. -/
def Fate (ls : List Label) (w : World) (id : ℕ) (bid : Bid) : Prop :=
  (bid.active = true ∧ outflows id (effectsOf ls) = [])
    ∨ (bid.active = false ∧ CancelledIn ls id bid)
    ∨ (bid.active = false ∧ ∃ clearingPrice allocations allocated,
        SettledIn ls w id bid clearingPrice allocations allocated)

/-- The accounts of a run that has led to a world. -/
structure Accounted (selfAddr : Address) (ls : List Label) (w : World) : Prop where
  balance : total Effect.paidIn (effectsOf ls)
    = total Effect.paidBack (effectsOf ls) + total Effect.paidSplit (effectsOf ls) + w.escrowTotal
  routed : ∀ e ∈ effectsOf ls, e.Routed selfAddr w
  fate : ∀ id bid, w.bids id = some bid → Fate ls w id bid
  fresh : ∀ id, w.bids id = none → outflows id (effectsOf ls) = []
  unminted : w.status ≠ .Settled → mints (effectsOf ls) = []

theorem accounted_of_construct {selfAddr : Address} {args : ConstructorArgs}
    {balances : Ledger Address} {w : World} (h : construct args balances = .ok w) :
  Accounted selfAddr [] w
  := by
  obtain ⟨hw, _⟩ := construct_eq_ok h
  rw [hw]
  constructor
  · rfl
  · intro e he
    cases he
  · intro id bid hbid
    cases hbid
  · intro id _
    rfl
  · intro _
    rfl

/-! ### Quiet steps -/

/-- A world with the bids and the money of another. -/
structure World.Frame (w w' : World) : Prop where
  bids_eq : w'.bids = w.bids
  escrowTotal_eq : w'.escrowTotal = w.escrowTotal
  params_eq : w'.params = { w.params with fractionToken := w'.params.fractionToken }
  settled_iff : w'.status = .Settled ↔ w.status = .Settled

section Steps

variable {selfAddr : Address} {ls : List Label} {l : Label} {w w' : World}

/-- The transfers of the past stay routed while the bidders and the receivers of the proceeds
stay the same. -/
theorem Effect.Routed.mono {e : Effect} (h : e.Routed selfAddr w)
    (hbids : ∀ id bid, w.bids id = some bid →
      ∃ bid', w'.bids id = some bid' ∧ bid'.bidder = bid.bidder)
    (htreasury : w'.params.treasury = w.params.treasury)
    (hpayout : w'.params.artistPayout = w.params.artistPayout) :
  e.Routed selfAddr w'
  := by
  cases e with
  | usdcTransfer leg source target amount =>
    cases leg with
    | escrow id | cancelRefund id | settleRefund id =>
      obtain ⟨hself, bid, hbid, hbidder⟩ := h
      obtain ⟨bid', hbid', hbidder'⟩ := hbids id bid hbid
      exact ⟨hself, bid', hbid', hbidder'.trans hbidder⟩
    | platformFee => exact ⟨h.1, h.2.trans htreasury.symm⟩
    | artistNet => exact ⟨h.1, h.2.trans hpayout.symm⟩
  | mintSettle => trivial
  | event => trivial

/-- What has been paid back for a bid, after a step that pays nothing back for it. -/
theorem outflows_snoc {id : ℕ} (h : outflows id l.effects = []) :
  outflows id (effectsOf (ls ++ [l])) = outflows id (effectsOf ls)
  := by rw [effectsOf_snoc, outflows_append, h, List.append_nil]

theorem CancelledIn.snoc {id : ℕ} {bid : Bid} (h : CancelledIn ls id bid)
    (houtflows : outflows id l.effects = []) :
  CancelledIn (ls ++ [l]) id bid
  := by
  obtain ⟨env, effects, hcall⟩ := h.called
  constructor
  · exact ⟨env, effects, List.mem_append_left _ hcall⟩
  · apply (outflows_snoc houtflows).trans h.outflows_eq

theorem SettledIn.snoc {id : ℕ} {bid : Bid} {clearingPrice allocated : ℤ}
    {allocations : List (ℕ × ℤ)} (h : SettledIn ls w id bid clearingPrice allocations allocated)
    (houtflows : outflows id l.effects = []) (hframe : w.Frame w') (hmints : mints l.effects = []) :
  SettledIn (ls ++ [l]) w' id bid clearingPrice allocations allocated
  := by
  obtain ⟨env, effects, hcall⟩ := h.called
  constructor
  · apply hframe.settled_iff.mpr h.status_eq
  · exact ⟨env, effects, List.mem_append_left _ hcall⟩
  · apply h.allocated_eq
  · apply h.nonneg
  · apply h.le_count
  · apply h.cost_le
  · apply h.refund_nonneg
  · apply (outflows_snoc houtflows).trans h.outflows_eq
  · rw [effectsOf_snoc, mints_append, hmints, List.append_nil, h.mints_eq, hframe.bids_eq,
      hframe.params_eq]
    rfl
  · rw [hframe.bids_eq, h.minted_eq]

/-- The fate of a bid that a step leaves alone. -/
theorem Fate.snoc {id : ℕ} {bid : Bid} (h : Fate ls w id bid)
    (houtflows : outflows id l.effects = [])
    (hsettled : w.status = .Settled → w.Frame w' ∧ mints l.effects = []) :
  Fate (ls ++ [l]) w' id bid
  := by
  obtain ⟨hactive, hnone⟩ | ⟨hinactive, hcancelled⟩ |
    ⟨hinactive, P, allocations, allocated, hs⟩ := h
  · left
    use hactive, (outflows_snoc houtflows).trans hnone
  · right
    left
    exact ⟨hinactive, hcancelled.snoc houtflows⟩
  · right
    right
    obtain ⟨hframe, hmints⟩ := hsettled hs.status_eq
    exact ⟨hinactive, P, allocations, allocated, hs.snoc houtflows hframe hmints⟩

/-- Nothing has been paid back for a bid that is active. -/
theorem Accounted.outflows_of_active {id : ℕ} {bid : Bid} (h : Accounted selfAddr ls w)
    (hbid : w.bids id = some bid) (hactive : bid.active = true) :
  outflows id (effectsOf ls) = []
  := by
  rcases h.fate id bid hbid with ⟨_, hnone⟩ | ⟨hinactive, _⟩ | ⟨hinactive, _⟩
  · apply hnone
  · cases hactive.symm.trans hinactive
  · cases hactive.symm.trans hinactive

/-- A step without transfers and mints keeps the accounts. -/
theorem Accounted.quiet (h : Accounted selfAddr ls w) (hframe : w.Frame w')
    (hquiet : ∀ e ∈ l.effects, ∃ x, e = .event x) :
  Accounted selfAddr (ls ++ [l]) w'
  := by
  have hzero : ∀ f : Effect → ℤ, (∀ x, f (.event x) = 0) → total f l.effects = 0 := by
    intro f hf
    rw [← total_zero l.effects]
    apply total_congr
    intro e he
    obtain ⟨x, rfl⟩ := hquiet e he
    apply hf
  have houtflows : ∀ id, outflows id l.effects = [] := by
    intro id
    apply List.filterMap_eq_nil_iff.mpr
    intro e he
    obtain ⟨x, rfl⟩ := hquiet e he
    rfl
  have hmints : mints l.effects = [] := by
    apply List.filterMap_eq_nil_iff.mpr
    intro e he
    obtain ⟨x, rfl⟩ := hquiet e he
    rfl
  constructor
  · rw [effectsOf_snoc, total_append, total_append, total_append, hzero _ fun _ => rfl,
      hzero _ fun _ => rfl, hzero _ fun _ => rfl, hframe.escrowTotal_eq, h.balance]
    ring
  · intro e he
    rw [effectsOf_snoc, List.mem_append] at he
    rcases he with he | he
    · apply (h.routed e he).mono
      · intro id bid hbid
        exact ⟨bid, by rw [hframe.bids_eq, hbid], rfl⟩
      · rw [hframe.params_eq]
      · rw [hframe.params_eq]
    · obtain ⟨x, rfl⟩ := hquiet e he
      trivial
  · intro id bid hbid
    rw [hframe.bids_eq] at hbid
    apply (h.fate id bid hbid).snoc (houtflows id)
    intro _
    use hframe, hmints
  · intro id hnone
    rw [hframe.bids_eq] at hnone
    rw [effectsOf_snoc, outflows_append, h.fresh id hnone, houtflows]
    rfl
  · intro hstatus
    rw [effectsOf_snoc, mints_append, hmints,
      h.unminted fun heq => hstatus (hframe.settled_iff.mpr heq)]
    rfl

/-! ### Steps that move money -/

variable {env : Env} {effects : List Effect}

theorem Accounted.submitBid (h : Accounted selfAddr ls w) (hsolvent : Solvent selfAddr w)
    {bidder : Address} {price count : ℤ} {key : BytesN32} {id : ℕ}
    (hcall : submitBid selfAddr env bidder price count key w = .ok (id, w', effects)) :
  Accounted selfAddr (ls ++ [.call env (.submitBid bidder price count key) effects]) w'
  := by
  obtain ⟨_, hopen, _, _, _, _, _, _, _, rfl, rfl⟩ := submitBid_eq_ok.mp hcall
  have hnext := hsolvent.bids_next
  have hold : ∀ k bid, w.bids k = some bid →
      (w.withBid selfAddr bidder price count key).bids k = some bid := by
    intro k bid hbid
    have hk : k ≠ w.bidSeq + 1 := by
      rintro rfl
      cases hnext.symm.trans hbid
    rw [← hbid]
    apply Function.update_of_ne hk
  have hself : (w.withBid selfAddr bidder price count key).bids (w.bidSeq + 1)
      = some ⟨bidder, price, count, price * count, true⟩ := Function.update_self ..
  have hunsettled : w.status ≠ .Settled := by simp [hopen]
  constructor
  · rw [effectsOf_snoc, total_append, total_append, total_append, h.balance]
    simp only [Label.effects, total_cons, total_nil, Effect.paidIn, Effect.paidBack,
      Effect.paidSplit, World.withBid]
    ring
  · intro e he
    rw [effectsOf_snoc, List.mem_append] at he
    rcases he with he | he
    · have hbids : ∀ k bid, w.bids k = some bid →
          ∃ bid', (w.withBid selfAddr bidder price count key).bids k = some bid'
            ∧ bid'.bidder = bid.bidder :=
        fun k bid hbid => ⟨bid, hold k bid hbid, rfl⟩
      apply (h.routed e he).mono hbids rfl rfl
    · simp only [Label.effects, List.mem_cons, List.not_mem_nil, or_false] at he
      rcases he with rfl | rfl
      · exact ⟨rfl, _, hself, rfl⟩
      · trivial
  · intro k bid hbid
    by_cases hk : k = w.bidSeq + 1
    · subst hk
      obtain rfl := Option.some.inj (hself.symm.trans hbid)
      left
      use rfl
      rw [effectsOf_snoc, outflows_append, h.fresh _ hnext]
      rfl
    · have hbid' : w.bids k = some bid := by
        rw [← hbid]
        symm
        apply Function.update_of_ne hk
      apply (h.fate k bid hbid').snoc
      · rfl
      · intro heq
        cases hunsettled heq
  · intro k hnone
    have hk : w.bids k = none := by
      by_contra hne
      obtain ⟨bid, hbid⟩ := Option.ne_none_iff_exists'.mp hne
      cases (hold k bid hbid).symm.trans hnone
    rw [effectsOf_snoc, outflows_append, h.fresh k hk]
    rfl
  · intro _
    rw [effectsOf_snoc, mints_append, h.unminted hunsettled]
    rfl

/-- A bid that is cancelled has been cancelled in the run. -/
theorem Accounted.cancelledIn (h : Accounted selfAddr ls w) (hsolvent : Solvent selfAddr w)
    {caller : Address} {id : ℕ}
    (hcall : cancelBid selfAddr env caller id w = .ok (w', effects)) :
  ∃ bid, w.bids id = some bid ∧ bid.bidder = caller ∧ bid.active = true
    ∧ w'.bids id = some { bid with active := false }
    ∧ CancelledIn (ls ++ [.call env (.cancelBid caller id) effects]) id { bid with active := false }
  := by
  obtain ⟨_, _, bid, hbid, rfl, hactive, _, _, _, rfl, rfl⟩ := cancelBid_eq_ok.mp hcall
  refine ⟨bid, hbid, rfl, hactive, Function.update_self .., ?_⟩
  constructor
  · exact ⟨env, _, List.mem_append_right _ (List.mem_singleton_self _)⟩
  · rw [effectsOf_snoc, outflows_append, h.outflows_of_active hbid hactive,
      ← (hsolvent.bid_sound id bid hbid).escrow_eq]
    simp [outflows, Label.effects, Effect.outflow]

theorem Accounted.cancelBid (h : Accounted selfAddr ls w) (hsolvent : Solvent selfAddr w)
    {caller : Address} {id : ℕ}
    (hcall : cancelBid selfAddr env caller id w = .ok (w', effects)) :
  Accounted selfAddr (ls ++ [.call env (.cancelBid caller id) effects]) w'
  := by
  obtain ⟨bid', hbid', _, _, hself', hcancelled⟩ := h.cancelledIn hsolvent hcall
  obtain ⟨_, hopen, bid, hbid, rfl, hactive, _, _, _, rfl, rfl⟩ := cancelBid_eq_ok.mp hcall
  obtain rfl := Option.some.inj (hbid.symm.trans hbid')
  have hunsettled : w.status ≠ .Settled := by simp [hopen]
  have hother : ∀ k, k ≠ id → (w.withoutBid selfAddr id bid).bids k = w.bids k :=
    fun k hk => Function.update_of_ne hk ..
  have hself : (w.withoutBid selfAddr id bid).bids id = some { bid with active := false } :=
    Function.update_self ..
  have hbids : ∀ k b, w.bids k = some b →
      ∃ b', (w.withoutBid selfAddr id bid).bids k = some b' ∧ b'.bidder = b.bidder := by
    intro k b hb
    by_cases hk : k = id
    · subst hk
      obtain rfl := Option.some.inj (hbid.symm.trans hb)
      exact ⟨_, hself, rfl⟩
    · exact ⟨b, (hother k hk).trans hb, rfl⟩
  constructor
  · rw [effectsOf_snoc, total_append, total_append, total_append, h.balance]
    simp only [Label.effects, total_cons, total_nil, Effect.paidIn, Effect.paidBack,
      Effect.paidSplit, World.withoutBid]
    ring
  · intro e he
    rw [effectsOf_snoc, List.mem_append] at he
    rcases he with he | he
    · apply (h.routed e he).mono hbids rfl rfl
    · simp only [Label.effects, List.mem_cons, List.not_mem_nil, or_false] at he
      rcases he with rfl | rfl
      · exact ⟨rfl, _, hself, rfl⟩
      · trivial
  · intro k b hb
    by_cases hk : k = id
    · subst hk
      obtain rfl := Option.some.inj (hself.symm.trans hb)
      right
      left
      exact ⟨rfl, hcancelled⟩
    · apply (h.fate k b ((hother k hk).symm.trans hb)).snoc
      · simp [outflows, Label.effects, Effect.outflow, Ne.symm hk]
      · intro heq
        cases hunsettled heq
  · intro k hnone
    have hk : k ≠ id := by
      rintro rfl
      cases hself.symm.trans hnone
    rw [effectsOf_snoc, outflows_append, h.fresh k ((hother k hk).symm.trans hnone)]
    simp [outflows, Label.effects, Effect.outflow, Ne.symm hk]
  · intro _
    rw [effectsOf_snoc, mints_append, h.unminted hunsettled]
    rfl

/-- Deactivating bids does not change who is minted to. -/
theorem winners_deactivate (bids : ℕ → Option Bid) (ids : List ℕ) (allocations : List (ℕ × ℤ)) :
  winners (deactivate bids ids) allocations = winners bids allocations
  := by
  unfold winners
  apply List.filterMap_congr
  intro entry _
  unfold deactivate
  split
  · rw [Option.map_map]
    rfl
  · rfl

/-- The recipients of the allocation to a single bid. -/
theorem winners_filter {bids : ℕ → Option Bid} {allocations : List (ℕ × ℤ)}
    (hnodup : (allocations.map Prod.fst).Nodup) {id : ℕ} {bid : Bid} (hbid : bids id = some bid) :
  winners bids (allocations.filter (·.1 = id))
    = payment bid.bidder ((allocOf allocations id).getD 0)
  := by
  induction allocations with
  | nil => rfl
  | cons entry allocations ih =>
    obtain ⟨k, allocated⟩ := entry
    obtain ⟨hk, hnodup⟩ := List.nodup_cons.mp hnodup
    by_cases heq : k = id
    · subst heq
      have hrest : allocations.filter (·.1 = k) = [] := by
        rw [List.filter_eq_nil_iff]
        intro entry hentry heq
        apply hk
        rw [← of_decide_eq_true heq]
        apply List.mem_map_of_mem hentry
      have hself : allocOf ((k, allocated) :: allocations) k = some allocated :=
        List.lookup_cons_self
      rw [List.filter_cons_of_pos (by simp), hrest, hself, Option.getD_some]
      unfold winners payment
      split
      · next hpos => simp [hpos, hbid]
      · next hpos => simp [hpos]
    · have hother : allocOf ((k, allocated) :: allocations) id = allocOf allocations id := by
        rw [allocOf, List.lookup_cons, beq_eq_false_iff_ne.mpr (Ne.symm heq)]
        rfl
      rw [List.filter_cons_of_neg (by simp [heq]), hother]
      apply ih hnodup

/-- The transfers of a settlement are routed to the bidders, the treasury and the artist. -/
theorem Settlement.routed {clearingPrice : ℤ} {allocations : List (ℕ × ℤ)} {token : Address}
    (hs : Settlement selfAddr env clearingPrice allocations token w w' effects) {e : Effect}
    (he : e ∈ effects) :
  e.Routed selfAddr w
  := by
  rw [hs.effects_eq] at he
  simp only [List.cons_append, List.mem_cons, List.mem_append, List.mem_flatMap,
    List.not_mem_nil, or_false] at he
  rcases he with rfl | ((⟨id, _, he⟩ | he) | he) | rfl
  · trivial
  · unfold refundEffects at he
    cases hactive : activeBid w.bids id with
    | none => simp [hactive] at he
    | some bid =>
      have hbid : w.bids id = some bid := (Option.filter_eq_some_iff.mp hactive).1
      rw [hactive, Option.elim_some, payEffects] at he
      split at he
      · rw [List.mem_singleton] at he
        subst he
        exact ⟨rfl, bid, hbid, rfl⟩
      · cases he
  · unfold payEffects at he
    split at he
    · rw [List.mem_singleton] at he
      subst he
      exact ⟨rfl, rfl⟩
    · cases he
  · unfold payEffects at he
    split at he
    · rw [List.mem_singleton] at he
      subst he
      exact ⟨rfl, rfl⟩
    · cases he
  · trivial

/-- A bid that is active when the offering is settled has been settled in the run. -/
theorem Accounted.settledIn (h : Accounted selfAddr ls w) (hsolvent : Solvent selfAddr w)
    {clearingPrice : ℤ} {allocations : List (ℕ × ℤ)} {token : Address}
    (hs : Settlement selfAddr env clearingPrice allocations token w w' effects) {id : ℕ} {bid : Bid}
    (hbid : w.bids id = some bid) (hactive : bid.active = true) :
  w'.bids id = some { bid with active := false }
    ∧ SettledIn (ls ++ [.call env (.closeAndSettle clearingPrice allocations) effects]) w' id
        { bid with active := false } clearingPrice allocations ((allocOf allocations id).getD 0)
  := by
  have hbids : w'.bids = deactivate w.bids w.ids := by rw [hs.world_eq]
  have hunsettled : w.status ≠ .Settled := by simp [hs.closed]
  obtain ⟨hnonneg, hle, hcost, hrefund⟩ := hs.allotted hsolvent hbid
  constructor
  · rw [hbids, deactivate, hbid, if_pos ((hsolvent.bids_iff id).mp ⟨bid, hbid⟩)]
    rfl
  · constructor
    · rw [hs.world_eq]
    · exact ⟨env, effects, List.mem_append_right _ (List.mem_singleton_self _)⟩
    · rfl
    · apply hnonneg
    · apply hle
    · apply hcost
    · apply hrefund
    · rw [effectsOf_snoc, outflows_append, h.outflows_of_active hbid hactive, List.nil_append,
        Label.effects, hs.outflows_eq hsolvent id, activeBid_of_active hbid hactive,
        Option.elim_some]
    · rw [effectsOf_snoc, mints_append, h.unminted hunsettled, List.nil_append, Label.effects,
        hs.mints_eq, hbids, winners_deactivate, hs.world_eq]
    · rw [hbids, winners_deactivate, winners_filter hs.nodup hbid]

theorem Accounted.closeAndSettle (h : Accounted selfAddr ls w) (hsolvent : Solvent selfAddr w)
    {clearingPrice : ℤ} {allocations : List (ℕ × ℤ)}
    (hcall : closeAndSettle selfAddr env clearingPrice allocations w = .ok (w', effects)) :
  Accounted selfAddr (ls ++ [.call env (.closeAndSettle clearingPrice allocations) effects]) w'
  := by
  obtain ⟨token, hs⟩ := settlement_of_eq_ok hcall
  have hunsettled : w.status ≠ .Settled := by simp [hs.closed]
  have hbids : w'.bids = deactivate w.bids w.ids := by rw [hs.world_eq]
  constructor
  · have hzero : w'.escrowTotal = 0 := by rw [hs.world_eq]
    rw [effectsOf_snoc, total_append, total_append, total_append, h.balance, hzero]
    simp only [Label.effects]
    rw [hs.paidIn_eq, hs.paidBack_eq hsolvent, hs.paidSplit_eq, ← hs.accounting hsolvent]
    ring
  · have hkeep : ∀ k bid, w.bids k = some bid →
        ∃ bid', w'.bids k = some bid' ∧ bid'.bidder = bid.bidder := by
      intro k bid hbid
      rw [hbids, deactivate, hbid]
      split
      · exact ⟨_, rfl, rfl⟩
      · exact ⟨_, rfl, rfl⟩
    intro e he
    rw [effectsOf_snoc, List.mem_append] at he
    have hrouted : e.Routed selfAddr w := by
      rcases he with he | he
      · apply h.routed e he
      · apply hs.routed he
    apply hrouted.mono hkeep
    · rw [hs.world_eq]
    · rw [hs.world_eq]
  · intro k b hb
    rw [hbids] at hb
    obtain ⟨bid, hbid, rfl⟩ :=
      deactivate_eq_some (fun bid hbid => (hsolvent.bids_iff k).mp ⟨bid, hbid⟩) hb
    have hout := hs.outflows_eq hsolvent k
    cases hactive : bid.active with
    | true =>
      right
      right
      exact ⟨rfl, clearingPrice, allocations, _, (h.settledIn hsolvent hs hbid hactive).2⟩
    | false =>
      have hsame : { bid with active := false } = bid := by rw [← hactive]
      rw [hsame]
      apply (h.fate k bid hbid).snoc
      · rw [Label.effects, hout, activeBid_of_inactive hbid hactive, Option.elim_none]
      · intro heq
        cases hunsettled heq
  · intro k hnone
    have hk : w.bids k = none := by
      rw [hbids, deactivate] at hnone
      split at hnone
      · apply Option.map_eq_none_iff.mp hnone
      · apply hnone
    rw [effectsOf_snoc, outflows_append, h.fresh k hk, Label.effects, hs.outflows_eq hsolvent k,
      activeBid_of_none hk]
    rfl
  · intro hstatus
    rw [hs.world_eq] at hstatus
    cases hstatus rfl

/-- Every call from outside keeps the accounts. -/
theorem Accounted.perform (h : Accounted selfAddr ls w) (hsolvent : Solvent selfAddr w) {c : Call}
    (hcall : perform selfAddr env c w = .ok (w', effects)) :
  Accounted selfAddr (ls ++ [.call env c effects]) w'
  := by
  cases c with
  | bindToken token =>
    obtain ⟨_, _, rfl, rfl⟩ := bindToken_eq_ok.mp hcall
    apply h.quiet
    · exact ⟨rfl, rfl, rfl, Iff.rfl⟩
    · simp [Label.effects]
  | submitBid bidder price count key =>
    rw [Escrow.perform, Checks.bind_eq_ok] at hcall
    obtain ⟨⟨id, w₁, effects₁⟩, hcall, heq⟩ := hcall
    rw [Checks.pure_eq_ok, Prod.mk.injEq] at heq
    obtain ⟨rfl, rfl⟩ := heq
    apply h.submitBid hsolvent hcall
  | cancelBid caller id => apply h.cancelBid hsolvent hcall
  | closeOffering =>
    obtain ⟨_, hopen, rfl, rfl⟩ := closeOffering_eq_ok.mp hcall
    apply h.quiet
    · exact ⟨rfl, rfl, rfl, by simp [hopen]⟩
    · simp [Label.effects]
  | cancelOffering =>
    obtain ⟨_, hunsettled, _, rfl, rfl⟩ := cancelOffering_eq_ok.mp hcall
    apply h.quiet
    · exact ⟨rfl, rfl, rfl, by simp [hunsettled]⟩
    · simp [Label.effects]
  | closeAndSettle clearingPrice allocations => apply h.closeAndSettle hsolvent hcall

theorem Accounted.step (h : Accounted selfAddr ls w) (hsolvent : Solvent selfAddr w)
    (hstep : Step selfAddr w l w') :
  Accounted selfAddr (ls ++ [l]) w'
  := by
  cases hstep with
  | call _ hcall => apply h.perform hsolvent hcall
  | failed _ =>
    apply h.quiet
    · exact ⟨rfl, rfl, rfl, Iff.rfl⟩
    · simp [Label.effects]
  | outside _ =>
    apply h.quiet
    · exact ⟨rfl, rfl, rfl, Iff.rfl⟩
    · simp [Label.effects]

/-! ### After a bid has left -/

/-- Nothing is paid back for a bid that is not active, and it stays as it is. -/
theorem Step.inactive {id : ℕ} {bid : Bid} (hsolvent : Solvent selfAddr w)
    (h : Step selfAddr w l w') (hbid : w.bids id = some bid) (hinactive : bid.active = false) :
  w'.bids id = some bid ∧ outflows id l.effects = []
  := by
  cases h with
  | failed _ => exact ⟨hbid, rfl⟩
  | outside _ => exact ⟨hbid, rfl⟩
  | @call env c _ _ effects _ hcall =>
    cases c with
    | bindToken token =>
      obtain ⟨_, _, rfl, rfl⟩ := bindToken_eq_ok.mp hcall
      exact ⟨hbid, rfl⟩
    | closeOffering =>
      obtain ⟨_, _, rfl, rfl⟩ := closeOffering_eq_ok.mp hcall
      exact ⟨hbid, rfl⟩
    | cancelOffering =>
      obtain ⟨_, _, _, rfl, rfl⟩ := cancelOffering_eq_ok.mp hcall
      exact ⟨hbid, rfl⟩
    | submitBid bidder price count key =>
      rw [Escrow.perform, Checks.bind_eq_ok] at hcall
      obtain ⟨⟨k, w₁, effects₁⟩, hcall, heq⟩ := hcall
      rw [Checks.pure_eq_ok, Prod.mk.injEq] at heq
      obtain ⟨rfl, rfl⟩ := heq
      obtain ⟨_, _, _, _, _, _, _, _, _, rfl, rfl⟩ := submitBid_eq_ok.mp hcall
      have hne : id ≠ w.bidSeq + 1 := by
        rintro rfl
        cases hsolvent.bids_next.symm.trans hbid
      exact ⟨(Function.update_of_ne hne ..).trans hbid, rfl⟩
    | cancelBid caller k =>
      obtain ⟨_, _, bid', hbid', rfl, hactive, _, _, _, rfl, rfl⟩ := cancelBid_eq_ok.mp hcall
      have hne : id ≠ k := by
        rintro rfl
        obtain rfl := Option.some.inj (hbid.symm.trans hbid')
        cases hactive.symm.trans hinactive
      refine ⟨(Function.update_of_ne hne ..).trans hbid, ?_⟩
      simp [outflows, Label.effects, Effect.outflow, Ne.symm hne]
    | closeAndSettle clearingPrice allocations =>
      obtain ⟨token, hs⟩ := settlement_of_eq_ok hcall
      constructor
      · have hsame : { bid with active := false } = bid := by rw [← hinactive]
        have hdeactivate : deactivate w.bids w.ids id = some bid := by
          rw [deactivate, hbid, if_pos ((hsolvent.bids_iff id).mp ⟨bid, hbid⟩), Option.map_some,
            hsame]
        rw [hs.world_eq]
        exact hdeactivate
      · rw [Label.effects, hs.outflows_eq hsolvent id, activeBid_of_inactive hbid hinactive,
          Option.elim_none]

/-- Once the offering has been settled, nothing is minted, and the bids stay as they are. -/
theorem Step.settled (h : Step selfAddr w l w') (hstatus : w.status = .Settled) :
  w.Frame w' ∧ mints l.effects = []
  := by
  cases h with
  | failed _ => exact ⟨⟨rfl, rfl, rfl, Iff.rfl⟩, rfl⟩
  | outside _ => exact ⟨⟨rfl, rfl, rfl, Iff.rfl⟩, rfl⟩
  | @call env c _ _ effects _ hcall =>
    cases c with
    | bindToken token =>
      obtain ⟨_, _, rfl, rfl⟩ := bindToken_eq_ok.mp hcall
      exact ⟨⟨rfl, rfl, rfl, Iff.rfl⟩, rfl⟩
    | closeOffering =>
      obtain ⟨_, hopen, _⟩ := closeOffering_eq_ok.mp hcall
      cases hopen.symm.trans hstatus
    | cancelOffering =>
      obtain ⟨_, hunsettled, _⟩ := cancelOffering_eq_ok.mp hcall
      cases hunsettled hstatus
    | submitBid bidder price count key =>
      rw [Escrow.perform, Checks.bind_eq_ok] at hcall
      obtain ⟨⟨k, w₁, effects₁⟩, hcall, _⟩ := hcall
      obtain ⟨_, hopen, _⟩ := submitBid_eq_ok.mp hcall
      cases hopen.symm.trans hstatus
    | cancelBid caller k =>
      obtain ⟨_, hopen, _⟩ := cancelBid_eq_ok.mp hcall
      cases hopen.symm.trans hstatus
    | closeAndSettle clearingPrice allocations =>
      obtain ⟨token, hs⟩ := settlement_of_eq_ok hcall
      cases hs.closed.symm.trans hstatus

end Steps

/-! ### Runs of the contract -/

section Runs

variable {selfAddr : Address} {ls : List Label} {w₀ w : World}

theorem accounted_of_run (hinit : (system selfAddr).init w₀)
    (hrun : (system selfAddr).Run w₀ ls w) :
  Accounted selfAddr ls w
  := by
  induction hrun with
  | nil =>
    obtain ⟨args, balances, _, hconstruct⟩ := hinit
    apply accounted_of_construct hconstruct
  | snoc hrun hstep ih =>
    apply ih.step _ hstep
    apply solvent_of_reachable ⟨w₀, _, hinit, hrun⟩

/-- The escrow of a bid leaves the contract at most once. -/
theorem Accounted.length_outflows (h : Accounted selfAddr ls w) (id : ℕ) :
  (outflows id (effectsOf ls)).length ≤ 1
  := by
  cases hbid : w.bids id with
  | none =>
    rw [h.fresh id hbid]
    apply Nat.zero_le
  | some bid =>
    rcases h.fate id bid hbid with ⟨_, hout⟩ | ⟨_, hcancelled⟩ | ⟨_, P, allocations,
      allocated, hsettled⟩
    · rw [hout]
      apply Nat.zero_le
    · rw [hcancelled.outflows_eq]
      apply le_refl
    · rw [hsettled.outflows_eq, payment]
      split
      · apply le_refl
      · apply Nat.zero_le

/-- A bid that has been cancelled stays so. -/
theorem CancelledIn.run {ls' : List Label} {id : ℕ} {bid : Bid} {w' : World}
    (h : CancelledIn ls id bid) (hw : (system selfAddr).Reachable w)
    (hbid : w.bids id = some bid) (hinactive : bid.active = false)
    (hrun : (system selfAddr).Run w ls' w') :
  w'.bids id = some bid ∧ CancelledIn (ls ++ ls') id bid
  := by
  induction hrun with
  | nil =>
    rw [List.append_nil]
    exact ⟨hbid, h⟩
  | snoc hprefix hstep ih =>
    obtain ⟨hbid', hcancelled⟩ := ih
    obtain ⟨hsame, houtflows⟩ :=
      Step.inactive (solvent_of_reachable (hw.run hprefix)) hstep hbid' hinactive
    rw [← List.append_assoc]
    exact ⟨hsame, hcancelled.snoc houtflows⟩

/-- A bid that has been settled stays so. -/
theorem SettledIn.run {ls' : List Label} {id : ℕ} {bid : Bid} {w' : World}
    {clearingPrice allocated : ℤ} {allocations : List (ℕ × ℤ)}
    (h : SettledIn ls w id bid clearingPrice allocations allocated)
    (hw : (system selfAddr).Reachable w) (hbid : w.bids id = some bid)
    (hinactive : bid.active = false) (hrun : (system selfAddr).Run w ls' w') :
  w'.bids id = some bid
    ∧ SettledIn (ls ++ ls') w' id bid clearingPrice allocations allocated
  := by
  induction hrun with
  | nil =>
    rw [List.append_nil]
    exact ⟨hbid, h⟩
  | snoc hprefix hstep ih =>
    obtain ⟨hbid', hsettled⟩ := ih
    obtain ⟨hsame, houtflows⟩ :=
      Step.inactive (solvent_of_reachable (hw.run hprefix)) hstep hbid' hinactive
    obtain ⟨hframe, hmints⟩ := Step.settled hstep hsettled.status_eq
    rw [← List.append_assoc]
    exact ⟨hsame, hsettled.snoc houtflows hframe hmints⟩

/-- What has become, at the end of a run, of the bids that a call of the run has found. A call
that cancels has found the bid active, and it is cancelled; each bid that a settlement has found
active is settled, at the clearing price and by the allocations of the call. -/
def Answered (ls : List Label) (w₁ w : World) : Label → Prop
  | .call _ (.cancelBid caller id) _ => ∃ bid, w₁.bids id = some bid ∧ bid.bidder = caller
    ∧ bid.active = true ∧ w.bids id = some { bid with active := false }
    ∧ CancelledIn ls id { bid with active := false }
  | .call _ (.closeAndSettle clearingPrice allocations) _ => ∀ id bid, w₁.bids id = some bid →
    bid.active = true → w.bids id = some { bid with active := false }
      ∧ ∃ allocated, SettledIn ls w id { bid with active := false } clearingPrice allocations
        allocated
  | _ => True

/-- Every call of a run is answered. -/
theorem answered_of_run {ls₁ ls₂ : List Label} {l : Label} {w₁ w₂ : World}
    (hinit : (system selfAddr).init w₀) (hrun₁ : (system selfAddr).Run w₀ ls₁ w₁)
    (hstep : Step selfAddr w₁ l w₂) (hrun₂ : (system selfAddr).Run w₂ ls₂ w) :
  Answered (ls₁ ++ l :: ls₂) w₁ w l
  := by
  have h := accounted_of_run hinit hrun₁
  have hreachable : (system selfAddr).Reachable w₁ := ⟨w₀, ls₁, hinit, hrun₁⟩
  have hsolvent := solvent_of_reachable hreachable
  have hreachable' := hreachable.step hstep
  rw [List.append_cons]
  cases hstep with
  | failed _ => trivial
  | outside _ => trivial
  | @call env c _ _ effects _ hcall =>
    cases c with
    | cancelBid caller id =>
      obtain ⟨bid, hbid, hbidder, hactive, hbid', hcancelled⟩ := h.cancelledIn hsolvent hcall
      exact ⟨bid, hbid, hbidder, hactive, hcancelled.run hreachable' hbid' rfl hrun₂⟩
    | closeAndSettle clearingPrice allocations =>
      intro id bid hbid hactive
      obtain ⟨token, hs⟩ := settlement_of_eq_ok hcall
      obtain ⟨hbid', hsettled⟩ := h.settledIn hsolvent hs hbid hactive
      obtain ⟨hlast, hsettled'⟩ := hsettled.run hreachable' hbid' rfl hrun₂
      exact ⟨hlast, _, hsettled'⟩
    | bindToken | submitBid | closeOffering | cancelOffering => trivial

/-- Along every run the USDC paid in by the bids is what has been paid back to the bidders, what
has been paid to the treasury and to the artist, and the running total. The escrow of each bid
leaves the contract at most once: the bid is active and nothing has been paid back, or it has
been cancelled and its price times its count has been paid back, or it has been settled. A call
that cancels a bid has it cancelled, and a settlement settles each bid that it finds active. -/
theorem escrow_conserved (hinit : (system selfAddr).init w₀)
    (hrun : (system selfAddr).Run w₀ ls w) :
  total Effect.paidIn (effectsOf ls)
      = total Effect.paidBack (effectsOf ls) + total Effect.paidSplit (effectsOf ls)
        + w.escrowTotal
    ∧ (∀ e ∈ effectsOf ls, e.Routed selfAddr w)
    ∧ (∀ id, (outflows id (effectsOf ls)).length ≤ 1)
    ∧ (∀ id bid, w.bids id = some bid → Fate ls w id bid)
    ∧ ∀ ls₁ l ls₂ w₁ w₂, ls = ls₁ ++ l :: ls₂ → (system selfAddr).Run w₀ ls₁ w₁ →
      (system selfAddr).step w₁ l w₂ → (system selfAddr).Run w₂ ls₂ w → Answered ls w₁ w l
  := by
  have h := accounted_of_run hinit hrun
  use h.balance, h.routed, h.length_outflows, h.fate
  rintro ls₁ l ls₂ w₁ w₂ rfl hrun₁ hstep hrun₂
  exact answered_of_run hinit hrun₁ hstep hrun₂

/-- A bid is placed in the small offering. -/
def sampleSubmitted (id : ℕ) (bidder : Address) (price count : ℤ) : Label :=
  .call sampleEnv (.submitBid bidder price count id)
    [.usdcTransfer (.escrow id) bidder sampleEscrow (price * count),
      .event (.BidSubmitted bidder id price count (price * count))]

/-- The third bid of the small offering is cancelled. -/
def sampleWithdrawal : Label :=
  .call sampleEnv (.cancelBid (.account 22) 3)
    [.usdcTransfer (.cancelRefund 3) sampleEscrow (.account 22) 4,
      .event (.BidCancelled (.account 22) 3 4)]

/-- The small offering is settled, at a price of five. -/
def sampleSettlement : Label :=
  .call sampleEnv (.closeAndSettle 5 [(1, 4), (2, 3)])
    [.mintSettle (.contract 2) [(.account 20, 4), (.account 21, 3), (.account 10, 2),
        (.account 11, 1)],
      .usdcTransfer (.settleRefund 2) sampleEscrow (.account 21) 6,
      .usdcTransfer .platformFee sampleEscrow (.account 11) 1,
      .usdcTransfer .artistNet sampleEscrow (.account 12) 34,
      .event (.OfferingSettled 5 35 1 34)]

/-- The labels of the run that places the bids of the small offering. -/
def sampleLabels : List Label :=
  [sampleSubmitted 1 (.account 20) 5 4] ++ [sampleSubmitted 2 (.account 21) 7 3]
    ++ [sampleSubmitted 3 (.account 22) 4 1]

/-- The small offering with its bids. -/
def sampleBids : World :=
  (sampleBid.withBid sampleEscrow (.account 21) 7 3 2).withBid sampleEscrow (.account 22) 4 1 3

/-- The small offering after its third bid has been cancelled. -/
def sampleWithdrawn : World :=
  sampleBids.withoutBid sampleEscrow 3 ⟨.account 22, 4, 1, 4, true⟩

/-- The small offering as it is about to be settled. -/
def sampleSold : World :=
  { sampleWithdrawn with
    params := { sampleWithdrawn.params with fractionToken := some (.contract 2) }
    status := .Closed }

theorem sampleBids_run :
  (system sampleEscrow).Run sampleWorld sampleLabels sampleBids
  := by
  have hsecond : Step sampleEscrow sampleBid (sampleSubmitted 2 (.account 21) 7 3)
      (sampleBid.withBid sampleEscrow (.account 21) 7 3 2) :=
    .call (show Address.account 21 ≠ sampleEscrow by decide) rfl
  have hthird : Step sampleEscrow (sampleBid.withBid sampleEscrow (.account 21) 7 3 2)
      (sampleSubmitted 3 (.account 22) 4 1) sampleBids :=
    .call (show Address.account 22 ≠ sampleEscrow by decide) rfl
  have hfirst := System.Run.single (S := system sampleEscrow) sampleBid_step
  exact (hfirst.snoc hsecond).snoc hthird

theorem sampleWithdrawal_step :
  Step sampleEscrow sampleBids sampleWithdrawal sampleWithdrawn
  := .call (by trivial) rfl

/-- The labels of the run that closes the small offering. -/
def sampleClosing : List Label :=
  [.call sampleEnv (.bindToken (.contract 2)) [.event (.TokenBound (.contract 2))]]
    ++ [.call sampleEnv .closeOffering [.event .OfferingClosed]]

theorem sampleSold_run :
  (system sampleEscrow).Run sampleWithdrawn sampleClosing sampleSold
  := by
  have hbound : Step sampleEscrow sampleWithdrawn
      (.call sampleEnv (.bindToken (.contract 2)) [.event (.TokenBound (.contract 2))])
      { sampleWithdrawn with
        params := { sampleWithdrawn.params with fractionToken := some (.contract 2) } } :=
    .call (by trivial) rfl
  exact (System.Run.single hbound).snoc (.call (by trivial) rfl)

theorem sampleSettlement_step :
  ∃ w, Step sampleEscrow sampleSold sampleSettlement w
  := ⟨_, .call (by trivial) rfl⟩

/-- In the small offering the accounts are kept; the third bid is cancelled, and the other two are
settled. -/
theorem escrow_conserved_sampleSettled :
  ∃ ls w, total Effect.paidIn (effectsOf ls)
        = total Effect.paidBack (effectsOf ls) + total Effect.paidSplit (effectsOf ls)
          + w.escrowTotal
    ∧ CancelledIn ls 3 ⟨.account 22, 4, 1, 4, false⟩
    ∧ (∃ allocated, SettledIn ls w 1 ⟨.account 20, 5, 4, 20, false⟩ 5 [(1, 4), (2, 3)] allocated)
    ∧ ∃ allocated, SettledIn ls w 2 ⟨.account 21, 7, 3, 21, false⟩ 5 [(1, 4), (2, 3)] allocated
  := by
  obtain ⟨w, hsettlement⟩ := sampleSettlement_step
  have hwithdrawn := sampleBids_run.snoc sampleWithdrawal_step
  have hsold := hwithdrawn.trans sampleSold_run
  have hrun := hsold.snoc hsettlement
  have hinit : (system sampleEscrow).init sampleWorld := ⟨sampleArgs, fun _ => 1000, by decide, rfl⟩
  obtain ⟨hbalance, _, _, _, hanswered⟩ := escrow_conserved hinit hrun
  refine ⟨_, w, hbalance, ?_⟩
  have hafter := sampleSold_run.snoc hsettlement
  obtain ⟨bid, hbid, _, _, _, hcancelled⟩ := hanswered sampleLabels sampleWithdrawal
    (sampleClosing ++ [sampleSettlement]) sampleBids sampleWithdrawn (by simp) sampleBids_run
    sampleWithdrawal_step hafter
  obtain rfl := Option.some.inj hbid
  have hsettled := hanswered _ sampleSettlement [] sampleSold w rfl hsold hsettlement (.nil w)
  exact ⟨hcancelled, (hsettled 1 _ rfl rfl).2, (hsettled 2 _ rfl rfl).2⟩

end Runs

end Escrow
