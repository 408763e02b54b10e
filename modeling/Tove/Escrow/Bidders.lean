import Tove.Base.Twins
import Tove.Escrow.Solvency

/-!
# What a bidder sees of the escrow

Two runs of the contract differ only in the operations of the other bidders, when the calls of a
bidder and of the administrator correspond.  The bidder sees whether the contract is open, the bids
of its own, in the order of their ids, and whether its idempotency keys are free.
-/

namespace Escrow

open Soroban Transition

/-! ### Operations -/

/-- The bidder in whose name a call is made. -/
def Call.bidder : Call → Option Address
  | .submitBid bidder _ _ _ => some bidder
  | .cancelBid caller _ => some caller
  | _ => none

/-- The idempotency key of a call. -/
def Call.key : Call → Option BytesN32
  | .submitBid _ _ _ key => some key
  | _ => none

/-- The source, the target and the amount of a transfer of USDC. -/
def Effect.usdc : Effect → Option (Address × Address × ℤ)
  | .usdcTransfer _ source target amount => some (source, target, amount)
  | _ => none

namespace Label

/-- The call of a step, whether it succeeds or not. -/
def operation : Label → Option (Env × Call)
  | call env c _ => some (env, c)
  | failed env c _ => some (env, c)
  | outside => none

def bidder (l : Label) : Option Address := l.operation.bind (·.2.bidder)

def key (l : Label) : Option BytesN32 := l.operation.bind (·.2.key)

/-- The USDC that a step moves into the contract and out of it. -/
def usdc : Label → List (Address × Address × ℤ)
  | call _ _ effects => effects.filterMap Effect.usdc
  | _ => []

end Label

/-! ### The bids of a bidder -/

/-- The ids of the bids of a bidder. -/
def World.ownIds (w : World) (b : Address) : List ℕ :=
  w.ids.filter fun id => (w.bids id).any (·.bidder = b)

def World.ownBids (w : World) (b : Address) : List (Option Bid) := (w.ownIds b).map w.bids

/-! ### Twin runs -/

/-- The steps of others than a bidder and the administrator: calls in the name of another bidder,
calls that are not authorised, and what happens outside the contract. -/
def Others (b : Address) (w : World) (l : Label) : Prop :=
  ∀ env c, l.operation = some (env, c) → match c.bidder with
    | some bidder => bidder = b → env.auth b = false
    | none => env.auth w.params.admin = false

/-- The same calls of a bidder, up to the ids of its bids, and of the administrator, up to the
clearing. -/
inductive SameCall (b : Address) (w w' : World) : Call → Call → Prop where
  | submitBid (price count : ℤ) (key : BytesN32) :
    SameCall b w w' (.submitBid b price count key) (.submitBid b price count key)
  | cancelBid {id id' : ℕ} :
    (∀ n : ℕ, (w.ownIds b)[n]? = some id ↔ (w'.ownIds b)[n]? = some id') →
      SameCall b w w' (.cancelBid b id) (.cancelBid b id')
  | bindToken (token : Address) : SameCall b w w' (.bindToken token) (.bindToken token)
  | closeOffering : SameCall b w w' .closeOffering .closeOffering
  | cancelOffering : SameCall b w w' .cancelOffering .cancelOffering
  | closeAndSettle (clearingPrice clearingPrice' : ℤ) (allocations allocations' : List (ℕ × ℤ)) :
    SameCall b w w' (.closeAndSettle clearingPrice allocations)
      (.closeAndSettle clearingPrice' allocations')

/-- The transfers for a bidder succeed, the running total is a 128-bit integer, and the id of a bid
is a 32-bit one. -/
def Ample (b : Address) (w : World) (l : Label) : Prop :=
  ∀ env c, l.operation = some (env, c) → c.bidder = some b → env.usdcAccepts = true
    ∧ ∀ price count key, c = .submitBid b price count key → 0 < price → 0 < count →
      InI128 (price * count) → price * count ≤ w.balances b
        ∧ InI128 (w.escrowTotal + price * count) ∧ w.bidSeq + 1 ≤ MAX_U32

/-- The steps of a bidder and of the administrator correspond. -/
def Corresponds (b : Address) (w w' : World) (l l' : Label) : Prop :=
  Ample b w l ∧ Ample b w' l' ∧ ∃ env c env' c', l.operation = some (env, c)
    ∧ l'.operation = some (env', c') ∧ env'.auth = env.auth ∧ SameCall b w w' c c'

/-- Two runs of the contract that differ only in the operations of others than a bidder. -/
def bidderTwins (selfAddr b : Address) : System (World × World) (Twin Label) :=
  (system selfAddr).twins (Others b) (Corresponds b)

/-- The calls of a bidder succeed in one run just when they do in the other, and move the same
amounts. -/
def SameForBidder (b : Address) (l l' : Label) : Prop :=
  l.bidder = some b → (l.Succeeds ↔ l'.Succeeds) ∧ l.usdc = l'.usdc

/-! ### What a bidder sees -/

/-- What a bidder sees in two states is the same; `keys` are its idempotency keys. -/
structure Alike (b : Address) (keys : Set BytesN32) (w w' : World) : Prop where
  admin_eq : w'.params.admin = w.params.admin
  open_iff : w'.status = .Open ↔ w.status = .Open
  idem_iff : ∀ key ∈ keys, (w'.idem key = none ↔ w.idem key = none)
  ownBids_eq : w.status = .Open → w'.ownBids b = w.ownBids b

section Seeing

variable {selfAddr b : Address} {keys : Set BytesN32} {w w' w'' w₁ : World} {env : Env} {c : Call}
  {effects : List Effect}

theorem Alike.refl (b : Address) (keys : Set BytesN32) (w : World) :
  Alike b keys w w
  := ⟨rfl, .rfl, fun _ _ => .rfl, fun _ => rfl⟩

theorem Alike.symm (h : Alike b keys w w') :
  Alike b keys w' w
  where
  admin_eq := h.admin_eq.symm
  open_iff := h.open_iff.symm
  idem_iff key hkey := (h.idem_iff key hkey).symm
  ownBids_eq hopen := (h.ownBids_eq (h.open_iff.mp hopen)).symm

theorem Alike.trans (h : Alike b keys w w') (h' : Alike b keys w' w'') :
  Alike b keys w w''
  where
  admin_eq := h'.admin_eq.trans h.admin_eq
  open_iff := h'.open_iff.trans h.open_iff
  idem_iff key hkey := (h'.idem_iff key hkey).trans (h.idem_iff key hkey)
  ownBids_eq hopen := (h'.ownBids_eq (h.open_iff.mpr hopen)).trans (h.ownBids_eq hopen)

/-- The place of a bid among those of its bidder. -/
theorem exists_place (hsolvent : Solvent selfAddr w) {id : ℕ} {bid : Bid} :
  w.bids id = some bid ∧ bid.bidder = b
    ↔ ∃ n : ℕ, (w.ownIds b)[n]? = some id ∧ (w.ownBids b)[n]? = some (some bid)
  := by
  constructor
  · rintro ⟨hbid, hbidder⟩
    have hmem : id ∈ w.ownIds b := by
      apply List.mem_filter.mpr
      use (hsolvent.bids_iff id).mp ⟨bid, hbid⟩
      simp [hbid, hbidder]
    obtain ⟨n, hn⟩ := List.mem_iff_getElem?.mp hmem
    use n, hn
    rw [World.ownBids, List.getElem?_map, hn, ← hbid]
    rfl
  · rintro ⟨n, hid, hbid⟩
    rw [World.ownBids, List.getElem?_map, hid] at hbid
    have heq : w.bids id = some bid := Option.some.inj hbid
    have hmem := (List.mem_filter.mp (List.mem_of_getElem? hid)).2
    rw [heq] at hmem
    use heq
    simpa using hmem

/-- A new bid is the last one of its bidder. -/
theorem ownBids_withBid (bidder : Address) (price count : ℤ) (key : BytesN32) :
  (w.withBid selfAddr bidder price count key).ownBids b
    = w.ownBids b ++ if bidder = b then [some ⟨bidder, price, count, price * count, true⟩] else []
  := by
  have hbids : ∀ id ∈ w.ids, (w.withBid selfAddr bidder price count key).bids id = w.bids id := by
    intro id hid
    apply Function.update_of_ne
    have := World.mem_ids.mp hid
    omega
  have hnew : (w.withBid selfAddr bidder price count key).bids (w.bidSeq + 1)
      = some ⟨bidder, price, count, price * count, true⟩ := Function.update_self ..
  have hold : w.ids.filter (fun id => ((w.withBid selfAddr bidder price count key).bids id).any
      (·.bidder = b)) = w.ownIds b := by
    apply List.filter_congr
    intro id hid
    rw [hbids id hid]
  rw [World.ownBids, World.ownIds, ids_withBid, List.filter_append, hold, List.map_append]
  congr 1
  · apply List.map_congr_left
    intro id hid
    apply hbids id (List.mem_of_mem_filter hid)
  · split
    · rename_i heq
      rw [List.filter_cons_of_pos (by rw [hnew]; simp [heq]), List.filter_nil, List.map_singleton,
        hnew]
    · rename_i hne
      rw [List.filter_cons_of_neg (by rw [hnew]; simp [hne])]
      rfl

/-- A cancelled bid keeps its place. -/
theorem ownIds_withoutBid {id : ℕ} {bid : Bid} (hbid : w.bids id = some bid) :
  (w.withoutBid selfAddr id bid).ownIds b = w.ownIds b
  := by
  apply List.filter_congr
  intro id' _
  rcases eq_or_ne id' id with rfl | hne
  · simp [World.withoutBid, hbid]
  · simp [World.withoutBid, Function.update_of_ne hne]

theorem ownBids_withoutBid_of_ne {id : ℕ} {bid : Bid} (hbid : w.bids id = some bid)
    (hne : bid.bidder ≠ b) :
  (w.withoutBid selfAddr id bid).ownBids b = w.ownBids b
  := by
  rw [World.ownBids, ownIds_withoutBid hbid]
  apply List.map_congr_left
  intro id' hmem
  apply Function.update_of_ne
  rintro rfl
  have hbidder := (List.mem_filter.mp hmem).2
  rw [hbid] at hbidder
  apply hne
  simpa using hbidder

/-- A cancelled bid is inactive at its place. -/
theorem ownBids_withoutBid {id n : ℕ} {bid : Bid} (hbid : w.bids id = some bid)
    (hn : (w.ownIds b)[n]? = some id) :
  (w.withoutBid selfAddr id bid).ownBids b
    = (w.ownBids b).set n (some { bid with active := false })
  := by
  have hnodup : (w.ownIds b).Nodup := w.ids_nodup.filter _
  obtain ⟨hlt, hget⟩ := List.getElem?_eq_some_iff.mp hn
  have hplace : (w.ownIds b).idxOf id = n := by
    rw [← hget]
    apply hnodup.idxOf_getElem
  have hbids : (w.withoutBid selfAddr id bid).bids
      = Function.update w.bids id (some { bid with active := false }) := rfl
  rw [World.ownBids, ownIds_withoutBid hbid, hbids, hnodup.map_update,
    if_pos (List.mem_of_getElem? hn), hplace]
  rfl

end Seeing

end Escrow
