import Tove.Base.Transition
import Tove.Soroban

/-!
# The offering escrow

The contract `OfferingEscrow` of `tove-offering-escrow`.  One contract holds the USDC of the bids
of one primary offering.  While it is open, bidders submit and cancel bids; once it is closed,
`close_and_settle` mints the fractions to the winners of an off-chain clearing, refunds
what the bids do not pay, and splits the proceeds.

A call takes the world, which is the storage of the contract with the balances of the USDC token,
to a new world with the list of its effects, or it fails.  The lifetime extensions of storage
entries are left out.
-/

namespace Escrow

open Soroban Ledgers

/-- Primary-offering platform fee, in basis points. -/
def PLATFORM_FEE_BPS : ℤ := 300

/-- The errors of the contract. -/
inductive Error where
  | OfferingNotOpen
  | DuplicateBid
  | InvalidBid
  | BidNotFound
  | NotBidOwner
  | BidInactive
  | NotClosed
  | InvalidAllocation
  | UsdcAccounting
  | AlreadySettled
  | HasBids
  | TokenAlreadyBound
  | TokenNotBound
  | InvalidParams
  deriving DecidableEq, Repr

/-- The parameters of an offering.  The fraction token is bound after the deployment. -/
structure Params where
  fractionToken : Option Address
  usdc : Address
  totalSupply : ℤ
  artist : Address
  artistRetention : ℤ
  treasury : Address
  treasuryRetention : ℤ
  leftoverToArtist : ℤ
  artistPayout : Address
  admin : Address
  deriving DecidableEq, Repr

/-- The lifecycle of an offering. -/
inductive Status where
  | Open
  | Closed
  | Settled
  | Cancelled
  deriving DecidableEq, Repr

/-- A recorded bid.  Its escrow is held by the contract while it is active. -/
structure Bid where
  bidder : Address
  price : ℤ
  count : ℤ
  escrow : ℤ
  active : Bool
  deriving DecidableEq, Repr

/-- The storage of the contract, and the balances of the USDC token. -/
structure World where
  params : Params
  status : Status
  bidSeq : ℕ
  escrowTotal : ℤ
  bids : ℕ → Option Bid
  idem : BytesN32 → Option ℕ
  balances : Ledger Address

/-- The place in the code from which USDC is moved. -/
inductive Leg where
  | escrow (id : ℕ)
  | cancelRefund (id : ℕ)
  | settleRefund (id : ℕ)
  | platformFee
  | artistNet
  deriving DecidableEq, Repr

/-- The events that the contract publishes. -/
inductive Event where
  | TokenBound (token : Address)
  | BidSubmitted (bidder : Address) (bidId : ℕ) (price count escrow : ℤ)
  | BidCancelled (bidder : Address) (bidId : ℕ) (refund : ℤ)
  | OfferingClosed
  | OfferingCancelled
  | OfferingSettled (clearingPrice proceeds platformFee artistNet : ℤ)
  deriving DecidableEq, Repr

/-- What a call does outside the storage of the contract. -/
inductive Effect where
  | usdcTransfer (leg : Leg) (source target : Address) (amount : ℤ)
  | mintSettle (token : Address) (recipients : List (Address × ℤ))
  | event (e : Event)
  deriving DecidableEq, Repr

/-- The outcome of a call. -/
abbrev Outcome (α : Type) : Type := Except (Failure Error) α

/-! ### Deployment -/

/-- The arguments of the constructor.  The supply is a 128-bit integer. -/
structure ConstructorArgs where
  usdc : Address
  totalSupply : ℤ
  artist : Address
  artistRetention : ℤ
  treasury : Address
  treasuryRetention : ℤ
  leftoverToArtist : ℤ
  artistPayout : Address
  admin : Address
  totalSupply_le : totalSupply ≤ MAX_I128

/-- `__constructor`: bind the parameters of the offering and open the bidding. -/
def construct (args : ConstructorArgs) (balances : Ledger Address) : Outcome World := do
  errorIf (args.totalSupply ≤ 0 ∨ args.artistRetention < 0 ∨ args.treasuryRetention < 0
    ∨ args.leftoverToArtist < 0) .InvalidParams
  let retained ← i128 (args.artistRetention + args.treasuryRetention)
  let retained ← i128 (retained + args.leftoverToArtist)
  errorIf (retained > args.totalSupply) .InvalidParams
  return {
    params := {
      fractionToken := none
      usdc := args.usdc
      totalSupply := args.totalSupply
      artist := args.artist
      artistRetention := args.artistRetention
      treasury := args.treasury
      treasuryRetention := args.treasuryRetention
      leftoverToArtist := args.leftoverToArtist
      artistPayout := args.artistPayout
      admin := args.admin }
    status := .Open
    bidSeq := 0
    escrowTotal := 0
    bids := fun _ => none
    idem := fun _ => none
    balances }

/-- `bind_token`: bind the fraction token, once. -/
def bindToken (env : Env) (token : Address) (w : World) : Outcome (World × List Effect) := do
  requireAuth env w.params.admin
  errorIf (w.params.fractionToken ≠ none) .TokenAlreadyBound
  return ({ w with params := { w.params with fractionToken := some token } },
    [.event (.TokenBound token)])

/-! ### Bidding -/

/-- `require_open`. -/
def requireOpen (w : World) : Outcome Unit :=
  errorIf (w.status ≠ .Open) .OfferingNotOpen

/-- `submit_bid`: escrow the price of a bid and record it.  The id of the new bid is returned. -/
def submitBid (selfAddr : Address) (env : Env) (bidder : Address) (price count : ℤ)
    (idempotencyKey : BytesN32) (w : World) : Outcome (ℕ × World × List Effect) := do
  requireAuth env bidder
  requireOpen w
  errorIf (price ≤ 0 ∨ count ≤ 0) .InvalidBid
  errorIf (w.idem idempotencyKey ≠ none) .DuplicateBid
  let escrow ← i128 (price * count)
  let id ← u32 (w.bidSeq + 1)
  let escrowTotal ← i128 (w.escrowTotal + escrow)
  let balances ← usdcTransfer env w.balances bidder selfAddr escrow
  return (id, { w with
      bidSeq := id
      escrowTotal
      bids := Function.update w.bids id (some ⟨bidder, price, count, escrow, true⟩)
      idem := Function.update w.idem idempotencyKey (some id)
      balances },
    [.usdcTransfer (.escrow id) bidder selfAddr escrow,
      .event (.BidSubmitted bidder id price count escrow)])

/-- `load_bid`. -/
def loadBid (w : World) (bidId : ℕ) : Outcome Bid :=
  match w.bids bidId with
  | none => throw (.error .BidNotFound)
  | some bid => return bid

/-- `cancel_bid`: refund an active bid to its bidder. -/
def cancelBid (selfAddr : Address) (env : Env) (caller : Address) (bidId : ℕ) (w : World) :
    Outcome (World × List Effect) := do
  requireAuth env caller
  requireOpen w
  let bid ← loadBid w bidId
  errorIf (bid.bidder ≠ caller) .NotBidOwner
  errorIf (bid.active = false) .BidInactive
  let refund := bid.escrow
  let delta ← i128 (-refund)
  let escrowTotal ← i128 (w.escrowTotal + delta)
  let balances ← usdcTransfer env w.balances selfAddr bid.bidder refund
  return ({ w with
      escrowTotal
      bids := Function.update w.bids bidId (some { bid with active := false })
      balances },
    [.usdcTransfer (.cancelRefund bidId) selfAddr bid.bidder refund,
      .event (.BidCancelled bid.bidder bidId refund)])

/-! ### The lifecycle -/

/-- `close_offering`: close the bidding. -/
def closeOffering (env : Env) (w : World) : Outcome (World × List Effect) := do
  requireAuth env w.params.admin
  requireOpen w
  return ({ w with status := .Closed }, [.event .OfferingClosed])

/-- `cancel_offering`: abort the offering, unless it has active bids. -/
def cancelOffering (env : Env) (w : World) : Outcome (World × List Effect) := do
  requireAuth env w.params.admin
  errorIf (w.status = .Settled) .AlreadySettled
  errorIf (w.escrowTotal > 0) .HasBids
  return ({ w with status := .Cancelled }, [.event .OfferingCancelled])

/-! ### Settlement -/

/-- The state gate of `close_and_settle`. -/
def requireClosed (w : World) : Outcome Unit :=
  match w.status with
  | .Settled => throw (.error .AlreadySettled)
  | .Closed => return ()
  | _ => throw (.error .NotClosed)

/-- The fraction token, once it is bound. -/
def boundToken (w : World) : Outcome Address :=
  match w.params.fractionToken with
  | none => throw (.error .TokenNotBound)
  | some token => return token

/-- What the validation of the allocations collects. -/
structure Validated where
  alloc : ℕ → Option ℤ
  sumAllocated : ℤ
  proceeds : ℤ

/-- One round of step 1: validate the allocation of a bid. -/
def validate (clearingPrice : ℤ) (bids : ℕ → Option Bid) (v : Validated) (entry : ℕ × ℤ) :
    Outcome Validated :=
  let bidId := entry.1
  let allocated := entry.2
  match bids bidId with
  | none => throw (.error .InvalidAllocation)
  | some bid => do
    errorIf (bid.active = false) .InvalidAllocation
    errorIf (allocated < 0 ∨ allocated > bid.count) .InvalidAllocation
    errorIf (v.alloc bidId ≠ none) .InvalidAllocation
    errorIf (allocated > 0 ∧ (clearingPrice ≤ 0 ∨ clearingPrice > bid.price)) .InvalidAllocation
    let paid ← i128 (clearingPrice * allocated)
    let refund ← i128 (bid.escrow - paid)
    errorIf (refund < 0) .InvalidAllocation
    let sumAllocated ← i128 (v.sumAllocated + allocated)
    let proceeds ← i128 (v.proceeds + paid)
    return ⟨Function.update v.alloc bidId (some allocated), sumAllocated, proceeds⟩

/-- The mint invariant: the allocations, the retentions and the leftover are the whole supply. -/
def checkSupply (params : Params) (sumAllocated : ℤ) : Outcome Unit := do
  let s ← i128 (sumAllocated + params.artistRetention)
  let s ← i128 (s + params.treasuryRetention)
  let s ← i128 (s + params.leftoverToArtist)
  errorIf (s ≠ params.totalSupply) .InvalidAllocation

/-- One round of step 2: a winner receives its allocation. -/
def pushWinner (bids : ℕ → Option Bid) (recipients : List (Address × ℤ)) (entry : ℕ × ℤ) :
    Outcome (List (Address × ℤ)) :=
  if entry.2 > 0 then
    match bids entry.1 with
    | none => throw .trap
    | some bid => return recipients ++ [(bid.bidder, entry.2)]
  else return recipients

/-- The retentions that are minted beside the allocations. -/
def retentions (params : Params) (artistAmount : ℤ) : List (Address × ℤ) :=
  (if artistAmount > 0 then [(params.artist, artistAmount)] else [])
    ++ if params.treasuryRetention > 0 then [(params.treasury, params.treasuryRetention)] else []

/-- Move USDC out of the contract, when the amount is positive. -/
def payOut (selfAddr : Address) (env : Env) (leg : Leg) (target : Address) (amount : ℤ)
    (paid : Ledger Address × List Effect) : Outcome (Ledger Address × List Effect) :=
  if amount > 0 then do
    let balances ← usdcTransfer env paid.1 selfAddr target amount
    return (balances, paid.2 ++ [.usdcTransfer leg selfAddr target amount])
  else return paid

/-- What the refund loop collects. -/
structure Refunded where
  bids : ℕ → Option Bid
  paid : Ledger Address × List Effect
  sumRefund : ℤ
  sumEscrow : ℤ

/-- One round of step 3: refund a bid what it does not pay, if it is active. -/
def refundBid (selfAddr : Address) (env : Env) (clearingPrice : ℤ) (alloc : ℕ → Option ℤ)
    (r : Refunded) (id : ℕ) : Outcome Refunded :=
  match r.bids id with
  | none => throw (.error .BidNotFound)
  | some bid =>
    if bid.active = false then return r
    else do
      let allocated := (alloc id).getD 0
      let cost ← i128 (clearingPrice * allocated)
      let refund ← i128 (bid.escrow - cost)
      let paid ← payOut selfAddr env (.settleRefund id) bid.bidder refund r.paid
      let sumRefund ← i128 (r.sumRefund + refund)
      let sumEscrow ← i128 (r.sumEscrow + bid.escrow)
      return {
        bids := Function.update r.bids id (some { bid with active := false })
        paid
        sumRefund
        sumEscrow }

/-- `close_and_settle`: settle the offering against a clearing that was computed off chain. -/
def closeAndSettle (selfAddr : Address) (env : Env) (clearingPrice : ℤ) (allocations : List (ℕ × ℤ))
    (w : World) : Outcome (World × List Effect) := do
  requireAuth env w.params.admin
  requireClosed w
  let token ← boundToken w
  let v ← allocations.foldlM (validate clearingPrice w.bids) ⟨fun _ => none, 0, 0⟩
  checkSupply w.params v.sumAllocated
  let winners ← allocations.foldlM (pushWinner w.bids) []
  let artistAmount ← i128 (w.params.artistRetention + w.params.leftoverToArtist)
  let recipients := winners ++ retentions w.params artistAmount
  trapIf (env.mintSettleAccepts = false)
  let r ← (List.range' 1 w.bidSeq).foldlM (refundBid selfAddr env clearingPrice v.alloc)
    ⟨w.bids, (w.balances, [.mintSettle token recipients]), 0, 0⟩
  let fee ← i128 (v.proceeds * PLATFORM_FEE_BPS)
  let platformFee := fee.tdiv 10000
  let artistNet ← i128 (v.proceeds - platformFee)
  let paid ← payOut selfAddr env .platformFee w.params.treasury platformFee r.paid
  let paid ← payOut selfAddr env .artistNet w.params.artistPayout artistNet paid
  let outflow ← i128 (r.sumRefund + platformFee)
  let outflow ← i128 (outflow + artistNet)
  errorIf (outflow ≠ r.sumEscrow) .UsdcAccounting
  let delta ← i128 (w.balances selfAddr - paid.1 selfAddr)
  errorIf (delta ≠ r.sumEscrow) .UsdcAccounting
  return ({ w with status := .Settled, escrowTotal := 0, bids := r.bids, balances := paid.1 },
    paid.2 ++ [.event (.OfferingSettled clearingPrice v.proceeds platformFee artistNet)])

/-! ### The contract as a transition system -/

/-- A call of the contract. -/
inductive Call where
  | bindToken (token : Address)
  | submitBid (bidder : Address) (price count : ℤ) (idempotencyKey : BytesN32)
  | cancelBid (caller : Address) (bidId : ℕ)
  | closeOffering
  | cancelOffering
  | closeAndSettle (clearingPrice : ℤ) (allocations : List (ℕ × ℤ))
  deriving DecidableEq, Repr

/-- Run a call. -/
def perform (selfAddr : Address) (env : Env) : Call → World → Outcome (World × List Effect)
  | .bindToken token, w => bindToken env token w
  | .submitBid bidder price count key, w => do
    let (_, w', effects) ← submitBid selfAddr env bidder price count key w
    return (w', effects)
  | .cancelBid caller bidId, w => cancelBid selfAddr env caller bidId w
  | .closeOffering, w => closeOffering env w
  | .cancelOffering, w => cancelOffering env w
  | .closeAndSettle clearingPrice allocations, w =>
    closeAndSettle selfAddr env clearingPrice allocations w

/-- A step of the system: a call with its effects, a call that fails, or a movement of USDC
outside the contract. -/
inductive Label where
  | call (env : Env) (c : Call) (effects : List Effect)
  | failed (env : Env) (c : Call) (failure : Failure Error)
  | outside

/-- The label of a call that succeeds. -/
def Label.Succeeds : Label → Prop
  | .call _ _ _ => True
  | .failed _ _ _ | .outside => False

/-- Nobody bids in the name of the contract. -/
def Call.FromOutside (selfAddr : Address) : Call → Prop
  | .submitBid bidder _ _ _ => bidder ≠ selfAddr
  | _ => True

/-- The steps of the system.  A failed call changes nothing.  Outside the contract, USDC may move in
any way that does not debit the contract. -/
inductive Step (selfAddr : Address) : World → Label → World → Prop where
  | call {env : Env} {c : Call} {w w' : World} {effects : List Effect} :
    c.FromOutside selfAddr → perform selfAddr env c w = .ok (w', effects) →
      Step selfAddr w (.call env c effects) w'
  | failed {env : Env} {c : Call} {w : World} {failure : Failure Error} :
    perform selfAddr env c w = .error failure → Step selfAddr w (.failed env c failure) w
  | outside {w : World} {balances : Ledger Address} : w.balances selfAddr ≤ balances selfAddr →
      Step selfAddr w .outside { w with balances }

/-- The escrow contract at the address `selfAddr`, as a transition system. -/
def system (selfAddr : Address) : Transition.System World Label where
  init w := ∃ args balances, 0 ≤ balances selfAddr ∧ construct args balances = .ok w
  step := Step selfAddr

end Escrow
