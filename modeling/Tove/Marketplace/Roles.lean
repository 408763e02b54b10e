import Tove.Marketplace.Registry
import Tove.Relayer.AcceptInvocation

/-!
# The roles of the parties

The buyer and the seller of a trade authorise the same five arguments, which do not name either of
them. What tells them apart is what the buyer authorises beyond: below the invocation of
`accept_quote`, the transfers of USDC that `settle_trade` makes.

An address signs a tree of invocations. A `require_auth` is matched with an invocation of the tree
of its address, once; what stands below an invocation may be matched after it.
-/

namespace Roles

open Soroban Ledgers Settler Registry
open Relayer (UsdcSplit computeUsdcSplit computeUsdcSplit_of_nonneg)

/-! ### The signed trees -/

/-- An invocation of a contract. -/
inductive Invocation where
  | acceptQuote (settler : Address) (args : AuthArgs)
  | transfer (usdc source target : Address) (amount : ℤ)
  deriving DecidableEq, Repr

/-- `SorobanAuthorizedInvocation`. -/
inductive AuthorizedInvocation where
  | node (function : Invocation) (subInvocations : List AuthorizedInvocation)

def AuthorizedInvocation.function : AuthorizedInvocation → Invocation
  | .node function _ => function

def AuthorizedInvocation.subInvocations : AuthorizedInvocation → List AuthorizedInvocation
  | .node _ subInvocations => subInvocations

/-- What can still be matched, with the addresses that have signed it. -/
abbrev Signed : Type := List (Address × AuthorizedInvocation)

/-- Match a `require_auth`. -/
def authorize (signed : Signed) (a : Address) (i : Invocation) : Option Signed :=
  match signed with
  | [] => none
  | (b, tree) :: rest =>
    if b = a ∧ tree.function = i then some (tree.subInvocations.map (fun sub => (b, sub)) ++ rest)
    else (authorize rest a i).map fun rest => (b, tree) :: rest

/-- `usdcTransferSub`. -/
def usdcTransferSub (usdc source target : Address) (amount : ℤ) : AuthorizedInvocation :=
  .node (.transfer usdc source target amount) []

/-- `buildSellerRootInvocation`. -/
def buildSellerRootInvocation (settler : Address) (t : Terms) : AuthorizedInvocation :=
  .node (.acceptQuote settler (authArgs t)) []

/-- `buildBuyerRootInvocation`: the legs that are zero are left out. -/
def buildBuyerRootInvocation (settler usdc treasury artistPayout : Address) (t : Terms) :
    AuthorizedInvocation :=
  let split := computeUsdcSplit t.gross
  let platform := if 0 < split.platformCut then
    [usdcTransferSub usdc t.buyer treasury split.platformCut] else []
  let artist := if 0 < split.artistCut then
    [usdcTransferSub usdc t.buyer artistPayout split.artistCut] else []
  let seller := if 0 < split.sellerNet then
    [usdcTransferSub usdc t.buyer t.seller split.sellerNet] else []
  .node (.acceptQuote settler (authArgs t)) (platform ++ artist ++ seller)

/-! ### The call -/

/-- The packages and the gating contracts of the tokens, and the address of the settler. -/
structure Env where
  pkg : Token.Packages
  host : Token.Host
  settler : Address

/-- `require_auth`. -/
def requireAuth {ε : Type} (signed : Signed) (a : Address) (i : Invocation) :
    Except (Failure ε) Signed :=
  match authorize signed a i with
  | none => throw .trap
  | some signed => return signed

/-- A leg of `settle_trade`, which is left out when its amount is not positive. -/
def usdcLeg (env : Env) (usdc source target : Address) (amount : ℤ)
    (paid : Signed × Ledger Address) : Token.Outcome (Signed × Ledger Address) :=
  if 0 < amount then do
    let signed ← requireAuth paid.1 source (.transfer usdc source target amount)
    let balances ← usdcTransfer env.host.toEnv paid.2 source target amount
    return (signed, balances)
  else return paid

/-- The USDC legs of `settle_trade`. -/
def payTrade (env : Env) (signed : Signed) (buyer seller : Address) (gross : ℤ) (split : UsdcSplit)
    (w : Token.World) : Token.Outcome (Address → Ledger Address) :=
  if 0 < gross then do
    let usdc ← Token.unwrap w.storage.usdc
    let treasury ← Token.unwrap w.storage.treasury
    let artistPayout ← Token.unwrap w.storage.artistPayout
    let paid ← usdcLeg env usdc buyer treasury split.platformCut (signed, w.usdc usdc)
    let paid ← usdcLeg env usdc buyer artistPayout split.artistCut paid
    let paid ← usdcLeg env usdc buyer seller split.sellerNet paid
    return Function.update w.usdc usdc paid.2
  else return w.usdc

/-- `settle_trade`, when the settler calls it. -/
def settleTrade (env : Env) (signed : Signed) (buyer seller : Address) (count gross : ℤ)
    (w : Token.World) : Token.Outcome Token.World := do
  let settler ← Token.unwrap w.storage.marketplaceSettler
  trapIf (settler ≠ env.settler)
  errorIf (count ≤ 0 ∨ gross < 0 ∨ buyer = seller) .InvalidTrade
  Token.guardMovement env.host (some seller) (some buyer) count w
  let holdings ← env.pkg.base.update (some seller) (some buyer) count w.holdings
  let _ ← i128 (gross * Token.PLATFORM_FEE_BPS)
  let _ ← i128 (gross * Token.ROYALTY_BPS)
  let usdc ← payTrade env signed buyer seller gross (computeUsdcSplit gross) w
  return { w with holdings, usdc }

/-- `accept_quote`, with the trees that have been signed for it. -/
def acceptQuote (env : Env) (signed : Signed) (t : Terms) (c : Chain) :
    Except (Failure Error) Chain := do
  errorIf (c.settled t.rfqId t.quoteId = true) .QuoteAlreadySettled
  match tokenOf c t.artworkId with
  | none => throw (.error .TokenNotFound)
  | some token =>
    let signed ← requireAuth signed t.buyer (.acceptQuote env.settler (authArgs t))
    let signed ← requireAuth signed t.seller (.acceptQuote env.settler (authArgs t))
    match c.instances token with
    | none => throw .trap
    | some inst =>
      match settleTrade env signed t.buyer t.seller t.count t.gross
        ⟨inst.storage, inst.holdings, c.usdc⟩ with
      | .error _ => throw .trap
      | .ok w =>
        return { c.mark t with
          instances := Function.update c.instances token
            (some { inst with storage := w.storage, holdings := w.holdings })
          usdc := w.usdc
          completed := c.completed ++ [⟨0, t, token⟩] }

/-- The same terms with the parties exchanged. -/
def swap (t : Terms) : Terms :=
  { t with
    buyer := t.seller
    seller := t.buyer }

/-- What the wallets of the buyer and of the seller sign for a trade. -/
def signedFor (env : Env) (usdc treasury artistPayout : Address) (t : Terms) : Signed :=
  [(t.buyer, buildBuyerRootInvocation env.settler usdc treasury artistPayout t),
    (t.seller, buildSellerRootInvocation env.settler t)]

/-! ### The roles -/

section Roles

variable {env : Env} {signed signed' : Signed} {a b : Address} {i : Invocation} {t : Terms}
  {c c' : Chain}

/-- What an address has not signed cannot be matched. -/
theorem authorize_eq_none (h : ∀ entry ∈ signed, entry.1 ≠ a) :
  authorize signed a i = none
  := by
  induction signed with
  | nil => rfl
  | cons entry signed ih =>
    obtain ⟨hentry, hsigned⟩ := List.forall_mem_cons.mp h
    rw [authorize, if_neg fun hmatch => hentry hmatch.1, ih hsigned]
    rfl

/-- Matching an invocation adds nothing that an address has signed who had signed nothing. -/
theorem not_signed_of_authorize (hsigned : authorize signed a i = some signed')
    (h : ∀ entry ∈ signed, entry.1 ≠ b) :
  ∀ entry ∈ signed', entry.1 ≠ b
  := by
  induction signed generalizing signed' with
  | nil => cases hsigned
  | cons entry signed ih =>
    obtain ⟨hentry, hrest⟩ := List.forall_mem_cons.mp h
    obtain ⟨owner, tree⟩ := entry
    rw [authorize] at hsigned
    split at hsigned
    · obtain rfl := Option.some.inj hsigned
      intro entry hmem
      rcases List.mem_append.mp hmem with hmem | hmem
      · obtain ⟨sub, _, rfl⟩ := List.mem_map.mp hmem
        apply hentry
      · apply hrest entry hmem
    · obtain ⟨signed₁, hsigned₁, rfl⟩ := Option.map_eq_some_iff.mp hsigned
      intro entry hmem
      rcases List.mem_cons.mp hmem with rfl | hmem
      · apply hentry
      · apply ih hsigned₁ hrest entry hmem

theorem requireAuth_eq_ok {ε : Type} :
  (requireAuth signed a i : Except (Failure ε) Signed) = .ok signed'
    ↔ authorize signed a i = some signed'
  := by
  rw [requireAuth]
  split
  · next hnone => simp [hnone]
  · next hsome => simp [hsome]

/-- A leg leaves an address that has signed nothing without a signature, and when it is made, its
source has signed something. -/
theorem usdcLeg_eq_ok {usdc source target : Address} {amount : ℤ}
    {paid paid' : Signed × Ledger Address} (h : usdcLeg env usdc source target amount paid = .ok paid')
    (hsigned : ∀ entry ∈ paid.1, entry.1 ≠ source) :
  amount ≤ 0 ∧ paid' = paid
  := by
  rw [usdcLeg] at h
  split at h
  · rw [Checks.bind_eq_ok] at h
    obtain ⟨signed, hauth, _⟩ := h
    rw [requireAuth_eq_ok, authorize_eq_none hsigned] at hauth
    cases hauth
  · next hamount =>
    rw [Checks.pure_eq_ok] at h
    exact ⟨not_lt.mp hamount, h.symm⟩

/-- A price leaves something to the seller. -/
theorem sellerNet_pos {gross : ℤ} (h : 0 < gross) :
  0 < (computeUsdcSplit gross).sellerNet
  := by
  rw [computeUsdcSplit_of_nonneg h.le]
  dsimp only
  omega

/-- A price cannot be paid by a buyer who has signed nothing for it. -/
theorem payTrade_ne_ok {buyer seller : Address} {gross : ℤ} {w : Token.World}
    {usdc : Address → Ledger Address} (hgross : 0 < gross)
    (hsigned : ∀ entry ∈ signed, entry.1 ≠ buyer) :
  payTrade env signed buyer seller gross (computeUsdcSplit gross) w ≠ .ok usdc
  := by
  intro h
  rw [payTrade, if_pos hgross] at h
  simp only [Checks.bind_eq_ok] at h
  obtain ⟨_, _, _, _, _, _, paid₁, h₁, paid₂, h₂, paid₃, h₃, _⟩ := h
  obtain ⟨_, rfl⟩ := usdcLeg_eq_ok h₁ hsigned
  obtain ⟨_, rfl⟩ := usdcLeg_eq_ok h₂ hsigned
  obtain ⟨hnet, _⟩ := usdcLeg_eq_ok h₃ hsigned
  have := sellerNet_pos hgross
  omega

/-- What the wallets of the parties have signed for a trade that has a price does not carry out the
trade with the parties exchanged. -/
theorem roles_fixed {usdc treasury artistPayout : Address} (hparties : t.buyer ≠ t.seller)
    (hgross : 0 < t.gross) :
  acceptQuote env (signedFor env usdc treasury artistPayout t) (swap t) c ≠ .ok c'
  := by
  intro h
  rw [acceptQuote, Checks.check_bind_eq_ok] at h
  obtain ⟨_, h⟩ := h
  split at h
  · cases h
  · simp only [Checks.bind_eq_ok, requireAuth_eq_ok] at h
    obtain ⟨signed₁, hseller, signed₂, hbuyer, h⟩ := h
    have hsigned₁ : signed₁ = [(t.buyer,
        buildBuyerRootInvocation env.settler usdc treasury artistPayout t)] := by
      rw [signedFor, authorize, if_neg fun hmatch => hparties hmatch.1, authorize,
        if_pos ⟨rfl, rfl⟩] at hseller
      exact (Option.some.inj hseller).symm
    have hnothing : ∀ entry ∈ signed₂, entry.1 ≠ t.seller := by
      apply not_signed_of_authorize hbuyer
      rw [hsigned₁]
      simpa using hparties
    split at h
    · cases h
    · split at h
      · cases h
      · next hsettle =>
        simp only [settleTrade, Checks.bind_eq_ok] at hsettle
        obtain ⟨_, _, _, _, _, _, _, _, _, _, _, _, _, _, usdc, hpay, _⟩ := hsettle
        exact payTrade_ne_ok hgross hnothing hpay

end Roles

/-! ### A trade of two parties that can both deliver and pay -/

def sampleEnv : Env where
  pkg := Token.plainPackages
  host := Token.sampleHost
  settler := .contract 4

def sampleHolder (a : Address) : ℤ :=
  if a = .account 20 ∨ a = .account 30 then 5000 else 0

/-- Both parties hold fractions and USDC. -/
def sampleChain : Chain :=
  { sampleNew with
    registry := Function.update sampleNew.registry 1 (some (.contract 1))
    instances := Function.update sampleNew.instances (.contract 1)
      (some { sampleInstance with
        holdings := { sampleInstance.holdings with balances := sampleHolder } })
    usdc := fun _ => sampleHolder }

/-- What the wallets of the parties have signed for the trade. -/
def sampleSigned (t : Terms) : Signed :=
  signedFor sampleEnv (.contract 6) (.account 11) (.account 12) t

/-- The trade is carried out, and it is not with the parties exchanged. -/
theorem roles_fixed_sample :
  (acceptQuote sampleEnv (sampleSigned { sampleTerms with gross := 1000 })
      { sampleTerms with gross := 1000 } sampleChain).isOk = true
    ∧ ∀ c', acceptQuote sampleEnv (sampleSigned { sampleTerms with gross := 1000 })
      (swap { sampleTerms with gross := 1000 }) sampleChain ≠ .ok c'
  := by
  refine ⟨rfl, fun c' => ?_⟩
  apply roles_fixed
  · decide
  · decide

/-- When nothing is paid, the wallets of the parties have signed the same. -/
theorem not_forall_roles_fixed :
  ¬ ∀ (env : Env) (usdc treasury artistPayout : Address) (t : Terms) (c c₁ c₂ : Chain),
    0 < t.count → 0 ≤ t.gross → t.buyer ≠ t.seller
      → acceptQuote env (signedFor env usdc treasury artistPayout t) t c = .ok c₁
      → acceptQuote env (signedFor env usdc treasury artistPayout t) (swap t) c ≠ .ok c₂
  := by
  intro h
  exact h sampleEnv (.contract 6) (.account 11) (.account 12) { sampleTerms with gross := 0 }
    sampleChain _ _ (by decide) (by decide) (by decide) rfl rfl

end Roles
