import Tove.Wallets.Primary

/-!
# When there is a primary wallet

At most one live wallet is the primary one: the index says so. That there is one rests on each
transaction that takes the designation from a wallet to give it to another. A wallet is unbound,
or is brought back as one that is not the primary one, by what the transaction has read of it
before, and no condition of the statement says that it is so still.
-/

namespace PrimaryWallet

open ReadCommitted Store Transition

/-- In what is committed, exactly one live wallet is the primary one, if there is a live wallet. -/
def OnePrimary (s : State) : Prop :=
  (∃ walletId row, s.wallets.committed walletId = some row ∧ row.deleted = false) →
    ∃! walletId, ∃ row, s.wallets.committed walletId = some row ∧ row.LivePrimary

/-- When a wallet is unbound as one that is not the primary one, or is brought back as such, it
is not the primary one. -/
def Careful (s : State) (l : Label) (_ : State) : Prop :=
  match l with
  | .unbind walletId | .restore walletId =>
    ∀ row, s.wallets.committed walletId = some row → ¬ row.LivePrimary
  | .other => True

variable {s s' : State} {l : Label} {db db' : Store ℕ Wallet} {m n k target : ℕ} {phase : Phase}
  {operation : Operation} {row : Wallet}

/-! ### What a transaction has written -/

/-- The transaction has written nothing. -/
def Clean (db : Store ℕ Wallet) (n : ℕ) : Prop := db.writes n = fun _ => none

/-- The wallet that is removed is not the one that is promoted. -/
def Operation.Spares (operation : Operation) (target : ℕ) : Prop :=
  ∀ walletId, operation = .removeWallet walletId → walletId ≠ target

/-- What holds of the writes of a transaction at a stage. -/
def Known (db : Store ℕ Wallet) (n : ℕ) : Phase → Prop
  | .running operation _ (.demoting _ target) => Clean db n ∧ operation.Spares target
  | .running operation _ (.promoting target) => operation.Spares target
  | .running operation _ (.deleting target) =>
    (∃ row, db.writes n target = some row ∧ row.LivePrimary) ∧ operation.Spares target
  | .running _ _ .committing => Covered Wallet.LivePrimary db n
  | _ => Clean db n

/-- What other transactions do is of no account. -/
theorem Known.acts (hc : Consistent Wallet.LivePrimary db) (h : Acts Wallet.LivePrimary n db db')
    (hm : m ≠ n) (hknown : Known db m phase) :
  Known db' m phase
  := by
  have hwrites := h.writes hm
  cases phase with
  | idle => exact hwrites.trans hknown
  | running operation allowPrimary stage =>
    cases stage with
    | demoting => exact ⟨hwrites.trans hknown.1, hknown.2⟩
    | promoting => exact hknown
    | deleting =>
      obtain ⟨⟨row, hrow, hprimary⟩, hspares⟩ := hknown
      exact ⟨⟨row, by rw [hwrites, hrow], hprimary⟩, hspares⟩
    | committing => exact Covered.acts hc h hm hknown
    | begun | counting | saving | found | seeking | unbinding => exact hwrites.trans hknown

/-- The rows are in order, and one of them is the primary wallet. -/
structure Tracked (s : State) : Prop where
  consistent : Consistent Wallet.LivePrimary s.wallets
  designated : Designated Wallet.LivePrimary s.wallets
  known : ∀ n, Known s.wallets n (s.calls n)

/-- What is known of all transactions after one has acted. -/
theorem Tracked.enter (hs : Tracked s) (h : Acts Wallet.LivePrimary n s.wallets db)
    (hknown : Known db n phase) :
  ∀ m, Known db m (Function.update s.calls n phase m)
  := by
  apply (Function.forall_update_iff s.calls fun m => Known db m).mpr
  exact ⟨hknown, fun m hm => (hs.known m).acts hs.consistent h hm⟩

/-! ### The steps -/

theorem not_livePrimary_demoted :
  ¬ Wallet.LivePrimary { row with isPrimary := false }
  := fun h => Bool.noConfusion h.1

theorem not_livePrimary_deleted :
  ¬ Wallet.LivePrimary { row with deleted := true }
  := fun h => Bool.noConfusion h.2

theorem not_livePrimary_reactivate :
  ¬ (row.reactivate false).LivePrimary
  := fun h => Bool.noConfusion h.1

/-- A step is one of a transaction, at READ COMMITTED. -/
theorem Step.acts (h : Step s l s') :
  ∃ n, Acts Wallet.LivePrimary n s.wallets s'.wallets
  := by
  cases h with
  | insert _ _ hfresh hadmits =>
    exact ⟨_, .write (fun m _ => hfresh m) fun hprimary => hadmits hprimary.1⟩
  | reactivateRow _ _ hfree hadmits => exact ⟨_, .write hfree fun _ => hadmits⟩
  | restore _ _ hfree =>
    exact ⟨_, .write hfree fun hprimary => absurd hprimary not_livePrimary_reactivate⟩
  | demote _ _ hfree =>
    exact ⟨_, .write hfree fun hprimary => absurd hprimary not_livePrimary_demoted⟩
  | promote _ _ _ _ hfree hadmits | promoteSibling _ _ _ _ hfree hadmits =>
    exact ⟨_, .write hfree fun _ => hadmits⟩
  | unbind _ _ hfree | delete _ _ hfree =>
    exact ⟨_, .write hfree fun hprimary => absurd hprimary not_livePrimary_deleted⟩
  | @commit n => exact ⟨n, .commit⟩
  | @retry n | @fail n => exact ⟨n, .abort⟩
  | _ => exact ⟨0, .nothing⟩

/-- A transaction that unbinds a wallet, or brings it back, is covered when the wallet was not the
primary one. -/
theorem covered_of_careful (hclean : Clean db n)
    (hc : ∀ row, db.committed k = some row → ¬ row.LivePrimary) :
  Covered Wallet.LivePrimary (db.write n k row) n
  := covered_write hclean (.inr hc)

theorem Step.known (hs : Tracked s) (h : Step s l s') (hc : Careful s l s') :
  ∀ n, Known s'.wallets n (s'.calls n)
  := by
  have hbefore : ∀ {n phase}, s.calls n = phase → Known s.wallets n phase := by
    rintro n phase rfl
    exact hs.known n
  cases h with
  | start hphase | login hphase | own hphase | unknown hphase | reactivating hphase
    | count hphase | find hphase | secondary hphase | primary hphase =>
    have hclean := hbefore hphase
    exact hs.enter .nothing hclean
  | bound hphase | unchanged hphase => exact hs.enter .nothing (covered_of_clean (hbefore hphase))
  | insert hphase hnone hfresh hadmits =>
    apply hs.enter (.write (fun m _ => hfresh m) fun hprimary => hadmits hprimary.1)
    apply covered_of_careful (hbefore hphase)
    intro row hrow
    rw [hnone] at hrow
    cases hrow
  | reactivateRow hphase _ hfree hadmits =>
    apply hs.enter (.write hfree fun _ => hadmits)
    exact covered_write (hbefore hphase) (.inl ⟨rfl, rfl⟩)
  | restore hphase _ hfree =>
    apply hs.enter (.write hfree fun hprimary => absurd hprimary not_livePrimary_reactivate)
    exact covered_of_careful (hbefore hphase) hc
  | current hphase =>
    apply hs.enter .nothing
    exact ⟨hbefore hphase, fun walletId hoperation => by cases hoperation⟩
  | noCurrent hphase =>
    apply hs.enter .nothing
    exact fun walletId hoperation => by cases hoperation
  | demote hphase _ hfree =>
    apply hs.enter (.write hfree fun hprimary => absurd hprimary not_livePrimary_demoted)
    exact (hbefore hphase).2
  | promote hphase _ hdeleted _ hfree hadmits =>
    apply hs.enter (.write hfree fun _ => hadmits)
    exact .inl ⟨_, _, write_writes_self, rfl, hdeleted⟩
  | promoteSibling hphase _ hdeleted _ hfree hadmits =>
    apply hs.enter (.write hfree fun _ => hadmits)
    exact ⟨⟨_, write_writes_self, rfl, hdeleted⟩, hbefore hphase⟩
  | sibling hphase _ _ hne =>
    apply hs.enter .nothing
    refine ⟨hbefore hphase, ?_⟩
    rintro walletId hoperation rfl
    injection hoperation with heq
    exact hne heq.symm
  | unbind hphase _ hfree =>
    apply hs.enter (.write hfree fun hprimary => absurd hprimary not_livePrimary_deleted)
    exact covered_of_careful (hbefore hphase) hc
  | @delete n walletId target _ _ hphase _ hfree =>
    obtain ⟨⟨row', hrow', hprimary'⟩, hspares⟩ := hbefore hphase
    apply hs.enter (.write hfree fun hprimary => absurd hprimary not_livePrimary_deleted)
    refine .inl ⟨target, row', ?_, hprimary'⟩
    rw [write_writes, Function.update_of_ne (hspares walletId rfl).symm, hrow']
  | commit => exact hs.enter .commit commit_writes
  | retry => exact hs.enter .abort abort_writes
  | fail => exact hs.enter .abort abort_writes

/-- The primary wallet is not lost. -/
theorem Step.designated (hs : Tracked s) (h : Step s l s') :
  Designated Wallet.LivePrimary s'.wallets
  := by
  cases h with
  | @commit n operation allowPrimary hphase =>
    have hknown := hs.known n
    rw [hphase] at hknown
    exact Covered.commit hs.designated hknown
  | _ => exact hs.designated

theorem Step.tracked (hs : Tracked s) (h : Step s l s') (hc : Careful s l s') :
  Tracked s'
  := by
  obtain ⟨n, hacts⟩ := h.acts
  exact ⟨hacts.consistent hs.consistent, h.designated hs, h.known hs hc⟩

/-! ### The runs -/

/-- At first the wallets are in order. -/
theorem tracked_init (h : system.init s) :
  Tracked s
  := by
  obtain ⟨⟨walletId, ⟨row, hrow, hprimary⟩, hunique⟩, hwrites, hcalls⟩ := h
  refine ⟨?_, ⟨walletId, row, hrow, hprimary⟩, ?_⟩
  · apply consistent_of_clean hwrites
    intro k k' row row' hk hk' hp hp'
    exact (hunique k ⟨row, hk, hp⟩).trans (hunique k' ⟨row', hk', hp'⟩).symm
  · intro n
    rw [hcalls n]
    exact hwrites n

theorem Tracked.onePrimary (hs : Tracked s) :
  OnePrimary s
  := by
  intro _
  obtain ⟨k, row, hrow, hprimary⟩ := hs.designated
  refine ⟨k, ⟨row, hrow, hprimary⟩, ?_⟩
  rintro k' ⟨row', hrow', hprimary'⟩
  exact hs.consistent.unique k' k row' row hrow' hrow hprimary' hprimary

/-- There is one primary wallet in every run whose steps are careful. -/
theorem onePrimary_of_careful (h : (system.restrict Careful).Reachable s) :
  OnePrimary s
  := by
  apply Tracked.onePrimary
  apply h.invariant
  · intro s₀ hinit
    apply tracked_init hinit
  · rintro s₁ l s₂ hs₁ ⟨hstep, hc⟩
    apply hstep.tracked hs₁ hc

/-- A wallet of the user that is live. -/
def sampleWallet (isPrimary : Bool) : Wallet := ⟨some "key", .byow, isPrimary, .active, false, 0⟩

/-- Two wallets, the first of which is the primary one. -/
def sampleState : State where
  wallets :=
    { committed := fun k => if k = 0 then some (sampleWallet true)
        else if k = 1 then some (sampleWallet false) else none
      writes := fun _ _ => none }
  calls := fun _ => .idle

theorem sampleState_init :
  system.init sampleState
  := by
  refine ⟨⟨0, ⟨sampleWallet true, rfl, rfl, rfl⟩, ?_⟩, fun _ => rfl, fun _ => rfl⟩
  rintro walletId ⟨row, hrow, hprimary⟩
  by_contra hne
  simp only [sampleState, if_neg hne] at hrow
  split at hrow
  · obtain rfl := Option.some.inj hrow
    cases hprimary.1
  · cases hrow

/-- The second wallet is to be promoted. -/
def samplePromoting (calls : ℕ → Phase) : State where
  wallets := sampleState.wallets.write 1 0 (sampleWallet false)
  calls := Function.update calls 1 (.running (.setPrimary 1) true (.promoting 1))

theorem samplePromoting_writes {calls : ℕ → Phase} (hm : m ≠ 1) :
  (samplePromoting calls).wallets.writes m = fun _ => none
  := by
  rw [samplePromoting, write_writes_of_ne hm]
  rfl

theorem samplePromoting_admits (calls : ℕ → Phase) :
  (samplePromoting calls).wallets.Admits Wallet.LivePrimary 1 1
  := by
  constructor
  · intro k row hk hrow hprimary
    rw [samplePromoting, view_write, Function.update_apply] at hrow
    split at hrow
    · obtain rfl := Option.some.inj hrow
      cases hprimary.1
    · rename_i hk₀
      simp [view, sampleState, hk, hk₀] at hrow
  · intro m k row hm hrow
    rw [samplePromoting_writes hm] at hrow
    cases hrow

/-- The primary wallet is demoted, and the other is to be promoted, beside the calls that there
are. -/
theorem samplePromoting_run (calls : ℕ → Phase) (hidle : calls 1 = .idle) :
  (system.restrict Careful).Run ⟨sampleState.wallets, calls⟩ [.other, .other, .other, .other]
    (samplePromoting calls)
  := by
  have hbegun := (System.Run.nil (S := system.restrict Careful) ⟨sampleState.wallets, calls⟩).snoc
    ⟨@Step.start _ 1 (.setPrimary 1) hidle (by simp), trivial⟩
  have hfound := hbegun.snoc
    ⟨@Step.find _ 1 1 true (sampleWallet false) (by simp [State.enter]) rfl (by decide) rfl, trivial⟩
  have hdemoting := hfound.snoc
    ⟨@Step.current _ 1 1 0 true (sampleWallet true) (by simp [State.enter]) rfl (by decide), trivial⟩
  have hpromoting := hdemoting.snoc
    ⟨@Step.demote _ 1 0 1 (.setPrimary 1) true (sampleWallet true) (by simp [State.enter]) rfl
      (fun _ _ => rfl), trivial⟩
  simpa [State.enter, State.write, samplePromoting, sampleWallet] using hpromoting

/-- The other wallet is promoted, and the transaction is committed. -/
theorem onePrimary_of_careful_sample :
  ∃ s : State, s.wallets.committed 0 = some (sampleWallet false)
    ∧ s.wallets.committed 1 = some (sampleWallet true) ∧ OnePrimary s
  := by
  have hinit : (system.restrict Careful).Reachable ⟨sampleState.wallets, fun _ => .idle⟩ :=
    .init sampleState_init
  have hpromoting := hinit.run (samplePromoting_run _ rfl)
  have hpromoted := hpromoting.step
    ⟨@Step.promote _ 1 1 1 true (sampleWallet false) rfl rfl rfl rfl (fun m hm => by
      rw [samplePromoting_writes hm]) (samplePromoting_admits _), trivial⟩
  have hcommitted := hpromoted.step ⟨@Step.commit _ 1 (.setPrimary 1) true rfl, trivial⟩
  exact ⟨_, rfl, rfl, onePrimary_of_careful hcommitted⟩

/-- The second wallet is read to be removed, when it is not the primary one. It is made the
primary one by another transaction, and then deleted; the first wallet is no longer the primary
one. -/
theorem not_forall_onePrimary :
  ¬ ∀ s : State, system.Reachable s → OnePrimary s
  := by
  intro h
  have hinit : system.Reachable sampleState := .init sampleState_init
  have hbegun := hinit.step (@Step.start _ 0 (.removeWallet 1) rfl (by simp))
  have hunbinding := hbegun.step
    (@Step.secondary _ 0 1 true (sampleWallet false) rfl rfl rfl rfl rfl)
  have hpromoting := hunbinding.run (System.Run.of_restrict system (samplePromoting_run _ rfl))
  have hpromoted := hpromoting.step
    (@Step.promote _ 1 1 1 true (sampleWallet false) rfl rfl rfl rfl (fun m hm => by
      rw [samplePromoting_writes hm]) (samplePromoting_admits _))
  have hcommitted := hpromoted.step (@Step.commit _ 1 (.setPrimary 1) true rfl)
  have hunbound := hcommitted.step (@Step.unbind _ 0 1 true (sampleWallet true) rfl rfl (by
    intro m _
    by_cases hm : m = 1
    · subst hm
      rfl
    · show (((samplePromoting _).wallets.write 1 1 _).commit 1).writes m 1 = none
      rw [commit_writes_of_ne hm, write_writes_of_ne hm, samplePromoting_writes hm]))
  have hlost := hunbound.step (@Step.commit _ 0 (.removeWallet 1) true rfl)
  obtain ⟨walletId, ⟨row, hrow, hprimary⟩, _⟩ := h _ hlost ⟨0, sampleWallet false, rfl, rfl⟩
  rcases walletId with _ | _ | k
  · obtain rfl := Option.some.inj (show some (sampleWallet false) = some row from hrow)
    cases hprimary.1
  · obtain rfl := Option.some.inj
      (show some { sampleWallet true with deleted := true } = some row from hrow)
    cases hprimary.2
  · cases show none = some row from hrow

end PrimaryWallet
