import Tove.Auth.Challenges
import Tove.Base.Calls
import Tove.Base.Since

/-!
# What is done with a challenge

A challenge is pending until a transaction that has consumed it is committed. The log in that
has consumed a challenge keeps it until it issues the tokens; a transaction that binds a wallet
consumes its challenge and attaches the wallet at one stroke.
-/

namespace Sep10

open Js ReadCommitted Store Transition

variable {s s' : State} {l : Label} {m n walletId userId : ℕ} {txHash : JsString}
  {phase before : Phase}
  {db : Store JsString AuthChallenge} {events events' : List Event} {calls : ℕ → Phase}

/-! ### What a call has of a challenge -/

/-- The challenge that a transaction has consumed, and that is not committed. -/
def Phase.holding : Phase → Option JsString
  | .running (.consume ..) _ .consuming | .running (.bind ..) _ .consuming => none
  | .running (.consume txHash _) _ _ | .running (.bind txHash ..) _ _ => some txHash
  | _ => none

/-- The challenge that a log in has consumed, while it has not attached a wallet. -/
def Phase.unattached : Phase → Option JsString
  | .resolving txHash _ | .unknown txHash _ | .rereading txHash _
  | .running (.reactivate txHash ..) .. | .running (.create txHash _) .. => some txHash
  | _ => none

/-- The challenge that a log in has consumed. -/
def Phase.spent : Phase → Option JsString
  | .issuing txHash _ => some txHash
  | phase => phase.unattached

theorem Phase.spent_of_unattached (h : phase.unattached = some txHash) :
  phase.spent = some txHash
  := by
  cases phase with
  | issuing => cases h
  | _ => exact h

/-- What a call knows of its challenge. -/
def Known (events : List Event) : Phase → Prop
  | .running (.bind txHash _ userId) _ _ => IssuedTo events txHash (some userId)
  | .running (.consume txHash _) _ _ => IssuedTo events txHash none
  | .issuing txHash userId => IssuedTo events txHash none
    ∧ ∀ walletId userId', .attached txHash walletId userId' ∈ events → userId = userId'
  | phase => ∀ txHash, phase.unattached = some txHash → IssuedTo events txHash none

theorem Known.issuedTo_none (h : Known events phase) (hspent : phase.spent = some txHash) :
  IssuedTo events txHash none
  := by
  cases phase with
  | idle => cases hspent
  | issuing =>
    obtain rfl := Option.some.inj hspent
    exact h.1
  | resolving | unknown | rereading => exact h txHash hspent
  | running operation =>
    cases operation with
    | reactivate | create => exact h txHash hspent
    | consume | bind => cases hspent

theorem Known.exists_issuedTo (h : Known events phase) (hholding : phase.holding = some txHash) :
  ∃ userId, IssuedTo events txHash userId
  := by
  cases phase with
  | running operation allowPrimary stage =>
    cases operation with
    | consume =>
      cases stage with
      | consuming => cases hholding
      | _ =>
        obtain rfl := Option.some.inj hholding
        exact ⟨none, h⟩
    | bind txHash' publicKey userId =>
      cases stage with
      | consuming => cases hholding
      | _ =>
        obtain rfl := Option.some.inj hholding
        exact ⟨some userId, h⟩
    | reactivate | create => cases hholding
  | _ => cases hholding

/-- What a call knows stays so, when no wallet of another user is attached for its challenge. -/
theorem Known.mono (h : Known events phase)
    (hissued : ∀ txHash userId, IssuedTo events txHash userId → IssuedTo events' txHash userId)
    (hattached : ∀ txHash userId, phase = .issuing txHash userId → ∀ walletId userId',
      .attached txHash walletId userId' ∈ events' → .attached txHash walletId userId' ∈ events
        ∨ userId = userId') :
  Known events' phase
  := by
  cases phase with
  | issuing txHash userId =>
    exact ⟨hissued _ _ h.1, fun walletId userId' hmem =>
      (hattached txHash userId rfl walletId userId' hmem).elim (h.2 walletId userId') id⟩
  | idle | resolving | unknown | rereading =>
    exact fun txHash hunattached => hissued _ _ (h txHash hunattached)
  | running operation =>
    cases operation with
    | consume | bind => exact hissued _ _ h
    | reactivate | create => exact fun txHash hunattached => hissued _ _ (h txHash hunattached)

theorem IssuedTo.append {userId : Option ℕ} (h : IssuedTo events txHash userId) :
  IssuedTo (events ++ events') txHash userId
  := by
  obtain ⟨challenge, hmem, huser⟩ := h
  exact ⟨challenge, List.mem_append_left _ hmem, huser⟩

/-! ### What is pending -/

/-- The challenge can be consumed. -/
def Pending (db : Store JsString AuthChallenge) (txHash : JsString) : Prop :=
  ∃ row, db.committed txHash = some row ∧ row.consumed = false

/-- The challenges that are held are pending, and those that are spent are not; what has an
effect is spent, and was issued for it. -/
structure Tracked (s : State) : Prop where
  writes : ∀ n txHash row, s.challenges.writes n txHash = some row →
    (s.calls n).holding = some txHash ∧ row.consumed = true
  holding : ∀ n txHash, (s.calls n).holding = some txHash →
    s.challenges.writes n txHash ≠ none ∧ Pending s.challenges txHash
  exclusive : Calls.Exclusive Phase.holding s.calls
  spent : ∀ n txHash, (s.calls n).spent = some txHash → ¬ Pending s.challenges txHash
  spentOnce : Calls.Exclusive Phase.spent s.calls
  rows : ∀ txHash row, s.challenges.Version txHash row → IssuedTo s.events txHash row.userId
  issued : ∀ txHash challenge challenge', .issued txHash challenge ∈ s.events →
    .issued txHash challenge' ∈ s.events → challenge = challenge'
  known : ∀ n, Known s.events (s.calls n)
  tokensOnce : s.events.Pairwise fun e e' =>
    ∀ txHash userId userId', e = .tokens txHash userId → e' ≠ .tokens txHash userId'
  attachedOnce : s.events.Pairwise fun e e' => ∀ txHash walletId walletId' userId userId',
    e = .attached txHash walletId userId → e' ≠ .attached txHash walletId' userId'
  tokens : ∀ txHash userId, .tokens txHash userId ∈ s.events → IssuedTo s.events txHash none
    ∧ ¬ Pending s.challenges txHash ∧ (∀ n, (s.calls n).spent ≠ some txHash)
    ∧ ∀ walletId userId', .attached txHash walletId userId' ∈ s.events → userId = userId'
  attached : ∀ txHash walletId userId, .attached txHash walletId userId ∈ s.events →
    (IssuedTo s.events txHash (some userId) ∨ IssuedTo s.events txHash none)
      ∧ ¬ Pending s.challenges txHash ∧ ∀ n, (s.calls n).unattached ≠ some txHash

/-- A phase has of the challenges what another one had, or less of what is spent. -/
structure Phase.Follows (phase before : Phase) : Prop where
  holding : phase.holding = before.holding
  spent : ∀ txHash, phase.spent = some txHash → before.spent = some txHash
  unattached : ∀ txHash, phase.unattached = some txHash → before.unattached = some txHash

/-- A call enters a phase that follows the one in which it was. -/
theorem Tracked.enter (hs : Tracked s) (hfollows : phase.Follows (s.calls n))
    (hknown : Known s.events phase) :
  Tracked (s.enter n phase)
  := by
  have hholding : ∀ m, (Function.update s.calls n phase m).holding = (s.calls m).holding := by
    apply (Function.forall_update_iff s.calls fun m phase =>
      phase.holding = (s.calls m).holding).mpr
    exact ⟨hfollows.holding, fun _ _ => rfl⟩
  constructor
  · intro m txHash row hwrites
    rw [enter_calls, hholding]
    exact hs.writes m txHash row hwrites
  · intro m txHash h
    rw [enter_calls, hholding] at h
    exact hs.holding m txHash h
  · exact hs.exclusive.mono fun m txHash h => (hholding m).symm.trans h
  · exact fun m txHash h => hs.spent m txHash (Calls.of_update hfollows.spent h)
  · exact hs.spentOnce.mono fun _ _ => Calls.of_update hfollows.spent
  · exact hs.rows
  · exact hs.issued
  · apply (Function.forall_update_iff s.calls fun _ => Known s.events).mpr
    exact ⟨hknown, fun m _ => hs.known m⟩
  · exact hs.tokensOnce
  · exact hs.attachedOnce
  · intro txHash userId hmem
    obtain ⟨hissued, hpending, hnone, hsame⟩ := hs.tokens txHash userId hmem
    exact ⟨hissued, hpending, fun m h => hnone m (Calls.of_update hfollows.spent h), hsame⟩
  · intro txHash walletId userId hmem
    obtain ⟨hissued, hpending, hnone⟩ := hs.attached txHash walletId userId hmem
    exact ⟨hissued, hpending, fun m h => hnone m (Calls.of_update hfollows.unattached h)⟩

theorem Tracked.congr (hs : Tracked s) (hchallenges : s'.challenges = s.challenges)
    (hcalls : s'.calls = s.calls) (hevents : s'.events = s.events) :
  Tracked s'
  := by
  obtain ⟨challenges, wallets, now, calls, events⟩ := s
  obtain ⟨challenges', wallets', now', calls', events'⟩ := s'
  cases hchallenges
  cases hcalls
  cases hevents
  exact ⟨hs.writes, hs.holding, hs.exclusive, hs.spent, hs.spentOnce, hs.rows, hs.issued, hs.known,
    hs.tokensOnce, hs.attachedOnce, hs.tokens, hs.attached⟩

/-- The challenge that a call has was issued. -/
theorem Tracked.exists_issuedTo (hs : Tracked s)
    (h : (s.calls n).holding = some txHash ∨ (s.calls n).spent = some txHash) :
  ∃ userId, IssuedTo s.events txHash userId
  := by
  rcases h with hholding | hspent
  · exact (hs.known n).exists_issuedTo hholding
  · exact ⟨none, (hs.known n).issuedTo_none hspent⟩

/-- A challenge is issued that is new. -/
theorem Tracked.issue {challenge : AuthChallenge} (hs : Tracked s)
    (hnew : ∀ challenge', .issued txHash challenge' ∉ s.events) :
  Tracked ((s.issue txHash challenge).log [.issued txHash challenge])
  := by
  have hunissued : ∀ userId, ¬ IssuedTo s.events txHash userId := by
    rintro userId ⟨challenge', hmem, _⟩
    exact hnew challenge' hmem
  have hother : ∀ txHash', (∃ userId, IssuedTo s.events txHash' userId) → txHash' ≠ txHash := by
    rintro txHash' ⟨userId, hissued⟩ rfl
    exact hunissued userId hissued
  have hpending : ∀ txHash', txHash' ≠ txHash →
      (Pending (s.issue txHash challenge).challenges txHash' ↔ Pending s.challenges txHash') := by
    intro txHash' hne
    rw [Pending, Pending]
    show (∃ row, Function.update s.challenges.committed txHash (some challenge) txHash' = some row ∧ _)
      ↔ _
    rw [Function.update_of_ne hne]
  have hold : ∀ e, (∀ challenge', e ≠ .issued txHash challenge') →
      (e ∈ s.events ++ [.issued txHash challenge] ↔ e ∈ s.events) := by
    intro e he
    simp [he]
  constructor
  · exact hs.writes
  · intro m txHash' h
    obtain ⟨hwrites, hbefore⟩ := hs.holding m txHash' h
    exact ⟨hwrites, (hpending txHash' (hother txHash' (hs.exists_issuedTo (.inl h)))).mpr hbefore⟩
  · exact hs.exclusive
  · intro m txHash' h hafter
    exact hs.spent m txHash' h
      ((hpending txHash' (hother txHash' (hs.exists_issuedTo (.inr h)))).mp hafter)
  · exact hs.spentOnce
  · rintro txHash' row (hcommitted | hwritten)
    · have hrow : Function.update s.challenges.committed txHash (some challenge) txHash' = some row :=
        hcommitted
      rw [Function.update_apply] at hrow
      split at hrow
      · rename_i heq
        subst heq
        obtain rfl := Option.some.inj hrow
        exact ⟨_, List.mem_append_right _ (List.mem_singleton_self _), rfl⟩
      · exact (hs.rows txHash' row (.inl hrow)).append
    · exact (hs.rows txHash' row (.inr hwritten)).append
  · intro txHash' challenge₁ challenge₂ hmem₁ hmem₂
    rcases List.mem_append.mp hmem₁ with hold₁ | hnew₁
    · rcases List.mem_append.mp hmem₂ with hold₂ | hnew₂
      · exact hs.issued txHash' challenge₁ challenge₂ hold₁ hold₂
      · cases List.mem_singleton.mp hnew₂
        exact absurd hold₁ (hnew challenge₁)
    · cases List.mem_singleton.mp hnew₁
      rcases List.mem_append.mp hmem₂ with hold₂ | hnew₂
      · exact absurd hold₂ (hnew challenge₂)
      · cases List.mem_singleton.mp hnew₂
        rfl
  · intro m
    apply (hs.known m).mono
    · exact fun _ _ h => h.append
    · exact fun _ _ _ walletId userId' hmem => .inl ((hold _ fun _ h => by cases h).mp hmem)
  · exact pairwise_concat.mpr ⟨hs.tokensOnce, fun _ _ _ _ _ _ h => by cases h⟩
  · exact pairwise_concat.mpr ⟨hs.attachedOnce, fun _ _ _ _ _ _ _ _ h => by cases h⟩
  · intro txHash' userId hmem
    obtain ⟨hissued, hbefore, hnone, hsame⟩ :=
      hs.tokens txHash' userId ((hold _ fun _ h => by cases h).mp hmem)
    refine ⟨hissued.append, ?_, hnone, ?_⟩
    · exact fun hafter => hbefore ((hpending txHash' (hother txHash' ⟨_, hissued⟩)).mp hafter)
    · exact fun walletId userId' hmem' => hsame walletId userId' ((hold _ fun _ h => by cases h).mp hmem')
  · intro txHash' walletId userId hmem
    obtain ⟨hissued, hbefore, hnone⟩ :=
      hs.attached txHash' walletId userId ((hold _ fun _ h => by cases h).mp hmem)
    have hexists : ∃ userId, IssuedTo s.events txHash' userId := by
      rcases hissued with h | h <;> exact ⟨_, h⟩
    refine ⟨hissued.imp (·.append) (·.append), ?_, hnone⟩
    exact fun hafter => hbefore ((hpending txHash' (hother txHash' hexists)).mp hafter)

/-- A challenge is deleted that nobody holds. -/
theorem Tracked.delete (hs : Tracked s) (hfree : ∀ m, s.challenges.writes m txHash = none) :
  Tracked (s.delete txHash)
  := by
  have hcommitted : ∀ txHash' row, (s.delete txHash).challenges.committed txHash' = some row →
      txHash' ≠ txHash ∧ s.challenges.committed txHash' = some row := by
    intro txHash' row h
    have hrow : Function.update s.challenges.committed txHash none txHash' = some row := h
    rw [Function.update_apply] at hrow
    split at hrow
    · cases hrow
    · rename_i hne
      exact ⟨hne, hrow⟩
  have hpending : ∀ txHash', Pending (s.delete txHash).challenges txHash' →
      Pending s.challenges txHash' := by
    rintro txHash' ⟨row, h, hrow⟩
    exact ⟨row, (hcommitted txHash' row h).2, hrow⟩
  constructor
  · exact hs.writes
  · intro m txHash' h
    obtain ⟨hwrites, row, hrow, hconsumed⟩ := hs.holding m txHash' h
    have hne : txHash' ≠ txHash := by
      rintro rfl
      exact hwrites (hfree m)
    exact ⟨hwrites, row, (Function.update_of_ne hne ..).trans hrow, hconsumed⟩
  · exact hs.exclusive
  · exact fun m txHash' h hafter => hs.spent m txHash' h (hpending txHash' hafter)
  · exact hs.spentOnce
  · rintro txHash' row (h | hwritten)
    · exact hs.rows txHash' row (.inl (hcommitted txHash' row h).2)
    · exact hs.rows txHash' row (.inr hwritten)
  · exact hs.issued
  · exact hs.known
  · exact hs.tokensOnce
  · exact hs.attachedOnce
  · intro txHash' userId hmem
    obtain ⟨hissued, hbefore, hnone⟩ := hs.tokens txHash' userId hmem
    exact ⟨hissued, fun hafter => hbefore (hpending txHash' hafter), hnone⟩
  · intro txHash' walletId userId hmem
    obtain ⟨hissued, hbefore, hnone⟩ := hs.attached txHash' walletId userId hmem
    exact ⟨hissued, fun hafter => hbefore (hpending txHash' hafter), hnone⟩

/-- A call of which no challenge is held has written none. -/
theorem Tracked.clean (hs : Tracked s) (h : (s.calls n).holding = none) :
  s.challenges.writes n = fun _ => none
  := by
  funext txHash
  cases hwrites : s.challenges.writes n txHash with
  | none => rfl
  | some row =>
    rw [(hs.writes n txHash row hwrites).1] at h
    cases h

/-- A challenge is consumed that nobody holds. -/
theorem Tracked.consume {row : AuthChallenge} (hs : Tracked s)
    (hholding : (s.calls n).holding = none) (hview : s.challenges.view n txHash = some row)
    (hrow : row.consumed = false) (hfree : s.challenges.Free n txHash)
    (hphase : phase.holding = some txHash) (hspent : phase.spent = none)
    (hknown : Known s.events phase) :
  Tracked (s.consume n txHash row phase)
  := by
  have hspent' : ∀ txHash', phase.spent = some txHash' → (s.calls n).spent = some txHash' := by
    intro txHash' h
    cases hspent.symm.trans h
  have hpending : Pending s.challenges txHash := by
    rw [view_of_none (congrFun (hs.clean hholding) txHash)] at hview
    exact ⟨row, hview, hrow⟩
  have hheld : ∀ m, m ≠ n → (s.calls m).holding ≠ some txHash := by
    intro m hm h
    exact (hs.holding m txHash h).1 (hfree m hm)
  have hwritten : (s.consume n txHash row phase).challenges
      = s.challenges.write n txHash { row with consumed := true } := rfl
  constructor
  · intro m txHash' row' hwrites
    rw [hwritten] at hwrites
    rw [consume_calls]
    rcases of_write_writes hwrites with ⟨rfl, rfl, rfl⟩ | ⟨hne, hbefore⟩
    · rw [Function.update_self]
      exact ⟨hphase, rfl⟩
    · by_cases hm : m = n
      · subst hm
        rw [hs.clean hholding] at hbefore
        cases hbefore
      · rw [Function.update_of_ne hm]
        exact hs.writes m txHash' row' hbefore
  · intro m txHash' h
    rw [consume_calls] at h
    rw [hwritten]
    by_cases hm : m = n
    · subst hm
      rw [Function.update_self, hphase] at h
      obtain rfl := Option.some.inj h
      rw [write_writes_self]
      exact ⟨Option.some_ne_none _, hpending⟩
    · rw [Function.update_of_ne hm] at h
      rw [write_writes_of_ne hm]
      exact hs.holding m txHash' h
  · apply hs.exclusive.update
    intro m txHash' h h'
    rw [hphase] at h
    obtain rfl := Option.some.inj h
    by_contra hm
    exact hheld m hm h'
  · exact fun m txHash' h => hs.spent m txHash' (Calls.of_update hspent' h)
  · exact hs.spentOnce.update_none hspent
  · intro txHash' row' hversion
    rw [hwritten] at hversion
    rcases version_of_write hversion with ⟨rfl, rfl⟩ | hbefore
    · exact hs.rows txHash' row (version_of_view hview)
    · exact hs.rows txHash' row' hbefore
  · exact hs.issued
  · apply (Function.forall_update_iff s.calls fun _ => Known s.events).mpr
    exact ⟨hknown, fun m _ => hs.known m⟩
  · exact hs.tokensOnce
  · exact hs.attachedOnce
  · intro txHash' userId hmem
    obtain ⟨hissued, hbefore, hnone, hsame⟩ := hs.tokens txHash' userId hmem
    exact ⟨hissued, hbefore, fun m h => hnone m (Calls.of_update hspent' h), hsame⟩
  · intro txHash' walletId userId hmem
    obtain ⟨hissued, hbefore, hnone⟩ := hs.attached txHash' walletId userId hmem
    refine ⟨hissued, hbefore, fun m h => hnone m (Calls.of_update ?_ h)⟩
    intro txHash'' h
    cases (hspent.symm.trans (Phase.spent_of_unattached h))

/-- A transaction is rolled back. -/
theorem Tracked.abort (hs : Tracked s) (hholding : phase.holding = none)
    (hspent : ∀ txHash, phase.spent = some txHash → (s.calls n).spent = some txHash)
    (hunattached : ∀ txHash, phase.unattached = some txHash → (s.calls n).unattached = some txHash)
    (hknown : Known s.events phase) :
  Tracked (s.abort n phase)
  := by
  have hheld : ∀ m txHash, (Function.update s.calls n phase m).holding = some txHash →
      m ≠ n ∧ (s.calls m).holding = some txHash := by
    intro m txHash h
    rw [Function.update_apply] at h
    split at h
    · cases hholding.symm.trans h
    · rename_i hm
      exact ⟨hm, h⟩
  constructor
  · intro m txHash row hwrites
    obtain ⟨hm, hbefore⟩ := of_abort_writes hwrites
    rw [abort_calls, Function.update_of_ne hm]
    exact hs.writes m txHash row hbefore
  · intro m txHash h
    obtain ⟨hm, hbefore⟩ := hheld m txHash h
    rw [abort_challenges, abort_writes_of_ne hm]
    exact hs.holding m txHash hbefore
  · exact hs.exclusive.update_none hholding
  · exact fun m txHash h => hs.spent m txHash (Calls.of_update hspent h)
  · exact hs.spentOnce.mono fun _ _ => Calls.of_update hspent
  · exact fun txHash row hversion => hs.rows txHash row (version_of_abort hversion)
  · exact hs.issued
  · apply (Function.forall_update_iff s.calls fun _ => Known s.events).mpr
    exact ⟨hknown, fun m _ => hs.known m⟩
  · exact hs.tokensOnce
  · exact hs.attachedOnce
  · intro txHash userId hmem
    obtain ⟨hissued, hbefore, hnone, hsame⟩ := hs.tokens txHash userId hmem
    exact ⟨hissued, hbefore, fun m h => hnone m (Calls.of_update hspent h), hsame⟩
  · intro txHash walletId userId hmem
    obtain ⟨hissued, hbefore, hnone⟩ := hs.attached txHash walletId userId hmem
    exact ⟨hissued, hbefore, fun m h => hnone m (Calls.of_update hunattached h)⟩

/-- A transaction is committed that has consumed a challenge. -/
theorem Tracked.commit (hs : Tracked s) (hholds : (s.calls n).holding = some txHash)
    (hholding : phase.holding = none) (hspent : ∀ txHash', phase.spent = some txHash' → txHash' = txHash)
    (hknown : Known s.events phase) :
  Tracked (s.commit n phase) ∧ ¬ Pending (s.commit n phase).challenges txHash
  := by
  have hwrites : ∀ txHash', txHash' ≠ txHash → s.challenges.writes n txHash' = none := by
    intro txHash' hne
    cases h : s.challenges.writes n txHash' with
    | none => rfl
    | some row =>
      obtain rfl := Option.some.inj (hholds.symm.trans (hs.writes n txHash' row h).1)
      exact absurd rfl hne
  have hconsumed : ¬ Pending (s.challenges.commit n) txHash := by
    rintro ⟨row, hview, hrow⟩
    rcases of_view hview with hwritten | ⟨hnone, _⟩
    · rw [(hs.writes n txHash row hwritten).2] at hrow
      cases hrow
    · exact (hs.holding n txHash hholds).1 hnone
  have hother : ∀ txHash', txHash' ≠ txHash →
      (Pending (s.challenges.commit n) txHash' ↔ Pending s.challenges txHash') := by
    intro txHash' hne
    rw [Pending, Pending, commit_committed, view_of_none (hwrites txHash' hne)]
  have hpending : ∀ txHash', Pending (s.challenges.commit n) txHash' →
    Pending s.challenges txHash' := by
    intro txHash' h
    by_cases hne : txHash' = txHash
    · subst hne
      exact absurd h hconsumed
    · exact (hother txHash' hne).mp h
  have hpendingBefore := (hs.holding n txHash hholds).2
  have hspentBefore : ∀ m txHash', (Function.update s.calls n phase m).spent = some txHash' →
      m = n ∧ txHash' = txHash ∨ (s.calls m).spent = some txHash' := by
    intro m txHash' h
    rw [Function.update_apply] at h
    split at h
    · rename_i hm
      exact .inl ⟨hm, hspent txHash' h⟩
    · exact .inr h
  refine ⟨?_, hconsumed⟩
  constructor
  · intro m txHash' row hwritten
    obtain ⟨hm, hbefore⟩ := of_commit_writes hwritten
    rw [commit_calls, Function.update_of_ne hm]
    exact hs.writes m txHash' row hbefore
  · intro m txHash' h
    have hm : m ≠ n := by
      rintro rfl
      rw [commit_calls, Function.update_self] at h
      cases hholding.symm.trans h
    rw [commit_calls, Function.update_of_ne hm] at h
    rw [commit_challenges, commit_writes_of_ne hm]
    obtain ⟨hwritten, hbefore⟩ := hs.holding m txHash' h
    refine ⟨hwritten, (hother txHash' ?_).mpr hbefore⟩
    rintro rfl
    exact hm (hs.exclusive m n txHash' h hholds)
  · exact hs.exclusive.update_none hholding
  · intro m txHash' h hafter
    rcases hspentBefore m txHash' h with ⟨_, rfl⟩ | hbefore
    · exact hconsumed hafter
    · exact hs.spent m txHash' hbefore (hpending txHash' hafter)
  · apply hs.spentOnce.update
    intro m txHash' h h'
    rw [hspent txHash' h] at h'
    exact absurd hpendingBefore (hs.spent m txHash h')
  · exact fun txHash' row hversion => hs.rows txHash' row (version_of_commit hversion)
  · exact hs.issued
  · apply (Function.forall_update_iff s.calls fun _ => Known s.events).mpr
    exact ⟨hknown, fun m _ => hs.known m⟩
  · exact hs.tokensOnce
  · exact hs.attachedOnce
  · intro txHash' userId hmem
    obtain ⟨hissued, hbefore, hnone, hsame⟩ := hs.tokens txHash' userId hmem
    refine ⟨hissued, fun hafter => hbefore (hpending txHash' hafter), ?_, hsame⟩
    intro m h
    rcases hspentBefore m txHash' h with ⟨_, rfl⟩ | hspent'
    · exact hbefore hpendingBefore
    · exact hnone m hspent'
  · intro txHash' walletId userId hmem
    obtain ⟨hissued, hbefore, hnone⟩ := hs.attached txHash' walletId userId hmem
    refine ⟨hissued, fun hafter => hbefore (hpending txHash' hafter), ?_⟩
    intro m h
    by_cases hm : m = n
    · subst hm
      rw [commit_calls, Function.update_self] at h
      obtain rfl := hspent txHash' (Phase.spent_of_unattached h)
      exact hbefore hpendingBefore
    · rw [commit_calls, Function.update_of_ne hm] at h
      exact hnone m h

/-- A wallet has been attached. -/
theorem Tracked.log_attached (hs : Tracked s)
    (hissued : IssuedTo s.events txHash (some userId) ∨ IssuedTo s.events txHash none)
    (hpending : ¬ Pending s.challenges txHash) (hnone : ∀ m, (s.calls m).unattached ≠ some txHash)
    (hnew : ∀ walletId' userId', .attached txHash walletId' userId' ∉ s.events)
    (hissuing : ∀ m userId', s.calls m = .issuing txHash userId' → userId' = userId)
    (htokens : ∀ userId', .tokens txHash userId' ∉ s.events) :
  Tracked (s.log [.attached txHash walletId userId])
  := by
  refine ⟨hs.writes, hs.holding, hs.exclusive, hs.spent, hs.spentOnce, ?_, ?_, ?_, ?_, ?_, ?_, ?_⟩
  · exact fun txHash' row hversion => (hs.rows txHash' row hversion).append
  · intro txHash' challenge challenge' hmem hmem'
    apply hs.issued txHash'
    · simpa [State.log] using hmem
    · simpa [State.log] using hmem'
  · intro m
    apply (hs.known m).mono
    · exact fun _ _ h => h.append
    · intro txHash' userId' hphase walletId' userId'' hmem
      rcases List.mem_append.mp hmem with hold | hlast
      · exact .inl hold
      · cases List.mem_singleton.mp hlast
        exact .inr (hissuing m userId' hphase)
  · exact pairwise_concat.mpr ⟨hs.tokensOnce, fun _ _ _ _ _ _ h => by cases h⟩
  · refine pairwise_concat.mpr ⟨hs.attachedOnce, ?_⟩
    rintro e he txHash' walletId₁ walletId₂ userId₁ userId₂ rfl heq
    cases heq
    exact hnew walletId₁ userId₁ he
  · intro txHash' userId' hmem
    obtain ⟨hissued', hbefore, hspent, hsame⟩ := hs.tokens txHash' userId' (by
      simpa [State.log] using hmem)
    refine ⟨hissued'.append, hbefore, hspent, ?_⟩
    intro walletId' userId'' hmem'
    rcases List.mem_append.mp hmem' with hold | hlast
    · exact hsame walletId' userId'' hold
    · cases List.mem_singleton.mp hlast
      exact absurd (by simpa [State.log] using hmem) (htokens userId')
  · intro txHash' walletId' userId' hmem
    rcases List.mem_append.mp hmem with hold | hlast
    · obtain ⟨hissued', hbefore, hnone'⟩ := hs.attached txHash' walletId' userId' hold
      exact ⟨hissued'.imp (·.append) (·.append), hbefore, hnone'⟩
    · cases List.mem_singleton.mp hlast
      exact ⟨hissued.imp (·.append) (·.append), hpending, hnone⟩

/-- Tokens have been issued. -/
theorem Tracked.log_tokens (hs : Tracked s) (hissued : IssuedTo s.events txHash none)
    (hpending : ¬ Pending s.challenges txHash) (hspent : ∀ m, (s.calls m).spent ≠ some txHash)
    (hnew : ∀ userId', .tokens txHash userId' ∉ s.events)
    (hsame : ∀ walletId userId', .attached txHash walletId userId' ∈ s.events → userId = userId') :
  Tracked (s.log [.tokens txHash userId])
  := by
  refine ⟨hs.writes, hs.holding, hs.exclusive, hs.spent, hs.spentOnce, ?_, ?_, ?_, ?_, ?_, ?_, ?_⟩
  · exact fun txHash' row hversion => (hs.rows txHash' row hversion).append
  · intro txHash' challenge challenge' hmem hmem'
    apply hs.issued txHash'
    · simpa [State.log] using hmem
    · simpa [State.log] using hmem'
  · intro m
    apply (hs.known m).mono
    · exact fun _ _ h => h.append
    · intro txHash' userId' _ walletId' userId'' hmem
      left
      simpa [State.log] using hmem
  · refine pairwise_concat.mpr ⟨hs.tokensOnce, ?_⟩
    rintro e he txHash' userId₁ userId₂ rfl heq
    cases heq
    exact hnew userId₁ he
  · exact pairwise_concat.mpr ⟨hs.attachedOnce, fun _ _ _ _ _ _ _ _ h => by cases h⟩
  · intro txHash' userId' hmem
    have hbefore : ∀ walletId' userId'', .attached txHash' walletId' userId'' ∈
        (s.log [.tokens txHash userId]).events →
          .attached txHash' walletId' userId'' ∈ s.events := by
      intro walletId' userId'' hmem'
      simpa [State.log] using hmem'
    rcases List.mem_append.mp hmem with hold | hlast
    · obtain ⟨hissued', hpending', hspent', hsame'⟩ := hs.tokens txHash' userId' hold
      exact ⟨hissued'.append, hpending', hspent', fun _ _ h => hsame' _ _ (hbefore _ _ h)⟩
    · cases List.mem_singleton.mp hlast
      exact ⟨hissued.append, hpending, hspent, fun _ _ h => hsame _ _ (hbefore _ _ h)⟩
  · intro txHash' walletId' userId' hmem
    obtain ⟨hissued', hpending', hnone⟩ := hs.attached txHash' walletId' userId' (by
      simpa [State.log] using hmem)
    exact ⟨hissued'.imp (·.append) (·.append), hpending', hnone⟩

end Sep10
