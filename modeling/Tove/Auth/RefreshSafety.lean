import Tove.Auth.RefreshTokens
import Tove.Base.Calls
import Tove.Base.Since

/-!
# The rotation of refresh tokens

Whatever the calls do, at most one token is accepted. A refresh stores its hash whatever is
stored by then, so a token that was accepted by two calls is exchanged twice, and a log out is
undone by a refresh that has begun before it. When each refresh finds the hash of the token that
was presented to it in place, and no log in stores a token from before the return of a log out
that has written the row, none of this happens.
-/

namespace RefreshTokens

open Transition

universe u v

variable {τ : Type u} {η : Type v} {hashRefreshToken : τ → η} {s s' : State τ η} {l : Label τ}
  {events past : List (Event τ)} {e : Event τ} {stored stored' : Option η} {n : ℕ}
  {calls : ℕ → Phase τ} {phase : Phase τ} {token : τ} {presented : Option τ} {update : Update τ}

/-! ### What has happened -/

/-- A token is minted once, for one that was minted before; it is minted before it is stored, and
stored before it is issued. It is exchanged for one token at most, and issued once. -/
structure History (events : List (Event τ)) : Prop where
  unique : ∀ presented presented' token, .minted presented token ∈ events →
    .minted presented' token ∈ events → presented = presented'
  presented : ∀ past, past <+: events → ∀ token token', .minted (some token) token' ∈ past →
    ∃ presented, .minted presented token ∈ past
  stored : ∀ presented token, .stored (.issue presented token) ∈ events →
    .minted presented token ∈ events
  exchanged : ∀ token token₁ token₂, .stored (.issue (some token) token₁) ∈ events →
    .stored (.issue (some token) token₂) ∈ events → token₁ = token₂
  completed : ∀ update, .completed update ∈ events → .stored update ∈ events
  once : events.Pairwise fun e e' => ∀ presented presented' token,
    e = .issued presented token → e' ≠ .issued presented' token

/-- The token has not been exchanged. -/
def Unspent (events : List (Event τ)) (token : τ) : Prop :=
  ∀ token', .stored (.issue (some token) token') ∉ events

/-- The token has not been issued. -/
def Unissued (events : List (Event τ)) (token : τ) : Prop :=
  ∀ presented, .issued presented token ∉ events

/-- What is so before the event. -/
def Follows (events : List (Event τ)) : Event τ → Prop
  | .minted presented token => (∀ presented', .minted presented' token ∉ events)
    ∧ ∀ token', presented = some token' → ∃ presented', .minted presented' token' ∈ events
  | .stored (.issue presented token) => .minted presented token ∈ events
    ∧ ∀ token', presented = some token' → Unspent events token'
  | .completed (.issue presented token) => .stored (.issue presented token) ∈ events
    ∧ Unissued events token
  | .completed .logout => .stored .logout ∈ events
  | .authenticated | .stored .logout => True

theorem Follows.fresh (h : Follows events e) {presented' : Option τ}
    (he : e = .minted presented token) :
  .minted presented' token ∉ events
  := by
  subst he
  exact h.1 presented'

theorem History.concat (h : History events) (he : Follows events e) :
  History (events ++ [e])
  := by
  constructor
  · intro presented presented' token hmem hmem'
    rcases List.mem_append.mp hmem with hold | hnew
    · rcases List.mem_append.mp hmem' with hold' | hnew'
      · exact h.unique _ _ _ hold hold'
      · exact absurd hold (he.fresh (List.mem_singleton.mp hnew').symm)
    · obtain rfl := List.mem_singleton.mp hnew
      rcases List.mem_append.mp hmem' with hold' | hnew'
      · exact absurd hold' (he.fresh rfl)
      · cases List.mem_singleton.mp hnew'
        rfl
  · intro past hpast token token' hmem
    rcases List.prefix_concat_iff.mp hpast with rfl | hold
    · rcases List.mem_append.mp hmem with hmem | hlast
      · obtain ⟨presented, hminted⟩ := h.presented events (List.prefix_refl _) _ _ hmem
        exact ⟨presented, List.mem_append_left _ hminted⟩
      · obtain rfl := List.mem_singleton.mp hlast
        obtain ⟨presented, hminted⟩ := he.2 token rfl
        exact ⟨presented, List.mem_append_left _ hminted⟩
    · exact h.presented past hold token token' hmem
  · intro presented token hmem
    apply List.mem_append_left
    rcases List.mem_append.mp hmem with hold | hnew
    · exact h.stored presented token hold
    · obtain rfl := List.mem_singleton.mp hnew
      exact he.1
  · intro token token₁ token₂ hmem hmem'
    rcases List.mem_append.mp hmem with hold | hnew
    · rcases List.mem_append.mp hmem' with hold' | hnew'
      · exact h.exchanged token token₁ token₂ hold hold'
      · obtain rfl := List.mem_singleton.mp hnew'
        exact absurd hold (he.2 token rfl token₁)
    · obtain rfl := List.mem_singleton.mp hnew
      rcases List.mem_append.mp hmem' with hold' | hnew'
      · exact absurd hold' (he.2 token rfl token₂)
      · cases List.mem_singleton.mp hnew'
        rfl
  · intro update hmem
    apply List.mem_append_left
    rcases List.mem_append.mp hmem with hold | hnew
    · exact h.completed update hold
    · obtain rfl := List.mem_singleton.mp hnew
      cases update with
      | issue presented token => exact he.1
      | logout => exact he
  · refine pairwise_concat.mpr ⟨h.once, ?_⟩
    rintro e₁ he₁ presented presented' token rfl rfl
    exact he.2 presented he₁

theorem History.exists_minted {token' : τ} (h : History events)
    (hmem : .minted (some token) token' ∈ events) :
  ∃ presented, .minted presented token ∈ events
  := h.presented events (List.prefix_refl _) token token' hmem

theorem History.minted (h : History events) (hmem : .issued presented token ∈ events) :
  .minted presented token ∈ events
  := h.stored presented token (h.completed _ hmem)

theorem Unspent.concat (h : Unspent events token)
    (he : ∀ token', e ≠ .stored (.issue (some token) token')) :
  Unspent (events ++ [e]) token
  := by
  intro token' hmem
  rcases List.mem_append.mp hmem with hold | hnew
  · exact h token' hold
  · exact he token' (List.mem_singleton.mp hnew).symm

theorem Unissued.concat (h : Unissued events token)
    (he : ∀ presented, e ≠ .issued presented token) :
  Unissued (events ++ [e]) token
  := by
  intro presented hmem
  rcases List.mem_append.mp hmem with hold | hnew
  · exact h presented hold
  · exact he presented (List.mem_singleton.mp hnew).symm

/-- A token that is stale was so before the last event, or it has just been minted. -/
theorem Stale.of_concat (h : History events) (he : Follows events e)
    (hstale : Stale past (events ++ [e]) token) :
  Stale past events token ∨ ∃ presented, e = .minted presented token
  := by
  induction hstale with
  | minted hmem => exact .inl (.minted hmem)
  | @derived token token' hmem _ ih =>
    rcases List.mem_append.mp hmem with hold | hnew
    · left
      apply Stale.derived hold
      rcases ih with hstale | ⟨presented, hminted⟩
      · exact hstale
      · obtain ⟨presented', hbefore⟩ := h.exists_minted hold
        exact absurd hbefore (he.fresh hminted)
    · exact .inr ⟨some token, (List.mem_singleton.mp hnew).symm⟩

/-- After a log out, no hash is stored of a token that is stale. -/
def Revoked (hashRefreshToken : τ → η) (events : List (Event τ)) (stored : Option η) : Prop :=
  ∀ past after token, events = past ++ .loggedOut :: after → .authenticated ∉ after →
    Stale past events token → stored ≠ some (hashRefreshToken token)

theorem revoked_none :
  Revoked hashRefreshToken events none
  := fun _ _ _ _ _ _ h => by cases h

/-- The tokens stay revoked, when the last event is not a log out. -/
theorem Revoked.concat (hr : Revoked hashRefreshToken events stored) (h : History events)
    (he : Follows events e) (hlogout : e ≠ .loggedOut)
    (hstored : ∀ presented token, e = .minted presented token →
      stored ≠ some (hashRefreshToken token)) :
  Revoked hashRefreshToken (events ++ [e]) stored
  := by
  intro past after token hsplit hafter hstale
  rcases concat_eq_append_cons.mp hsplit with ⟨_, rfl, _⟩ | ⟨after', rfl, hevents⟩
  · exact absurd rfl hlogout
  · rcases hstale.of_concat h he with hbefore | ⟨presented, hminted⟩
    · exact hr past after' token hevents (fun hmem => hafter (List.mem_append_left _ hmem)) hbefore
    · exact hstored presented token hminted

/-- The user authenticates, and no token is revoked. -/
theorem revoked_authenticated :
  Revoked hashRefreshToken (events ++ [.authenticated]) stored
  := by
  intro past after token hsplit hafter
  rcases concat_eq_append_cons.mp hsplit with ⟨_, h, _⟩ | ⟨after', rfl, _⟩
  · cases h
  · exact absurd (List.mem_append_right _ (List.mem_singleton_self _)) hafter

/-! ### What a call knows -/

/-- The token that a call has minted and is about to store. -/
def Phase.pending : Phase τ → Option τ
  | .updating (.issue _ token) _ => some token
  | _ => none

/-- The token that a call has minted and not returned. -/
def Phase.minted : Phase τ → Option τ
  | .updating (.issue _ token) _ | .returning (.issue _ token) => some token
  | _ => none

/-- What a call knows of its tokens, and a log out of the row. -/
def Known (hashRefreshToken : τ → η) (events : List (Event τ)) (stored : Option η) : Phase τ → Prop
  | .presenting token | .signing (some token) => ∃ presented, .minted presented token ∈ events
  | .updating (.issue presented token) _ => .minted presented token ∈ events
    ∧ stored ≠ some (hashRefreshToken token) ∧ Unspent events token ∧ Unissued events token
  | .returning (.issue presented token) => .stored (.issue presented token) ∈ events
    ∧ Unissued events token
  | .returning .logout => .stored .logout ∈ events ∧ stored = none
  | .idle | .signing none | .updating .logout _ => True

/-- What a call knows stays so, when its token is neither stored nor exchanged nor issued, and the
row is not written after a log out has written it. -/
theorem Known.concat (h : Known hashRefreshToken events stored phase)
    (hstored : ∀ token, phase.pending = some token → stored' ≠ some (hashRefreshToken token))
    (hlogout : phase = .returning .logout → stored' = none)
    (hspent : ∀ token token', phase.pending = some token →
      e ≠ .stored (.issue (some token) token'))
    (hissued : ∀ presented token, phase.minted = some token → e ≠ .issued presented token) :
  Known hashRefreshToken (events ++ [e]) stored' phase
  := by
  cases phase with
  | idle => trivial
  | presenting token =>
    obtain ⟨presented, hminted⟩ := h
    exact ⟨presented, List.mem_append_left _ hminted⟩
  | signing presented =>
    cases presented with
    | none => trivial
    | some token =>
      obtain ⟨presented, hminted⟩ := h
      exact ⟨presented, List.mem_append_left _ hminted⟩
  | updating update stage =>
    cases update with
    | logout => trivial
    | issue presented token =>
      obtain ⟨hminted, _, hunspent, hunissued⟩ := h
      exact ⟨List.mem_append_left _ hminted, hstored token rfl,
        hunspent.concat fun token' => hspent token token' rfl,
        hunissued.concat fun presented' => hissued presented' token rfl⟩
  | returning update =>
    cases update with
    | logout => exact ⟨List.mem_append_left _ h.1, hlogout rfl⟩
    | issue presented token =>
      exact ⟨List.mem_append_left _ h.1, h.2.concat fun presented' => hissued presented' token rfl⟩

/-- A token that is pending is not stored. -/
theorem Known.of_pending (h : Known hashRefreshToken events stored phase)
    (hpending : phase.pending = some token) :
  stored ≠ some (hashRefreshToken token)
  := by
  cases phase with
  | updating update stage =>
    cases update with
    | logout => cases hpending
    | issue presented token' =>
      obtain rfl := Option.some.inj hpending
      exact h.2.1
  | idle | presenting | signing | returning => cases hpending

theorem Known.of_minted (h : Known hashRefreshToken events stored phase) (hevents : History events)
    (hminted : phase.minted = some token) :
  ∃ presented, .minted presented token ∈ events
  := by
  cases phase with
  | updating update stage =>
    cases update with
    | logout => cases hminted
    | issue presented token' =>
      obtain rfl := Option.some.inj hminted
      exact ⟨presented, h.1⟩
  | returning update =>
    cases update with
    | logout => cases hminted
    | issue presented token' =>
      obtain rfl := Option.some.inj hminted
      exact ⟨presented, hevents.stored _ _ h.1⟩
  | idle | presenting | signing => cases hminted

theorem Phase.minted_of_pending (h : phase.pending = some token) :
  phase.minted = some token
  := by
  cases phase with
  | updating update stage => cases update <;> exact h
  | idle | presenting | signing | returning => cases h

/-- What all calls know after one has entered a phase. -/
theorem known_update (hphase : Known hashRefreshToken events stored phase)
    (hcalls : ∀ m, m ≠ n → Known hashRefreshToken events stored (calls m)) :
  ∀ m, Known hashRefreshToken events stored (Function.update calls n phase m)
  := (Function.forall_update_iff calls fun _ => Known hashRefreshToken events stored).mpr
    ⟨hphase, hcalls⟩

/-! ### The steps -/

/-- What holds in every state. -/
structure Tracked (hashRefreshToken : τ → η) (s : State τ η) : Prop where
  history : History s.events
  revoked : Revoked hashRefreshToken s.events s.user.refreshTokenHash
  stored : ∀ hash, s.user.refreshTokenHash = some hash → ∃ token, hash = hashRefreshToken token
    ∧ (∃ presented, .minted presented token ∈ s.events) ∧ Unspent s.events token
  exclusive : Calls.Exclusive Phase.minted s.calls
  known : ∀ n, Known hashRefreshToken s.events s.user.refreshTokenHash (s.calls n)

theorem Tracked.known_of (hs : Tracked hashRefreshToken s) (hphase : s.calls n = phase) :
  Known hashRefreshToken s.events s.user.refreshTokenHash phase
  := by
  rw [← hphase]
  exact hs.known n

/-- A token is minted by one call. -/
theorem Tracked.eq_of_minted (hs : Tracked hashRefreshToken s) {m : ℕ} (hphase : s.calls n = phase)
    (hn : phase.minted = some token) (hm : (s.calls m).minted = some token) :
  m = n
  := by
  apply hs.exclusive m n token hm
  rw [hphase]
  exact hn

theorem Tracked.enter (hs : Tracked hashRefreshToken s)
    (hknown : Known hashRefreshToken s.events s.user.refreshTokenHash phase)
    (hminted : ∀ token, phase.minted = some token → (s.calls n).minted = some token) :
  Tracked hashRefreshToken (s.enter n phase)
  := by
  refine ⟨hs.history, hs.revoked, hs.stored, ?_, ?_⟩
  · apply hs.exclusive.update
    exact fun m token hphase hm => hs.exclusive m n token hm (hminted token hphase)
  · exact known_update hknown fun m _ => hs.known m

/-- Something has happened, and the row is as it was. -/
theorem Tracked.record (hs : Tracked hashRefreshToken s) (he : Follows s.events e)
    (hrevoked : Revoked hashRefreshToken (s.events ++ [e]) s.user.refreshTokenHash)
    (hspent : ∀ update, e ≠ .stored update)
    (hissued : ∀ m presented token, m ≠ n → (s.calls m).minted = some token →
      e ≠ .issued presented token)
    (hknown : Known hashRefreshToken (s.events ++ [e]) s.user.refreshTokenHash phase)
    (hminted : ∀ m token, phase.minted = some token → (s.calls m).minted = some token → m = n) :
  Tracked hashRefreshToken (s.record n phase e)
  := by
  refine ⟨hs.history.concat he, hrevoked, ?_, hs.exclusive.update hminted, ?_⟩
  · intro hash hstored
    obtain ⟨token, rfl, ⟨presented, hminted⟩, hunspent⟩ := hs.stored hash hstored
    exact ⟨token, rfl, ⟨presented, List.mem_append_left _ hminted⟩,
      hunspent.concat fun _ => hspent _⟩
  · apply known_update hknown
    intro m hm
    apply (hs.known m).concat
    · exact fun token hpending => (hs.known m).of_pending hpending
    · intro hlogout
      exact (hs.known_of hlogout).2
    · exact fun _ _ _ => hspent _
    · exact fun presented token => hissued m presented token hm

theorem Tracked.authenticate (hs : Tracked hashRefreshToken s) :
  Tracked hashRefreshToken (s.record n (.signing none) .authenticated)
  := by
  apply hs.record
  · trivial
  · exact revoked_authenticated
  · exact fun _ h => by cases h
  · exact fun _ _ _ _ _ h => by cases h
  · trivial
  · exact fun _ _ h => by cases h

theorem Tracked.mint (hs : Tracked hashRefreshToken s) (hinj : Function.Injective hashRefreshToken)
    (hphase : s.calls n = .signing presented)
    (hnew : ∀ presented', .minted presented' token ∉ s.events) :
  Tracked hashRefreshToken
    (s.record n (.updating (.issue presented token) .loading) (.minted presented token))
  := by
  have hfollows : Follows s.events (.minted presented token) := by
    refine ⟨hnew, ?_⟩
    rintro token' rfl
    exact hs.known_of hphase
  have hstored : s.user.refreshTokenHash ≠ some (hashRefreshToken token) := by
    intro heq
    obtain ⟨token', hhash, ⟨presented', hminted⟩, _⟩ := hs.stored _ heq
    obtain rfl := hinj hhash
    exact hnew presented' hminted
  apply hs.record hfollows
  · apply hs.revoked.concat hs.history hfollows
    · exact fun h => by cases h
    · intro presented' token' heq
      cases heq
      exact hstored
  · exact fun _ h => by cases h
  · exact fun _ _ _ _ _ h => by cases h
  · refine ⟨List.mem_append_right _ (List.mem_singleton_self _), hstored, ?_, ?_⟩
    · apply Unspent.concat _ fun _ h => by cases h
      intro token' hmem
      obtain ⟨presented', hminted⟩ := hs.history.exists_minted (hs.history.stored _ _ hmem)
      exact hnew presented' hminted
    · apply Unissued.concat _ fun _ h => by cases h
      exact fun presented' hmem => hnew presented' (hs.history.minted hmem)
  · intro m token' htoken hminted
    obtain rfl := Option.some.inj htoken
    obtain ⟨presented', hbefore⟩ := (hs.known m).of_minted hs.history hminted
    exact absurd hbefore (hnew presented')

/-- A token that is stored with care is not one that has been revoked. -/
theorem Tracked.revoked_issue (hs : Tracked hashRefreshToken s)
    (hinj : Function.Injective hashRefreshToken) (hminted : .minted presented token ∈ s.events)
    (hc : Careful hashRefreshToken s (.write (.issue presented token)) s') :
  Revoked hashRefreshToken s.events (some (hashRefreshToken token))
  := by
  intro past after token' hsplit hafter hstale heq
  obtain rfl := hinj (Option.some.inj heq)
  have hpresented : ∀ token', presented = some token' → ¬ Stale past s.events token' := by
    rintro token' rfl hstale'
    exact hs.revoked past after token' hsplit hafter hstale' hc
  cases hstale with
  | @minted presented' _ hmem =>
    have hpast : past <+: s.events := ⟨_, hsplit.symm⟩
    obtain rfl := hs.history.unique _ _ _ hminted (hpast.subset hmem)
    cases presented with
    | none => exact hc.2 past after none hsplit hmem
    | some token' =>
      obtain ⟨presented', hbefore⟩ := hs.history.presented past hpast token' token hmem
      exact hpresented token' rfl (.minted hbefore)
  | derived hmem hstale' =>
    exact hpresented _ (hs.history.unique _ _ _ hminted hmem) hstale'

/-- With care, no hash is stored between the write of a log out and its return. -/
theorem Tracked.no_logout (hs : Tracked hashRefreshToken s)
    (hc : Careful hashRefreshToken s (.write (.issue presented token)) s') (m : ℕ) :
  s.calls m ≠ .returning .logout
  := by
  intro hlogout
  cases presented with
  | none => exact hc.1 m hlogout
  | some token' =>
    have hnone : s.user.refreshTokenHash = none := (hs.known_of hlogout).2
    cases hnone.symm.trans hc

/-- The row is written with the hash of a token. -/
theorem Tracked.issue {stage : Stage} (hs : Tracked hashRefreshToken s)
    (hinj : Function.Injective hashRefreshToken)
    (hphase : s.calls n = .updating (.issue presented token) stage)
    (hc : Careful hashRefreshToken s (.write (.issue presented token)) s') :
  Tracked hashRefreshToken (s.store n (.issue presented token) (some (hashRefreshToken token)))
  := by
  obtain ⟨hminted, hstored, hunspent, hunissued⟩ := hs.known_of hphase
  have hpresented : ∀ token', presented = some token' →
      s.user.refreshTokenHash = some (hashRefreshToken token') := by
    rintro token' rfl
    exact hc
  have hfollows : Follows s.events (.stored (.issue presented token)) := by
    refine ⟨hminted, ?_⟩
    intro token' heq
    obtain ⟨token'', hhash, _, hunspent'⟩ := hs.stored _ (hpresented token' heq)
    obtain rfl := hinj hhash
    exact hunspent'
  refine ⟨hs.history.concat hfollows, ?_, ?_, ?_, ?_⟩
  · apply (hs.revoked_issue hinj hminted hc).concat hs.history hfollows
    · exact fun h => by cases h
    · exact fun _ _ h => by cases h
  · intro hash heq
    obtain rfl := Option.some.inj heq
    refine ⟨token, rfl, ⟨presented, List.mem_append_left _ hminted⟩, hunspent.concat ?_⟩
    intro token' heq
    cases heq
    exact hstored (hpresented token rfl)
  · exact hs.exclusive.update fun m token' htoken => hs.eq_of_minted hphase htoken
  · apply known_update
    · exact ⟨List.mem_append_right _ (List.mem_singleton_self _),
        hunissued.concat fun _ h => by cases h⟩
    · intro m hm
      apply (hs.known m).concat
      · intro token' hpending heq
        obtain rfl := hinj (Option.some.inj heq)
        exact hm (hs.eq_of_minted hphase rfl (Phase.minted_of_pending hpending))
      · exact fun hlogout => absurd hlogout (hs.no_logout hc m)
      · intro token₁ token₂ hpending heq
        cases heq
        exact (hs.known m).of_pending hpending (hpresented token₁ rfl)
      · exact fun _ _ _ h => by cases h

/-- The row is written by a log out. -/
theorem Tracked.logout {stage : Stage} (hs : Tracked hashRefreshToken s)
    (hphase : s.calls n = .updating .logout stage) :
  Tracked hashRefreshToken (s.store n .logout none)
  := by
  refine ⟨hs.history.concat trivial, revoked_none, (fun _ h => by cases h), ?_, ?_⟩
  · exact hs.exclusive.update fun m token' htoken => hs.eq_of_minted hphase htoken
  · apply known_update
    · exact ⟨List.mem_append_right _ (List.mem_singleton_self _), rfl⟩
    · intro m _
      apply (hs.known m).concat
      · exact fun _ _ h => by cases h
      · exact fun _ => rfl
      · exact fun _ _ _ h => by cases h
      · exact fun _ _ _ h => by cases h

/-- The call returns. -/
theorem Tracked.complete (hs : Tracked hashRefreshToken s)
    (hphase : s.calls n = .returning update) :
  Tracked hashRefreshToken (s.record n .idle (.completed update))
  := by
  have hknown := hs.known_of hphase
  have hfollows : Follows s.events (.completed update) := by
    cases update with
    | issue presented token => exact hknown
    | logout => exact hknown.1
  apply hs.record hfollows
  · cases update with
    | issue presented token =>
      apply hs.revoked.concat hs.history hfollows
      · exact fun h => by cases h
      · exact fun _ _ h => by cases h
    | logout =>
      rw [hknown.2]
      exact revoked_none
  · exact fun _ h => by cases h
  · intro m presented token hm hminted heq
    cases heq
    exact hm (hs.eq_of_minted hphase rfl hminted)
  · trivial
  · exact fun _ _ h => by cases h

theorem Step.tracked (hinj : Function.Injective hashRefreshToken) (hs : Tracked hashRefreshToken s)
    (h : Step hashRefreshToken s l s') (hc : Careful hashRefreshToken s l s') :
  Tracked hashRefreshToken s'
  := by
  cases h with
  | authenticate => exact hs.authenticate
  | present _ hissued =>
    exact hs.enter ⟨_, hs.history.minted hissued⟩ fun _ h => by cases h
  | accept hphase =>
    have hminted := hs.known_of hphase
    exact hs.enter hminted fun _ h => by cases h
  | mint hphase hnew => exact hs.mint hinj hphase hnew
  | logout => exact hs.enter trivial fun _ h => by cases h
  | @load n update hphase | @compare n update hphase =>
    have hupdate := hs.known_of hphase
    apply hs.enter
    · cases update <;> exact hupdate
    · intro token hminted
      rw [hphase]
      cases update <;> exact hminted
  | @unchanged n update hphase hsame =>
    cases update with
    | logout =>
      have hnone : s.user.refreshTokenHash = none := hsame
      have hstore : s.record n (.returning .logout) (.stored .logout) = s.store n .logout none := by
        rw [State.record, State.store, ← hnone]
      rw [hstore]
      exact hs.logout hphase
    | issue presented token =>
      exact absurd hsame (hs.known_of hphase).2.1
  | @write n update hphase =>
    cases update with
    | issue presented token => exact hs.issue hinj hphase hc
    | logout => exact hs.logout hphase
  | complete hphase => exact hs.complete hphase
  | fail => exact hs.enter trivial fun _ h => by cases h

/-! ### The runs -/

theorem tracked_init (h : (system hashRefreshToken).init s) :
  Tracked hashRefreshToken s
  := by
  obtain ⟨hnone, hidle, hevents⟩ := h
  refine ⟨?_, ?_, ?_, ?_, ?_⟩
  · rw [hevents]
    refine ⟨(fun _ _ _ h => by cases h), ?_, (fun _ _ h => by cases h),
      (fun _ _ _ h => by cases h), (fun _ h => by cases h), .nil⟩
    intro past hpast token token' hmem
    cases hpast.subset hmem
  · rw [hnone]
    exact revoked_none
  · intro hash hstored
    rw [hnone] at hstored
    cases hstored
  · intro m n token hpending
    rw [hidle] at hpending
    cases hpending
  · intro n
    rw [hidle]
    trivial

theorem Tracked.rotates (hinj : Function.Injective hashRefreshToken)
    (hs : Tracked hashRefreshToken s) :
  Rotates hashRefreshToken s
  := by
  constructor
  · apply hs.history.once.imp_of_mem
    rintro e e' he he' honce presented token token' rfl rfl
    have hexchanged := hs.history.exchanged presented token token'
      (hs.history.completed _ he) (hs.history.completed _ he')
    subst hexchanged
    exact honce _ _ token rfl rfl
  · intro token token' h h'
    exact hinj (Option.some.inj (h.2.symm.trans h'.2))
  · intro past after token hsplit hafter hstale h
    exact hs.revoked past after token hsplit hafter hstale h.2

/-- When each refresh finds the hash of its token in place as it writes the row, and no log in
stores a token from before the return of a log out that has written the row, the tokens rotate. -/
theorem rotates_of_careful (hinj : Function.Injective hashRefreshToken)
    (h : ((system hashRefreshToken).restrict (Careful hashRefreshToken)).Reachable s) :
  Rotates hashRefreshToken s
  := by
  apply Tracked.rotates hinj
  apply h.invariant
  · intro s₀ hinit
    apply tracked_init hinit
  · rintro s₁ l s₂ hs₁ ⟨hstep, hc⟩
    apply hstep.tracked hinj hs₁ hc

/-- The user after a token has been minted and stored by a call that has returned. -/
def sampleIssue (s : State ℕ ℕ) (n : ℕ) (presented : Option ℕ) (token : ℕ) : State ℕ ℕ where
  user := { s.user with refreshTokenHash := some token }
  calls := Function.update s.calls n .idle
  events := s.events ++ [.minted presented token, .stored (.issue presented token),
    .issued presented token]

theorem sampleIssue_run (c : State ℕ ℕ → Label ℕ → State ℕ ℕ → Prop) (s : State ℕ ℕ) (n : ℕ)
    (presented : Option ℕ) (token : ℕ) (hphase : s.calls n = .signing presented)
    (hnew : ∀ presented', .minted presented' token ∉ s.events)
    (hstored : s.user.refreshTokenHash ≠ some token) (hc : ∀ s₁ s₂, c s₁ .other s₂)
    (hwrite : ∀ s₁ s₂, s₁.user = s.user →
      s₁.calls = Function.update s.calls n (.updating (.issue presented token) .writing) →
      s₁.events = s.events ++ [.minted presented token] →
      c s₁ (.write (.issue presented token)) s₂) :
  ((system id).restrict c).Run s [.other, .other, .other, .write (.issue presented token), .other]
    (sampleIssue s n presented token)
  := by
  have hminted := (System.Run.nil (S := (system id).restrict c) s).snoc
    ⟨Step.mint hphase hnew, hc _ _⟩
  have hloaded := hminted.snoc ⟨@Step.load _ _ id _ n (.issue presented token) (by
    simp [State.record]), hc _ _⟩
  have hcompared := hloaded.snoc ⟨@Step.compare _ _ id _ n (.issue presented token) (by
    simp [State.enter]) hstored, hc _ _⟩
  have hwritten := hcompared.snoc ⟨@Step.write _ _ id _ n (.issue presented token) (by
    simp [State.enter]), hwrite _ _ rfl (by simp [State.enter, State.record]) rfl⟩
  have hreturned := hwritten.snoc ⟨@Step.complete _ _ id _ n (.issue presented token) (by
    simp [State.store]), hc _ _⟩
  simpa [State.record, State.enter, State.store, sampleIssue, Update.hash] using hreturned

/-- The user after a log out has returned. -/
def sampleLogout (s : State ℕ ℕ) (n : ℕ) : State ℕ ℕ where
  user := { s.user with refreshTokenHash := none }
  calls := Function.update s.calls n .idle
  events := s.events ++ [.stored .logout, .loggedOut]

theorem sampleLogout_run (s : State ℕ ℕ) (n : ℕ) (hphase : s.calls n = .idle)
    (hstored : s.user.refreshTokenHash ≠ none) :
  ((system id).restrict (Careful id)).Run s [.other, .other, .other, .write .logout, .other]
    (sampleLogout s n)
  := by
  have hentered := (System.Run.nil (S := (system id).restrict (Careful id)) s).snoc
    ⟨Step.logout hphase, trivial⟩
  have hloaded := hentered.snoc ⟨@Step.load _ _ id _ n .logout (by simp [State.enter]), trivial⟩
  have hcompared := hloaded.snoc ⟨@Step.compare _ _ id _ n .logout (by simp [State.enter]) hstored,
    trivial⟩
  have hwritten := hcompared.snoc ⟨@Step.write _ _ id _ n .logout (by simp [State.enter]), trivial⟩
  have hreturned := hwritten.snoc ⟨@Step.complete _ _ id _ n .logout (by simp [State.store]),
    trivial⟩
  simpa [State.record, State.enter, State.store, sampleLogout, Update.hash] using hreturned

/-- A log in stores its token with care, when no log out is under way. -/
theorem careful_login (hcalls : ∀ m, s.calls m ≠ .returning .logout)
    (hevents : s.events = events ++ [.minted none token])
    (hnew : ∀ presented, .minted presented token ∉ events) :
  Careful hashRefreshToken s (.write (.issue none token)) s'
  := by
  refine ⟨hcalls, ?_⟩
  intro past after presented hsplit
  rw [hevents] at hsplit
  rcases concat_eq_append_cons.mp hsplit with ⟨_, hlast, _⟩ | ⟨after', _, rfl⟩
  · cases hlast
  · exact fun hmem => hnew presented (List.mem_append_left _ hmem)

/-- The user has logged in, and two calls have accepted the token. -/
def sampleAccepted : State ℕ ℕ where
  user := ⟨some 0, true⟩
  calls := Function.update (Function.update (fun _ => .idle) 1 (.signing (some 0))) 2
    (.signing (some 0))
  events := [.authenticated, .minted none 0, .stored (.issue none 0), .issued none 0]

theorem sampleAccepted_reachable :
  ((system id).restrict (Careful id)).Reachable sampleAccepted
  := by
  have hinit : ((system id).restrict (Careful id)).Reachable
      (⟨⟨none, true⟩, fun _ => .idle, []⟩ : State ℕ ℕ) :=
    .init ⟨rfl, fun _ => rfl, rfl⟩
  have hsigning := hinit.step ⟨@Step.authenticate _ _ id _ 0 rfl rfl, trivial⟩
  have hissued := hsigning.run (sampleIssue_run (Careful id) _ 0 none 0 rfl
    (fun _ hmem => by simp [State.record] at hmem) (by simp [State.record]) (fun _ _ => trivial) (by
      intro s₁ s₂ _ hcalls hevents
      refine careful_login ?_ hevents fun _ hmem => by simp [State.record] at hmem
      intro m
      rw [hcalls]
      rcases eq_or_ne m 0 with rfl | hm
      · simp [State.record]
      · simp [State.record, hm]))
  have hpresented := hissued.step ⟨@Step.present _ _ id _ 1 none 0 rfl (by simp [sampleIssue]),
    trivial⟩
  have haccepted := hpresented.step ⟨@Step.accept _ _ id _ 1 0 rfl ⟨rfl, rfl⟩, trivial⟩
  have hpresented' := haccepted.step ⟨@Step.present _ _ id _ 2 none 0 rfl
    (by simp [sampleIssue, State.enter]), trivial⟩
  have haccepted' := hpresented'.step ⟨@Step.accept _ _ id _ 2 0 rfl ⟨rfl, rfl⟩, trivial⟩
  simpa [State.enter, State.record, sampleIssue, sampleAccepted, Function.update_idem] using haccepted'

/-- The token is exchanged by the first call. -/
theorem sampleExchanged_reachable :
  ((system id).restrict (Careful id)).Reachable (sampleIssue sampleAccepted 1 (some 0) 1)
  := by
  apply sampleAccepted_reachable.run
  apply sampleIssue_run (Careful id) sampleAccepted 1 (some 0) 1 rfl
  · simp [sampleAccepted]
  · simp [sampleAccepted]
  · exact fun _ _ => trivial
  · intro s₁ s₂ huser _ _
    show s₁.user.refreshTokenHash = some 0
    rw [huser]
    rfl

/-- The second call has failed, and the user has logged out. -/
def sampleLoggedOut : State ℕ ℕ :=
  sampleLogout ((sampleIssue sampleAccepted 1 (some 0) 1).enter 2 .idle) 3

theorem sampleLoggedOut_calls (m : ℕ) :
  sampleLoggedOut.calls m = .idle
  := by
  simp only [sampleLoggedOut, sampleLogout, State.enter, sampleIssue, sampleAccepted,
    Function.update_apply]
  split_ifs <;> rfl

theorem sampleLoggedOut_reachable :
  ((system id).restrict (Careful id)).Reachable sampleLoggedOut
  := by
  have hfailed := sampleExchanged_reachable.step ⟨@Step.fail _ _ id _ 2, trivial⟩
  exact hfailed.run (sampleLogout_run _ 3 rfl (by simp [State.enter, sampleIssue]))

/-- The user has logged in once more. -/
theorem sampleAgain_reachable :
  ((system id).restrict (Careful id)).Reachable
    (sampleIssue (sampleLoggedOut.record 1 (.signing none) .authenticated) 1 none 2)
  := by
  have hsigning := sampleLoggedOut_reachable.step
    ⟨@Step.authenticate _ _ id _ 1 (sampleLoggedOut_calls 1) rfl, trivial⟩
  have hnew : ∀ presented, Event.minted presented 2 ∉ (sampleLoggedOut.record 1 (.signing none)
      .authenticated).events := by
    simp [State.record, sampleLoggedOut, sampleLogout, State.enter, sampleIssue, sampleAccepted]
  apply hsigning.run
  apply sampleIssue_run (Careful id) _ 1 none 2 (by simp [State.record]) hnew
  · simp [State.record, sampleLoggedOut, sampleLogout]
  · exact fun _ _ => trivial
  · intro s₁ s₂ _ hcalls hevents
    refine careful_login ?_ hevents hnew
    intro m
    rw [hcalls]
    rcases eq_or_ne m 1 with rfl | hm
    · simp
    · simp [State.record, hm, sampleLoggedOut_calls]

theorem rotates_of_careful_sample :
  ∃ s : State ℕ ℕ, .issued (some 0) 1 ∈ s.events ∧ .loggedOut ∈ s.events ∧ ¬ s.Accepts id 1
    ∧ s.Accepts id 2 ∧ Rotates id s
  := by
  refine ⟨_, ?_, ?_, ?_, ?_, rotates_of_careful Function.injective_id sampleAgain_reachable⟩
  · simp [sampleIssue, State.record, sampleLoggedOut, sampleLogout, State.enter]
  · simp [sampleIssue, State.record, sampleLoggedOut, sampleLogout, State.enter]
  · simp [State.Accepts, sampleIssue]
  · exact ⟨rfl, rfl⟩

/-- The token is exchanged by the second call as well. -/
theorem not_forall_rotates :
  ¬ ∀ s : State ℕ ℕ, (system id).Reachable s → Rotates id s
  := by
  intro h
  have hexchanged := System.Reachable.of_restrict (system id) sampleExchanged_reachable
  have hrun := sampleIssue_run (fun _ _ _ => True) (sampleIssue sampleAccepted 1 (some 0) 1) 2
    (some 0) 2 rfl (by simp [sampleIssue, sampleAccepted]) (by simp [sampleIssue])
    (fun _ _ => trivial) (fun _ _ _ _ _ => trivial)
  have htwice := (h _ (hexchanged.run (System.Run.of_restrict (system id) hrun))).once
  exact List.pairwise_iff_getElem.mp htwice 6 9 (by decide) (by decide) (by decide) 0 1 2 rfl rfl

end RefreshTokens
