import Mathlib.Data.List.Nodup
import Tove.Base.Calls
import Tove.Relayer.AccountLock

/-!
# The locks exclude

A key that is held stays so, with its token and its expiry, until it expires or its own token is
released. Therefore the sections of a key that are over before it expires exclude each other,
whatever becomes of the commands of other calls. The lock in memory needs no such condition, and
it serves its calls in their order.
-/

namespace AccountLock

open Transition Calls Exclusion

/-! ### The lock in Redis -/

/-- The token of a call. -/
def Phase.token : Phase → Option ℕ
  | .idle => none
  | .trying _ _ token _ | .waiting _ _ token _ | .acquired _ token _ | .running _ token _
  | .releasing _ token => some token

/-- What a call has been given: a key, with its token and its expiry. -/
def Phase.held : Phase → Option (String × Held)
  | .acquired key token expiresAt | .running key token expiresAt => some (key, ⟨token, expiresAt⟩)
  | _ => none

theorem Phase.token_of_held {phase : Phase} {key : String} {held : Held}
    (h : phase.held = some (key, held)) :
  phase.token = some held.token
  := by
  cases phase with
  | acquired | running =>
    obtain ⟨rfl, rfl⟩ := Prod.mk.inj (Option.some.inj h)
    rfl
  | _ => cases h

/-- Tokens are drawn once, and what a call has been given is in the store until it expires. -/
structure Sound (s : State) : Prop where
  drawn : ∀ n token, (s.calls n).token = some token → s.drawn token
  exclusive : Exclusive Phase.token s.calls
  held : ∀ n key held, (s.calls n).held = some (key, held) → s.now < held.expiresAt →
    s.store key = some held

section Redis

variable {s s' : State} {l : Label} {n : ℕ} {key : String} {held : Held}

theorem State.get_eq_some_iff :
  s.get key = some held ↔ s.store key = some held ∧ s.now < held.expiresAt
  := by
  rw [State.get, Option.filter_eq_some_iff, decide_eq_true_eq]

theorem State.release_calls {token : ℕ} :
  (s.release key token).calls = s.calls
  := by
  rw [State.release]
  split <;> rfl

/-- What is held is not released with another token. -/
theorem State.release_store {key' : String} {token : ℕ} (hget : s.get key = some held)
    (hne : key' = key → held.token ≠ token) :
  (s.release key' token).store key = some held
  := by
  have hstore := (State.get_eq_some_iff.mp hget).1
  rw [State.release]
  split
  · rename_i hheld
    rw [← hstore]
    apply Function.update_of_ne
    rintro rfl
    rw [hget, Option.map_some, Option.some_inj] at hheld
    exact hne rfl hheld
  · exact hstore

/-- A key that is held stays so until it expires, or its token is released. -/
theorem Step.keeps (h : Step s l s') (hget : s.get key = some held) :
  s'.store key = some held ∨ l = .release key held.token
  := by
  have hstore := (State.get_eq_some_iff.mp hget).1
  have hset : ∀ {key' : String} {token ttlMs : ℕ}, s.get key' = none →
      (s.set key' token ttlMs).store key = some held := by
    intro key' token ttlMs hnone
    rw [← hstore]
    apply Function.update_of_ne
    rintro rfl
    rw [hget] at hnone
    cases hnone
  cases h with
  | set _ hnone => exact .inl (hset hnone)
  | stray _ hnone => exact .inl (hset hnone)
  | @release n token key' =>
    by_cases hk : key' = key ∧ held.token = token
    · obtain ⟨rfl, rfl⟩ := hk
      exact .inr rfl
    · exact .inl (State.release_store hget fun hkey htoken => hk ⟨hkey, htoken⟩)
  | _ => exact .inl hstore

/-- The clock does not go back. -/
theorem Step.now_le (h : Step s l s') :
  s.now ≤ s'.now
  := by
  cases h with
  | tick hle => exact hle
  | @release n token key =>
    change s.now ≤ (s.release key token).now
    rw [State.release]
    split <;> exact Nat.le_refl _
  | _ => exact Nat.le_refl _

theorem held_update {calls : ℕ → Phase} {phase : Phase} {m : ℕ} (hphase : phase.held = none)
    (h : (Function.update calls n phase m).held = some (key, held)) :
  (calls m).held = some (key, held)
  := by
  refine of_update ?_ h
  intro k hk
  rw [hphase] at hk
  cases hk

theorem token_update {calls : ℕ → Phase} {phase : Phase} {m token : ℕ}
    (hphase : phase.token = none ∨ phase.token = (calls n).token)
    (h : (Function.update calls n phase m).token = some token) :
  (calls m).token = some token
  := by
  refine of_update ?_ h
  intro k hk
  rcases hphase with hnone | heq
  · rw [hnone] at hk
    cases hk
  · rwa [← heq]

/-- What a call has was given to it before, or is put into the store now. -/
theorem Step.held_cases (h : Step s l s') {m : ℕ} (hheld : (s'.calls m).held = some (key, held)) :
  (s.calls m).held = some (key, held) ∨ s'.store key = some held
  := by
  cases h with
  | begin => exact .inl (held_update rfl hheld)
  | @set n ttlMs token deadline key' =>
    rcases update_cases (fun phase : Phase => phase.held = some (key, held)) hheld with
      ⟨_, heq⟩ | ⟨_, hm⟩
    · obtain ⟨rfl, rfl⟩ := Prod.mk.inj (Option.some.inj heq)
      exact .inr (Function.update_self ..)
    · exact .inl hm
  | stray => exact .inl hheld
  | @enter n token expiresAt key' hphase =>
    refine .inl (of_update ?_ hheld)
    rw [hphase]
    exact fun _ => id
  | @release n token key' =>
    have hbefore : ((s.release key' token).calls m).held = some (key, held) :=
      held_update rfl hheld
    rw [State.release_calls] at hbefore
    exact .inl hbefore
  | tick => exact .inl hheld
  | _ => exact .inl (held_update rfl hheld)

/-- A call has the token that it had, or one that has not been drawn. -/
theorem Step.token_cases (h : Step s l s') {m token : ℕ}
    (htoken : (s'.calls m).token = some token) :
  (s.calls m).token = some token
    ∨ ¬ s.drawn token ∧ s'.drawn token ∧ ∀ k, k ≠ m → s'.calls k = s.calls k
  := by
  cases h with
  | @begin n ttlMs token' dateNow key' _ hdrawn =>
    rcases update_cases (fun phase : Phase => phase.token = some token) htoken with
      ⟨rfl, heq⟩ | ⟨_, hm⟩
    · obtain rfl := Option.some.inj heq
      exact .inr ⟨hdrawn, .inl rfl, fun k hk => Function.update_of_ne hk ..⟩
    · exact .inl hm
  | set hphase | busy hphase | retry hphase | enter hphase | leave hphase =>
    refine .inl (token_update (.inr ?_) htoken)
    rw [hphase]
    rfl
  | stray => exact .inl htoken
  | @release n token' key =>
    have hbefore : ((s.release key token').calls m).token = some token :=
      token_update (.inl rfl) htoken
    rw [State.release_calls] at hbefore
    exact .inl hbefore
  | tick => exact .inl htoken
  | _ => exact .inl (token_update (.inl rfl) htoken)

theorem Step.drawn (h : Step s l s') {token : ℕ} (hdrawn : s.drawn token) :
  s'.drawn token
  := by
  cases h with
  | begin => exact .inr hdrawn
  | @release n token key =>
    change (s.release key token).drawn _
    rw [State.release]
    split <;> exact hdrawn
  | _ => exact hdrawn

theorem Step.sound (hs : Sound s) (h : Step s l s') :
  Sound s'
  := by
  refine ⟨?_, ?_, ?_⟩
  · intro m token htoken
    rcases h.token_cases htoken with hbefore | ⟨_, hdrawn, _⟩
    · exact h.drawn (hs.drawn m token hbefore)
    · exact hdrawn
  · intro m k token hm hk
    rcases h.token_cases hm with hm' | ⟨hdrawn, _, hsame⟩
    · rcases h.token_cases hk with hk' | ⟨hdrawn, _⟩
      · exact hs.exclusive m k token hm' hk'
      · exact absurd (hs.drawn m token hm') hdrawn
    · by_contra hne
      rw [hsame k (Ne.symm hne)] at hk
      exact hdrawn (hs.drawn k token hk)
  · intro m key held hheld hlive
    rcases h.held_cases hheld with hbefore | hafter
    · have hlive' : s.now < held.expiresAt := Nat.lt_of_le_of_lt h.now_le hlive
      have hget := State.get_eq_some_iff.mpr ⟨hs.held m key held hbefore hlive', hlive'⟩
      rcases h.keeps hget with hstore | rfl
      · exact hstore
      · cases h with
        | @release n _ _ hphase =>
          have hn : (s.calls n).token = some held.token := by rw [hphase]; rfl
          obtain rfl := hs.exclusive m n held.token (Phase.token_of_held hbefore) hn
          rw [hphase] at hbefore
          cases hbefore
    · exact hafter

theorem sound_of_reachable (h : system.Reachable s) :
  Sound s
  := by
  apply h.invariant
  · rintro s₀ ⟨hidle, _⟩
    refine ⟨?_, ?_, ?_⟩
    · intro n token htoken
      rw [hidle] at htoken
      cases htoken
    · intro m n token hm
      rw [hidle] at hm
      cases hm
    · intro n key held hheld
      rw [hidle] at hheld
      cases hheld
  · exact fun s₁ l₁ s₂ hs hstep => Step.sound hs hstep

/-- Two calls do not have a key that has not expired. -/
theorem Sound.inside (hs : Sound s) {m token expiresAt token' expiresAt' : ℕ}
    (hm : (s.calls m).held = some (key, ⟨token, expiresAt⟩)) (hlive : s.now < expiresAt)
    (hn : (s.calls n).held = some (key, ⟨token', expiresAt'⟩)) (hlive' : s.now < expiresAt') :
  m = n
  := by
  have hheld := hs.held m key _ hm hlive
  rw [hs.held n key _ hn hlive', Option.some_inj, Held.mk.injEq] at hheld
  obtain ⟨rfl, _⟩ := hheld
  exact hs.exclusive m n token' (Phase.token_of_held hm) (Phase.token_of_held hn)

theorem inside_enter_of_ne {phase : Phase} {m : ℕ} (hm : m ≠ n) :
  (s.enter n phase).Inside key m ↔ s.Inside key m
  := by
  have hcalls : (s.enter n phase).calls m = s.calls m := Function.update_of_ne hm ..
  rw [State.Inside, hcalls, State.Inside]

theorem inside_enter_self {phase : Phase} :
  (s.enter n phase).Inside key n ↔ ∃ token expiresAt, phase = .running key token expiresAt
  := by
  have hcalls : (s.enter n phase).calls n = phase := Function.update_self ..
  rw [State.Inside, hcalls]

/-- A call that is not inside stays outside. -/
theorem inside_enter_iff {phase phase' : Phase} (hphase : s.calls n = phase)
    (hbefore : ∀ token expiresAt, phase ≠ .running key token expiresAt)
    (hafter : ∀ token expiresAt, phase' ≠ .running key token expiresAt) (m : ℕ) :
  (s.enter n phase').Inside key m ↔ s.Inside key m
  := by
  by_cases hm : m = n
  · subst hm
    rw [inside_enter_self, State.Inside, hphase]
    exact iff_of_false (fun ⟨_, _, heq⟩ => hafter _ _ heq) (fun ⟨_, _, heq⟩ => hbefore _ _ heq)
  · exact inside_enter_of_ne hm

/-- A call that is inside leaves. -/
theorem moves_leave {token expiresAt : ℕ} {phase : Phase}
    (hphase : s.calls n = .running key token expiresAt)
    (hafter : ∀ token expiresAt, phase ≠ .running key token expiresAt) :
  Moves (s.Inside key) ((s.enter n phase).Inside key) (some (.leave n))
  := by
  refine .leave ⟨token, expiresAt, hphase⟩ ?_
  intro m
  by_cases hm : m = n
  · subst hm
    rw [inside_enter_self]
    exact iff_of_false (fun ⟨_, _, heq⟩ => hafter _ _ heq) (fun h => h.2 rfl)
  · rw [inside_enter_of_ne hm]
    exact (and_iff_left hm).symm

/-- The sections of a key that are running are over in time. -/
def Live (key : String) (s : State) : Prop :=
  ∀ n token expiresAt, s.calls n = .running key token expiresAt → s.now < expiresAt

/-- What a step does to those who are inside, when sections are over in time. -/
theorem Step.moves (hs : Sound s) (h : Step s l s') (hlive : Live key s) (hlive' : Live key s') :
  Moves (s.Inside key) (s'.Inside key) (l.event key)
  := by
  cases h with
  | begin hphase => exact .stay (inside_enter_iff hphase nofun nofun)
  | set hphase => exact .stay (inside_enter_iff hphase nofun nofun)
  | stray => exact .stay fun _ => Iff.rfl
  | busy hphase => exact .stay (inside_enter_iff hphase nofun nofun)
  | giveUp hphase => exact .stay (inside_enter_iff hphase nofun nofun)
  | retry hphase => exact .stay (inside_enter_iff hphase nofun nofun)
  | @enter n token expiresAt key' hphase =>
    rw [Label.event]
    split
    · rename_i hk
      subst hk
      have hnone : ∀ m, ¬ s.Inside key' m := by
        rintro m ⟨token', expiresAt', hm⟩
        have hafter : s.now < expiresAt := hlive' n token expiresAt (Function.update_self ..)
        have hm' : (s.calls m).held = some (key', ⟨token', expiresAt'⟩) := by rw [hm]; rfl
        have hn : (s.calls n).held = some (key', ⟨token, expiresAt⟩) := by rw [hphase]; rfl
        obtain rfl := hs.inside hm' (hlive m token' expiresAt' hm) hn hafter
        rw [hphase] at hm
        cases hm
      refine .enter hnone ?_
      intro m
      by_cases hm : m = n
      · subst hm
        rw [inside_enter_self]
        exact iff_of_true ⟨token, expiresAt, rfl⟩ rfl
      · rw [inside_enter_of_ne hm]
        exact iff_of_false (hnone m) hm
    · rename_i hk
      refine .stay (inside_enter_iff hphase nofun ?_)
      rintro _ _ heq
      cases heq
      exact hk rfl
  | @leave n token expiresAt key' hphase =>
    rw [Label.event]
    split
    · rename_i hk
      subst hk
      exact moves_leave hphase nofun
    · rename_i hk
      refine .stay (inside_enter_iff hphase ?_ nofun)
      rintro _ _ heq
      cases heq
      exact hk rfl
  | @release n token key' hphase =>
    refine .stay ?_
    intro m
    have hphase' : (s.release key' token).calls n = .releasing key' token := by
      rw [State.release_calls, hphase]
    have hiff : ∀ m, ((s.release key' token).enter n .idle).Inside key m
        ↔ (s.release key' token).Inside key m := inside_enter_iff hphase' nofun nofun
    rw [hiff, State.Inside, State.release_calls, State.Inside]
  | releaseFailed hphase => exact .stay (inside_enter_iff hphase nofun nofun)
  | crash hphase => exact .stay (inside_enter_iff rfl (hphase key) nofun)
  | @crashInside n token expiresAt key' hphase =>
    rw [Label.event]
    split
    · rename_i hk
      subst hk
      exact moves_leave hphase nofun
    · rename_i hk
      refine .stay (inside_enter_iff hphase ?_ nofun)
      rintro _ _ heq
      cases heq
      exact hk rfl
  | tick => exact .stay fun _ => Iff.rfl

end Redis

/-- In every run, the key of a section that is running is held by it until it expires, whatever
becomes of the commands of other calls. When the sections of a key are over before it expires, they
exclude each other: their events are those of one section after the other. -/
theorem redis_exclusive :
  (∀ s, system.Reachable s → ∀ n key token expiresAt,
      s.calls n = .running key token expiresAt → s.now < expiresAt →
      s.get key = some ⟨token, expiresAt⟩)
    ∧ ∀ key s₀ ls s, system.init s₀ → (system.restrict (InTime key)).Run s₀ ls s →
      ∃ ns : List ℕ, ∃ holder : Option ℕ,
        ls.filterMap (Label.event key) = ns.flatMap block ++ holder.toList.map .enter
        ∧ ∀ n, s.Inside key n ↔ holder = some n
  := by
  constructor
  · intro s hs n key token expiresAt hphase hlive
    refine State.get_eq_some_iff.mpr ⟨?_, hlive⟩
    apply (sound_of_reachable hs).held n key _ ?_ hlive
    rw [hphase]
    rfl
  · intro key s₀ ls s hinit hrun
    obtain ⟨hidle, _⟩ := id hinit
    have hstep : ∀ s l t, Sound s ∧ Live key s → (system.restrict (InTime key)).step s l t →
        (Sound t ∧ Live key t) ∧ Moves (s.Inside key) (t.Inside key) (l.event key) := by
      rintro s l t ⟨hs, hlive⟩ ⟨hl, hintime⟩
      exact ⟨⟨Step.sound hs hl, hintime⟩, Step.moves hs hl hlive hintime⟩
    have hlive : Live key s₀ := by
      intro n token expiresAt hphase
      rw [hidle] at hphase
      cases hphase
    obtain ⟨holder, hserial, hinside⟩ := serial_of_run (fun s => s.Inside key) (Label.event key)
      hstep hrun ⟨sound_of_reachable (.init hinit), hlive⟩ (by
        rintro m ⟨token, expiresAt, hphase⟩
        rw [hidle] at hphase
        cases hphase)
    obtain ⟨ns, hns⟩ := hserial.blocks
    exact ⟨ns, holder, hns, hinside⟩

/-! ### The lock in memory -/

namespace InMemory

/-- The key that a call has asked for. -/
def Phase.key : Phase → Option String
  | .idle => none
  | .queued key _ | .running key | .settled key | .done key => some key

/-- The calls of a key that have entered, with the events of their sections: the last one may be
inside, or about to resolve its promise; the others have done so. -/
inductive Entered (calls : ℕ → Phase) (key : String) : List ℕ → List Event → Prop where
  | done {past : List ℕ} : (∀ n ∈ past, calls n = .done key) →
      Entered calls key past (past.flatMap block)
  | running {past : List ℕ} {n : ℕ} : (∀ m ∈ past, calls m = .done key) → calls n = .running key →
      Entered calls key (past ++ [n]) (past.flatMap block ++ [.enter n])
  | settled {past : List ℕ} {n : ℕ} : (∀ m ∈ past, calls m = .done key) → calls n = .settled key →
      Entered calls key (past ++ [n]) ((past ++ [n]).flatMap block)

/-- The calls wait, each for the one before. -/
def Waiting (calls : ℕ → Phase) (key : String) : Option ℕ → List ℕ → Prop
  | _, [] => True
  | prev, n :: ns => calls n = .queued key prev ∧ Waiting calls key (some n) ns

/-- The calls of a key, in the order in which they have asked. -/
structure Ordered (s : State) (key : String) (asked : List ℕ) (events : List Event) : Prop where
  chain : s.chains key = asked.getLast?
  nodup : asked.Nodup
  mem_iff : ∀ n, n ∈ asked ↔ (s.calls n).key = some key
  split : ∃ entered waiting, asked = entered ++ waiting ∧ Entered s.calls key entered events
    ∧ Waiting s.calls key entered.getLast? waiting

section InMemory

variable {s s' : State} {l : Label} {calls calls' : ℕ → Phase} {key : String} {n : ℕ}
  {prev : Option ℕ} {past ns asked : List ℕ} {events : List Event}

theorem Entered.congr (h : Entered calls key ns events) (hcalls : ∀ n ∈ ns, calls' n = calls n) :
  Entered calls' key ns events
  := by
  cases h with
  | done hpast => exact .done fun n hn => (hcalls n hn).trans (hpast n hn)
  | running hpast hn =>
    refine .running ?_ ((hcalls _ (by simp)).trans hn)
    exact fun m hm => (hcalls m (by simp [hm])).trans (hpast m hm)
  | settled hpast hn =>
    refine .settled ?_ ((hcalls _ (by simp)).trans hn)
    exact fun m hm => (hcalls m (by simp [hm])).trans (hpast m hm)

theorem Waiting.congr (h : Waiting calls key prev ns) (hcalls : ∀ n ∈ ns, calls' n = calls n) :
  Waiting calls' key prev ns
  := by
  induction ns generalizing prev with
  | nil => trivial
  | cons n ns ih =>
    refine ⟨(hcalls n (by simp)).trans h.1, ih h.2 ?_⟩
    exact fun m hm => hcalls m (by simp [hm])

theorem Waiting.concat (h : Waiting calls key prev ns)
    (hn : calls n = .queued key (ns.getLast?.or prev)) :
  Waiting calls key prev (ns ++ [n])
  := by
  induction ns generalizing prev with
  | nil => exact ⟨hn, trivial⟩
  | cons m ns ih =>
    refine ⟨h.1, ih h.2 ?_⟩
    rw [hn, List.getLast?_cons]
    cases ns.getLast? <;> rfl

theorem Waiting.queued (h : Waiting calls key prev ns) (hn : n ∈ ns) :
  ∃ prev', calls n = .queued key prev'
  := by
  induction ns generalizing prev with
  | nil => cases hn
  | cons m ns ih =>
    rcases List.mem_cons.mp hn with rfl | hn
    · exact ⟨prev, h.1⟩
    · exact ih h.2 hn

/-- Who waits for a call that does not wait itself is the first one. -/
theorem Waiting.prev_cases (h : Waiting calls key prev ns) (hn : n ∈ ns) {prev' : Option ℕ}
    (hphase : calls n = .queued key prev') :
  (prev' = prev ∧ ∃ ns', ns = n :: ns') ∨ ∃ m ∈ ns, prev' = some m
  := by
  induction ns generalizing prev with
  | nil => cases hn
  | cons m ns ih =>
    rcases List.mem_cons.mp hn with rfl | hn
    · rw [h.1] at hphase
      cases hphase
      exact .inl ⟨rfl, ns, rfl⟩
    · rcases ih h.2 hn with ⟨heq, _⟩ | ⟨m', hm', heq⟩
      · exact .inr ⟨m, List.mem_cons_self, heq⟩
      · exact .inr ⟨m', List.mem_cons_of_mem m hm', heq⟩

theorem Waiting.first (h : Waiting s.calls key prev ns) (hn : n ∈ ns) {prev' : Option ℕ}
    (hphase : s.calls n = .queued key prev') (hresolved : s.Resolved prev') :
  prev' = prev ∧ ∃ ns', ns = n :: ns'
  := by
  rcases h.prev_cases hn hphase with hfirst | ⟨m, hm, rfl⟩
  · exact hfirst
  · obtain ⟨prev'', hqueued⟩ := h.queued hm
    obtain ⟨key', hdone⟩ := hresolved
    rw [hqueued] at hdone
    cases hdone

theorem Entered.not_queued (h : Entered calls key ns events) (hn : n ∈ ns) {prev' : Option ℕ} :
  calls n ≠ .queued key prev'
  := by
  intro hqueued
  have hdone : calls n ≠ .done key := by rw [hqueued]; nofun
  cases h with
  | done hpast => exact hdone (hpast n hn)
  | running hpast hphase | settled hpast hphase =>
    rcases List.mem_append.mp hn with hn | hn
    · exact hdone (hpast n hn)
    · obtain rfl := List.mem_singleton.mp hn
      rw [hqueued] at hphase
      cases hphase

/-- When the last one that has entered has resolved its promise, all have. -/
theorem Entered.of_resolved (h : Entered s.calls key ns events)
    (hresolved : s.Resolved ns.getLast?) :
  (∀ n ∈ ns, s.calls n = .done key) ∧ events = ns.flatMap block
  := by
  cases h with
  | done hpast => exact ⟨hpast, rfl⟩
  | running hpast hphase | settled hpast hphase =>
    rw [List.getLast?_concat] at hresolved
    obtain ⟨key', hdone⟩ := hresolved
    rw [hphase] at hdone
    cases hdone

/-- The one that is inside is the last one that has entered. -/
theorem Entered.of_running (h : Entered calls key ns events) (hn : n ∈ ns)
    (hphase : calls n = .running key) :
  ∃ past, ns = past ++ [n] ∧ (∀ m ∈ past, calls m = .done key)
    ∧ events = past.flatMap block ++ [.enter n]
  := by
  have hdone : calls n ≠ .done key := by rw [hphase]; nofun
  cases h with
  | done hpast => exact absurd (hpast n hn) hdone
  | @running past m hpast hm =>
    rcases List.mem_append.mp hn with hn | hn
    · exact absurd (hpast n hn) hdone
    · obtain rfl := List.mem_singleton.mp hn
      exact ⟨past, rfl, hpast, rfl⟩
  | @settled past m hpast hm =>
    rcases List.mem_append.mp hn with hn | hn
    · exact absurd (hpast n hn) hdone
    · obtain rfl := List.mem_singleton.mp hn
      rw [hphase] at hm
      cases hm

theorem Entered.of_settled (h : Entered calls key ns events) (hn : n ∈ ns)
    (hphase : calls n = .settled key) :
  ∃ past, ns = past ++ [n] ∧ (∀ m ∈ past, calls m = .done key)
    ∧ events = (past ++ [n]).flatMap block
  := by
  have hdone : calls n ≠ .done key := by rw [hphase]; nofun
  cases h with
  | done hpast => exact absurd (hpast n hn) hdone
  | @running past m hpast hm =>
    rcases List.mem_append.mp hn with hn | hn
    · exact absurd (hpast n hn) hdone
    · obtain rfl := List.mem_singleton.mp hn
      rw [hphase] at hm
      cases hm
  | @settled past m hpast hm =>
    rcases List.mem_append.mp hn with hn | hn
    · exact absurd (hpast n hn) hdone
    · obtain rfl := List.mem_singleton.mp hn
      exact ⟨past, rfl, hpast, rfl⟩

/-- A call of the key that does not wait has entered. -/
theorem mem_entered {entered waiting : List ℕ} (hwaiting : Waiting calls key prev waiting)
    (hn : n ∈ entered ++ waiting) (hphase : ∀ prev', calls n ≠ .queued key prev') :
  n ∈ entered
  := by
  rcases List.mem_append.mp hn with hn | hn
  · exact hn
  · obtain ⟨prev', hqueued⟩ := hwaiting.queued hn
    exact absurd hqueued (hphase prev')

/-- The steps of the calls of other keys. -/
theorem Ordered.frame (h : Ordered s key asked events) {phase : Phase} {chains : String → Option ℕ}
    (hchains : chains key = s.chains key) (hbefore : (s.calls n).key ≠ some key)
    (hafter : phase.key ≠ some key) :
  Ordered ⟨chains, Function.update s.calls n phase⟩ key asked events
  := by
  have hne : ∀ m ∈ asked, m ≠ n := by
    rintro m hm rfl
    exact hbefore ((h.mem_iff m).mp hm)
  have hcalls : ∀ m ∈ asked, Function.update s.calls n phase m = s.calls m :=
    fun m hm => Function.update_of_ne (hne m hm) ..
  obtain ⟨entered, waiting, heq, hentered, hwaiting⟩ := h.split
  refine ⟨hchains.trans h.chain, h.nodup, ?_, entered, waiting, heq, ?_, ?_⟩
  · intro m
    rw [h.mem_iff]
    change _ ↔ (Function.update s.calls n phase m).key = some key
    by_cases hm : m = n
    · subst hm
      rw [Function.update_self]
      exact iff_of_false hbefore hafter
    · rw [Function.update_of_ne hm]
  · exact hentered.congr fun m hm => hcalls m (by simp [heq, hm])
  · exact hwaiting.congr fun m hm => hcalls m (by simp [heq, hm])

/-- A call of the key goes on. -/
theorem Ordered.goOn (h : Ordered s key asked events) {phase : Phase} {events' : List Event}
    (hbefore : (s.calls n).key = some key) (hafter : phase.key = some key)
    (hsplit : ∃ entered waiting, asked = entered ++ waiting
      ∧ Entered (Function.update s.calls n phase) key entered events'
      ∧ Waiting (Function.update s.calls n phase) key entered.getLast? waiting) :
  Ordered (s.enter n phase) key asked events'
  := by
  refine ⟨h.chain, h.nodup, ?_, hsplit⟩
  intro m
  rw [h.mem_iff]
  change _ ↔ (Function.update s.calls n phase m).key = some key
  by_cases hm : m = n
  · subst hm
    rw [Function.update_self]
    exact iff_of_true hbefore hafter
  · rw [Function.update_of_ne hm]

/-- A call asks for the key. -/
theorem Ordered.call (h : Ordered s key asked events) (hidle : s.calls n = .idle) :
  Ordered (State.enter { s with chains := Function.update s.chains key (some n) } n
    (.queued key (s.chains key))) key (asked ++ [n]) events
  := by
  obtain ⟨entered, waiting, rfl, hentered, hwaiting⟩ := h.split
  have hne : ∀ m ∈ entered ++ waiting, m ≠ n := by
    rintro m hm rfl
    have hkey := (h.mem_iff m).mp hm
    rw [hidle] at hkey
    cases hkey
  have hcalls : ∀ m ∈ entered ++ waiting,
      Function.update s.calls n (.queued key (s.chains key)) m = s.calls m :=
    fun m hm => Function.update_of_ne (hne m hm) ..
  refine ⟨?_, ?_, ?_, entered, waiting ++ [n], List.append_assoc .., ?_, ?_⟩
  · rw [List.getLast?_concat]
    exact Function.update_self ..
  · rw [← List.concat_eq_append]
    exact List.Nodup.concat (fun hn => hne n hn rfl) h.nodup
  · intro m
    change _ ↔ (Function.update s.calls n (.queued key (s.chains key)) m).key = some key
    rw [List.mem_append, List.mem_singleton, h.mem_iff]
    by_cases hm : m = n
    · subst hm
      rw [Function.update_self]
      exact iff_of_true (.inr rfl) rfl
    · rw [Function.update_of_ne hm]
      exact or_iff_left hm
  · exact hentered.congr fun m hm => hcalls m (List.mem_append_left _ hm)
  · apply Waiting.concat
    · exact hwaiting.congr fun m hm => hcalls m (List.mem_append_right _ hm)
    · rw [← List.getLast?_append, ← h.chain]
      exact Function.update_self ..

/-- The promise before is resolved. -/
theorem Ordered.run (h : Ordered s key asked events) (hphase : s.calls n = .queued key prev)
    (hresolved : s.Resolved prev) :
  Ordered (s.enter n (.running key)) key asked (events ++ [.enter n])
  := by
  have hkey : (s.calls n).key = some key := by rw [hphase]; rfl
  obtain ⟨entered, waiting, rfl, hentered, hwaiting⟩ := h.split
  have hn : n ∈ waiting := by
    rcases List.mem_append.mp ((h.mem_iff n).mpr hkey) with hn | hn
    · exact absurd hphase (hentered.not_queued hn)
    · exact hn
  obtain ⟨rfl, ns, rfl⟩ := hwaiting.first hn hphase hresolved
  obtain ⟨hdone, rfl⟩ := hentered.of_resolved hresolved
  have hnodup := List.nodup_append.mp h.nodup
  refine h.goOn hkey rfl ⟨entered ++ [n], ns, by rw [List.append_cons], .running ?_ ?_, ?_⟩
  · intro m hm
    rw [Function.update_of_ne, hdone m hm]
    exact hnodup.2.2 m hm n List.mem_cons_self
  · exact Function.update_self ..
  · rw [List.getLast?_concat]
    apply hwaiting.2.congr
    intro m hm
    apply Function.update_of_ne
    rintro rfl
    exact (List.nodup_cons.mp hnodup.2.1).1 hm

/-- When the last call that has entered goes on, the others stay where they are. -/
theorem Ordered.others {waiting : List ℕ} (h : Ordered s key ((past ++ [n]) ++ waiting) events)
    (hdone : ∀ m ∈ past, s.calls m = .done key)
    (hwaiting : Waiting s.calls key (past ++ [n]).getLast? waiting) (phase : Phase) :
  (∀ m ∈ past, Function.update s.calls n phase m = .done key)
    ∧ Waiting (Function.update s.calls n phase) key (past ++ [n]).getLast? waiting
  := by
  obtain ⟨hentered, _, hdisjoint⟩ := List.nodup_append.mp h.nodup
  obtain ⟨_, _, hpast⟩ := List.nodup_append.mp hentered
  constructor
  · intro m hm
    rw [Function.update_of_ne (hpast m hm n (List.mem_singleton_self n)), hdone m hm]
  · apply hwaiting.congr
    intro m hm
    exact Function.update_of_ne (hdisjoint n (by simp) m hm).symm ..

/-- The section is over. -/
theorem Ordered.settle (h : Ordered s key asked events) (hphase : s.calls n = .running key) :
  Ordered (s.enter n (.settled key)) key asked (events ++ [.leave n])
  := by
  have hkey : (s.calls n).key = some key := by rw [hphase]; rfl
  obtain ⟨entered, waiting, rfl, hentered, hwaiting⟩ := h.split
  have hn := mem_entered hwaiting ((h.mem_iff n).mpr hkey) (by rw [hphase]; nofun)
  obtain ⟨past, rfl, hdone, rfl⟩ := hentered.of_running hn hphase
  obtain ⟨hpast, hwaiting'⟩ := h.others hdone hwaiting (.settled key)
  have hsettled := Entered.settled hpast (Function.update_self n (.settled key) s.calls)
  rw [List.flatMap_append, List.flatMap_singleton] at hsettled
  refine h.goOn hkey rfl ⟨past ++ [n], waiting, rfl, ?_, hwaiting'⟩
  rw [List.append_assoc]
  exact hsettled

/-- The promise is resolved. -/
theorem Ordered.resolve (h : Ordered s key asked events) (hphase : s.calls n = .settled key) :
  Ordered (s.enter n (.done key)) key asked events
  := by
  have hkey : (s.calls n).key = some key := by rw [hphase]; rfl
  obtain ⟨entered, waiting, rfl, hentered, hwaiting⟩ := h.split
  have hn := mem_entered hwaiting ((h.mem_iff n).mpr hkey) (by rw [hphase]; nofun)
  obtain ⟨past, rfl, hdone, rfl⟩ := hentered.of_settled hn hphase
  obtain ⟨hpast, hwaiting'⟩ := h.others hdone hwaiting (.done key)
  refine h.goOn hkey rfl ⟨past ++ [n], waiting, rfl, .done ?_, hwaiting'⟩
  intro m hm
  rcases List.mem_append.mp hm with hm | hm
  · exact hpast m hm
  · rw [List.mem_singleton.mp hm, Function.update_self]

theorem Step.ordered (h : Ordered s key asked events) (hl : Step s l s') :
  Ordered s' key (asked ++ (l.asks key).toList) (events ++ (l.event key).toList)
  := by
  have hother : ∀ {n : ℕ} {key' : String} {phase : Phase}, key' ≠ key →
      (s.calls n).key = some key' → phase.key = some key' →
      Ordered (s.enter n phase) key asked events := by
    intro n key' phase hk hbefore hafter
    refine h.frame rfl ?_ ?_
    · rw [hbefore]
      exact fun heq => hk (Option.some.inj heq)
    · rw [hafter]
      exact fun heq => hk (Option.some.inj heq)
  cases hl with
  | @call n key' hidle =>
    rw [Label.asks, Label.event, Option.toList_none, List.append_nil]
    split
    · rename_i hk
      subst hk
      exact h.call hidle
    · rename_i hk
      rw [Option.toList_none, List.append_nil]
      refine h.frame (Function.update_of_ne (Ne.symm hk) ..) (by rw [hidle]; nofun) ?_
      exact fun heq => hk (Option.some.inj heq)
  | @enter n key' prev hphase hresolved =>
    rw [Label.asks, Label.event, Option.toList_none, List.append_nil]
    split
    · rename_i hk
      subst hk
      exact h.run hphase hresolved
    · rename_i hk
      rw [Option.toList_none, List.append_nil]
      exact hother hk (by rw [hphase]; rfl) rfl
  | @leave n key' hphase =>
    rw [Label.asks, Label.event, Option.toList_none, List.append_nil]
    split
    · rename_i hk
      subst hk
      exact h.settle hphase
    · rename_i hk
      rw [Option.toList_none, List.append_nil]
      exact hother hk (by rw [hphase]; rfl) rfl
  | @resolve n key' hphase =>
    rw [Label.asks, Label.event, Option.toList_none, List.append_nil, Option.toList_none,
      List.append_nil]
    by_cases hk : key' = key
    · subst hk
      exact h.resolve hphase
    · exact hother hk (by rw [hphase]; rfl) rfl

theorem ordered_of_run {s₀ : State} {ls : List Label} (hinit : system.init s₀)
    (h : system.Run s₀ ls s) :
  Ordered s key (ls.filterMap (Label.asks key)) (ls.filterMap (Label.event key))
  := by
  induction h with
  | nil =>
    obtain ⟨hidle, hchains⟩ := hinit
    refine ⟨hchains key, List.nodup_nil, ?_, [], [], rfl, .done nofun, trivial⟩
    intro n
    rw [hidle]
    exact iff_of_false nofun nofun
  | @snoc t t' ls l _ hl ih =>
    have hsingle : ∀ {α : Type} (f : Label → Option α), [l].filterMap f = (f l).toList := by
      intro α f
      rw [List.filterMap_cons, List.filterMap_nil]
      cases f l <;> rfl
    rw [List.filterMap_append, List.filterMap_append, hsingle, hsingle]
    exact Step.ordered ih hl

/-- The calls of a key go on as long as one of them is not done. -/
theorem Ordered.progress (h : Ordered s key asked events) (hn : n ∈ asked)
    (hphase : s.calls n ≠ .done key) :
  ∃ m ∈ asked, ∃ phase l, Step s l (s.enter m phase)
  := by
  obtain ⟨entered, waiting, rfl, hentered, hwaiting⟩ := h.split
  cases hentered with
  | @running past m hpast hm => exact ⟨m, by simp, _, _, .leave hm⟩
  | @settled past m hpast hm => exact ⟨m, by simp, _, _, .resolve hm⟩
  | done hpast =>
    cases waiting with
    | nil =>
      rw [List.append_nil] at hn
      exact absurd (hpast n hn) hphase
    | cons m waiting =>
      refine ⟨m, by simp, _, _, .enter hwaiting.1 ?_⟩
      cases hlast : entered.getLast? with
      | none => trivial
      | some k => exact ⟨key, hpast k (List.mem_of_getLast? hlast)⟩

/-- Who is inside is the last one that has entered. -/
theorem Ordered.holder (h : Ordered s key asked events) :
  ∃ ns : List ℕ, ∃ holder : Option ℕ, events = ns.flatMap block ++ holder.toList.map .enter
    ∧ (∀ n, s.calls n = .running key ↔ holder = some n) ∧ ns ++ holder.toList <+: asked
  := by
  obtain ⟨entered, waiting, rfl, hentered, hwaiting⟩ := h.split
  have hinside : ∀ n, s.calls n = .running key →
      n ∈ entered ∧ ∃ past, entered = past ++ [n] ∧ events = past.flatMap block ++ [.enter n] := by
    intro n hn
    have hkey : (s.calls n).key = some key := by rw [hn]; rfl
    have hmem := mem_entered hwaiting ((h.mem_iff n).mpr hkey) (by rw [hn]; nofun)
    obtain ⟨past, heq, _, hevents⟩ := hentered.of_running hmem hn
    exact ⟨hmem, past, heq, hevents⟩
  cases hentered with
  | done hpast =>
    refine ⟨entered, none, by simp, ?_, by simp⟩
    intro n
    refine iff_of_false ?_ nofun
    intro hn
    have hdone := hpast n (hinside n hn).1
    rw [hn] at hdone
    cases hdone
  | @running past m hpast hm =>
    refine ⟨past, some m, rfl, ?_, List.prefix_append ..⟩
    intro n
    constructor
    · intro hn
      obtain ⟨_, past', heq, _⟩ := hinside n hn
      obtain ⟨_, hlast⟩ := List.append_inj' heq rfl
      rw [List.singleton_inj.mp hlast]
    · intro heq
      rw [← Option.some.inj heq, hm]
  | @settled past m hpast hm =>
    refine ⟨past ++ [m], none, by simp, ?_, by simp⟩
    intro n
    refine iff_of_false ?_ nofun
    intro hn
    obtain ⟨_, past', heq, _⟩ := hinside n hn
    obtain ⟨_, hlast⟩ := List.append_inj' heq rfl
    rw [List.singleton_inj.mp hlast, hn] at hm
    cases hm

end InMemory

/-- In every run, the calls of a key enter in the order in which they have asked for it, and their
sections are one after the other. As long as one of them is not done, one of them can go on,
however the sections before have ended. -/
theorem inMemory_exclusive {s₀ s : State} {ls : List Label} (hinit : system.init s₀)
    (hrun : system.Run s₀ ls s) (key : String) :
  ∃ ns : List ℕ, ∃ holder : Option ℕ,
    ls.filterMap (Label.event key) = ns.flatMap block ++ holder.toList.map .enter
      ∧ (∀ n, s.calls n = .running key ↔ holder = some n)
      ∧ ns ++ holder.toList <+: ls.filterMap (Label.asks key)
      ∧ ∀ n ∈ ls.filterMap (Label.asks key), s.calls n ≠ .done key →
        ∃ m ∈ ls.filterMap (Label.asks key), ∃ phase l, Step s l (s.enter m phase)
  := by
  have hordered : Ordered s key (ls.filterMap (Label.asks key)) (ls.filterMap (Label.event key)) :=
    ordered_of_run hinit hrun
  obtain ⟨ns, holder, hevents, hinside, hprefix⟩ := hordered.holder
  exact ⟨ns, holder, hevents, hinside, hprefix, fun n hn hphase => hordered.progress hn hphase⟩

/-- No call has been made. -/
def sampleState : State := ⟨fun _ => none, fun _ => .idle⟩

theorem inMemory_exclusive_sampleState :
  ∃ ls : List Label, ∃ s : State, s.calls 1 = .running "account" ∧
    ∃ ns : List ℕ, ∃ holder : Option ℕ,
    ls.filterMap (Label.event "account") = ns.flatMap block ++ holder.toList.map .enter
      ∧ (∀ n, s.calls n = .running "account" ↔ holder = some n)
      ∧ ns ++ holder.toList <+: ls.filterMap (Label.asks "account")
      ∧ ∀ n ∈ ls.filterMap (Label.asks "account"), s.calls n ≠ .done "account" →
        ∃ m ∈ ls.filterMap (Label.asks "account"), ∃ phase l, Step s l (s.enter m phase)
  := by
  have hinit : system.Run sampleState [] sampleState := .nil _
  have hcall := hinit.snoc (@Step.call _ 0 "account" rfl)
  have hcall' := hcall.snoc (@Step.call _ 1 "account" rfl)
  have henter := hcall'.snoc (@Step.enter _ 0 "account" none rfl trivial)
  have hleave := henter.snoc (@Step.leave _ 0 "account" rfl)
  have hresolve := hleave.snoc (@Step.resolve _ 0 "account" rfl)
  have henter' := hresolve.snoc (@Step.enter _ 1 "account" (some 0) rfl ⟨"account", rfl⟩)
  exact ⟨_, _, rfl, inMemory_exclusive ⟨fun _ => rfl, fun _ => rfl⟩ henter' "account"⟩

end InMemory

end AccountLock
