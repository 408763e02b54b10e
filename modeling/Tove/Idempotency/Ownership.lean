import Tove.Idempotency.Store

/-!
# Who owns a record

A record is owned by the claim that made it until it expires or is released by the token of the
claim; whoever reads the body of a response reads what the owner has written.
-/

namespace Idempotency

open Js Json Transition

variable {ν : Type} [Numeral ν] {s s' s₀ : State} {l : Label ν} {ls : List (Label ν)}
  {key token fingerprint : JsString} {record : StoredRecord}

/-- The record of the key is live, and has the token and the fingerprint. -/
def Owns (s : State) (key fingerprint token : JsString) : Prop :=
  ∃ record, s.records key = some record ∧ record.f = fingerprint ∧ record.t = token

/-- The key of the record that has expired. -/
def Label.expired : Label ν → Option JsString
  | .retry key | .gaveUp key _ | .expire key => some key
  | _ => none

/-- What a call of `begin` has been answered. -/
def Label.answered : Label ν → Option (JsString × JsString × IdempotencyBegin ν)
  | .answer key fingerprint outcome => some (key, fingerprint, outcome)
  | .gaveUp key fingerprint => some (key, fingerprint, .inFlight)
  | _ => none

/-- The label is the claim of a key. -/
def Label.Claims (l : Label ν) (key : JsString) : Prop :=
  ∃ fingerprint token, l = .answer key fingerprint (.proceed token)

/-! ### What a step does to a record -/

section Steps

variable {slot : Option StoredRecord}

theorem BEGIN_cases {slot slot' : Option StoredRecord} {pending : StoredRecord} {expires : Bool}
    {reply : Reply} (h : BEGIN slot pending expires = (slot', reply)) :
  slot = none ∧ slot' = some pending ∧ reply = .PROCEED
    ∨ (∃ record, slot = some record ∧ slot' = none ∧ reply = .RETRY)
    ∨ ∃ record, slot = some record ∧ slot' = some record ∧ reply = .raw record
  := by
  cases slot with
  | none =>
    obtain ⟨rfl, rfl⟩ := Prod.mk.inj h
    exact .inl ⟨rfl, rfl, rfl⟩
  | some record =>
    cases expires with
    | true =>
      obtain ⟨rfl, rfl⟩ := Prod.mk.inj h
      exact .inr (.inl ⟨record, rfl, rfl, rfl⟩)
    | false =>
      obtain ⟨rfl, rfl⟩ := Prod.mk.inj h
      exact .inr (.inr ⟨record, rfl, rfl, rfl⟩)

/-- A record that is not that of the token is left alone. -/
theorem COMPLETE_cases (slot : Option StoredRecord) (token b : JsString) :
  (∃ record, slot = some record ∧ record.t = token
      ∧ (COMPLETE slot token b).1 = some { record with s := .done, b := some b })
    ∨ (∀ record, slot = some record → record.t ≠ token) ∧ (COMPLETE slot token b).1 = slot
  := by
  rcases slot with _ | record
  · exact .inr ⟨nofun, rfl⟩
  · by_cases htoken : record.t = token
    · left
      exact ⟨record, rfl, htoken, by simp [COMPLETE, htoken]⟩
    · right
      exact ⟨fun _ h => Option.some.inj h ▸ htoken, by simp [COMPLETE, htoken]⟩

theorem FAIL_cases (slot : Option StoredRecord) (token : JsString) :
  (∃ record, slot = some record ∧ record.t = token ∧ (FAIL slot token).1 = none)
    ∨ (∀ record, slot = some record → record.t ≠ token) ∧ (FAIL slot token).1 = slot
  := by
  rcases slot with _ | record
  · exact .inr ⟨nofun, rfl⟩
  · by_cases htoken : record.t = token
    · left
      exact ⟨record, rfl, htoken, by simp [FAIL, htoken]⟩
    · right
      exact ⟨fun _ h => Option.some.inj h ▸ htoken, by simp [FAIL, htoken]⟩

/-- What `begin` makes of a record. -/
theorem classify_cases {outcome : IdempotencyBegin ν}
    (h : classify record fingerprint = some outcome) :
  record.f ≠ fingerprint ∧ outcome = .mismatch
    ∨ record.f = fingerprint ∧ record.s = .pending ∧ outcome = .inFlight
    ∨ record.f = fingerprint ∧ record.s ≠ .pending ∧ record.b = none ∧ outcome = .replay none
    ∨ record.f = fingerprint ∧ record.s ≠ .pending
      ∧ ∃ b body, record.b = some b ∧ parse b = some body ∧ outcome = .replay (some body)
  := by
  rw [classify] at h
  split_ifs at h with hfingerprint hpending
  · exact .inl ⟨hfingerprint, (Option.some.inj h).symm⟩
  · exact .inr (.inl ⟨not_not.mp hfingerprint, hpending, (Option.some.inj h).symm⟩)
  · right; right
    split at h
    · rename_i hb
      exact .inl ⟨not_not.mp hfingerprint, hpending, hb, (Option.some.inj h).symm⟩
    · rename_i b hb
      rw [Option.map_eq_some_iff] at h
      obtain ⟨body, hbody, rfl⟩ := h
      exact .inr ⟨not_not.mp hfingerprint, hpending, b, body, hb, hbody, rfl⟩

theorem write_self (h : slot = s.records key) :
  (s.write key slot).records = s.records
  := by
  rw [h]
  apply Function.update_eq_self

/-- What a step does to the records. -/
inductive Effect (s : State) (l : Label ν) (s' : State) : Prop where
  /-- No record is touched. -/
  | nothing : s'.records = s.records → l.expired = none → (∀ key, ¬ l.Claims key) → Effect s l s'
  | claimed {key fingerprint token : JsString} : l = .answer key fingerprint (.proceed token) →
      token ∉ s.tokens → token ∈ s'.tokens → s.records key = none →
      s'.records = Function.update s.records key (some ⟨.pending, fingerprint, token, none⟩) →
      Effect s l s'
  | expired {key : JsString} {record : StoredRecord} : l.expired = some key →
      s.records key = some record → s'.records = Function.update s.records key none → Effect s l s'
  | completed {key : JsString} {body : Value ν} {record : StoredRecord} :
      l = .complete key record.t body → s.records key = some record →
      s'.records = Function.update s.records key
        (some { record with s := .done, b := some (stringify body) }) → Effect s l s'
  | failed {key : JsString} {record : StoredRecord} : l = .fail key record.t →
      s.records key = some record → s'.records = Function.update s.records key none → Effect s l s'

/-- Every step has an effect. -/
theorem Step.effect (h : Step s l s') :
  Effect s l s'
  := by
  cases h with
  | call => exact .nothing rfl rfl nofun
  | reject => exact .nothing rfl rfl nofun
  | @proceed n call token expires slot _ hfresh hbegin =>
    rcases BEGIN_cases hbegin with ⟨hnone, rfl, _⟩ | ⟨_, _, _, hreply⟩ | ⟨_, _, _, hreply⟩
    · exact .claimed rfl hfresh (List.mem_cons_self ..) hnone rfl
    · cases hreply
    · cases hreply
  | @classify n call token expires slot record outcome _ _ hbegin hclassify =>
    rcases BEGIN_cases hbegin with ⟨_, _, hreply⟩ | ⟨_, _, _, hreply⟩ | ⟨_, hslot, rfl, _⟩
    · cases hreply
    · cases hreply
    · have hself := write_self hslot.symm
      refine .nothing hself rfl ?_
      rintro key ⟨_, _, hclaim⟩
      rcases classify_cases hclassify with
        ⟨_, rfl⟩ | ⟨_, _, rfl⟩ | ⟨_, _, _, rfl⟩ | ⟨_, _, _, _, _, _, rfl⟩ <;> cases hclaim
  | @retry n call token expires slot _ _ hbegin =>
    rcases BEGIN_cases hbegin with ⟨_, _, hreply⟩ | ⟨record, hslot, rfl, _⟩ | ⟨_, _, _, hreply⟩
    · cases hreply
    · exact .expired rfl hslot rfl
    · cases hreply
  | @gaveUp n call token expires slot _ _ hbegin =>
    rcases BEGIN_cases hbegin with ⟨_, _, hreply⟩ | ⟨record, hslot, rfl, _⟩ | ⟨_, _, _, hreply⟩
    · cases hreply
    · exact .expired rfl hslot rfl
    · cases hreply
  | @complete key token body =>
    rcases COMPLETE_cases (s.records key) token (stringify body) with
      ⟨record, hrecord, rfl, hslot⟩ | ⟨_, hslot⟩
    · apply Effect.completed rfl hrecord
      rw [hslot]
      rfl
    · exact .nothing (write_self hslot) rfl nofun
  | @fail key token =>
    rcases FAIL_cases (s.records key) token with ⟨record, hrecord, rfl, hslot⟩ | ⟨_, hslot⟩
    · apply Effect.failed rfl hrecord
      rw [hslot]
      rfl
    · exact .nothing (write_self hslot) rfl nofun
  | expire hrecord => exact .expired rfl hrecord rfl

end Steps

/-! ### What a run does to a record -/

section Runs

/-- The token is that of the record of the key. -/
def Owner (s : State) (key token : JsString) : Prop :=
  ∃ record, s.records key = some record ∧ record.t = token

/-- A claim with the fingerprint has completed with the body, when it owned the record. -/
def CompletedBy (s₀ : State) (ls : List (Label ν)) (s : State) (key fingerprint token : JsString)
    (body : Value ν) : Prop :=
  ∃ ls₁ s₁ ls₂, ls = ls₁ ++ .complete key token body :: ls₂ ∧ system.Run s₀ ls₁ s₁
    ∧ system.Run s₁ (.complete key token body :: ls₂) s
    ∧ .answer key fingerprint (.proceed token) ∈ ls₁ ∧ Owns s₁ key fingerprint token

theorem CompletedBy.snoc {body : Value ν} (h : CompletedBy s₀ ls s key fingerprint token body)
    (hstep : Step s l s') :
  CompletedBy s₀ (ls ++ [l]) s' key fingerprint token body
  := by
  obtain ⟨ls₁, s₁, ls₂, rfl, hbefore, hafter, hclaim, howns⟩ := h
  refine ⟨ls₁, s₁, ls₂ ++ [l], ?_, hbefore, hafter.snoc hstep, hclaim, howns⟩
  rw [List.append_assoc, List.cons_append]

/-- What is known of a record: the claim that made it, and, once it is done, whose body it has. -/
structure Known (s₀ : State) (ls : List (Label ν)) (s : State) (key : JsString)
    (record : StoredRecord) : Prop where
  claimed : .answer key record.f (.proceed record.t) ∈ ls
  done : record.s ≠ .pending →
    ∃ body, record.b = some (stringify body) ∧ CompletedBy s₀ ls s key record.f record.t body

theorem Known.snoc (h : Known s₀ ls s key record) (hstep : Step s l s') :
  Known s₀ (ls ++ [l]) s' key record
  := by
  constructor
  · apply List.mem_append_left [l] h.claimed
  · intro hdone
    obtain ⟨body, hbody, hcompleted⟩ := h.done hdone
    exact ⟨body, hbody, hcompleted.snoc hstep⟩

/-- Every record is known. -/
theorem known_of_run (hinit : (system (ν := ν)).init s₀) (hrun : system.Run s₀ ls s) :
  ∀ key record, s.records key = some record → Known s₀ ls s key record
  := by
  induction hrun with
  | nil =>
    intro key record hrecord
    rw [hinit.1] at hrecord
    cases hrecord
  | @snoc s s' ls l hrun hstep ih =>
    intro key record hrecord
    cases Step.effect hstep with
    | nothing hsame =>
      rw [hsame] at hrecord
      apply (ih key record hrecord).snoc hstep
    | @claimed key' fingerprint token hl _ _ _ hnew =>
      rw [hnew, Function.update_apply] at hrecord
      split at hrecord
      · rename_i hkey
        obtain rfl := Option.some.inj hrecord
        rw [hkey, hl]
        exact ⟨by simp, fun hdone => absurd rfl hdone⟩
      · apply (ih key record hrecord).snoc hstep
    | @expired key' record' _ _ hnew =>
      rw [hnew, Function.update_apply] at hrecord
      split at hrecord
      · cases hrecord
      · apply (ih key record hrecord).snoc hstep
    | @completed key' body record' hl hold hnew =>
      rw [hnew, Function.update_apply] at hrecord
      split at hrecord
      · rename_i hkey
        obtain rfl := Option.some.inj hrecord
        have hknown := ih key' record' hold
        rw [hkey]
        refine ⟨List.mem_append_left [l] hknown.claimed, fun _ => ⟨body, rfl, ls, s, [], ?_⟩⟩
        rw [← hl]
        exact ⟨rfl, hrun, .single hstep, hknown.claimed, record', hold, rfl, rfl⟩
      · apply (ih key record hrecord).snoc hstep
    | @failed key' record' _ _ hnew =>
      rw [hnew, Function.update_apply] at hrecord
      split at hrecord
      · cases hrecord
      · apply (ih key record hrecord).snoc hstep

/-- A claim has lost its record: its own token has released it, or it has expired. -/
def EndedBy (s : State) (ls : List (Label ν)) (key fingerprint token : JsString) : Prop :=
  ∃ ls₁ u l ls₂, ls = ls₁ ++ l :: ls₂ ∧ system.Run s ls₁ u ∧ Owns u key fingerprint token
    ∧ (l = .fail key token ∨ l.expired = some key)

/-- A claim owns its record until it is ended. -/
theorem owns_or_ended (howns : Owns s key fingerprint token) (hrun : system.Run s ls s') :
  Owns s' key fingerprint token ∨ EndedBy s ls key fingerprint token
  := by
  induction hrun with
  | nil => exact .inl howns
  | @snoc s₁ s₂ ls l hrun hstep ih =>
    rcases ih with hstill | ⟨ls₁, u, l', ls₂, rfl, hbefore, howned, hended⟩
    · have hends : l = .fail key token ∨ l.expired = some key →
          EndedBy s (ls ++ [l]) key fingerprint token :=
        fun hended => ⟨ls, s₁, l, [], rfl, hrun, hstill, hended⟩
      obtain ⟨record, hrecord, hfingerprint, htoken⟩ := hstill
      cases Step.effect hstep with
      | nothing hsame =>
        left
        exact ⟨record, by rw [hsame, hrecord], hfingerprint, htoken⟩
      | @claimed key' _ _ _ _ _ hnone hnew =>
        left
        refine ⟨record, ?_, hfingerprint, htoken⟩
        rw [hnew, Function.update_of_ne, hrecord]
        rintro rfl
        rw [hnone] at hrecord
        cases hrecord
      | @expired key' record' hl hold hnew =>
        by_cases hkey : key' = key
        · right
          apply hends (.inr (hkey ▸ hl))
        · left
          exact ⟨record, by rw [hnew, Function.update_of_ne (Ne.symm hkey), hrecord], hfingerprint,
            htoken⟩
      | @completed key' body record' hl hold hnew =>
        left
        by_cases hkey : key' = key
        · subst hkey
          obtain rfl := Option.some.inj (hold.symm.trans hrecord)
          exact ⟨{ record' with s := .done, b := some (stringify body) },
            by rw [hnew, Function.update_self], hfingerprint, htoken⟩
        · exact ⟨record, by rw [hnew, Function.update_of_ne (Ne.symm hkey), hrecord], hfingerprint,
            htoken⟩
      | @failed key' record' hl hold hnew =>
        by_cases hkey : key' = key
        · right
          subst hkey
          obtain rfl := Option.some.inj (hold.symm.trans hrecord)
          apply hends (.inl (htoken ▸ hl))
        · left
          exact ⟨record, by rw [hnew, Function.update_of_ne (Ne.symm hkey), hrecord], hfingerprint,
            htoken⟩
    · right
      refine ⟨ls₁, u, l', ls₂ ++ [l], ?_, hbefore, howned, hended⟩
      rw [List.append_assoc, List.cons_append]

/-- What is drawn stays drawn. -/
theorem tokens_subset (hstep : Step s l s') :
  s.tokens ⊆ s'.tokens
  := by
  cases hstep with
  | proceed | classify | retry | gaveUp => apply List.subset_cons_self
  | call | reject | complete | fail | expire => apply List.Subset.refl

/-- A token that has been drawn and does not own the record of a key will not own one. -/
theorem not_owner_step (hstep : Step s l s') (hdrawn : token ∈ s.tokens)
    (hnot : ¬ Owner s key token) :
  ¬ Owner s' key token
  := by
  rintro ⟨record, hrecord, rfl⟩
  have hold : s.records key ≠ some record := fun hrecord => hnot ⟨record, hrecord, rfl⟩
  cases Step.effect hstep with
  | nothing hsame => exact hold (hsame ▸ hrecord)
  | @claimed key' _ _ _ hfresh _ _ hnew =>
    rw [hnew, Function.update_apply] at hrecord
    split at hrecord
    · obtain rfl := Option.some.inj hrecord
      exact hfresh hdrawn
    · exact hold hrecord
  | @expired key' record' _ _ hnew =>
    rw [hnew, Function.update_apply] at hrecord
    split at hrecord
    · cases hrecord
    · exact hold hrecord
  | @completed key' body record' _ hold' hnew =>
    rw [hnew, Function.update_apply] at hrecord
    split at hrecord
    · rename_i hkey
      obtain rfl := Option.some.inj hrecord
      exact hnot ⟨record', hkey ▸ hold', rfl⟩
    · exact hold hrecord
  | @failed key' record' _ _ hnew =>
    rw [hnew, Function.update_apply] at hrecord
    split at hrecord
    · cases hrecord
    · exact hold hrecord

theorem write_same (h : slot = s.records key) :
  s.write key slot = s
  := by
  rw [State.write, h, Function.update_eq_self]

/-- What the store answers is right: at a step that comes after a run. -/
structure Correct (s₀ : State) (ls : List (Label ν)) (s : State) (l : Label ν) (s' : State) :
    Prop where
  /-- What is replayed is the body with which a claim on the same key with the same fingerprint has
  completed, when it owned the record. -/
  replay : ∀ key fingerprint body, l = .answer key fingerprint (.replay body) →
    ∃ v token, body = some v ∧ CompletedBy s₀ ls s key fingerprint token v
  /-- A token that does not own the record changes nothing. -/
  stale : ∀ key token, ¬ Owner s key token →
    (∀ body, l = .complete key token body → s' = s) ∧ (l = .fail key token → s' = s)
  /-- A token that does not own the record will not own one. -/
  lost : ∀ key token, token ∈ s.tokens → ¬ Owner s key token →
    token ∈ s'.tokens ∧ ¬ Owner s' key token
  /-- Between two claims on a key, the earlier one has lost its record. -/
  ended : ∀ key fingerprint fingerprint' token token' ls₁ ls₂,
    ls = ls₁ ++ .answer key fingerprint (.proceed token) :: ls₂ →
    l = .answer key fingerprint' (.proceed token') →
    ∃ s₁, system.Run s₀ (ls₁ ++ [.answer key fingerprint (.proceed token)]) s₁
      ∧ EndedBy s₁ ls₂ key fingerprint token
  /-- A mismatch is answered if and only if the record that is live has another fingerprint. -/
  mismatch : ∀ key fingerprint outcome, l.answered = some (key, fingerprint, outcome) →
    (outcome = .mismatch ↔ ∃ record, s'.records key = some record ∧ record.f ≠ fingerprint)

/-- A step in which the store reads a record answers what the record says. -/
theorem answer_cases {outcome : IdempotencyBegin ν}
    (hstep : Step s (.answer key fingerprint outcome) s') :
  (∃ token, outcome = .proceed token ∧ s.records key = none
      ∧ s'.records key = some ⟨.pending, fingerprint, token, none⟩)
    ∨ ∃ record, s.records key = some record ∧ s'.records = s.records
      ∧ classify record fingerprint = some outcome
  := by
  cases hstep with
  | @proceed n call token expires slot _ _ hbegin =>
    rcases BEGIN_cases hbegin with ⟨hnone, rfl, _⟩ | ⟨_, _, _, hreply⟩ | ⟨_, _, _, hreply⟩
    · left
      exact ⟨token, rfl, hnone, Function.update_self ..⟩
    · cases hreply
    · cases hreply
  | @classify n call token expires slot record outcome _ _ hbegin hclassify =>
    rcases BEGIN_cases hbegin with ⟨_, _, hreply⟩ | ⟨_, _, _, hreply⟩ | ⟨_, hslot, rfl, hreply⟩
    · cases hreply
    · cases hreply
    · right
      cases hreply
      have hself := write_self hslot.symm
      exact ⟨record, hslot, hself, hclassify⟩

/-- A key that is claimed has had no record, and has that of the claim. -/
theorem claim_cases (hstep : Step (ν := ν) s (.answer key fingerprint (.proceed token)) s') :
  s.records key = none ∧ s'.records key = some ⟨.pending, fingerprint, token, none⟩
  := by
  rcases answer_cases hstep with ⟨_, houtcome, hnone, hnew⟩ | ⟨_, _, _, hclassify⟩
  · cases houtcome
    exact ⟨hnone, hnew⟩
  · rcases classify_cases hclassify with
      ⟨_, houtcome⟩ | ⟨_, _, houtcome⟩ | ⟨_, _, _, houtcome⟩ | ⟨_, _, _, _, _, _, houtcome⟩ <;>
      cases houtcome

/-- The store is correct. -/
theorem store_correct (hinit : (system (ν := ν)).init s₀) (hrun : system.Run s₀ ls s)
    (hstep : Step s l s') :
  Correct s₀ ls s l s'
  := by
  constructor
  case replay =>
    rintro key fingerprint body rfl
    rcases answer_cases hstep with ⟨_, houtcome, _⟩ | ⟨record, hrecord, _, hclassify⟩
    · cases houtcome
    · have hknown := known_of_run hinit hrun key record hrecord
      rcases classify_cases hclassify with
        ⟨_, houtcome⟩ | ⟨_, _, houtcome⟩ | ⟨_, hdone, hb, _⟩ | ⟨rfl, hdone, b, v, hb,
          hparse, houtcome⟩
      · cases houtcome
      · cases houtcome
      · obtain ⟨v, hb', _⟩ := hknown.done hdone
        rw [hb] at hb'
        cases hb'
      · obtain ⟨v', hb', hcompleted⟩ := hknown.done hdone
        obtain rfl := Option.some.inj (hb.symm.trans hb')
        rw [parse_stringify] at hparse
        obtain rfl := Option.some.inj hparse
        cases houtcome
        exact ⟨v', record.t, rfl, hcompleted⟩
  case stale =>
    intro key token hnot
    constructor
    · rintro body rfl
      cases hstep with
      | complete =>
        rcases COMPLETE_cases (s.records key) token (stringify body) with
          ⟨record, hrecord, htoken, _⟩ | ⟨_, hslot⟩
        · exact absurd ⟨record, hrecord, htoken⟩ hnot
        · apply write_same hslot
    · rintro rfl
      cases hstep with
      | fail =>
        rcases FAIL_cases (s.records key) token with ⟨record, hrecord, htoken, _⟩ | ⟨_, hslot⟩
        · exact absurd ⟨record, hrecord, htoken⟩ hnot
        · apply write_same hslot
  case lost =>
    intro key token hdrawn hnot
    exact ⟨tokens_subset hstep hdrawn, not_owner_step hstep hdrawn hnot⟩
  case ended =>
    rintro key fingerprint fingerprint' token token' ls₁ ls₂ rfl rfl
    obtain ⟨s₁, hfirst, hrest⟩ := hrun.of_append (List.append_cons ..)
    obtain ⟨s₂, _, hclaim⟩ := hfirst.of_append rfl
    have howns : Owns s₁ key fingerprint token := by
      have hrecord := (claim_cases (hclaim.of_singleton rfl)).2
      exact ⟨_, hrecord, rfl, rfl⟩
    refine ⟨s₁, hfirst, ?_⟩
    rcases owns_or_ended howns hrest with ⟨record, hrecord, _⟩ | hended
    · rw [(claim_cases hstep).1] at hrecord
      cases hrecord
    · apply hended
  case mismatch =>
    intro key fingerprint outcome hanswered
    cases l with
    | answer key' fingerprint' outcome' =>
      obtain ⟨rfl, rfl, rfl⟩ : key' = key ∧ fingerprint' = fingerprint ∧ outcome' = outcome := by
        simpa [Label.answered] using hanswered
      rcases answer_cases hstep with ⟨token, rfl, _, hnew⟩ | ⟨record, hrecord, hsame, hclassify⟩
      · simp [hnew]
      · rw [hsame]
        rcases classify_cases hclassify with
          ⟨hne, rfl⟩ | ⟨heq, _, rfl⟩ | ⟨heq, _, _, rfl⟩ | ⟨heq, _, _, _, _, _, rfl⟩
        · simpa [hrecord] using hne
        all_goals simp [hrecord, heq]
    | gaveUp key' fingerprint' =>
      obtain ⟨rfl, rfl, rfl⟩ : key' = key ∧ fingerprint' = fingerprint ∧ .inFlight = outcome := by
        simpa [Label.answered] using hanswered
      cases Step.effect hstep with
      | @expired key _ hkey _ hnew =>
        obtain rfl := Option.some.inj hkey
        simp [hnew]
      | nothing _ hnot => cases hnot
      | claimed hl => cases hl
      | completed hl => cases hl
      | failed hl => cases hl
    | other | retry | complete | fail | expire => cases hanswered

def sampleStore : State := ⟨fun _ => none, [], fun _ => none⟩

def sampleBody : Value ℤ := .obj [([3], .num 4)]

/-- A request is completed, and its response is replayed. -/
theorem store_correct_sample :
  ∃ ls s s', system.Run sampleStore ls s
    ∧ Step s (.answer [1] [2] (.replay (some sampleBody))) s'
    ∧ Correct sampleStore ls s (.answer [1] [2] (.replay (some sampleBody))) s'
  := by
  have hinit : (system (ν := ℤ)).init sampleStore := ⟨fun _ => rfl, rfl, fun _ => rfl⟩
  have hcall := System.Run.single (S := system) (@Step.call ℤ _ sampleStore 0 [1] [2] rfl)
  have hclaim := hcall.snoc
    (@Step.proceed ℤ _ _ 0 ⟨[1], [2], 0⟩ [5] false _ rfl List.not_mem_nil rfl)
  have hcomplete := hclaim.snoc (@Step.complete ℤ _ _ [1] [5] sampleBody)
  obtain ⟨ls, s, hrun, hcalls, htokens, hrecord⟩ : ∃ ls s, (system (ν := ℤ)).Run sampleStore ls s
      ∧ s.calls 0 = some ⟨[1], [2], 0⟩ ∧ s.tokens = [[5]]
      ∧ s.records [1] = some ⟨.done, [2], [5], some (stringify sampleBody)⟩ :=
    ⟨_, _, hcomplete.snoc (@Step.call ℤ _ _ 0 [1] [2] rfl), rfl, rfl, rfl⟩
  have hfresh : [6] ∉ s.tokens := by
    rw [htokens]
    decide
  have hbegin : BEGIN (s.records [1]) (BeginCall.pending ⟨[1], [2], 0⟩ [6]) false
      = (s.records [1], .raw ⟨.done, [2], [5], some (stringify sampleBody)⟩) := by
    rw [hrecord]
    rfl
  have hclassify : classify ⟨.done, [2], [5], some (stringify sampleBody)⟩ [2]
      = some (.replay (some sampleBody)) := by
    simp [classify, parse_stringify]
  have hreplay := Step.classify hcalls hfresh hbegin hclassify
  exact ⟨ls, s, _, hrun, hreplay, store_correct hinit hrun hreplay⟩

end Runs

end Idempotency
