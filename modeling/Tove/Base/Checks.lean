import Mathlib.Logic.Basic

/-!
# Sequences of checks

Code that checks its input runs a sequence of tests, each of which stops the run with an error
of its own, and computes a result when all of them pass.  It is a computation in `Except`;
the lemmas of this file take a successful computation apart into the tests that it passed.
-/

namespace Checks

universe u v

variable {ε : Type u} {α β : Type v}

/-- Stop with the error `e` when `c` holds. -/
def rejectIf {ε : Type u} (c : Prop) [Decidable c] (e : ε) : Except ε Unit :=
  if c then .error e else .ok ()

@[simp]
theorem rejectIf_eq_ok {c : Prop} [Decidable c] {e : ε} {x : Unit} :
  rejectIf c e = .ok x ↔ ¬ c
  := by
  unfold rejectIf
  split <;> simp [*]

/-- Stop with the error `e` when there is no value. -/
def orReject {ε : Type u} {α : Type v} (x : Option α) (e : ε) : Except ε α :=
  x.elim (.error e) .ok

@[simp]
theorem orReject_eq_ok {x : Option α} {e : ε} {a : α} :
  orReject x e = .ok a ↔ x = some a
  := by cases x <;> simp [orReject]

/-- A sequence of two computations succeeds when the first one does and the second one does
on its result. -/
@[simp]
theorem bind_eq_ok {x : Except ε α} {f : α → Except ε β} {b : β} :
  (x >>= f) = .ok b ↔ ∃ a, x = .ok a ∧ f a = .ok b
  := by
  cases x with
  | error e => simp [bind, Except.bind]
  | ok a => simp [bind, Except.bind]

/-- A check followed by a computation succeeds when the check passes and the computation
succeeds. -/
@[simp]
theorem check_bind_eq_ok {β : Type} {x : Except ε Unit} {f : Unit → Except ε β} {b : β} :
  (x >>= f) = .ok b ↔ x = .ok () ∧ f () = .ok b
  := by
  rw [bind_eq_ok]
  constructor
  · rintro ⟨⟨⟩, h⟩
    apply h
  · intro h
    exact ⟨(), h⟩

@[simp]
theorem pure_eq_ok {a b : α} :
  (pure a : Except ε α) = .ok b ↔ a = b
  := by simp [pure, Except.pure]

@[simp]
theorem throw_eq_ok {e : ε} {b : α} :
  (throw e : Except ε α) = .ok b ↔ False
  := by simp [throw, throwThe, MonadExceptOf.throw]

/-- A check of all members of a list passes when it passes on each of them. -/
@[simp]
theorem forM_eq_ok {γ : Type v} {check : γ → Except ε Unit} {ℓ : List γ} {x : Unit} :
  forM ℓ check = .ok x ↔ ∀ a ∈ ℓ, check a = .ok ()
  := by
  induction ℓ with
  | nil => simp
  | cons a ℓ ih => rw [List.forM_cons, check_bind_eq_ok, ih, List.forall_mem_cons]

/-- What follows a computation matters only for the results that the computation has. -/
theorem bind_congr_ok {x : Except ε α} {f g : α → Except ε β} (h : ∀ a, x = .ok a → f a = g a) :
  (x >>= f) = (x >>= g)
  := by
  cases x with
  | error e => rfl
  | ok a => apply h a rfl

@[simp]
theorem ok_bind (a : α) (f : α → Except ε β) :
  ((Except.ok a : Except ε α) >>= f) = f a
  := rfl

/-! ### Loops -/

/-- A loop of which each round succeeds on just the items that present a good value, and updates
the state by it, succeeds on just the lists of items that present a list of good values. -/
theorem foldlM_eq_ok {σ : Type} {γ κ : Type v} {step : σ → γ → Except ε σ} {present : κ → γ}
    {Good : κ → Prop} {update : σ → κ → σ}
    (hstep : ∀ s a s', step s a = .ok s' ↔ ∃ b, present b = a ∧ Good b ∧ update s b = s')
    {ℓ : List γ} {s s' : σ} :
  ℓ.foldlM step s = .ok s'
    ↔ ∃ bs : List κ, bs.map present = ℓ ∧ (∀ b ∈ bs, Good b) ∧ bs.foldl update s = s'
  := by
  induction ℓ generalizing s with
  | nil => simp
  | cons a ℓ ih =>
    rw [List.foldlM_cons, bind_eq_ok]
    constructor
    · rintro ⟨t, ha, hrest⟩
      obtain ⟨b, rfl, hb, rfl⟩ := (hstep s a t).mp ha
      obtain ⟨bs, rfl, hbs, hs'⟩ := ih.mp hrest
      exact ⟨b :: bs, rfl, List.forall_mem_cons.mpr ⟨hb, hbs⟩, hs'⟩
    · rintro ⟨bs, hbs, hgood, hs'⟩
      obtain ⟨b, bs, rfl, rfl, rfl⟩ := List.map_eq_cons_iff.mp hbs
      rw [List.forall_mem_cons] at hgood
      exact ⟨_, (hstep s _ _).mpr ⟨b, rfl, hgood.1, rfl⟩, ih.mpr ⟨bs, rfl, hgood.2, hs'⟩⟩

section Loops

variable {σ : Type} {γ : Type v} {step : σ → γ → Except ε σ} {motive : List γ → σ → Prop}

private theorem foldlM_invariant_aux {ℓ : List γ} {s s' : σ}
    (hstep : ∀ pre a t t', pre ++ [a] <+: ℓ → motive pre t → step t a = .ok t' →
      motive (pre ++ [a]) t')
    (pre suffix : List γ) (hℓ : pre ++ suffix = ℓ) (hpre : motive pre s)
    (h : suffix.foldlM step s = .ok s') :
  motive ℓ s'
  := by
  induction suffix generalizing pre s with
  | nil =>
    rw [List.append_nil] at hℓ
    rw [List.foldlM_nil, pure_eq_ok] at h
    rwa [← hℓ, ← h]
  | cons a suffix ih =>
    rw [List.foldlM_cons, bind_eq_ok] at h
    obtain ⟨t, ha, h⟩ := h
    have happ : pre ++ [a] ++ suffix = ℓ := by rwa [List.append_assoc]
    apply ih (pre ++ [a]) happ _ h
    apply hstep pre a s t ⟨suffix, happ⟩ hpre ha

/-- What the rounds of a loop preserve, as a statement about the part of the list that has been
passed, holds when the loop ends. -/
theorem foldlM_invariant {ℓ : List γ} {s s' : σ} (hinit : motive [] s)
    (hstep : ∀ pre a t t', pre ++ [a] <+: ℓ → motive pre t → step t a = .ok t' →
      motive (pre ++ [a]) t')
    (h : ℓ.foldlM step s = .ok s') :
  motive ℓ s'
  := foldlM_invariant_aux hstep [] ℓ rfl hinit h

private theorem foldlM_succeeds_aux {ℓ : List γ} {s : σ}
    (hstep : ∀ pre a t, pre ++ [a] <+: ℓ → motive pre t → ∃ t', step t a = .ok t')
    (hkeep : ∀ pre a t t', pre ++ [a] <+: ℓ → motive pre t → step t a = .ok t' →
      motive (pre ++ [a]) t')
    (pre suffix : List γ) (hℓ : pre ++ suffix = ℓ) (hpre : motive pre s) :
  ∃ s', suffix.foldlM step s = .ok s'
  := by
  induction suffix generalizing pre s with
  | nil => exact ⟨s, rfl⟩
  | cons a suffix ih =>
    have happ : pre ++ [a] ++ suffix = ℓ := by rwa [List.append_assoc]
    obtain ⟨t, ht⟩ := hstep pre a s ⟨suffix, happ⟩ hpre
    obtain ⟨s', hs'⟩ := ih (pre ++ [a]) happ (hkeep pre a s t ⟨suffix, happ⟩ hpre ht)
    exact ⟨s', by rw [List.foldlM_cons, bind_eq_ok]; exact ⟨t, ht, hs'⟩⟩

/-- A loop succeeds when its rounds preserve a statement under which no round fails. -/
theorem foldlM_succeeds {ℓ : List γ} {s : σ} (hinit : motive [] s)
    (hstep : ∀ pre a t, pre ++ [a] <+: ℓ → motive pre t → ∃ t', step t a = .ok t')
    (hkeep : ∀ pre a t t', pre ++ [a] <+: ℓ → motive pre t → step t a = .ok t' →
      motive (pre ++ [a]) t') :
  ∃ s', ℓ.foldlM step s = .ok s'
  := foldlM_succeeds_aux hstep hkeep [] ℓ rfl hinit

private theorem foldlM_congr_aux {step' : σ → γ → Except ε σ} {ℓ : List γ} {s : σ}
    (hstep : ∀ pre a t, pre ++ [a] <+: ℓ → motive pre t → step t a = step' t a)
    (hkeep : ∀ pre a t t', pre ++ [a] <+: ℓ → motive pre t → step' t a = .ok t' →
      motive (pre ++ [a]) t')
    (pre suffix : List γ) (hℓ : pre ++ suffix = ℓ) (hpre : motive pre s) :
  suffix.foldlM step s = suffix.foldlM step' s
  := by
  induction suffix generalizing pre s with
  | nil => rfl
  | cons a suffix ih =>
    have happ : pre ++ [a] ++ suffix = ℓ := by rwa [List.append_assoc]
    rw [List.foldlM_cons, List.foldlM_cons, hstep pre a s ⟨suffix, happ⟩ hpre]
    apply bind_congr_ok
    intro t ht
    apply ih (pre ++ [a]) happ (hkeep pre a s t ⟨suffix, happ⟩ hpre ht)

/-- Two loops agree when their rounds agree under a statement that the rounds preserve. -/
theorem foldlM_congr {step' : σ → γ → Except ε σ} {ℓ : List γ} {s : σ} (hinit : motive [] s)
    (hstep : ∀ pre a t, pre ++ [a] <+: ℓ → motive pre t → step t a = step' t a)
    (hkeep : ∀ pre a t t', pre ++ [a] <+: ℓ → motive pre t → step' t a = .ok t' →
      motive (pre ++ [a]) t') :
  ℓ.foldlM step s = ℓ.foldlM step' s
  := foldlM_congr_aux hstep hkeep [] ℓ rfl hinit

end Loops

end Checks
