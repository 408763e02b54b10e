import Mathlib.Tactic.Use
import Tove.Base.Transition

/-!
# Twin runs

Two runs of a system differ only in the steps of others when a party takes corresponding steps in
both of them, and the others take steps on their own in each.  Others do not interfere with the
party when it sees the same in both runs.  For this it is enough that the states stay alike: a step
of the others does not matter for what is alike, and corresponding steps keep states alike.
-/

namespace Transition

universe u v

variable {σ : Type u} {κ : Type v}

/-- A step of twin runs: a step of the others in the first run or in the second one, or
corresponding steps in both. -/
inductive Twin (κ : Type v) where
  | first (l : κ)
  | second (l : κ)
  | both (l l' : κ)

namespace Twin

/-- What the first run does. -/
def fst : Twin κ → Option κ
  | first l => some l
  | second _ => none
  | both l _ => some l

/-- What the second run does. -/
def snd : Twin κ → Option κ
  | first _ => none
  | second l => some l
  | both _ l' => some l'

/-- A condition on the steps of the others, and one on corresponding steps. -/
def Allowed (quiet : κ → Prop) (matched : κ → κ → Prop) : Twin κ → Prop
  | first l => quiet l
  | second l => quiet l
  | both l l' => matched l l'

end Twin

namespace System

variable (S : System σ κ) (others : σ → κ → Prop) (corresponds : σ → σ → κ → κ → Prop)

/-- The steps of twin runs. -/
inductive TwinStep : σ × σ → Twin κ → σ × σ → Prop where
  | first {s t s' : σ} {l : κ} :
    S.step s l s' → others s l → TwinStep (s, t) (.first l) (s', t)
  | second {s t t' : σ} {l : κ} :
    S.step t l t' → others t l → TwinStep (s, t) (.second l) (s, t')
  | both {s t s' t' : σ} {l l' : κ} :
    S.step s l s' → S.step t l' t' → corresponds s t l l' →
      TwinStep (s, t) (.both l l') (s', t')

/-- Twin runs from a reachable state. -/
def twins : System (σ × σ) (Twin κ) where
  init p := S.Reachable p.1 ∧ p.2 = p.1
  step := S.TwinStep others corresponds

variable {S others corresponds} {p p' : σ × σ} {ls : List (Twin κ)}

/-- The first run is a run. -/
theorem Run.twins_fst (h : (S.twins others corresponds).Run p ls p') :
  S.Run p.1 (ls.filterMap Twin.fst) p'.1
  := by
  induction h with
  | nil => apply Run.nil
  | snoc _ hstep ih =>
    rw [List.filterMap_append]
    cases hstep with
    | first hl => apply ih.trans (.single hl)
    | second => rwa [List.filterMap_cons_none rfl, List.filterMap_nil, List.append_nil]
    | both hl => apply ih.trans (.single hl)

/-- The second run is a run. -/
theorem Run.twins_snd (h : (S.twins others corresponds).Run p ls p') :
  S.Run p.2 (ls.filterMap Twin.snd) p'.2
  := by
  induction h with
  | nil => apply Run.nil
  | snoc _ hstep ih =>
    rw [List.filterMap_append]
    cases hstep with
    | first => rwa [List.filterMap_cons_none rfl, List.filterMap_nil, List.append_nil]
    | second hl => apply ih.trans (.single hl)
    | both _ hl => apply ih.trans (.single hl)

variable (S others corresponds)

/-- What keeps the states of twin runs alike, as long as the others are quiet and corresponding steps
match, and what the party sees in corresponding steps from alike states. -/
structure Unwinding (quiet : κ → Prop) (matched : κ → κ → Prop) (alike : σ → σ → Prop)
    (same : κ → κ → Prop) : Prop where
  symm : ∀ {s t}, alike s t → alike t s
  others : ∀ {s t l s'}, S.Reachable s → alike s t → others s l → quiet l → S.step s l s' →
    alike s' t
  both : ∀ {s t l l' s' t'}, S.Reachable s → S.Reachable t → alike s t → corresponds s t l l' →
    matched l l' → S.step s l s' → S.step t l' t' → alike s' t' ∧ same l l'

variable {S others corresponds} {quiet : κ → Prop} {matched : κ → κ → Prop}
  {alike : σ → σ → Prop} {same : κ → κ → Prop}

/-- In twin runs from alike states the party sees the same. -/
theorem Unwinding.same_of_run (h : S.Unwinding others corresponds quiet matched alike same)
    (hrun : (S.twins others corresponds).Run p ls p') (hfst : S.Reachable p.1)
    (hsnd : S.Reachable p.2) (halike : alike p.1 p.2)
    (hallowed : ∀ l ∈ ls, l.Allowed quiet matched) :
  alike p'.1 p'.2 ∧ ∀ l l', Twin.both l l' ∈ ls → same l l'
  := by
  induction hrun with
  | nil => exact ⟨halike, fun _ _ hmem => absurd hmem List.not_mem_nil⟩
  | @snoc t t' ls last hrun hstep ih =>
    obtain ⟨hbefore, hlast⟩ := List.forall_mem_append.mp hallowed
    rw [List.forall_mem_singleton] at hlast
    obtain ⟨halike, hsame⟩ := ih hbefore
    have hs := hfst.run hrun.twins_fst
    have ht := hsnd.run hrun.twins_snd
    have hsnoc : (∀ l l', Twin.both l l' = last → same l l') →
        ∀ l l', Twin.both l l' ∈ ls ++ [last] → same l l' := by
      intro hself l l' hmem
      rcases List.mem_append.mp hmem with hmem | hmem
      · apply hsame l l' hmem
      · apply hself l l' (List.mem_singleton.mp hmem)
    cases hstep with
    | first hl hothers =>
      use h.others hs halike hothers hlast hl
      apply hsnoc
      nofun
    | second hl hothers =>
      use h.symm (h.others ht (h.symm halike) hothers hlast hl)
      apply hsnoc
      nofun
    | both hl hl' hcorresponds =>
      obtain ⟨halike', hsame'⟩ := h.both hs ht halike hcorresponds hlast hl hl'
      use halike'
      apply hsnoc
      rintro l l' ⟨⟩
      apply hsame'

end System

end Transition
