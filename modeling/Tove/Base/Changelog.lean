import Mathlib.Data.List.Chain
import Mathlib.Logic.Function.Basic
import Tove.Base.Transition

/-!
# Change logs

A map is kept with a log of its changes: an entry gives the key and its new value. The relation
`R` says which values may follow each other. The log determines the map; the values that it gives
a key, after the one that the key has had at first, are a chain along `R`, which ends with the
value of the key.
-/

namespace Changelog

open Transition

universe u v w x

variable {κ : Type u} {ν : Type v}

/-- A key has a new value. -/
structure Entry (κ : Type u) (ν : Type v) where
  key : κ
  value : ν
  deriving DecidableEq

section Logs

variable [DecidableEq κ]

/-- What a log makes of a map. -/
def replay (m : κ → ν) (log : List (Entry κ ν)) : κ → ν :=
  log.foldl (fun m c => Function.update m c.key c.value) m

/-- The values that a log gives a key. -/
def valuesOf (log : List (Entry κ ν)) (k : κ) : List ν :=
  log.filterMap fun c => if c.key = k then some c.value else none

/-- The log records how one map has become another one, by changes along `R`. -/
inductive Logs (R : ν → ν → Prop) (m : κ → ν) : List (Entry κ ν) → (κ → ν) → Prop where
  | nil : Logs R m [] m
  | snoc {log : List (Entry κ ν)} {m' : κ → ν} {c : Entry κ ν} :
    Logs R m log m' → R (m' c.key) c.value →
      Logs R m (log ++ [c]) (Function.update m' c.key c.value)

variable {R : ν → ν → Prop} {m m' m'' : κ → ν} {log log' : List (Entry κ ν)} {c : Entry κ ν} {k : κ}

@[simp] theorem valuesOf_append :
  valuesOf (log ++ log') k = valuesOf log k ++ valuesOf log' k
  := List.filterMap_append

theorem valuesOf_singleton :
  valuesOf [c] k = if c.key = k then [c.value] else []
  := by
  rw [valuesOf, List.filterMap_cons, List.filterMap_nil]
  split <;> rename_i h <;> split at h <;> simp_all

theorem replay_append :
  replay m (log ++ log') = replay (replay m log) log'
  := List.foldl_append

/-- A log of one change. -/
theorem Logs.single (h : R (m c.key) c.value) :
  Logs R m [c] (Function.update m c.key c.value)
  := Logs.snoc .nil h

theorem Logs.trans (h : Logs R m log m') (h' : Logs R m' log' m'') :
  Logs R m (log ++ log') m''
  := by
  induction h' with
  | nil => rwa [List.append_nil]
  | snoc _ hR ih =>
    rw [← List.append_assoc]
    apply Logs.snoc ih hR

/-- The log determines the map. -/
theorem Logs.eq_replay (h : Logs R m log m') :
  m' = replay m log
  := by
  induction h with
  | nil => rfl
  | snoc _ _ ih =>
    rw [replay_append, ← ih]
    rfl

/-- The last value of a key is its value. -/
theorem Logs.getLast (h : Logs R m log m') (k : κ) :
  (m k :: valuesOf log k).getLast? = some (m' k)
  := by
  induction h with
  | nil => rfl
  | @snoc log m' c _ _ ih =>
    rw [valuesOf_append, ← List.cons_append, valuesOf_singleton]
    split
    · rename_i hk
      rw [List.getLast?_concat, ← hk, Function.update_self]
    · rename_i hk
      rw [List.append_nil, ih, Function.update_of_ne (Ne.symm hk)]

/-- The values of a key follow each other along the relation. -/
theorem Logs.isChain (h : Logs R m log m') (k : κ) :
  (m k :: valuesOf log k).IsChain R
  := by
  induction h with
  | nil => apply List.IsChain.singleton
  | @snoc log m' c hlog hR ih =>
    rw [valuesOf_append, ← List.cons_append, valuesOf_singleton]
    split
    · rename_i hk
      rw [List.isChain_append]
      refine ⟨ih, .singleton _, ?_⟩
      intro a ha b hb
      rw [hlog.getLast k] at ha
      obtain rfl := Option.some.inj ha
      obtain rfl := Option.some.inj hb
      rwa [← hk]
    · rwa [List.append_nil]

/-- A log about one member of a family is a log about the family. -/
theorem Logs.family {ι : Type w} [DecidableEq ι] {R : ν → ν → Prop} {m : ι → κ → ν} {m' : κ → ν}
    {log : List (Entry κ ν)} {i : ι} (h : Logs R (m i) log m') :
  Logs R (Function.uncurry m) (log.map fun c => ⟨(i, c.key), c.value⟩)
    (Function.uncurry (Function.update m i m'))
  := by
  induction h with
  | nil =>
    rw [Function.update_eq_self]
    apply Logs.nil
  | @snoc log m' c _ hR ih =>
    have hsnoc := ih.snoc (c := ⟨(i, c.key), c.value⟩) (by simpa using hR)
    rw [List.map_append, List.map_singleton]
    convert hsnoc using 1
    funext ⟨j, k⟩
    by_cases hj : j = i
    · subst hj
      simp [Function.update_apply]
    · simp [hj]

end Logs

/-! ### Logs of runs -/

section Runs

variable [DecidableEq κ] {σ : Type w} {ι : Type x} {S : System σ ι} {R : ν → ν → Prop}

/-- When the labels of the steps record the changes of a map, so do those of a run. -/
theorem logs_of_run (view : σ → κ → ν) (changes : ι → List (Entry κ ν))
    (hstep : ∀ s l t, S.step s l t → Logs R (view s) (changes l) (view t))
    {s t : σ} {ls : List ι} (h : S.Run s ls t) :
  Logs R (view s) (ls.flatMap changes) (view t)
  := by
  induction h with
  | nil => apply Logs.nil
  | snoc _ hl ih =>
    rw [List.flatMap_append, List.flatMap_singleton]
    apply ih.trans (hstep _ _ _ hl)

end Runs

end Changelog
