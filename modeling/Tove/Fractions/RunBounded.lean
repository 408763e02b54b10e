import Mathlib.Algebra.Order.Ring.WithTop
import Mathlib.Order.WithBotTop
import Mathlib.Data.List.Dedup
import Mathlib.Data.Rat.Floor
import Tove.Base.Transition
import Tove.Js

/-!
# A bounded map over tasks

`runBounded` of `run-bounded.ts` maps an asynchronous function over a list. A pool of workers
shares a cursor and a flag: a worker takes the next item, calls the function, and waits for the
promise, until there are no items left or a task has failed. When all the workers are done, the
call returns the results, or throws what has been caught first.

The code between two waits runs by itself. The promises settle in any order, and the workers
that wait on settled ones go on in any order.
-/

namespace RunBounded

open Js Transition

variable {T R E : Type}

/-! ### The pool -/

/-- A number other than `NaN`. -/
abbrev Number : Type := WithBot (WithTop ℚ)

/-- The length that `Array.from({ length: x })` gives the array. -/
def toLength : Number → ℕ
  | none => 0
  | some none => 2 ^ 53 - 1
  | some (some q) => min ⌊q⌋₊ (2 ^ 53 - 1)

/-- How many workers there are. -/
def pool (items : List T) (limit : Number) : ℕ := toLength (min limit (items.length : ℚ))

/-! ### States -/

/-- What has become of the task of an item. -/
inductive Task (R E : Type) where
  | unstarted
  | pending
  | settled (result : Except E R)
  deriving DecidableEq

/-- What a call of `fn` comes to: it hands out a promise, or it throws there and then. -/
inductive Called (E : Type) where
  | promised
  | threw (err : E)

/-- A worker waits on the task of an item, or its loop has ended. -/
inductive Worker where
  | awaiting (i : ℕ)
  | finished
  deriving DecidableEq

/-- What a worker does: it calls `fn` on an item, or it sees how a task ended. -/
inductive Event (T R E : Type) where
  | called (i : ℕ) (item : T)
  | observed (i : ℕ) (result : Except E R)

/-- How a call of `runBounded` ends. The thrown value is `undefined` before a worker sets it. -/
inductive Outcome (R E : Type) where
  | refused (err : RangeError)
  | throws (firstError : Option E)
  | returns (results : List (Option R))

/-- The variables of a call and its workers, what has become of the tasks and of the call, and
what the workers have done. A hole of `results` is `none`. -/
structure State (T R E : Type) where
  cursor : ℕ
  failed : Bool
  firstError : Option E
  results : List (Option R)
  workers : List Worker
  tasks : ℕ → Task R E
  outcome : Option (Outcome R E)
  log : List (Event T R E)

/-- A call begins: a limit below one is refused. -/
def start (items : List T) (limit : Number) : State T R E where
  cursor := 0
  failed := false
  firstError := none
  results := List.replicate items.length none
  workers := []
  tasks := fun _ => .unstarted
  outcome := if limit < 1 then some (.refused ⟨"runBounded: limit must be >= 1"⟩) else none
  log := []

/-! ### Workers -/

/-- A worker sees how a task ended: it puts the value in its place, or keeps the first error. -/
def State.observe (s : State T R E) (i : ℕ) (result : Except E R) : State T R E :=
  let s := { s with log := s.log ++ [.observed i result] }
  match result with
  | .ok value => { s with results := s.results.set i (some value) }
  | .error err => if !s.failed then { s with failed := true, firstError := some err } else s

/-- A worker at the head of its loop goes on until it waits or ends: there is an item at the cursor
when the cursor is below the number of items. -/
def State.pull (items : List T) (s : State T R E) (called : Called E) : State T R E × Worker :=
  match items[s.cursor]?, s.failed with
  | some item, false =>
    let i := s.cursor
    let s := { s with cursor := i + 1, log := s.log ++ [Event.called i item] }
    match called with
    | .promised => ({ s with tasks := Function.update s.tasks i .pending }, .awaiting i)
    -- the error is caught, and the loop ends because a task has failed
    | .threw err =>
      let s := { s with tasks := Function.update s.tasks i (.settled (.error err)) }
      (s.observe i (.error err), .finished)
  | _, _ => (s, .finished)

/-- The end of the call, when the workers are done. -/
def State.result (s : State T R E) : Outcome R E :=
  if s.failed then .throws s.firstError else .returns s.results

/-! ### Steps -/

/-- A step of a call. -/
inductive Action (R E : Type) where
  | spawn (called : Called E)
  | settle (i : ℕ) (result : Except E R)
  | resume (i : ℕ) (called : Called E)
  | finish

/-- The steps of a call: the workers start one after the other, before anything else runs; the
tasks settle; a worker whose task has settled goes on; and the call ends after the workers. -/
inductive Step (items : List T) (limit : Number) :
    State T R E → Action R E → State T R E → Prop where
  | spawn {s : State T R E} (called : Called E)
      (hopen : s.outcome = none) (hroom : s.workers.length < pool items limit) :
      Step items limit s (.spawn called)
        { (s.pull items called).1 with workers := s.workers ++ [(s.pull items called).2] }
  | settle {s : State T R E} {i : ℕ} (result : Except E R) (hpending : s.tasks i = .pending) :
      Step items limit s (.settle i result)
        { s with tasks := Function.update s.tasks i (.settled result) }
  | resume {s : State T R E} {i : ℕ} {result : Except E R} {before after : List Worker}
      (called : Called E) (hpool : s.workers.length = pool items limit)
      (hworker : s.workers = before ++ .awaiting i :: after) (hsettled : s.tasks i = .settled result) :
      Step items limit s (.resume i called)
        { ((s.observe i result).pull items called).1 with
          workers := before ++ ((s.observe i result).pull items called).2 :: after }
  | finish {s : State T R E} (hopen : s.outcome = none)
      (hpool : s.workers.length = pool items limit) (hworkers : ∀ w ∈ s.workers, w = .finished) :
      Step items limit s .finish { s with outcome := some s.result }

/-- A call of `runBounded`. -/
def system (T R E : Type) (items : List T)
    (limit : Number) : System (State T R E) (Action R E) where
  init s := s = start items limit
  step := Step items limit

end RunBounded
