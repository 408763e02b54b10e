import Mathlib.Logic.Function.Basic
import Tove.Base.Json
import Tove.Base.Transition
import Tove.Js

/-!
# The idempotency store

A request claims its key before it is handled, and either completes or releases it: the store
answers a later request with the same key and the same fingerprint with the body of the response.
A record has the token of the claim that made it, and only the holder of the token may complete or
release it. Records live in Redis, and may expire at any time.

The scripts that run in Redis are atomic; the calls of any number of clients run between each other.
A call that does not reach Redis is logged, or rejected, and has no effect.
-/

namespace Idempotency

open Js Json

/-- `s` of a record. -/
inductive RecordState where
  | pending
  | done
  deriving DecidableEq

/-- A record, which is stored as a text of its own: the fingerprint `f` of the request, the
token `t` of the claim, and the text `b` of the response. -/
structure StoredRecord where
  s : RecordState
  f : JsString
  t : JsString
  b : Option JsString
  deriving DecidableEq

/-- What `begin` answers. -/
inductive IdempotencyBegin (ν : Type) where
  | proceed (token : JsString)
  | inFlight
  | mismatch
  | replay (body : Option (Value ν))

/-! ### The scripts -/

/-- What `BEGIN` returns. -/
inductive Reply where
  | PROCEED
  | RETRY
  | raw (record : StoredRecord)

/-- `BEGIN` for the record of a key, which may expire after the claim has found it. -/
def BEGIN (slot : Option StoredRecord) (pending : StoredRecord) (expires : Bool) :
    Option StoredRecord × Reply :=
  match slot with
  | none => (some pending, .PROCEED)
  | some raw => if expires then (none, .RETRY) else (some raw, .raw raw)

/-- `COMPLETE`. -/
def COMPLETE (slot : Option StoredRecord) (token b : JsString) : Option StoredRecord × ℕ :=
  match slot with
  | none => (none, 0)
  | some ok => if ok.t ≠ token then (some ok, 0) else (some { ok with s := .done, b := some b }, 1)

/-- `FAIL`. -/
def FAIL (slot : Option StoredRecord) (token : JsString) : Option StoredRecord × ℕ :=
  match slot with
  | none => (none, 0)
  | some ok => if ok.t = token then (none, 1) else (some ok, 0)

/-! ### The calls -/

/-- The bound on the attempts to claim a key. -/
def MAX_CLAIM_ATTEMPTS : ℕ := 3

/-- A call of `begin`, in one of its attempts. -/
structure BeginCall where
  key : JsString
  fingerprint : JsString
  attempt : ℕ

/-- The records by their keys, the tokens that have been drawn, and the calls of `begin`. -/
structure State where
  records : JsString → Option StoredRecord
  tokens : List JsString
  calls : ℕ → Option BeginCall

section Calls

variable {ν : Type} [Numeral ν]

/-- What `begin` makes of a record.  There is no answer when the text of the body cannot be read. -/
def classify (record : StoredRecord) (fingerprint : JsString) : Option (IdempotencyBegin ν) :=
  if record.f ≠ fingerprint then some .mismatch
  else if record.s = .pending then some .inFlight
  else match record.b with
    | none => some (.replay none)
    | some b => (parse b).map fun body => .replay (some body)

/-- The record with which a call claims its key. -/
def BeginCall.pending (call : BeginCall) (token : JsString) : StoredRecord :=
  ⟨.pending, call.fingerprint, token, none⟩

/-- A record is written, or removed. -/
def State.write (s : State) (key : JsString) (slot : Option StoredRecord) : State :=
  { s with records := Function.update s.records key slot }

/-- A call of `begin` goes on, or ends. -/
def State.enter (s : State) (n : ℕ) (call : Option BeginCall) : State :=
  { s with calls := Function.update s.calls n call }

/-- What is seen of a step: a call of `begin` is answered, or has found that the record expired
under it, for the last time or not; a script for a token has run; a record expires. -/
inductive Label (ν : Type) where
  | other
  | answer (key fingerprint : JsString) (outcome : IdempotencyBegin ν)
  | retry (key : JsString)
  | gaveUp (key fingerprint : JsString)
  | complete (key token : JsString) (body : Value ν)
  | fail (key token : JsString)
  | expire (key : JsString)

/-- The steps of the clients.  A token that is drawn has not been drawn before. -/
inductive Step : State → Label ν → State → Prop where
  | call {s : State} {n : ℕ} {key fingerprint : JsString} : s.calls n = none →
      Step s .other (s.enter n (some ⟨key, fingerprint, 0⟩))
  | proceed {s : State} {n : ℕ} {call : BeginCall} {token : JsString} {expires : Bool}
      {slot : Option StoredRecord} : s.calls n = some call → token ∉ s.tokens →
      BEGIN (s.records call.key) (call.pending token) expires = (slot, .PROCEED) →
      Step s (.answer call.key call.fingerprint (.proceed token))
        ({ s.write call.key slot with tokens := token :: s.tokens }.enter n none)
  | classify {s : State} {n : ℕ} {call : BeginCall} {token : JsString} {expires : Bool}
      {slot : Option StoredRecord} {record : StoredRecord} {outcome : IdempotencyBegin ν} :
      s.calls n = some call → token ∉ s.tokens →
      BEGIN (s.records call.key) (call.pending token) expires = (slot, .raw record) →
      classify record call.fingerprint = some outcome →
      Step s (.answer call.key call.fingerprint outcome)
        ({ s.write call.key slot with tokens := token :: s.tokens }.enter n none)
  | retry {s : State} {n : ℕ} {call : BeginCall} {token : JsString} {expires : Bool}
      {slot : Option StoredRecord} : s.calls n = some call → token ∉ s.tokens →
      BEGIN (s.records call.key) (call.pending token) expires = (slot, .RETRY) →
      call.attempt + 1 < MAX_CLAIM_ATTEMPTS →
      Step s (.retry call.key) ({ s.write call.key slot with tokens := token :: s.tokens }.enter n
        (some { call with attempt := call.attempt + 1 }))
  | gaveUp {s : State} {n : ℕ} {call : BeginCall} {token : JsString} {expires : Bool}
      {slot : Option StoredRecord} : s.calls n = some call → token ∉ s.tokens →
      BEGIN (s.records call.key) (call.pending token) expires = (slot, .RETRY) →
      ¬ call.attempt + 1 < MAX_CLAIM_ATTEMPTS →
      Step s (.gaveUp call.key call.fingerprint)
        ({ s.write call.key slot with tokens := token :: s.tokens }.enter n none)
  /-- The call is rejected, and has no answer. -/
  | reject {s : State} {n : ℕ} : Step s .other (s.enter n none)
  | complete {s : State} {key token : JsString} {body : Value ν} :
      Step s (.complete key token body)
        (s.write key (COMPLETE (s.records key) token (stringify body)).1)
  | fail {s : State} {key token : JsString} :
      Step s (.fail key token) (s.write key (FAIL (s.records key) token).1)
  | expire {s : State} {key : JsString} {record : StoredRecord} : s.records key = some record →
      Step s (.expire key) (s.write key none)

/-- The store as a transition system. -/
def system : Transition.System State (Label ν) where
  init s := (∀ key, s.records key = none) ∧ s.tokens = [] ∧ ∀ n, s.calls n = none
  step := Step

end Calls

end Idempotency
