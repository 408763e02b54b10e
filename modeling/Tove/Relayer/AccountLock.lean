import Tove.Base.Exclusion

/-!
# The locks of the relayer's accounts

A section runs while it holds the key of an account. The lock in Redis is a row with a token,
which expires; the lock in memory is a chain of promises for each key.

Redis executes a command at some time after it has been sent, and the reply comes later still. A
command may be executed though its caller does not see a reply, or has crashed.
-/

namespace AccountLock

/-! ### The lock in Redis -/

/-- The value of a key, and when it expires. -/
structure Held where
  token : ℕ
  expiresAt : ℕ
  deriving DecidableEq, Repr

/-- Where a call of `withLock` is: it has not begun, or it is over; `SET` is on its way; it waits
for the next attempt; `SET` has set the key; the section runs; or the section is over, and the
release is on its way. -/
inductive Phase where
  | idle
  | trying (key : String) (ttlMs token deadline : ℕ)
  | waiting (key : String) (ttlMs token deadline : ℕ)
  | acquired (key : String) (token expiresAt : ℕ)
  | running (key : String) (token expiresAt : ℕ)
  | releasing (key : String) (token : ℕ)
  deriving DecidableEq, Repr

/-- The clock of Redis, its keys, the tokens that have been drawn, and the calls. -/
structure State where
  now : ℕ
  store : String → Option Held
  drawn : ℕ → Prop
  calls : ℕ → Phase

/-- `GET`: what has expired is not there. -/
def State.get (s : State) (key : String) : Option Held :=
  (s.store key).filter fun held => s.now < held.expiresAt

def State.enter (s : State) (n : ℕ) (phase : Phase) : State :=
  { s with calls := Function.update s.calls n phase }

/-- `SET key token PX ttlMs NX`, when there is no such key. -/
def State.set (s : State) (key : String) (token ttlMs : ℕ) : State :=
  { s with store := Function.update s.store key (some ⟨token, s.now + ttlMs⟩) }

/-- `RELEASE`: the key is deleted when its value is the token. -/
def State.release (s : State) (key : String) (token : ℕ) : State :=
  if (s.get key).map (·.token) = some token then
    { s with store := Function.update s.store key none }
  else s

/-- What is seen of a step: a section begins or ends, a key is released, or something else
happens. -/
inductive Label where
  | enter (key : String) (n : ℕ)
  | leave (key : String) (n : ℕ)
  | release (key : String) (token : ℕ)
  | other

/-- The steps of the calls, and the time that goes by. The callers' clocks may show any time. -/
inductive Step : State → Label → State → Prop where
  /-- `withLock` draws a token. -/
  | begin {s : State} {n ttlMs token dateNow : ℕ} {key : String} :
      s.calls n = .idle → ¬ s.drawn token →
      Step s .other (State.enter { s with drawn := fun token' => token' = token ∨ s.drawn token' } n
        (.trying key ttlMs token (dateNow + ttlMs * 2)))
  | set {s : State} {n ttlMs token deadline : ℕ} {key : String} :
      s.calls n = .trying key ttlMs token deadline → s.get key = none →
      Step s .other ((s.set key token ttlMs).enter n (.acquired key token (s.now + ttlMs)))
  /-- `SET` is executed, but the caller does not see it: the reply is lost, or the caller has
  crashed. -/
  | stray {s : State} {key : String} {token ttlMs : ℕ} : s.drawn token → s.get key = none →
      Step s .other (s.set key token ttlMs)
  | busy {s : State} {n ttlMs token deadline dateNow : ℕ} {key : String} :
      s.calls n = .trying key ttlMs token deadline → s.get key ≠ none → dateNow < deadline →
      Step s .other (s.enter n (.waiting key ttlMs token deadline))
  /-- `could not acquire the relayer account lock` -/
  | giveUp {s : State} {n ttlMs token deadline dateNow : ℕ} {key : String} :
      s.calls n = .trying key ttlMs token deadline → s.get key ≠ none → deadline ≤ dateNow →
      Step s .other (s.enter n .idle)
  | retry {s : State} {n ttlMs token deadline : ℕ} {key : String} :
      s.calls n = .waiting key ttlMs token deadline →
      Step s .other (s.enter n (.trying key ttlMs token deadline))
  /-- The reply has come, and the section begins. -/
  | enter {s : State} {n token expiresAt : ℕ} {key : String} :
      s.calls n = .acquired key token expiresAt →
      Step s (.enter key n) (s.enter n (.running key token expiresAt))
  /-- The section is over, with a result or an error. -/
  | leave {s : State} {n token expiresAt : ℕ} {key : String} :
      s.calls n = .running key token expiresAt →
      Step s (.leave key n) (s.enter n (.releasing key token))
  | release {s : State} {n token : ℕ} {key : String} : s.calls n = .releasing key token →
      Step s (.release key token) ((s.release key token).enter n .idle)
  /-- `relayer account lock release failed` -/
  | releaseFailed {s : State} {n token : ℕ} {key : String} : s.calls n = .releasing key token →
      Step s .other (s.enter n .idle)
  /-- The process crashes outside the section. -/
  | crash {s : State} {n : ℕ} : (∀ key token expiresAt, s.calls n ≠ .running key token expiresAt) →
      Step s .other (s.enter n .idle)
  /-- The process crashes inside the section. -/
  | crashInside {s : State} {n token expiresAt : ℕ} {key : String} :
      s.calls n = .running key token expiresAt → Step s (.leave key n) (s.enter n .idle)
  | tick {s : State} {now : ℕ} : s.now ≤ now → Step s .other { s with now }

/-- The lock in Redis as a transition system. -/
def system : Transition.System State Label where
  init s := (∀ n, s.calls n = .idle) ∧ ∀ key, s.store key = none
  step := Step

/-- A call is inside its section. -/
def State.Inside (s : State) (key : String) (n : ℕ) : Prop :=
  ∃ token expiresAt, s.calls n = .running key token expiresAt

/-- What is seen of the sections of a key. -/
def Label.event (key : String) : Label → Option Exclusion.Event
  | .enter key' n => if key' = key then some (.enter n) else none
  | .leave key' n => if key' = key then some (.leave n) else none
  | .release .. | .other => none

/-- The sections of a key are over before the key expires. -/
def InTime (key : String) (_ : State) (_ : Label) (s' : State) : Prop :=
  ∀ n token expiresAt, s'.calls n = .running key token expiresAt → s'.now < expiresAt

/-! ### The lock in memory -/

namespace InMemory

/-- Where a call of `withLock` is: it has not been made; `prev.then(fn, fn)` waits for the promise
of another call, or for none; the section runs; it is over, and the promise in the chain is about
to be resolved; or it is resolved. -/
inductive Phase where
  | idle
  | queued (key : String) (prev : Option ℕ)
  | running (key : String)
  | settled (key : String)
  | done (key : String)
  deriving DecidableEq, Repr

/-- The promise at the end of the chain of each key, by the call that has put it there, and the
calls. -/
structure State where
  chains : String → Option ℕ
  calls : ℕ → Phase

def State.enter (s : State) (n : ℕ) (phase : Phase) : State :=
  { s with calls := Function.update s.calls n phase }

/-- The promise of a call is resolved; `Promise.resolve()` always is. -/
def State.Resolved (s : State) : Option ℕ → Prop
  | none => True
  | some n => ∃ key, s.calls n = .done key

inductive Label where
  | call (key : String) (n : ℕ)
  | enter (key : String) (n : ℕ)
  | leave (key : String) (n : ℕ)
  | resolve (key : String) (n : ℕ)

inductive Step : State → Label → State → Prop where
  /-- `withLock` -/
  | call {s : State} {n : ℕ} {key : String} : s.calls n = .idle →
      Step s (.call key n) (State.enter
        { s with chains := Function.update s.chains key (some n) } n (.queued key (s.chains key)))
  | enter {s : State} {n : ℕ} {key : String} {prev : Option ℕ} : s.calls n = .queued key prev →
      s.Resolved prev → Step s (.enter key n) (s.enter n (.running key))
  /-- The section is over, with a result or an error. -/
  | leave {s : State} {n : ℕ} {key : String} : s.calls n = .running key →
      Step s (.leave key n) (s.enter n (.settled key))
  | resolve {s : State} {n : ℕ} {key : String} : s.calls n = .settled key →
      Step s (.resolve key n) (s.enter n (.done key))

/-- The lock in memory as a transition system. -/
def system : Transition.System State Label where
  init s := (∀ n, s.calls n = .idle) ∧ ∀ key, s.chains key = none
  step := Step

/-- What is seen of the sections of a key. -/
def Label.event (key : String) : Label → Option Exclusion.Event
  | .enter key' n => if key' = key then some (.enter n) else none
  | .leave key' n => if key' = key then some (.leave n) else none
  | .call .. | .resolve .. => none

/-- Who asks for a key. -/
def Label.asks (key : String) : Label → Option ℕ
  | .call key' n => if key' = key then some n else none
  | .enter .. | .leave .. | .resolve .. => none

end InMemory

end AccountLock
