import Tove.Base.Transition
import Mathlib.Data.Nat.Notation
import Mathlib.Logic.Function.Basic

/-!
# Refresh tokens

The row of a user has the hash of the refresh token that is good. A log in mints a new pair of
tokens and stores the hash of the refresh token; a refresh compares the hash of the token that
is presented with the one that is stored, and then does the same; a log out stores none. What
stores a hash reads the row first, then `save` reads it again to see what has changed, and
writes it by its id; the call is completed when it has returned.

A token is presented only after it has been issued: it is not forged. The row is not deleted.
-/

namespace RefreshTokens

universe u v

variable {τ : Type u} {η : Type v}

/-- The row of the user. -/
structure User (η : Type v) where
  refreshTokenHash : Option η
  isActive : Bool

/-- What `updateRefreshTokenHash` is called for: a token has been signed, by a log in or for a
token that was presented, or the user logs out. -/
inductive Update (τ : Type u) where
  | issue (presented : Option τ) (token : τ)
  | logout

/-- How far an update of the row is: the row is about to be read (`findOneById`), to be compared
with what it is to be, or to be written. -/
inductive Stage where
  | loading
  | comparing
  | writing

/-- A call is idle; a token was presented and the user is about to be read; a pair of tokens is
about to be signed; the row is being updated; or it has been, and the call is about to return. -/
inductive Phase (τ : Type u) where
  | idle
  | presenting (token : τ)
  | signing (presented : Option τ)
  | updating (update : Update τ) (stage : Stage)
  | returning (update : Update τ)

/-- What has happened: the user has authenticated; a token was minted; the row has what an update
is to store; a call has returned. -/
inductive Event (τ : Type u) where
  | authenticated
  | minted (presented : Option τ) (token : τ)
  | stored (update : Update τ)
  | completed (update : Update τ)

/-- A call has returned a token. -/
abbrev Event.issued (presented : Option τ) (token : τ) : Event τ :=
  .completed (.issue presented token)

/-- A log out has returned. -/
abbrev Event.loggedOut : Event τ :=
  .completed .logout

/-- The hash that is stored. -/
def Update.hash (hashRefreshToken : τ → η) : Update τ → Option η
  | .issue _ token => some (hashRefreshToken token)
  | .logout => none

/-- The row, the calls, and what has happened. -/
structure State (τ : Type u) (η : Type v) where
  user : User η
  calls : ℕ → Phase τ
  events : List (Event τ)

/-- A call enters a phase. -/
def State.enter (s : State τ η) (n : ℕ) (phase : Phase τ) : State τ η :=
  { s with calls := Function.update s.calls n phase }

/-- A call enters a phase, and something has happened. -/
def State.record (s : State τ η) (n : ℕ) (phase : Phase τ) (event : Event τ) : State τ η where
  user := s.user
  calls := Function.update s.calls n phase
  events := s.events ++ [event]

/-- A call has written the row, and is about to return. -/
def State.store (s : State τ η) (n : ℕ) (update : Update τ) (hash : Option η) : State τ η where
  user := { s.user with refreshTokenHash := hash }
  calls := Function.update s.calls n (.returning update)
  events := s.events ++ [.stored update]

/-- What is seen of a step: the row is written, or something else happens. -/
inductive Label (τ : Type u) where
  | write (update : Update τ)
  | other

section Steps

variable (hashRefreshToken : τ → η)

/-- `verifyRefreshToken`, of an active user. -/
def State.Accepts (s : State τ η) (token : τ) : Prop :=
  s.user.isActive = true ∧ s.user.refreshTokenHash = some (hashRefreshToken token)

/-- The reads and writes of the calls. -/
inductive Step : State τ η → Label τ → State τ η → Prop where
  /-- `login` has checked the password, or another log in has succeeded. -/
  | authenticate {s : State τ η} {n : ℕ} : s.calls n = .idle → s.user.isActive = true →
      Step s .other (s.record n (.signing none) .authenticated)
  /-- A token is presented that has been issued. -/
  | present {s : State τ η} {n : ℕ} {presented : Option τ} {token : τ} : s.calls n = .idle →
      .issued presented token ∈ s.events → Step s .other (s.enter n (.presenting token))
  /-- `refreshTokens` accepts the token. -/
  | accept {s : State τ η} {n : ℕ} {token : τ} : s.calls n = .presenting token →
      s.Accepts hashRefreshToken token → Step s .other (s.enter n (.signing (some token)))
  /-- `generateTokens`. -/
  | mint {s : State τ η} {n : ℕ} {presented : Option τ} {token : τ} :
      s.calls n = .signing presented → (∀ presented', .minted presented' token ∉ s.events) →
      Step s .other
        (s.record n (.updating (.issue presented token) .loading) (.minted presented token))
  | logout {s : State τ η} {n : ℕ} : s.calls n = .idle →
      Step s .other (s.enter n (.updating .logout .loading))
  | load {s : State τ η} {n : ℕ} {update : Update τ} : s.calls n = .updating update .loading →
      Step s .other (s.enter n (.updating update .comparing))
  | compare {s : State τ η} {n : ℕ} {update : Update τ} :
      s.calls n = .updating update .comparing →
      s.user.refreshTokenHash ≠ update.hash hashRefreshToken →
      Step s .other (s.enter n (.updating update .writing))
  /-- There is nothing to be written. -/
  | unchanged {s : State τ η} {n : ℕ} {update : Update τ} :
      s.calls n = .updating update .comparing →
      s.user.refreshTokenHash = update.hash hashRefreshToken →
      Step s .other (s.record n (.returning update) (.stored update))
  | write {s : State τ η} {n : ℕ} {update : Update τ} : s.calls n = .updating update .writing →
      Step s (.write update) (s.store n update (update.hash hashRefreshToken))
  /-- The call returns. -/
  | complete {s : State τ η} {n : ℕ} {update : Update τ} : s.calls n = .returning update →
      Step s .other (s.record n .idle (.completed update))
  /-- The call fails, maybe after it has written the row, or it refuses the token. -/
  | fail {s : State τ η} {n : ℕ} : Step s .other (s.enter n .idle)

/-- The calls as a transition system. At first no token has been minted. -/
def system : Transition.System (State τ η) (Label τ) where
  init s := s.user.refreshTokenHash = none ∧ (∀ n, s.calls n = .idle) ∧ s.events = []
  step := Step hashRefreshToken

/-- The tokens that were minted in the past, and those that are minted for one that is presented of
these. -/
inductive Stale (past events : List (Event τ)) : τ → Prop where
  | minted {presented : Option τ} {token : τ} : .minted presented token ∈ past →
      Stale past events token
  | derived {token token' : τ} : .minted (some token) token' ∈ events → Stale past events token →
      Stale past events token'

/-- A token is exchanged once at most, and at most one is accepted. After a log out no token is
accepted that was minted before it, or for one that was, until the user authenticates again. -/
structure Rotates (s : State τ η) : Prop where
  once : s.events.Pairwise fun e e' => ∀ presented token token',
    e = .issued (some presented) token → e' ≠ .issued (some presented) token'
  single : ∀ token token', s.Accepts hashRefreshToken token → s.Accepts hashRefreshToken token' →
    token = token'
  revoked : ∀ past after token, s.events = past ++ .loggedOut :: after → .authenticated ∉ after →
    Stale past s.events token → ¬ s.Accepts hashRefreshToken token

/-- When a refresh writes the row, the hash is still that of the token that was presented; when
a log in does, no log out has written it that is yet to return, or that has returned since the
token was minted. -/
def Careful (s : State τ η) (l : Label τ) (_ : State τ η) : Prop :=
  match l with
  | .write (.issue (some presented) _) =>
    s.user.refreshTokenHash = some (hashRefreshToken presented)
  | .write (.issue none token) => (∀ n, s.calls n ≠ .returning .logout)
    ∧ ∀ past after presented, s.events = past ++ .loggedOut :: after →
      .minted presented token ∉ past
  | .write .logout | .other => True

end Steps

end RefreshTokens
