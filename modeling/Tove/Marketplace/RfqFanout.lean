import Mathlib.Data.List.Dedup
import Mathlib.Data.Set.Card
import Tove.Base.Calls
import Tove.Base.ReadCommitted
import Tove.Base.Transition

/-!
# The fan-out of an RFQ

When a collector asks for quotes on an artwork, those who have won fractions of it are notified. An
attempt reads the RFQ, resolves the recipients, and in one transaction inserts their
notifications, latches the RFQ, and records how many notifications there are. Attempts are made by
several workers, again after a failure, and by the reconcile pass, so any number of them run
side by side.

Each statement is a step; the insertion of the notifications is one for each row, since it waits
where another transaction has inserted the same one. An attempt for an RFQ that is missing or has
been latched ends at once.
-/

namespace RfqFanout

open ReadCommitted

/-! ### The rows -/

/-- The columns of `rfqs` that the fan-out reads; `fannedOut` is whether `fanned_out_at` is set. -/
structure Rfq where
  collectorSub : ℕ
  artworkId : ℕ
  fannedOut : Bool
  deriving DecidableEq, Repr

/-- A row of `rfq_notifications`, whose key are the RFQ and the recipient:
`UQ_rfq_notifications_recipient_channel`. `read` is whether `read_at` is set. -/
structure RfqNotification where
  artworkId : ℕ
  read : Bool
  deriving DecidableEq, Repr

/-- A bid that has won fractions, with the artwork of its offering. -/
structure SettledBid where
  artworkId : ℕ
  collectorSub : ℕ
  deriving DecidableEq, Repr

/-- An entry of the audit log, of the kind `RFQ_NOTIFICATIONS_FANNED_OUT`. -/
structure FannedOutEntry where
  rfqId : ℕ
  recipientCount : ℕ
  deriving DecidableEq, Repr

/-- `findSettledWinnerSubsForArtwork`. -/
def findSettledWinnerSubsForArtwork (won : List SettledBid) (artworkId excludeSub : ℕ) : List ℕ :=
  ((won.filter fun bid => bid.artworkId = artworkId ∧ bid.collectorSub ≠ excludeSub).map
    (·.collectorSub)).dedup.mergeSort

/-- `latchFannedOut`, of a row. -/
def Rfq.latch (rfq : Rfq) : Rfq := { rfq with fannedOut := true }

/-- `markRead`, of a row. -/
def RfqNotification.markRead (row : RfqNotification) : RfqNotification := { row with read := true }

/-! ### The attempts -/

/-- What an attempt is about to do: nothing; to resolve the recipients of an RFQ it has read; to
insert the rest of the notifications, or to latch the RFQ when there is none left; to count the
notifications of an RFQ it has latched; to record the count, and commit; or to commit, without
having latched the RFQ. -/
inductive Phase where
  | idle
  | resolving (rfqId : ℕ) (rfq : Rfq)
  | inserting (rfqId artworkId : ℕ) (recipients rest : List ℕ)
  | counting (rfqId : ℕ) (recipients : List ℕ)
  | recording (rfqId : ℕ) (recipients : List ℕ) (recipientCount : ℕ)
  | losing (rfqId : ℕ)
  deriving DecidableEq, Repr

/-- The tables, the bids that have won, the audit log, and the attempts. -/
structure State where
  rfqs : Store ℕ Rfq
  notifications : Store (ℕ × ℕ) RfqNotification
  won : List SettledBid
  audit : List FannedOutEntry
  calls : ℕ → Phase

def State.enter (s : State) (n : ℕ) (phase : Phase) : State :=
  { s with calls := Function.update s.calls n phase }

/-- The transaction of an attempt is over. -/
def State.commit (s : State) (n : ℕ) : State :=
  { s with rfqs := s.rfqs.commit n, notifications := s.notifications.commit n }

def State.abort (s : State) (n : ℕ) : State :=
  { s with rfqs := s.rfqs.abort n, notifications := s.notifications.abort n }

/-- The recipients whose notifications of an RFQ an attempt sees. -/
def State.seen (s : State) (n rfqId : ℕ) : Set ℕ :=
  {sub | s.notifications.view n (rfqId, sub) ≠ none}

/-- What is seen of a step: the transaction that latches an RFQ is committed, or something else
happens. -/
inductive Label where
  | fannedOut (rfqId : ℕ) (recipients : List ℕ) (recipientCount : ℕ)
  | other

/-- The statements of the attempts. -/
inductive Step : State → Label → State → Prop where
  /-- An RFQ is created. -/
  | create {s : State} {rfqId : ℕ} {rfq : Rfq} : s.rfqs.committed rfqId = none →
      rfq.fannedOut = false →
      Step s .other { s with rfqs := s.rfqs.put rfqId (some rfq) }
  /-- Offerings are settled, or deleted. -/
  | settle {s : State} {won : List SettledBid} : Step s .other { s with won }
  /-- `markRead`, by the recipient. -/
  | markRead {s : State} {rfqId sub : ℕ} {row : RfqNotification} :
      s.notifications.committed (rfqId, sub) = some row → row.read = false →
      Step s .other
        { s with notifications := s.notifications.put (rfqId, sub) (some row.markRead) }
  /-- `findOneById`. -/
  | find {s : State} {n rfqId : ℕ} {rfq : Rfq} : s.calls n = .idle →
      s.rfqs.committed rfqId = some rfq → rfq.fannedOut = false →
      Step s .other (s.enter n (.resolving rfqId rfq))
  | resolve {s : State} {n rfqId : ℕ} {rfq : Rfq} {recipients : List ℕ} :
      s.calls n = .resolving rfqId rfq →
      recipients = findSettledWinnerSubsForArtwork s.won rfq.artworkId rfq.collectorSub →
      Step s .other (s.enter n (.inserting rfqId rfq.artworkId recipients recipients))
  /-- `insertManyIgnoreConflicts`, of a row. -/
  | insert {s : State} {n rfqId artworkId sub : ℕ} {recipients rest : List ℕ} :
      s.calls n = .inserting rfqId artworkId recipients (sub :: rest) →
      s.notifications.Free n (rfqId, sub) → s.notifications.view n (rfqId, sub) = none →
      Step s .other (State.enter
        { s with notifications := s.notifications.write n (rfqId, sub) ⟨artworkId, false⟩ } n
        (.inserting rfqId artworkId recipients rest))
  /-- There is such a row. -/
  | conflict {s : State} {n rfqId artworkId sub : ℕ} {recipients rest : List ℕ} :
      s.calls n = .inserting rfqId artworkId recipients (sub :: rest) →
      s.notifications.view n (rfqId, sub) ≠ none →
      Step s .other (s.enter n (.inserting rfqId artworkId recipients rest))
  /-- `latchFannedOut`. -/
  | latch {s : State} {n rfqId artworkId : ℕ} {recipients : List ℕ} {rfq : Rfq} :
      s.calls n = .inserting rfqId artworkId recipients [] → s.rfqs.Free n rfqId →
      s.rfqs.committed rfqId = some rfq → rfq.fannedOut = false →
      Step s .other (State.enter { s with rfqs := s.rfqs.write n rfqId rfq.latch } n
        (.counting rfqId recipients))
  /-- The RFQ has been latched. -/
  | lose {s : State} {n rfqId artworkId : ℕ} {recipients : List ℕ} {rfq : Rfq} :
      s.calls n = .inserting rfqId artworkId recipients [] →
      s.rfqs.committed rfqId = some rfq → rfq.fannedOut = true →
      Step s .other (s.enter n (.losing rfqId))
  /-- `countForRfq`. -/
  | count {s : State} {n rfqId recipientCount : ℕ} {recipients : List ℕ} :
      s.calls n = .counting rfqId recipients →
      (recipientCount : ℕ∞) = (s.seen n rfqId).encard →
      Step s .other (s.enter n (.recording rfqId recipients recipientCount))
  /-- `record`, and the commit. -/
  | record {s : State} {n rfqId recipientCount : ℕ} {recipients : List ℕ} :
      s.calls n = .recording rfqId recipients recipientCount →
      Step s (.fannedOut rfqId recipients recipientCount)
        (State.enter { s.commit n with audit := s.audit ++ [⟨rfqId, recipientCount⟩] } n .idle)
  | leave {s : State} {n rfqId : ℕ} : s.calls n = .losing rfqId →
      Step s .other ((s.commit n).enter n .idle)
  /-- A statement fails, a deadlock is broken, or the process crashes. -/
  | stop {s : State} {n : ℕ} : Step s .other ((s.abort n).enter n .idle)

/-- The fan-out as a transition system. At first there are no RFQs. -/
def system : Transition.System State Label where
  init s := (∀ n, s.calls n = .idle) ∧ (∀ rfqId, s.rfqs.committed rfqId = none)
    ∧ (∀ key, s.notifications.committed key = none) ∧ (∀ n, s.rfqs.writes n = fun _ => none)
    ∧ (∀ n, s.notifications.writes n = fun _ => none) ∧ s.audit = []
  step := Step

/-! ### What is to hold -/

/-- `fanned_out_at` of the RFQ is set. -/
def State.Latched (s : State) (rfqId : ℕ) : Prop :=
  ∃ rfq, s.rfqs.committed rfqId = some rfq ∧ rfq.fannedOut = true

/-- The recipients that have a notification of an RFQ. -/
def State.notified (s : State) (rfqId : ℕ) : Set ℕ :=
  {sub | s.notifications.committed (rfqId, sub) ≠ none}

/-- The entries of the audit log about an RFQ. -/
def State.auditsOf (s : State) (rfqId : ℕ) : List FannedOutEntry :=
  s.audit.filter fun entry => entry.rfqId = rfqId

/-- Whether an attempt is about an RFQ. -/
def Phase.About (rfqId : ℕ) : Phase → Prop
  | .idle => False
  | .resolving rfqId' _ | .inserting rfqId' .. | .counting rfqId' _ | .recording rfqId' ..
  | .losing rfqId' => rfqId' = rfqId

/-- Who is to be notified of an RFQ: those who have won fractions of its artwork, apart from the
collector. -/
def State.Holder (s : State) (rfqId sub : ℕ) : Prop :=
  ∃ rfq, s.rfqs.committed rfqId = some rfq ∧ ⟨rfq.artworkId, sub⟩ ∈ s.won ∧ sub ≠ rfq.collectorSub

/-- Who has won fractions of the artwork of an RFQ stays the same once there is the RFQ. -/
def SameHolders (rfqId : ℕ) (s : State) (_ : Label) (s' : State) : Prop :=
  ∀ rfq, s.rfqs.committed rfqId = some rfq →
    ∀ sub, ⟨rfq.artworkId, sub⟩ ∈ s'.won ↔ ⟨rfq.artworkId, sub⟩ ∈ s.won

end RfqFanout
