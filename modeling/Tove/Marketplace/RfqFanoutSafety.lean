import Tove.Marketplace.RfqFanout

/-!
# The fan-out is done once

An attempt that has latched an RFQ holds its row until it is over, so no other attempt for the RFQ
commits in the meantime: it would have to latch the row itself, or to find it latched. Therefore
the number that is recorded is that of the notifications at the commit, and there is one record.
-/

namespace RfqFanout

open ReadCommitted ReadCommitted.Store Transition Calls

/-- The RFQ that an attempt has latched. -/
def Phase.latched : Phase → Option ℕ
  | .counting rfqId _ | .recording rfqId .. => some rfqId
  | _ => none

/-- The RFQ whose notifications the transaction of an attempt inserts. -/
def Phase.target : Phase → Option ℕ
  | .inserting rfqId .. | .counting rfqId _ | .recording rfqId .. | .losing rfqId => some rfqId
  | _ => none

/-- The recipients whose notifications a transaction has inserted, or found. -/
def Phase.Inserted (rfqId sub : ℕ) : Phase → Prop
  | .inserting rfqId' _ recipients rest => rfqId' = rfqId ∧ sub ∈ recipients ∧ sub ∉ rest
  | .counting rfqId' recipients | .recording rfqId' recipients _ =>
    rfqId' = rfqId ∧ sub ∈ recipients
  | _ => False

theorem Phase.target_of_latched {phase : Phase} {rfqId : ℕ} (h : phase.latched = some rfqId) :
  phase.target = some rfqId
  := by
  cases phase with
  | counting => exact h
  | recording => exact h
  | _ => cases h

theorem Phase.about_of_target {phase : Phase} {rfqId : ℕ} (h : phase.target = some rfqId) :
  phase.About rfqId
  := by
  cases phase with
  | idle => cases h
  | resolving => cases h
  | _ => exact Option.some.inj h

/-- What is known of an attempt. -/
structure Known (s : State) (n : ℕ) : Prop where
  rfqs : ∀ rfqId row, s.rfqs.writes n rfqId = some row → (s.calls n).latched = some rfqId
  notifications : ∀ rfqId sub row, s.notifications.writes n (rfqId, sub) = some row →
    (s.calls n).target = some rfqId
  unlatched : ∀ rfqId, (s.calls n).latched = some rfqId → ∃ rfq,
    s.rfqs.committed rfqId = some rfq ∧ rfq.fannedOut = false
      ∧ s.rfqs.writes n rfqId = some rfq.latch
  lost : ∀ rfqId, s.calls n = .losing rfqId → s.Latched rfqId
  inserted : ∀ rfqId sub, (s.calls n).Inserted rfqId sub →
    s.notifications.view n (rfqId, sub) ≠ none
  counted : ∀ rfqId recipients recipientCount,
    s.calls n = .recording rfqId recipients recipientCount →
    (recipientCount : ℕ∞) = (s.seen n rfqId).encard

/-- What holds in every state. -/
structure Tracked (s : State) : Prop where
  known : ∀ n, Known s n
  exclusive : Exclusive Phase.latched s.calls
  consistent : Consistent (fun _ => False) s.notifications
  fresh : ∀ n key row, s.notifications.writes n key = some row →
    s.notifications.committed key = none
  audited : ∀ rfqId, s.Latched rfqId →
    ∃ recipientCount, s.auditsOf rfqId = [⟨rfqId, recipientCount⟩]
  unaudited : ∀ rfqId, ¬ s.Latched rfqId → s.auditsOf rfqId = []

/-! ### What a step leaves alone -/

/-- What a step of another leaves of what an attempt rests on. -/
structure Frame (s s' : State) (m : ℕ) : Prop where
  calls : s'.calls m = s.calls m
  rfqs : s'.rfqs.writes m = s.rfqs.writes m
  notifications : s'.notifications.writes m = s.notifications.writes m
  unlatched : ∀ rfqId rfq, (s.calls m).latched = some rfqId → s.rfqs.committed rfqId = some rfq →
    s'.rfqs.committed rfqId = some rfq
  lost : ∀ rfqId, s.Latched rfqId → s'.Latched rfqId
  grows : ∀ key, s.notifications.committed key ≠ none → s'.notifications.committed key ≠ none
  stays : ∀ rfqId sub, (s.calls m).latched = some rfqId →
    s.notifications.committed (rfqId, sub) = none → s'.notifications.committed (rfqId, sub) = none

section Frame

variable {s s' : State} {l : Label} {m n : ℕ} {rfqId sub : ℕ}

theorem view_ne_none_iff {db : Store (ℕ × ℕ) RfqNotification} {key : ℕ × ℕ} :
  db.view n key ≠ none ↔ db.writes n key ≠ none ∨ db.committed key ≠ none
  := by
  rw [Store.view]
  cases db.writes n key <;> simp

theorem Known.frame (h : Known s m) (hf : Frame s s' m) :
  Known s' m
  := by
  constructor
  · rw [hf.rfqs, hf.calls]
    exact h.rfqs
  · rw [hf.notifications, hf.calls]
    exact h.notifications
  · intro rfqId hlatched
    rw [hf.calls] at hlatched
    obtain ⟨rfq, hcommitted, hfalse, hwrites⟩ := h.unlatched rfqId hlatched
    rw [hf.rfqs]
    exact ⟨rfq, hf.unlatched rfqId rfq hlatched hcommitted, hfalse, hwrites⟩
  · rw [hf.calls]
    exact fun rfqId hlosing => hf.lost rfqId (h.lost rfqId hlosing)
  · intro rfqId sub hinserted
    rw [hf.calls] at hinserted
    rw [view_ne_none_iff, hf.notifications]
    exact (view_ne_none_iff.mp (h.inserted rfqId sub hinserted)).imp_right (hf.grows _)
  · intro rfqId recipients recipientCount hrecording
    rw [hf.calls] at hrecording
    rw [h.counted rfqId recipients recipientCount hrecording]
    congr 1
    ext sub
    rw [State.seen, State.seen, Set.mem_ofPred_eq, Set.mem_ofPred_eq, view_ne_none_iff,
      view_ne_none_iff, hf.notifications]
    have hlatched : (s.calls m).latched = some rfqId := by rw [hrecording, Phase.latched]
    exact or_congr_right ⟨hf.grows _, fun h' hnone => h' (hf.stays rfqId sub hlatched hnone)⟩

/-- Nothing is committed, and only another attempt goes on or writes. -/
theorem frame_of_same (hcalls : s'.calls m = s.calls m)
    (hrfqs : s'.rfqs.writes m = s.rfqs.writes m)
    (hnotifications : s'.notifications.writes m = s.notifications.writes m)
    (hcommitted : s'.rfqs.committed = s.rfqs.committed)
    (hcommitted' : s'.notifications.committed = s.notifications.committed) :
  Frame s s' m
  := by
  refine ⟨hcalls, hrfqs, hnotifications, ?_, ?_, ?_, ?_⟩
  · rw [hcommitted]
    exact fun _ _ _ h => h
  · intro rfqId hlatched
    rwa [State.Latched, hcommitted]
  · rw [hcommitted']
    exact fun _ h => h
  · rw [hcommitted']
    exact fun _ _ _ h => h

theorem enter_calls_of_ne {phase : Phase} (hm : m ≠ n) :
  (s.enter n phase).calls m = s.calls m
  := Function.update_of_ne hm ..

@[simp] theorem enter_calls {phase : Phase} :
  (s.enter n phase).calls n = phase
  := Function.update_self ..

theorem frame_enter {phase : Phase} (hm : m ≠ n) :
  Frame s (s.enter n phase) m
  := frame_of_same (enter_calls_of_ne hm) rfl rfl rfl rfl

/-- What is latched is not written. -/
theorem Known.writes_of_latched (h : Known s n) (hlatched : s.Latched rfqId) :
  s.rfqs.writes n rfqId = none
  := by
  rw [Option.eq_none_iff_forall_ne_some]
  intro row hwrites
  obtain ⟨rfq, hcommitted, hfalse, _⟩ := h.unlatched rfqId (h.rfqs rfqId row hwrites)
  obtain ⟨rfq', hcommitted', htrue⟩ := hlatched
  rw [hcommitted] at hcommitted'
  obtain rfl := Option.some.inj hcommitted'
  rw [hfalse] at htrue
  cases htrue

/-- A commit keeps what is latched. -/
theorem Known.latched_commit (h : Known s n) (hlatched : s.Latched rfqId) :
  (s.commit n).Latched rfqId
  := by
  obtain ⟨rfq, hcommitted, htrue⟩ := hlatched
  refine ⟨rfq, ?_, htrue⟩
  rw [← hcommitted]
  apply view_of_none (h.writes_of_latched ⟨rfq, hcommitted, htrue⟩)

/-- The commit of an attempt leaves alone what one for another RFQ has latched. -/
theorem frame_commit {phase : Phase} {audit : List FannedOutEntry} (hn : Known s n) (hm : m ≠ n)
    (hexclusive : Exclusive Phase.latched s.calls)
    (htarget : ∀ rfqId, (s.calls m).latched = some rfqId → (s.calls n).target ≠ some rfqId) :
  Frame s (State.enter { s.commit n with audit := audit } n phase) m
  := by
  refine ⟨enter_calls_of_ne hm, commit_writes_of_ne hm, commit_writes_of_ne hm, ?_, ?_, ?_, ?_⟩
  · intro rfqId rfq hlatched hcommitted
    rw [← hcommitted]
    apply view_of_none
    rw [Option.eq_none_iff_forall_ne_some]
    intro row hwrites
    exact hm (hexclusive m n rfqId hlatched (hn.rfqs rfqId row hwrites))
  · exact fun rfqId hlatched => hn.latched_commit hlatched
  · intro key hkey
    exact view_ne_none_iff.mpr (.inr hkey)
  · intro rfqId sub hlatched hnone
    rw [← hnone]
    apply view_of_none
    rw [Option.eq_none_iff_forall_ne_some]
    intro row hwrites
    exact htarget rfqId hlatched (hn.notifications rfqId sub row hwrites)

/-- An attempt that has lost is not about an RFQ that another one has latched. -/
theorem Tracked.target_of_losing (h : Tracked s) (hlosing : s.calls n = .losing rfqId)
    {rfqId' : ℕ} (hlatched : (s.calls m).latched = some rfqId') :
  (s.calls n).target ≠ some rfqId'
  := by
  rw [hlosing, Phase.target]
  intro heq
  obtain rfl := Option.some.inj heq
  obtain ⟨rfq, hcommitted, hfalse, _⟩ := (h.known m).unlatched rfqId hlatched
  obtain ⟨rfq', hcommitted', htrue⟩ := (h.known n).lost rfqId hlosing
  rw [hcommitted] at hcommitted'
  obtain rfl := Option.some.inj hcommitted'
  rw [hfalse] at htrue
  cases htrue

end Frame

/-! ### What the attempt itself knows -/

section Own

variable {s : State} {n rfqId artworkId sub recipientCount : ℕ} {recipients rest : List ℕ}
  {rfq : Rfq}

/-- A transaction that is not begun has written nothing. -/
theorem Known.clean (h : Known s n) (htarget : (s.calls n).target = none) :
  s.rfqs.writes n = (fun _ => none) ∧ s.notifications.writes n = fun _ => none
  := by
  constructor
  · funext rfqId
    rw [Option.eq_none_iff_forall_ne_some]
    intro row hwrites
    rw [Phase.target_of_latched (h.rfqs rfqId row hwrites)] at htarget
    cases htarget
  · funext ⟨rfqId, sub⟩
    rw [Option.eq_none_iff_forall_ne_some]
    intro row hwrites
    rw [h.notifications rfqId sub row hwrites] at htarget
    cases htarget

/-- What is known of an attempt that has written nothing, and has inserted nothing. -/
theorem known_of_clean (hclean : s.rfqs.writes n = fun _ => none)
    (hclean' : s.notifications.writes n = fun _ => none)
    (hlatched : (s.calls n).latched = none) (hlosing : ∀ rfqId, s.calls n ≠ .losing rfqId)
    (hinserted : ∀ rfqId sub, ¬ (s.calls n).Inserted rfqId sub) :
  Known s n
  := by
  constructor
  · intro rfqId row hwrites
    rw [hclean] at hwrites
    cases hwrites
  · intro rfqId sub row hwrites
    rw [hclean'] at hwrites
    cases hwrites
  · intro rfqId h
    rw [hlatched] at h
    cases h
  · exact fun rfqId h => absurd h (hlosing rfqId)
  · exact fun rfqId sub h => absurd h (hinserted rfqId sub)
  · intro rfqId recipients recipientCount h
    rw [h] at hlatched
    cases hlatched

theorem known_of_idle (hclean : s.rfqs.writes n = fun _ => none)
    (hclean' : s.notifications.writes n = fun _ => none) (hidle : s.calls n = .idle) :
  Known s n
  := by
  apply known_of_clean hclean hclean'
  · rw [hidle]
    rfl
  · intro rfqId
    rw [hidle]
    nofun
  · intro rfqId sub
    rw [hidle]
    exact id

/-- A transaction that inserts, of which the rest may differ. -/
theorem Known.insert (h : Known s n) {s' : State}
    (hphase : s.calls n = .inserting rfqId artworkId recipients (sub :: rest))
    (hphase' : s'.calls n = .inserting rfqId artworkId recipients rest)
    (hrfqs : s'.rfqs.writes n = s.rfqs.writes n)
    (hwrites : ∀ key row, s'.notifications.writes n key = some row →
      key = (rfqId, sub) ∨ s.notifications.writes n key = some row)
    (hview : ∀ key, s.notifications.view n key ≠ none → s'.notifications.view n key ≠ none)
    (hseen : s'.notifications.view n (rfqId, sub) ≠ none) :
  Known s' n
  := by
  constructor
  · intro rfqId' row hrow
    rw [hrfqs] at hrow
    have hlatched := h.rfqs rfqId' row hrow
    rw [hphase] at hlatched
    cases hlatched
  · intro rfqId' sub' row hrow
    rw [hphase', Phase.target]
    rcases hwrites _ _ hrow with heq | hbefore
    · rw [(Prod.mk.inj heq).1]
    · have htarget := h.notifications rfqId' sub' row hbefore
      rwa [hphase] at htarget
  · intro rfqId' hlatched
    rw [hphase'] at hlatched
    cases hlatched
  · rw [hphase']
    nofun
  · intro rfqId' sub' hinserted
    rw [hphase'] at hinserted
    obtain ⟨rfl, hmem, hrest⟩ := hinserted
    by_cases hsub : sub' = sub
    · subst hsub
      apply hseen
    · apply hview
      apply h.inserted
      rw [hphase]
      exact ⟨rfl, hmem, by simp [hsub, hrest]⟩
  · rw [hphase']
    nofun

/-- An attempt latches its RFQ. -/
theorem Known.latch (h : Known s n)
    (hphase : s.calls n = .inserting rfqId artworkId recipients [])
    (hcommitted : s.rfqs.committed rfqId = some rfq) (hfalse : rfq.fannedOut = false) :
  Known (State.enter { s with rfqs := s.rfqs.write n rfqId rfq.latch } n
    (.counting rfqId recipients)) n
  := by
  constructor
  · intro rfqId' row hrow
    rw [enter_calls, Phase.latched]
    rcases of_write_writes hrow with ⟨_, rfl, _⟩ | ⟨_, hbefore⟩
    · rfl
    · have hlatched := h.rfqs rfqId' row hbefore
      rw [hphase] at hlatched
      cases hlatched
  · intro rfqId' sub row hrow
    have htarget := h.notifications rfqId' sub row hrow
    rw [hphase] at htarget
    rwa [enter_calls]
  · intro rfqId' hlatched
    rw [enter_calls] at hlatched
    obtain rfl := Option.some.inj hlatched
    exact ⟨rfq, hcommitted, hfalse, write_writes_self⟩
  · rw [enter_calls]
    nofun
  · intro rfqId' sub hinserted
    rw [enter_calls] at hinserted
    apply h.inserted
    rw [hphase]
    exact ⟨hinserted.1, hinserted.2, List.not_mem_nil⟩
  · rw [enter_calls]
    nofun

/-- An attempt finds its RFQ latched. -/
theorem Known.lose (h : Known s n)
    (hphase : s.calls n = .inserting rfqId artworkId recipients [])
    (hlatched : s.Latched rfqId) :
  Known (s.enter n (.losing rfqId)) n
  := by
  constructor
  · intro rfqId' row hrow
    have hlatched := h.rfqs rfqId' row hrow
    rw [hphase] at hlatched
    cases hlatched
  · intro rfqId' sub row hrow
    have htarget := h.notifications rfqId' sub row hrow
    rw [hphase] at htarget
    rwa [enter_calls]
  · rw [enter_calls]
    nofun
  · intro rfqId' hlosing
    rw [enter_calls] at hlosing
    obtain rfl := Phase.losing.inj hlosing
    apply hlatched
  · intro rfqId' sub hinserted
    rw [enter_calls] at hinserted
    cases hinserted
  · rw [enter_calls]
    nofun

/-- An attempt counts the notifications. -/
theorem Known.count (h : Known s n) (hphase : s.calls n = .counting rfqId recipients)
    (hcount : (recipientCount : ℕ∞) = (s.seen n rfqId).encard) :
  Known (s.enter n (.recording rfqId recipients recipientCount)) n
  := by
  constructor
  · intro rfqId' row hrow
    have hlatched := h.rfqs rfqId' row hrow
    rw [hphase] at hlatched
    rwa [enter_calls]
  · intro rfqId' sub row hrow
    have htarget := h.notifications rfqId' sub row hrow
    rw [hphase] at htarget
    rwa [enter_calls]
  · intro rfqId' hlatched
    rw [enter_calls] at hlatched
    apply h.unlatched
    rwa [hphase]
  · rw [enter_calls]
    nofun
  · intro rfqId' sub hinserted
    rw [enter_calls] at hinserted
    apply h.inserted
    rwa [hphase]
  · intro rfqId' recipients' recipientCount' hrecording
    rw [enter_calls] at hrecording
    obtain ⟨rfl, rfl, rfl⟩ := Phase.recording.inj hrecording
    apply hcount

end Own

/-! ### Steps -/

section Steps

variable {s s' : State} {l : Label}

/-- What is known of the attempts stays known. -/
theorem Step.known (hs : Tracked s) (h : Step s l s') (m : ℕ) :
  Known s' m
  := by
  have hm := hs.known m
  cases h with
  | @create rfqId rfq hnone =>
    apply hm.frame
    refine ⟨rfl, rfl, rfl, ?_, ?_, fun _ h => h, fun _ _ _ h => h⟩
    · intro rfqId' rfq' _ hcommitted
      rw [← hcommitted]
      apply put_committed_of_ne
      rintro rfl
      rw [hnone] at hcommitted
      cases hcommitted
    · rintro rfqId' ⟨rfq', hcommitted, htrue⟩
      refine ⟨rfq', ?_, htrue⟩
      rw [← hcommitted]
      apply put_committed_of_ne
      rintro rfl
      rw [hnone] at hcommitted
      cases hcommitted
  | settle => exact hm.frame (frame_of_same rfl rfl rfl rfl rfl)
  | @markRead rfqId sub row hrow =>
    apply hm.frame
    refine ⟨rfl, rfl, rfl, fun _ _ _ h => h, fun _ h => h, ?_, ?_⟩
    · intro key hkey
      by_cases hk : key = (rfqId, sub)
      · rw [hk, put_committed]
        nofun
      · rwa [put_committed_of_ne hk]
    · intro rfqId' sub' _ hnone
      rw [← hnone]
      apply put_committed_of_ne
      intro heq
      rw [heq, hrow] at hnone
      cases hnone
  | @find n rfqId rfq hidle =>
    by_cases hn : m = n
    · subst hn
      obtain ⟨hrfqs, hnotifications⟩ := hm.clean (congrArg Phase.target hidle)
      refine known_of_clean hrfqs hnotifications ?_ ?_ ?_ <;> rw [enter_calls]
      · rfl
      · nofun
      · exact fun _ _ => id
    · exact hm.frame (frame_enter hn)
  | @resolve n rfqId rfq recipients hphase =>
    by_cases hn : m = n
    · subst hn
      obtain ⟨hrfqs, hnotifications⟩ := hm.clean (congrArg Phase.target hphase)
      refine known_of_clean hrfqs hnotifications ?_ ?_ ?_ <;> rw [enter_calls]
      · rfl
      · nofun
      · exact fun rfqId sub h => h.2.2 h.2.1
    · exact hm.frame (frame_enter hn)
  | @insert n rfqId artworkId sub recipients rest hphase hfree hnone =>
    by_cases hn : m = n
    · subst hn
      refine hm.insert hphase enter_calls rfl ?_ ?_ ?_
      · intro key row hrow
        rcases of_write_writes hrow with ⟨_, hkey, _⟩ | ⟨_, hbefore⟩
        · exact .inl hkey
        · exact .inr hbefore
      · intro key hkey
        rw [view_ne_none_iff] at hkey ⊢
        refine hkey.imp_left fun hwrites => ?_
        by_cases hk : key = (rfqId, sub)
        · rw [hk]
          exact ne_of_eq_of_ne write_writes_self (by nofun)
        · exact ne_of_eq_of_ne (write_writes_of_ne_key hk) hwrites
      · rw [view_ne_none_iff]
        exact .inl (ne_of_eq_of_ne write_writes_self (by nofun))
    · exact hm.frame (frame_of_same (enter_calls_of_ne hn) rfl (write_writes_of_ne hn) rfl rfl)
  | @conflict n rfqId artworkId sub recipients rest hphase hsome =>
    by_cases hn : m = n
    · subst hn
      exact hm.insert hphase enter_calls rfl (fun _ _ h => .inr h) (fun _ h => h) hsome
    · exact hm.frame (frame_enter hn)
  | @latch n rfqId artworkId recipients rfq hphase hfree hcommitted hfalse =>
    by_cases hn : m = n
    · subst hn
      exact hm.latch hphase hcommitted hfalse
    · exact hm.frame (frame_of_same (enter_calls_of_ne hn) (write_writes_of_ne hn) rfl rfl rfl)
  | @lose n rfqId artworkId recipients rfq hphase hcommitted htrue =>
    by_cases hn : m = n
    · subst hn
      exact hm.lose hphase ⟨rfq, hcommitted, htrue⟩
    · exact hm.frame (frame_enter hn)
  | @count n rfqId recipientCount recipients hphase hcount =>
    by_cases hn : m = n
    · subst hn
      exact hm.count hphase hcount
    · exact hm.frame (frame_enter hn)
  | @record n rfqId recipientCount recipients hphase =>
    by_cases hn : m = n
    · subst hn
      exact known_of_idle commit_writes commit_writes enter_calls
    · apply hm.frame (frame_commit (hs.known n) hn hs.exclusive _)
      intro rfqId' hlatched htarget
      rw [hphase] at htarget
      obtain rfl := Option.some.inj htarget
      exact hn (hs.exclusive m n rfqId hlatched (by rw [hphase, Phase.latched]))
  | @leave n rfqId hphase =>
    by_cases hn : m = n
    · subst hn
      exact known_of_idle commit_writes commit_writes enter_calls
    · exact hm.frame (frame_commit (hs.known n) hn hs.exclusive fun rfqId' hlatched =>
        hs.target_of_losing hphase hlatched)
  | @stop n =>
    by_cases hn : m = n
    · subst hn
      exact known_of_idle abort_writes abort_writes enter_calls
    · exact hm.frame (frame_of_same (enter_calls_of_ne hn) (abort_writes_of_ne hn)
        (abort_writes_of_ne hn) rfl rfl)

/-- No RFQ is latched by two attempts. -/
theorem Step.exclusive (hs : Tracked s) (h : Step s l s') :
  Exclusive Phase.latched s'.calls
  := by
  cases h with
  | create => exact hs.exclusive
  | settle => exact hs.exclusive
  | markRead => exact hs.exclusive
  | latch _ hfree =>
    apply hs.exclusive.update
    intro m rfqId hphase hlatched
    obtain rfl := Option.some.inj hphase
    obtain ⟨rfq, _, _, hwrites⟩ := (hs.known m).unlatched _ hlatched
    by_contra hne
    rw [hfree m hne] at hwrites
    cases hwrites
  | count hphase =>
    apply hs.exclusive.update
    intro m rfqId hlatched hlatched'
    apply hs.exclusive m _ rfqId hlatched'
    rwa [hphase]
  | _ =>
    apply hs.exclusive.update
    nofun

/-- What becomes of the notifications: nothing, one is marked as read, or a statement of an
attempt. -/
theorem Step.acts (h : Step s l s') :
  (∃ n, Acts (fun _ => False) n s.notifications s'.notifications)
    ∨ ∃ key row, s.notifications.committed key = some row
      ∧ s'.notifications = s.notifications.put key (some row.markRead)
  := by
  cases h with
  | markRead hrow => exact .inr ⟨_, _, hrow, rfl⟩
  | insert _ hfree => exact .inl ⟨_, .write hfree nofun⟩
  | record => exact .inl ⟨_, .commit⟩
  | leave => exact .inl ⟨_, .commit⟩
  | stop => exact .inl ⟨_, .abort⟩
  | _ => exact .inl ⟨0, .nothing⟩

theorem Step.consistent (hs : Tracked s) (h : Step s l s') :
  Consistent (fun _ => False) s'.notifications
  := by
  rcases h.acts with ⟨n, hacts⟩ | ⟨key, row, _, heq⟩
  · apply hacts.consistent hs.consistent
  · rw [heq]
    apply hs.consistent.replace id

/-- What an attempt has inserted was not there. -/
theorem Step.fresh (hs : Tracked s) (h : Step s l s') {n : ℕ} {key : ℕ × ℕ} {row : RfqNotification}
    (hrow : s'.notifications.writes n key = some row) :
  s'.notifications.committed key = none
  := by
  have hcommit : ∀ m, (s.notifications.commit m).writes n key = some row →
      (s.notifications.commit m).committed key = none := by
    intro m hwrites
    obtain ⟨hn, hwrites⟩ := of_commit_writes hwrites
    rw [← hs.fresh n key row hwrites]
    apply view_of_none
    rw [Option.eq_none_iff_forall_ne_some]
    exact fun row' hwrites' => hn (hs.consistent.exclusive n m key row row' hwrites hwrites')
  cases h with
  | @markRead rfqId sub row' hrow' =>
    have hnone := hs.fresh n key row hrow
    rw [← hnone]
    apply put_committed_of_ne
    intro hk
    rw [hk, hrow'] at hnone
    cases hnone
  | insert _ hfree hnone =>
    rcases of_write_writes hrow with ⟨rfl, rfl, _⟩ | ⟨_, hbefore⟩
    · by_contra hsome
      exact absurd hnone (view_ne_none_iff.mpr (.inr hsome))
    · exact hs.fresh n key row hbefore
  | record => exact hcommit _ hrow
  | leave => exact hcommit _ hrow
  | stop => exact hs.fresh n key row (of_abort_writes hrow).2
  | _ => exact hs.fresh n key row hrow

/-- What is latched after a commit. -/
theorem Known.latched_commit_iff {n rfqId : ℕ} (h : Known s n) :
  (s.commit n).Latched rfqId ↔ s.Latched rfqId ∨ (s.calls n).latched = some rfqId
  := by
  constructor
  · rintro ⟨rfq, hview, htrue⟩
    rcases of_view hview with hwrites | ⟨_, hcommitted⟩
    · exact .inr (h.rfqs rfqId rfq hwrites)
    · exact .inl ⟨rfq, hcommitted, htrue⟩
  · rintro (hlatched | hlatched)
    · exact h.latched_commit hlatched
    · obtain ⟨rfq, _, _, hwrites⟩ := h.unlatched rfqId hlatched
      exact ⟨rfq.latch, view_of_writes hwrites, rfl⟩

/-- What a step does to the latches and to the log. -/
inductive Latches (s : State) : Label → State → Prop where
  | none {s' : State} : s'.audit = s.audit → (∀ rfqId, s'.Latched rfqId ↔ s.Latched rfqId) →
      Latches s .other s'
  | fannedOut {s' : State} {rfqId recipientCount : ℕ} {recipients : List ℕ} :
      s'.audit = s.audit ++ [⟨rfqId, recipientCount⟩] → ¬ s.Latched rfqId →
      (∀ rfqId', s'.Latched rfqId' ↔ s.Latched rfqId' ∨ rfqId' = rfqId) →
      (recipientCount : ℕ∞) = (s'.notified rfqId).encard →
      (∀ sub ∈ recipients, sub ∈ s'.notified rfqId) →
      Latches s (.fannedOut rfqId recipients recipientCount) s'

theorem Step.latches (hs : Tracked s) (h : Step s l s') :
  Latches s l s'
  := by
  cases h with
  | @create rfqId rfq hnone hfalse =>
    refine .none rfl ?_
    intro rfqId'
    apply exists_congr
    intro rfq'
    apply and_congr_left
    intro htrue
    by_cases hk : rfqId' = rfqId
    · subst hk
      rw [put_committed, hnone]
      constructor
      · intro heq
        obtain rfl := Option.some.inj heq
        rw [hfalse] at htrue
        cases htrue
      · nofun
    · rw [put_committed_of_ne hk]
  | @record n rfqId recipientCount recipients hphase =>
    have hlatched : (s.calls n).latched = some rfqId := congrArg Phase.latched hphase
    obtain ⟨rfq, hcommitted, hfalse, _⟩ := (hs.known n).unlatched rfqId hlatched
    apply Latches.fannedOut rfl
    · rintro ⟨rfq', hcommitted', htrue⟩
      rw [hcommitted] at hcommitted'
      obtain rfl := Option.some.inj hcommitted'
      rw [hfalse] at htrue
      cases htrue
    · intro rfqId'
      apply (hs.known n).latched_commit_iff.trans
      rw [hlatched, Option.some_inj, eq_comm (a := rfqId)]
    · exact (hs.known n).counted rfqId recipients recipientCount hphase
    · intro sub hsub
      apply (hs.known n).inserted rfqId sub
      rw [hphase]
      exact ⟨rfl, hsub⟩
  | @leave n rfqId hphase =>
    refine .none rfl ?_
    intro rfqId'
    apply (hs.known n).latched_commit_iff.trans
    rw [hphase]
    exact or_iff_left nofun
  | _ => exact .none rfl fun _ => Iff.rfl

/-- What a step does to the latch of an RFQ and to the entries about it. -/
theorem Latches.one (h : Latches s l s') (rfqId : ℕ) :
  (s'.auditsOf rfqId = s.auditsOf rfqId ∧ (s'.Latched rfqId ↔ s.Latched rfqId))
    ∨ ∃ recipientCount : ℕ, s'.auditsOf rfqId = s.auditsOf rfqId ++ [⟨rfqId, recipientCount⟩]
      ∧ ¬ s.Latched rfqId ∧ s'.Latched rfqId
      ∧ ∃ recipients, l = .fannedOut rfqId recipients recipientCount
  := by
  cases h with
  | none haudit hiff => exact .inl ⟨by rw [State.auditsOf, haudit, State.auditsOf], hiff rfqId⟩
  | @fannedOut _ rfqId' recipientCount recipients haudit hnot hiff =>
    rw [State.auditsOf, haudit, List.filter_append, ← State.auditsOf]
    by_cases hk : rfqId' = rfqId
    · subst hk
      exact .inr ⟨recipientCount, by simp, hnot, (hiff rfqId').mpr (.inr rfl), recipients, rfl⟩
    · refine .inl ⟨by simp [hk], ?_⟩
      rw [hiff]
      exact or_iff_left fun heq => hk heq.symm

/-- The log has one entry about each RFQ that is latched. -/
theorem Step.tracked (hs : Tracked s) (h : Step s l s') :
  Tracked s'
  := by
  refine ⟨h.known hs, h.exclusive hs, h.consistent hs, fun _ _ _ => h.fresh hs, ?_, ?_⟩
  · intro rfqId hlatched
    rcases (h.latches hs).one rfqId with ⟨haudits, hiff⟩ | ⟨recipientCount, haudits, hnot, _⟩
    · rw [haudits]
      exact hs.audited rfqId (hiff.mp hlatched)
    · exact ⟨recipientCount, by rw [haudits, hs.unaudited rfqId hnot, List.nil_append]⟩
  · intro rfqId hnot
    rcases (h.latches hs).one rfqId with ⟨haudits, hiff⟩ | ⟨_, _, _, hlatched, _⟩
    · rw [haudits]
      exact hs.unaudited rfqId fun hlatched => hnot (hiff.mpr hlatched)
    · exact absurd hlatched hnot

theorem tracked_of_reachable (h : system.Reachable s) :
  Tracked s
  := by
  apply h.invariant
  · rintro s₀ ⟨hidle, hrfqs, hnotifications, hclean, hclean', haudit⟩
    refine ⟨fun n => known_of_idle (hclean n) (hclean' n) (hidle n), ?_, ?_, ?_, ?_, ?_⟩
    · intro m n k hm
      rw [hidle] at hm
      cases hm
    · apply consistent_of_clean hclean'
      nofun
    · intro n key row hrow
      rw [hclean'] at hrow
      cases hrow
    · rintro rfqId ⟨rfq, hcommitted, _⟩
      rw [hrfqs] at hcommitted
      cases hcommitted
    · intro rfqId _
      rw [State.auditsOf, haudit]
      rfl
  · exact fun s₁ l₁ s₂ hs hstep => Step.tracked hs hstep

/-- A notification stays, and what was read stays read. -/
theorem Step.keeps (hs : Tracked s) (h : Step s l s') {key : ℕ × ℕ} {row : RfqNotification}
    (hrow : s.notifications.committed key = some row) :
  ∃ row', s'.notifications.committed key = some row' ∧ row'.artworkId = row.artworkId
    ∧ (row.read = true → row'.read = true)
  := by
  rcases h.acts with ⟨n, hacts⟩ | ⟨key', row', hrow', heq⟩
  · refine ⟨row, ?_, rfl, id⟩
    rw [← hrow]
    generalize s'.notifications = db at hacts
    cases hacts with
    | commit =>
      apply view_of_none
      rw [Option.eq_none_iff_forall_ne_some]
      intro row' hwrites
      rw [hs.fresh n key row' hwrites] at hrow
      cases hrow
    | _ => rfl
  · rw [heq]
    by_cases hk : key = key'
    · subst hk
      rw [hrow] at hrow'
      obtain rfl := Option.some.inj hrow'
      exact ⟨row.markRead, put_committed, rfl, fun _ => rfl⟩
    · rw [put_committed_of_ne hk]
      exact ⟨row, hrow, rfl, id⟩

/-- The notifications of an RFQ that is latched stay as they are when no attempt is about it, and
none will be. -/
theorem Step.quiet (hs : Tracked s) (h : Step s l s') {rfqId : ℕ} (hlatched : s.Latched rfqId)
    (hquiet : ∀ n, ¬ (s.calls n).About rfqId) :
  (∀ n, ¬ (s'.calls n).About rfqId) ∧ s'.notified rfqId = s.notified rfqId
  := by
  have henter : ∀ {n : ℕ} {phase : Phase}, (phase.About rfqId → (s.calls n).About rfqId) →
      ∀ m, ¬ Phase.About rfqId (Function.update s.calls n phase m) := by
    intro n phase hphase m habout
    rcases update_cases (Phase.About rfqId) habout with ⟨_, habout⟩ | ⟨_, habout⟩
    · exact hquiet n (hphase habout)
    · exact hquiet m habout
  have hcommit : ∀ n, {sub | (s.notifications.commit n).committed (rfqId, sub) ≠ none}
      = s.notified rfqId := by
    intro n
    ext sub
    rw [State.notified, Set.mem_ofPred_eq, Set.mem_ofPred_eq, commit_committed, view_of_none]
    rw [Option.eq_none_iff_forall_ne_some]
    intro row hwrites
    exact hquiet n (Phase.about_of_target ((hs.known n).notifications rfqId sub row hwrites))
  cases h with
  | create => exact ⟨hquiet, rfl⟩
  | settle => exact ⟨hquiet, rfl⟩
  | @markRead rfqId' sub row hrow =>
    refine ⟨hquiet, ?_⟩
    ext sub'
    rw [State.notified, State.notified, Set.mem_ofPred_eq, Set.mem_ofPred_eq]
    by_cases hk : (rfqId, sub') = (rfqId', sub)
    · rw [hk, put_committed, hrow]
      exact iff_of_true nofun nofun
    · rw [put_committed_of_ne hk]
  | @find n rfqId' rfq hidle hcommitted hfalse =>
    refine ⟨henter ?_, rfl⟩
    rintro rfl
    obtain ⟨rfq', hcommitted', htrue⟩ := hlatched
    rw [hcommitted] at hcommitted'
    obtain rfl := Option.some.inj hcommitted'
    rw [hfalse] at htrue
    cases htrue
  | resolve hphase | insert hphase | conflict hphase | latch hphase | lose hphase | count hphase =>
    refine ⟨henter ?_, rfl⟩
    rw [hphase]
    exact id
  | record => exact ⟨henter False.elim, hcommit _⟩
  | leave => exact ⟨henter False.elim, hcommit _⟩
  | stop => exact ⟨henter False.elim, rfl⟩

end Steps

/-- In every run, the log has one entry about each RFQ that is latched, and none about the others.
When an RFQ is latched, all recipients that the attempt has resolved have their notifications, and
the number that is recorded is that of the notifications at this moment. The latch and the entry
stay; once no attempt is about the RFQ, none will be, and no notification is added. No notification
is removed, and what was read stays read. -/
theorem fanout_once :
  (∀ s, system.Reachable s → ∀ rfqId,
      (s.Latched rfqId → ∃ recipientCount, s.auditsOf rfqId = [⟨rfqId, recipientCount⟩])
        ∧ (¬ s.Latched rfqId → s.auditsOf rfqId = []))
    ∧ system.EveryStep fun s l s' =>
      (∀ rfqId recipients recipientCount, l = .fannedOut rfqId recipients recipientCount →
        ¬ s.Latched rfqId ∧ s'.Latched rfqId ∧ s'.auditsOf rfqId = [⟨rfqId, recipientCount⟩]
          ∧ (recipientCount : ℕ∞) = (s'.notified rfqId).encard
          ∧ ∀ sub ∈ recipients, sub ∈ s'.notified rfqId)
      ∧ (∀ rfqId, s.Latched rfqId → s'.Latched rfqId ∧ s'.auditsOf rfqId = s.auditsOf rfqId
        ∧ ((∀ n, ¬ (s.calls n).About rfqId) →
          (∀ n, ¬ (s'.calls n).About rfqId) ∧ s'.notified rfqId = s.notified rfqId))
      ∧ ∀ key row, s.notifications.committed key = some row →
        ∃ row', s'.notifications.committed key = some row' ∧ row'.artworkId = row.artworkId
          ∧ (row.read = true → row'.read = true)
  := by
  constructor
  · intro s hs rfqId
    have htracked := tracked_of_reachable hs
    exact ⟨htracked.audited rfqId, htracked.unaudited rfqId⟩
  · intro s l s' hs hstep
    have htracked := tracked_of_reachable hs
    have hlatches := Step.latches htracked hstep
    refine ⟨?_, ?_, fun key row => Step.keeps htracked hstep⟩
    · rintro rfqId recipients recipientCount rfl
      rcases hlatches.one rfqId with ⟨_, hiff⟩ | ⟨_, haudits, hnot, hlatched, _, hlabel⟩
      · cases hlatches with
        | fannedOut _ hnot hiff' => exact absurd (hiff.mp ((hiff' rfqId).mpr (.inr rfl))) hnot
      · cases hlabel
        rw [htracked.unaudited rfqId hnot, List.nil_append] at haudits
        cases hlatches with
        | fannedOut _ _ _ hcount hnotified =>
          exact ⟨hnot, hlatched, haudits, hcount, hnotified⟩
    · intro rfqId hlatched
      refine ⟨?_, ?_, Step.quiet htracked hstep hlatched⟩
      all_goals
        rcases hlatches.one rfqId with ⟨haudits, hiff⟩ | ⟨_, _, hnot, _⟩
      · exact hiff.mpr hlatched
      · exact absurd hlatched hnot
      · exact haudits
      · exact absurd hlatched hnot

/-! ### When the winners stay the same -/

/-- The recipients are those who are to be notified. -/
def State.Matches (s : State) (rfqId : ℕ) (recipients : List ℕ) : Prop :=
  ∃ rfq, s.rfqs.committed rfqId = some rfq
    ∧ ∀ sub, sub ∈ recipients ↔ ⟨rfq.artworkId, sub⟩ ∈ s.won ∧ sub ≠ rfq.collectorSub

/-- An attempt has the recipients that are to be notified. -/
def Phase.Complete (s : State) : Phase → Prop
  | .idle | .losing _ => True
  | .resolving rfqId rfq => ∃ rfq', s.rfqs.committed rfqId = some rfq'
    ∧ rfq'.artworkId = rfq.artworkId ∧ rfq'.collectorSub = rfq.collectorSub
  | .inserting rfqId _ recipients rest =>
    s.Matches rfqId recipients ∧ ∀ sub ∈ rest, sub ∈ recipients
  | .counting rfqId recipients | .recording rfqId recipients _ => s.Matches rfqId recipients

/-- What holds of an RFQ as long as the winners stay the same. -/
structure Complete (s : State) (rfqId : ℕ) : Prop where
  phases : ∀ n, (s.calls n).About rfqId → (s.calls n).Complete s
  holders : ∀ sub row, s.notifications.Version (rfqId, sub) row → s.Holder rfqId sub
  notified : ∀ sub, s.Latched rfqId → s.Holder rfqId sub → sub ∈ s.notified rfqId
  audited : s.Latched rfqId → ∃ recipientCount : ℕ,
    s.auditsOf rfqId = [⟨rfqId, recipientCount⟩]
      ∧ (recipientCount : ℕ∞) = {sub | s.Holder rfqId sub}.encard

section Complete

variable {s s' : State} {l : Label} {rfqId sub : ℕ} {recipients : List ℕ}

theorem mem_findSettledWinnerSubsForArtwork {won : List SettledBid} {artworkId excludeSub : ℕ} :
  sub ∈ findSettledWinnerSubsForArtwork won artworkId excludeSub
    ↔ ⟨artworkId, sub⟩ ∈ won ∧ sub ≠ excludeSub
  := by
  rw [findSettledWinnerSubsForArtwork, List.mem_mergeSort, List.mem_dedup, List.mem_map]
  simp only [List.mem_filter, decide_eq_true_eq]
  constructor
  · rintro ⟨⟨_, _⟩, ⟨hmem, rfl, hne⟩, rfl⟩
    exact ⟨hmem, hne⟩
  · rintro ⟨hmem, hne⟩
    exact ⟨_, ⟨hmem, rfl, hne⟩, rfl⟩

theorem State.Matches.mem_iff (h : s.Matches rfqId recipients) :
  sub ∈ recipients ↔ s.Holder rfqId sub
  := by
  obtain ⟨rfq, hcommitted, hmem⟩ := h
  rw [hmem]
  constructor
  · rintro ⟨hwon, hne⟩
    exact ⟨rfq, hcommitted, hwon, hne⟩
  · rintro ⟨rfq', hcommitted', hwon, hne⟩
    rw [hcommitted] at hcommitted'
    obtain rfl := Option.some.inj hcommitted'
    exact ⟨hwon, hne⟩

/-- An RFQ stays, with its artwork and its collector. -/
theorem Step.rfqs (hs : Tracked s) (h : Step s l s') {rfq : Rfq}
    (hcommitted : s.rfqs.committed rfqId = some rfq) :
  ∃ rfq', s'.rfqs.committed rfqId = some rfq' ∧ rfq'.artworkId = rfq.artworkId
    ∧ rfq'.collectorSub = rfq.collectorSub
  := by
  have hcommit : ∀ n, ∃ rfq', (s.rfqs.commit n).committed rfqId = some rfq'
      ∧ rfq'.artworkId = rfq.artworkId ∧ rfq'.collectorSub = rfq.collectorSub := by
    intro n
    cases hwrites : s.rfqs.writes n rfqId with
    | none => exact ⟨rfq, by rw [commit_committed, view_of_none hwrites, hcommitted], rfl, rfl⟩
    | some row =>
      obtain ⟨rfq', hcommitted', _, hwrites'⟩ :=
        (hs.known n).unlatched rfqId ((hs.known n).rfqs rfqId row hwrites)
      rw [hcommitted] at hcommitted'
      obtain rfl := Option.some.inj hcommitted'
      exact ⟨rfq.latch, view_of_writes hwrites', rfl, rfl⟩
  cases h with
  | @create rfqId' rfq' hnone =>
    refine ⟨rfq, ?_, rfl, rfl⟩
    rw [← hcommitted]
    apply put_committed_of_ne
    rintro rfl
    rw [hnone] at hcommitted
    cases hcommitted
  | record => apply hcommit
  | leave => apply hcommit
  | _ => exact ⟨rfq, hcommitted, rfl, rfl⟩

/-- Who is to be notified stays the same. -/
theorem Step.holder_iff (hs : Tracked s) (h : Step s l s') (hsame : SameHolders rfqId s l s')
    {rfq : Rfq} (hcommitted : s.rfqs.committed rfqId = some rfq) :
  s'.Holder rfqId sub ↔ s.Holder rfqId sub
  := by
  obtain ⟨rfq', hcommitted', hartwork, hcollector⟩ := h.rfqs hs hcommitted
  have hwon := hsame rfq hcommitted sub
  rw [State.Holder, State.Holder, hcommitted, hcommitted']
  simp [hartwork, hcollector, hwon]

theorem Step.matches (hs : Tracked s) (h : Step s l s') (hsame : SameHolders rfqId s l s')
    (hmatches : s.Matches rfqId recipients) :
  s'.Matches rfqId recipients
  := by
  obtain ⟨rfq, hcommitted, hmem⟩ := hmatches
  obtain ⟨rfq', hcommitted', hartwork, hcollector⟩ := h.rfqs hs hcommitted
  refine ⟨rfq', hcommitted', ?_⟩
  intro sub
  rw [hmem, hartwork, hcollector, hsame rfq hcommitted]

/-- What an attempt has stays right. -/
theorem Step.phase (hs : Tracked s) (h : Step s l s') (hsame : SameHolders rfqId s l s')
    {phase : Phase} (habout : phase.About rfqId) (hphase : phase.Complete s) :
  phase.Complete s'
  := by
  cases phase with
  | idle => trivial
  | losing => trivial
  | resolving rfqId' rfq =>
    obtain ⟨rfq₁, hcommitted₁, hartwork₁, hcollector₁⟩ := hphase
    obtain ⟨rfq₂, hcommitted₂, hartwork₂, hcollector₂⟩ := h.rfqs hs hcommitted₁
    exact ⟨rfq₂, hcommitted₂, hartwork₂.trans hartwork₁, hcollector₂.trans hcollector₁⟩
  | inserting =>
    obtain rfl := habout
    exact ⟨h.matches hs hsame hphase.1, hphase.2⟩
  | counting =>
    obtain rfl := habout
    exact h.matches hs hsame hphase
  | recording =>
    obtain rfl := habout
    exact h.matches hs hsame hphase

/-- The attempts go on with the right recipients. -/
theorem Step.phases (hs : Tracked s) (hc : Complete s rfqId) (h : Step s l s')
    (hsame : SameHolders rfqId s l s') (m : ℕ) (habout : (s'.calls m).About rfqId) :
  (s'.calls m).Complete s'
  := by
  apply h.phase hs hsame habout
  have henter : ∀ {n : ℕ} {phase : Phase}, (phase.About rfqId → phase.Complete s) →
      (Function.update s.calls n phase m).About rfqId →
      (Function.update s.calls n phase m).Complete s := by
    intro n phase hphase
    rw [Function.update_apply]
    split
    · exact hphase
    · exact hc.phases m
  cases h with
  | create => exact hc.phases m habout
  | settle => exact hc.phases m habout
  | markRead => exact hc.phases m habout
  | @find n rfqId rfq _ hcommitted =>
    exact henter (fun _ => ⟨rfq, hcommitted, rfl, rfl⟩) habout
  | @resolve n rfqId rfq recipients hphase hrecipients =>
    refine henter ?_ habout
    rintro rfl
    have hbefore := hc.phases n
    rw [hphase] at hbefore
    obtain ⟨rfq', hcommitted, hartwork, hcollector⟩ := hbefore rfl
    refine ⟨⟨rfq', hcommitted, ?_⟩, fun _ => id⟩
    intro sub
    rw [hrecipients, mem_findSettledWinnerSubsForArtwork, hartwork, hcollector]
  | @insert n _ _ _ _ _ hphase | @conflict n _ _ _ _ _ hphase =>
    refine henter ?_ habout
    rintro rfl
    have hbefore := hc.phases n
    rw [hphase] at hbefore
    obtain ⟨hmatches, hrest⟩ := hbefore rfl
    exact ⟨hmatches, fun sub hsub => hrest sub (List.mem_cons_of_mem _ hsub)⟩
  | @latch n _ _ _ _ hphase =>
    refine henter ?_ habout
    rintro rfl
    have hbefore := hc.phases n
    rw [hphase] at hbefore
    exact (hbefore rfl).1
  | lose => exact henter (fun _ => trivial) habout
  | @count n _ _ _ hphase =>
    refine henter ?_ habout
    rintro rfl
    have hbefore := hc.phases n
    rw [hphase] at hbefore
    exact hbefore rfl
  | record => exact henter (fun _ => trivial) habout
  | leave => exact henter (fun _ => trivial) habout
  | stop => exact henter (fun _ => trivial) habout

/-- Only those are notified who are to be. -/
theorem Step.holders (hs : Tracked s) (hc : Complete s rfqId) (h : Step s l s')
    (hsame : SameHolders rfqId s l s') {row : RfqNotification}
    (hversion : s'.notifications.Version (rfqId, sub) row) :
  s'.Holder rfqId sub
  := by
  suffices hbefore : s.Holder rfqId sub by
    obtain ⟨rfq, hcommitted, _⟩ := id hbefore
    exact (h.holder_iff hs hsame hcommitted).mpr hbefore
  cases h with
  | @markRead rfqId' sub' row' hrow' =>
    rcases hversion with hcommitted | ⟨n, hwrites⟩
    · rcases of_put_committed hcommitted with ⟨hk, _⟩ | ⟨_, hbefore⟩
      · obtain ⟨rfl, rfl⟩ := Prod.mk.inj hk
        exact hc.holders _ row' (.inl hrow')
      · exact hc.holders _ row (.inl hbefore)
    · exact hc.holders _ row (.inr ⟨n, hwrites⟩)
  | @insert n rfqId' artworkId sub' recipients rest hphase =>
    rcases version_of_write hversion with ⟨hk, _⟩ | hbefore
    · obtain ⟨rfl, rfl⟩ := Prod.mk.inj hk
      have hphases := hc.phases n
      rw [hphase] at hphases
      obtain ⟨hmatches, hrest⟩ := hphases rfl
      exact hmatches.mem_iff.mp (hrest _ List.mem_cons_self)
    · exact hc.holders _ row hbefore
  | record => exact hc.holders _ row (version_of_commit hversion)
  | leave => exact hc.holders _ row (version_of_commit hversion)
  | stop => exact hc.holders _ row (version_of_abort hversion)
  | _ => exact hc.holders _ row hversion

/-- All are notified who are to be, once the RFQ is latched. -/
theorem Step.notified (hs : Tracked s) (hc : Complete s rfqId) (h : Step s l s')
    (hsame : SameHolders rfqId s l s') (hlatched : s'.Latched rfqId)
    (hholder : s'.Holder rfqId sub) :
  sub ∈ s'.notified rfqId
  := by
  rcases (h.latches hs).one rfqId with ⟨_, hiff⟩ | ⟨recipientCount, _, _, _, recipients, rfl⟩
  · obtain ⟨rfq, hcommitted, htrue⟩ := hiff.mp hlatched
    have hmem := hc.notified sub ⟨rfq, hcommitted, htrue⟩
      ((h.holder_iff hs hsame hcommitted).mp hholder)
    obtain ⟨row, hrow⟩ := Option.ne_none_iff_exists'.mp hmem
    obtain ⟨row', hrow', _⟩ := h.keeps hs hrow
    rw [State.notified, Set.mem_ofPred_eq, hrow']
    nofun
  · cases h with
    | @record n _ _ _ hphase =>
      have hphases := hc.phases n
      rw [hphase] at hphases
      have hmatches : s.Matches rfqId recipients := hphases rfl
      obtain ⟨rfq, hcommitted, _⟩ := id hmatches
      cases Step.latches hs (.record hphase) with
      | fannedOut _ _ _ _ hrecipients =>
        apply hrecipients
        rw [hmatches.mem_iff]
        exact (Step.holder_iff hs (.record hphase) hsame hcommitted).mp hholder

theorem Step.complete (hs : Tracked s) (hc : Complete s rfqId) (h : Step s l s')
    (hsame : SameHolders rfqId s l s') :
  Complete s' rfqId
  := by
  have hholders : ∀ sub row, s'.notifications.Version (rfqId, sub) row → s'.Holder rfqId sub :=
    fun _ _ => h.holders hs hc hsame
  have hnotified : ∀ sub, s'.Latched rfqId → s'.Holder rfqId sub → sub ∈ s'.notified rfqId :=
    fun _ => h.notified hs hc hsame
  refine ⟨h.phases hs hc hsame, hholders, hnotified, ?_⟩
  intro hlatched
  rcases (h.latches hs).one rfqId with ⟨haudits, hiff⟩ | ⟨recipientCount, haudits, hnot, _, hlabel⟩
  · obtain ⟨rfq, hcommitted, htrue⟩ := hiff.mp hlatched
    obtain ⟨recipientCount, hbefore, hcount⟩ := hc.audited ⟨rfq, hcommitted, htrue⟩
    refine ⟨recipientCount, haudits.trans hbefore, hcount.trans (congrArg _ ?_)⟩
    ext sub
    exact (h.holder_iff hs hsame hcommitted).symm
  · refine ⟨recipientCount, by rw [haudits, hs.unaudited rfqId hnot, List.nil_append], ?_⟩
    have heq : s'.notified rfqId = {sub | s'.Holder rfqId sub} := by
      ext sub
      constructor
      · intro hmem
        obtain ⟨row, hrow⟩ := Option.ne_none_iff_exists'.mp hmem
        exact hholders sub row (.inl hrow)
      · exact hnotified sub hlatched
    obtain ⟨recipients, rfl⟩ := hlabel
    cases h.latches hs with
    | fannedOut _ _ _ hcount => rw [hcount, heq]

theorem complete_of_reachable (h : (system.restrict (SameHolders rfqId)).Reachable s) :
  Complete s rfqId
  := by
  suffices hboth : Tracked s ∧ Complete s rfqId from hboth.2
  apply h.invariant (I := fun s => Tracked s ∧ Complete s rfqId)
  · rintro s₀ hinit
    refine ⟨tracked_of_reachable (.init hinit), ?_⟩
    obtain ⟨hidle, hrfqs, hnotifications, _, hclean, _⟩ := hinit
    refine ⟨?_, ?_, ?_, ?_⟩
    · intro n
      rw [hidle]
      exact False.elim
    · rintro sub row (hcommitted | ⟨n, hwrites⟩)
      · rw [hnotifications] at hcommitted
        cases hcommitted
      · rw [hclean] at hwrites
        cases hwrites
    · rintro sub ⟨rfq, hcommitted, _⟩
      rw [hrfqs] at hcommitted
      cases hcommitted
    · rintro ⟨rfq, hcommitted, _⟩
      rw [hrfqs] at hcommitted
      cases hcommitted
  · rintro s₁ l₁ s₂ ⟨hs, hc⟩ ⟨hstep, hsame⟩
    exact ⟨Step.tracked hs hstep, Step.complete hs hc hstep hsame⟩

end Complete

/-- When the winners stay the same from the creation of an RFQ, those notified of it are, once it
is latched, exactly those who have won fractions of its artwork, apart from its collector; and the
one entry about it records how many these are. -/
theorem fanout_complete {s : State} {rfqId : ℕ}
    (h : (system.restrict (SameHolders rfqId)).Reachable s) (hlatched : s.Latched rfqId) :
  s.notified rfqId = {sub | s.Holder rfqId sub}
    ∧ ∃ recipientCount : ℕ, s.auditsOf rfqId = [⟨rfqId, recipientCount⟩]
      ∧ (recipientCount : ℕ∞) = {sub | s.Holder rfqId sub}.encard
  := by
  have hc := complete_of_reachable h
  refine ⟨?_, hc.audited hlatched⟩
  ext sub
  constructor
  · intro hmem
    obtain ⟨row, hrow⟩ := Option.ne_none_iff_exists'.mp hmem
    exact hc.holders sub row (.inl hrow)
  · exact hc.notified sub hlatched

/-- Two have won fractions of an artwork, apart from the collector who asks for quotes on it. -/
def sampleState : State where
  rfqs := ⟨fun _ => none, fun _ _ => none⟩
  notifications := ⟨fun _ => none, fun _ _ => none⟩
  won := [⟨5, 3⟩, ⟨5, 2⟩, ⟨5, 9⟩, ⟨5, 3⟩, ⟨6, 4⟩]
  audit := []
  calls _ := .idle

theorem sampleState_recipients :
  findSettledWinnerSubsForArtwork sampleState.won 5 9 = [2, 3]
  := by
  simp [sampleState, findSettledWinnerSubsForArtwork, List.mergeSort]

theorem sampleState_seen {s : State} {row : RfqNotification}
    (h : s.notifications = (sampleState.notifications.write 0 (1, 2) row).write 0 (1, 3) row) :
  (2 : ℕ∞) = (s.seen 0 1).encard
  := by
  have hseen : s.seen 0 1 = {2, 3} := by
    ext sub
    rw [State.seen, Set.mem_ofPred_eq, h, view_write, view_write]
    by_cases h2 : sub = 2 <;> by_cases h3 : sub = 3 <;>
      simp [Function.update_apply, Store.view, sampleState, h2, h3]
  rw [hseen, Set.encard_pair (by decide)]

theorem fanout_complete_sampleState :
  ∃ s : State, s.Latched 1 ∧ s.notified 1 = {sub | s.Holder 1 sub}
    ∧ ∃ recipientCount : ℕ, s.auditsOf 1 = [⟨1, recipientCount⟩]
      ∧ (recipientCount : ℕ∞) = {sub | s.Holder 1 sub}.encard
  := by
  have hsame : ∀ s l s', s'.won = s.won → SameHolders 1 s l s' := by
    intro s l s' hwon rfq _ sub
    rw [hwon]
  have hinit : (system.restrict (SameHolders 1)).Reachable sampleState :=
    .init ⟨fun _ => rfl, fun _ => rfl, fun _ => rfl, fun _ => rfl, fun _ => rfl, rfl⟩
  have hcreate := hinit.step ⟨@Step.create _ 1 ⟨9, 5, false⟩ rfl rfl, hsame _ _ _ rfl⟩
  have hfind := hcreate.step ⟨@Step.find _ 0 1 _ rfl rfl rfl, hsame _ _ _ rfl⟩
  have hresolve := hfind.step
    ⟨@Step.resolve _ 0 1 _ [2, 3] rfl sampleState_recipients.symm, hsame _ _ _ rfl⟩
  have hinsert := hresolve.step
    ⟨@Step.insert _ 0 1 5 2 [2, 3] [3] rfl (fun _ _ => rfl) rfl, hsame _ _ _ rfl⟩
  have hinsert' := hinsert.step
    ⟨@Step.insert _ 0 1 5 3 [2, 3] [] rfl (fun _ hm => congrFun (write_writes_of_ne hm) _) rfl,
      hsame _ _ _ rfl⟩
  have hlatch := hinsert'.step
    ⟨@Step.latch _ 0 1 5 [2, 3] _ rfl (fun _ _ => rfl) rfl rfl, hsame _ _ _ rfl⟩
  have hcount := hlatch.step
    ⟨@Step.count _ 0 1 2 [2, 3] rfl (sampleState_seen rfl), hsame _ _ _ rfl⟩
  have hrecord := hcount.step ⟨@Step.record _ 0 1 2 [2, 3] rfl, hsame _ _ _ rfl⟩
  refine ⟨_, ?_, fanout_complete hrecord ?_⟩
  · exact ⟨_, rfl, rfl⟩
  · exact ⟨_, rfl, rfl⟩
end RfqFanout
