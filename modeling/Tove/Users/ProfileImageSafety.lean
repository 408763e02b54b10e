import Tove.Users.ProfileImages

/-!
# The avatar does not dangle

A step leaves an image that is ready as it is, unless the image is retired, or deleted, or its
row is; and a user comes to refer to an image that is ready, or that was when the statement
began. So the avatar of a user stays ready, as long as what is retired or deleted is not the
avatar. The public derivatives of what is published are there, until a call removes them that is
to delete the row of the image.
-/

namespace ProfileImages

open Calls ReadCommitted Store Transition

variable {s s' : State} {l : Label} {m n userId imageId : ℕ} {phase : Phase} {size : Size}

@[simp] theorem enter_calls :
  (s.enter n phase).calls = Function.update s.calls n phase
  := rfl

/-! ### The transactions -/

/-- A call has a transaction when it is to clear the avatar, or to be committed. -/
def Phase.transaction : Phase → Option (ℕ × ℕ)
  | .clearing userId imageId | .deleting userId imageId => some (userId, imageId)
  | _ => none

/-- Each transaction has deleted the image that it is for, and may have cleared an avatar. -/
structure Locked (s : State) : Prop where
  exclusive : ∀ m n imageId row row', s.images.writes m imageId = some row →
    s.images.writes n imageId = some row' → m = n
  image : ∀ n imageId row, s.images.writes n imageId = some row → ∃ userId row₀,
    (s.calls n).transaction = some (userId, imageId) ∧ s.images.committed imageId = some row₀
      ∧ row₀.userId = userId ∧ row.userId = userId ∧ row.deletedAt ≠ none
  held : ∀ n userId imageId, (s.calls n).transaction = some (userId, imageId) →
    ∃ row, s.images.writes n imageId = some row
  user : ∀ n userId user, s.users.writes n userId = some user → user = ⟨none⟩
  fresh : ∀ imageId row, s.images.committed imageId = some row → imageId < s.nextImage

/-- No transaction does anything, and the rows that are held are as they were. -/
theorem Locked.congr (hs : Locked s) (hwrites : s'.images.writes = s.images.writes)
    (husers : s'.users.writes = s.users.writes)
    (hcommitted : ∀ imageId, s'.images.committed imageId = s.images.committed imageId
      ∨ s.ImageFree imageId)
    (hfresh : ∀ imageId row, s'.images.committed imageId = some row → imageId < s'.nextImage)
    (hcalls : ∀ m, (s'.calls m).transaction = (s.calls m).transaction) :
  Locked s'
  := by
  constructor
  · rw [hwrites]
    exact hs.exclusive
  · intro n imageId row hrow
    rw [hwrites] at hrow
    obtain ⟨userId, row₀, hcall, hbefore, hrows⟩ := hs.image n imageId row hrow
    refine ⟨userId, row₀, (hcalls n).trans hcall, ?_, hrows⟩
    rcases hcommitted imageId with heq | hfree
    · rw [heq, hbefore]
    · cases (hfree n).symm.trans hrow
  · intro n userId imageId hcall
    rw [hwrites]
    exact hs.held n userId imageId ((hcalls n).symm.trans hcall)
  · rw [husers]
    exact hs.user
  · exact hfresh

theorem transaction_update (hphase : phase.transaction = (s.calls n).transaction) (m : ℕ) :
  (Function.update s.calls n phase m).transaction = (s.calls m).transaction
  := by
  rw [Function.update_apply]
  split
  · rename_i hm
    rw [hm, hphase]
  · rfl

/-- A call enters a phase, and the images are as they were. -/
theorem Locked.enter (hs : Locked s) (himages : s'.images = s.images)
    (husers : s'.users.writes = s.users.writes) (hnext : s'.nextImage = s.nextImage)
    (hcalls : s'.calls = Function.update s.calls n phase)
    (hphase : phase.transaction = (s.calls n).transaction) :
  Locked s'
  := by
  apply hs.congr
  · rw [himages]
  · exact husers
  · rw [himages]
    exact fun _ => .inl rfl
  · rw [himages, hnext]
    exact hs.fresh
  · rw [hcalls]
    exact transaction_update hphase

/-- A statement changes or deletes the row of an image, or inserts one. -/
theorem Locked.put {row : Option ProfileImage} (hs : Locked s)
    (himages : s'.images = s.images.put imageId row) (husers : s'.users.writes = s.users.writes)
    (hle : s.nextImage ≤ s'.nextImage) (hfree : s.ImageFree imageId)
    (hnew : imageId < s'.nextImage ∨ row = none)
    (hcalls : s'.calls = Function.update s.calls n phase)
    (hphase : phase.transaction = (s.calls n).transaction) :
  Locked s'
  := by
  apply hs.congr
  · rw [himages]
    rfl
  · exact husers
  · intro imageId'
    by_cases heq : imageId' = imageId
    · rw [heq]
      exact .inr hfree
    · rw [himages]
      exact .inl (put_committed_of_ne heq)
  · intro imageId' row' hrow
    rw [himages] at hrow
    rcases of_put_committed hrow with ⟨rfl, rfl⟩ | ⟨_, hbefore⟩
    · rcases hnew with hlt | hnone
      · exact hlt
      · cases hnone
    · exact Nat.lt_of_lt_of_le (hs.fresh imageId' row' hbefore) hle
  · rw [hcalls]
    exact transaction_update hphase

/-- The image is deleted in a transaction. -/
theorem Locked.deleteImage {row : ProfileImage} (hs : Locked s) (hidle : s.calls n = .idle)
    (hfree : s.ImageFree imageId) (hrow : s.images.committed imageId = some row)
    (huser : row.userId = userId) :
  Locked (State.enter { s with images := s.images.write n imageId (row.softDelete s.now) } n
    (.clearing userId imageId))
  := by
  have hclean : ∀ imageId' row', s.images.writes n imageId' ≠ some row' := by
    intro imageId' row' hwrites
    obtain ⟨_, _, hcall, _⟩ := hs.image n imageId' row' hwrites
    rw [hidle] at hcall
    cases hcall
  constructor
  · intro m m' imageId' row₁ row₂ h₁ h₂
    rcases of_write_writes h₁ with ⟨rfl, rfl, _⟩ | ⟨_, hbefore₁⟩
    · rcases of_write_writes h₂ with ⟨rfl, _⟩ | ⟨_, hbefore₂⟩
      · rfl
      · cases (hfree m').symm.trans hbefore₂
    · rcases of_write_writes h₂ with ⟨rfl, rfl, _⟩ | ⟨_, hbefore₂⟩
      · cases (hfree m).symm.trans hbefore₁
      · exact hs.exclusive m m' imageId' row₁ row₂ hbefore₁ hbefore₂
  · intro m imageId' row' hwrites
    rcases of_write_writes hwrites with ⟨rfl, rfl, rfl⟩ | ⟨_, hbefore⟩
    · refine ⟨userId, row, ?_, hrow, huser, huser, Option.some_ne_none _⟩
      rw [enter_calls, Function.update_self]
      rfl
    · obtain ⟨userId', row₀, hcall, hrows⟩ := hs.image m imageId' row' hbefore
      refine ⟨userId', row₀, ?_, hrows⟩
      have hne : m ≠ n := by
        rintro rfl
        exact hclean imageId' row' hbefore
      rw [enter_calls, Function.update_of_ne hne]
      exact hcall
  · apply (Function.forall_update_iff s.calls fun m phase => ∀ userId' imageId',
      phase.transaction = some (userId', imageId') →
        ∃ row', (s.images.write n imageId (row.softDelete s.now)).writes m imageId' = some row').mpr
    constructor
    · intro userId' imageId' hcall
      cases hcall
      exact ⟨_, write_writes_self⟩
    · intro m hm userId' imageId' hcall
      rw [write_writes_of_ne hm]
      exact hs.held m userId' imageId' hcall
  · exact hs.user
  · exact hs.fresh

theorem Locked.clearAvatar (hs : Locked s) (hphase : s.calls n = .clearing userId imageId) :
  Locked (State.enter { s with users := s.users.write n userId ⟨none⟩ } n (.deleting userId imageId))
  := by
  have hentered : Locked (s.enter n (.deleting userId imageId)) :=
    hs.enter rfl rfl rfl rfl (by rw [hphase]; rfl)
  refine ⟨hentered.exclusive, hentered.image, hentered.held, ?_, hentered.fresh⟩
  intro m userId' user hwrites
  rcases of_write_writes hwrites with ⟨_, _, rfl⟩ | ⟨_, hbefore⟩
  · rfl
  · exact hs.user m userId' user hbefore

/-- A transaction is over. -/
theorem Locked.over (hs : Locked s)
    (hwrites : ∀ m imageId row, s'.images.writes m imageId = some row →
      m ≠ n ∧ s.images.writes m imageId = some row)
    (hothers : ∀ m, m ≠ n → s'.images.writes m = s.images.writes m)
    (husers : ∀ m userId user, s'.users.writes m userId = some user →
      s.users.writes m userId = some user)
    (hcommitted : ∀ imageId, s'.images.committed imageId = s.images.committed imageId
      ∨ ∃ row row₀, s.images.writes n imageId = some row ∧ s.images.committed imageId = some row₀)
    (hnext : s'.nextImage = s.nextImage) (hcalls : s'.calls = Function.update s.calls n phase)
    (hphase : phase.transaction = none) :
  Locked s'
  := by
  constructor
  · intro m m' imageId row row' h h'
    exact hs.exclusive m m' imageId row row' (hwrites m imageId row h).2 (hwrites m' imageId row' h').2
  · intro m imageId row h
    obtain ⟨hm, hbefore⟩ := hwrites m imageId row h
    obtain ⟨userId, row₀, hcall, hrow₀, hrows⟩ := hs.image m imageId row hbefore
    refine ⟨userId, row₀, ?_, ?_, hrows⟩
    · rw [hcalls, Function.update_of_ne hm]
      exact hcall
    · rcases hcommitted imageId with heq | ⟨row', _, hrow', _⟩
      · rw [heq, hrow₀]
      · exact absurd (hs.exclusive m n imageId row row' hbefore hrow') hm
  · intro m userId imageId hcall
    rw [hcalls, Function.update_apply] at hcall
    split at hcall
    · rw [hphase] at hcall
      cases hcall
    · rename_i hm
      rw [hothers m hm]
      exact hs.held m userId imageId hcall
  · exact fun m userId user h => hs.user m userId user (husers m userId user h)
  · intro imageId row h
    rw [hnext]
    rcases hcommitted imageId with heq | ⟨_, row₀, _, hrow₀⟩
    · exact hs.fresh imageId row (heq.symm.trans h)
    · exact hs.fresh imageId row₀ hrow₀

theorem Locked.commit (hs : Locked s) (hphase : phase.transaction = none) :
  Locked ((s.commit n).enter n phase)
  := by
  refine hs.over ?_ ?_ ?_ ?_ rfl rfl hphase
  · exact fun m imageId row h => of_commit_writes h
  · exact fun m hm => commit_writes_of_ne hm
  · exact fun m userId user h => (of_commit_writes h).2
  · intro imageId
    cases hwrites : s.images.writes n imageId with
    | none => exact .inl (view_of_none hwrites)
    | some row =>
      obtain ⟨_, row₀, _, hrow₀, _⟩ := hs.image n imageId row hwrites
      exact .inr ⟨row, row₀, rfl, hrow₀⟩

theorem Locked.abort (hs : Locked s) (hphase : phase.transaction = none) :
  Locked ((s.abort n).enter n phase)
  := by
  refine hs.over ?_ ?_ ?_ ?_ rfl rfl hphase
  · exact fun m imageId row h => of_abort_writes h
  · exact fun m hm => abort_writes_of_ne hm
  · exact fun m userId user h => (of_abort_writes h).2
  · exact fun _ => .inl rfl

theorem Step.locked (hs : Locked s) (h : Step s l s') :
  Locked s'
  := by
  cases h with
  | requestUpload =>
    have hfree : s.ImageFree s.nextImage := by
      intro m
      by_contra hsome
      obtain ⟨row, hrow⟩ := Option.ne_none_iff_exists'.mp hsome
      obtain ⟨_, row₀, _, hrow₀, _⟩ := hs.image m _ row hrow
      exact Nat.lt_irrefl _ (hs.fresh _ row₀ hrow₀)
    refine hs.put (n := 0) rfl rfl (Nat.le_succ _) hfree (.inl (Nat.lt_succ_self _))
      (Function.update_eq_self 0 s.calls).symm rfl
  | put | tick => exact hs.congr rfl rfl (fun _ => .inl rfl) hs.fresh fun _ => rfl
  | claimForProcessing hphase hfree hrow | markReady hphase hfree hrow
    | reconcileFailed hphase _ hfree hrow | retire hphase _ hfree hrow =>
    exact hs.put rfl rfl (Nat.le_refl _) hfree (.inl (hs.fresh _ _ hrow)) rfl (by rw [hphase]; rfl)
  | markFailed hphase hfree hrow =>
    refine hs.put rfl rfl (Nat.le_refl _) hfree (.inl (hs.fresh _ _ hrow)) rfl ?_
    rcases hphase with ⟨_, hphase⟩ | hphase
    · rw [hphase]
      rfl
    · rw [hphase]
      rfl
  | hardDelete hphase hfree =>
    exact hs.put rfl rfl (Nat.le_refl _) hfree (.inr rfl) rfl (by rw [hphase]; rfl)
  | deleteImage hphase hfree hrow huser => exact hs.deleteImage hphase hfree hrow huser
  | clearAvatar hphase => exact hs.clearAvatar hphase
  | commit => exact hs.commit rfl
  | stop => exact hs.abort rfl
  | _ => exact hs.enter rfl rfl rfl rfl (by rw [‹s.calls _ = _›]; rfl)

/-! ### What a step does -/

/-- A row that is changed is one of the user that it was one of, and stays deleted. -/
theorem of_putImage {row row₁ row' : ProfileImage} {imageId' : ℕ}
    (h : (s.putImage imageId (some row₁)).images.committed imageId' = some row')
    (hrow : s.images.committed imageId = some row) (huser : row₁.userId = row.userId)
    (hdeleted : row.deletedAt ≠ none → row₁.deletedAt ≠ none) :
  ∃ row, s.images.committed imageId' = some row ∧ row'.userId = row.userId
    ∧ (row.deletedAt ≠ none → row'.deletedAt ≠ none)
  := by
  rcases of_put_committed h with ⟨rfl, heq⟩ | ⟨_, hbefore⟩
  · obtain rfl := Option.some.inj heq
    exact ⟨row, hrow, huser, hdeleted⟩
  · exact ⟨row', hbefore, rfl, id⟩

/-- A row that is there after a step, and is not new, was there before. -/
theorem Step.before {row' : ProfileImage} (hs : Locked s) (h : Step s l s')
    (hlt : imageId < s.nextImage) (hrow' : s'.images.committed imageId = some row') :
  ∃ row, s.images.committed imageId = some row ∧ row'.userId = row.userId
    ∧ (row.deletedAt ≠ none → row'.deletedAt ≠ none)
  := by
  cases h with
  | requestUpload =>
    rcases of_put_committed hrow' with ⟨rfl, _⟩ | ⟨_, hbefore⟩
    · exact absurd hlt (Nat.lt_irrefl _)
    · exact ⟨row', hbefore, rfl, id⟩
  | claimForProcessing _ _ hrow | markReady _ _ hrow | reconcileFailed _ _ _ hrow | markFailed _ _ hrow =>
    exact of_putImage hrow' hrow rfl id
  | retire _ _ _ hrow => exact of_putImage hrow' hrow rfl fun _ => Option.some_ne_none _
  | hardDelete =>
    rcases of_put_committed hrow' with ⟨_, hnone⟩ | ⟨_, hbefore⟩
    · cases hnone
    · exact ⟨row', hbefore, rfl, id⟩
  | @commit n =>
    rcases of_view hrow' with hwrites | ⟨_, hbefore⟩
    · obtain ⟨userId, row₀, _, hrow₀, huser₀, huser, hdeleted⟩ := hs.image n imageId row' hwrites
      exact ⟨row₀, hrow₀, huser.trans huser₀.symm, fun _ => hdeleted⟩
    · exact ⟨row', hbefore, rfl, id⟩
  | _ => exact ⟨row', hrow', rfl, id⟩

theorem Step.nextImage_le (h : Step s l s') :
  s.nextImage ≤ s'.nextImage
  := by
  cases h with
  | requestUpload => exact Nat.le_succ _
  | _ => exact Nat.le_refl _

/-- What is gone stays so. -/
theorem Step.gone (hs : Locked s) (h : Step s l s') (hgone : s.Gone imageId) :
  s'.Gone imageId
  := by
  refine ⟨Nat.lt_of_lt_of_le hgone.1 h.nextImage_le, ?_⟩
  intro row' hrow'
  obtain ⟨row, hrow, _, hdeleted⟩ := h.before hs hgone.1 hrow'
  exact hdeleted (hgone.2 row hrow)

/-- An image stays ready, unless it is retired, or deleted, or its row is. -/
theorem Step.stays {row : ProfileImage} (hs : Locked s) (h : Step s l s')
    (hrow : s.images.committed imageId = some row) (hready : row.ReadyOf userId) :
  s'.images.committed imageId = some row ∨ l = .retire userId imageId
    ∨ (∃ n, l = .delete n userId imageId)
    ∨ s'.images.committed imageId = none ∧ ∀ userId, ¬ s'.Refers userId imageId
  := by
  obtain ⟨huser, hstatus, hlive⟩ := hready
  have hother : ∀ imageId' row₀ row₁, s.images.committed imageId' = some row₀ →
    row₀.status ≠ .ready →
      (s.putImage imageId' row₁).images.committed imageId = some row := by
    intro imageId' row₀ row₁ hrow₀ hne
    apply (put_committed_of_ne _).trans hrow
    rintro rfl
    obtain rfl := Option.some.inj (hrow.symm.trans hrow₀)
    exact hne hstatus
  cases h with
  | requestUpload =>
    left
    apply (put_committed_of_ne _).trans hrow
    rintro rfl
    exact Nat.lt_irrefl _ (hs.fresh _ row hrow)
  | claimForProcessing _ _ hrow₀ _ hstatus₀ | markReady _ _ hrow₀ hstatus₀ =>
    exact .inl (hother _ _ _ hrow₀ (by rw [hstatus₀]; decide))
  | reconcileFailed _ _ _ hrow₀ hstatus₀ | markFailed _ _ hrow₀ hstatus₀ =>
    refine .inl (hother _ _ _ hrow₀ ?_)
    rcases hstatus₀ with hstatus₀ | hstatus₀
    · rw [hstatus₀]
      decide
    · rw [hstatus₀]
      decide
  | @retire n userId' imageId' newId row₀ _ _ _ hrow₀ huser₀ =>
    by_cases heq : imageId = imageId'
    · subst heq
      obtain rfl := Option.some.inj (hrow.symm.trans hrow₀)
      obtain rfl := huser.symm.trans huser₀
      exact .inr (.inl rfl)
    · exact .inl ((put_committed_of_ne heq).trans hrow)
  | @commit n userId' imageId' hphase =>
    cases hwrites : s.images.writes n imageId with
    | none =>
      left
      exact (view_of_none hwrites).trans hrow
    | some row' =>
      obtain ⟨userId'', row₀, hcall, hrow₀, huser₀, _⟩ := hs.image n imageId row' hwrites
      rw [hphase] at hcall
      obtain ⟨rfl, rfl⟩ := Prod.mk.inj (Option.some.inj hcall)
      obtain rfl := Option.some.inj (hrow.symm.trans hrow₀)
      obtain rfl := huser.symm.trans huser₀
      exact .inr (.inr (.inl ⟨n, rfl⟩))
  | @hardDelete n imageId' rows =>
    by_cases heq : imageId = imageId'
    · subst heq
      refine .inr (.inr (.inr ⟨put_committed, ?_⟩))
      rintro userId' ⟨user, huser', href⟩
      obtain ⟨user₀, _, rfl⟩ := Option.map_eq_some_iff.mp huser'
      split at href
      · cases href
      · rename_i hne
        exact hne href
    · exact .inl ((put_committed_of_ne heq).trans hrow)
  | _ => exact .inl hrow

/-- A user refers to an image when it did before, or when the image is activated. -/
theorem Step.refers (hs : Locked s) (h : Step s l s') (href : s'.Refers userId imageId) :
  s.Refers userId imageId ∨ s'.images = s.images ∧ ∃ n priorId row,
    s.images.committed imageId = some row
      ∧ (s.calls n = .publishing userId imageId priorId [] [] ∧ row.ReadyOf userId
        ∨ s.calls n = .waiting userId imageId priorId)
  := by
  obtain ⟨user, huser, hid⟩ := href
  cases h with
  | clear =>
    rcases of_put_committed huser with ⟨_, heq⟩ | ⟨_, hbefore⟩
    · obtain rfl := Option.some.inj heq
      cases hid
    · exact .inl ⟨user, hbefore, hid⟩
  | @activate n userId' imageId' priorId row _ hphase _ _ hrow hready =>
    rcases of_put_committed huser with ⟨rfl, heq⟩ | ⟨_, hbefore⟩
    · obtain rfl := Option.some.inj heq
      obtain rfl := Option.some.inj hid
      exact .inr ⟨rfl, n, priorId, row, hrow, .inl ⟨hphase, hready⟩⟩
    · exact .inl ⟨user, hbefore, hid⟩
  | @resume n userId' imageId' priorId row _ hphase _ _ hrow =>
    rcases of_put_committed huser with ⟨rfl, heq⟩ | ⟨_, hbefore⟩
    · obtain rfl := Option.some.inj heq
      obtain rfl := Option.some.inj hid
      exact .inr ⟨rfl, n, priorId, row, hrow, .inr hphase⟩
    · exact .inl ⟨user, hbefore, hid⟩
  | @commit n =>
    rcases of_view huser with hwrites | ⟨_, hbefore⟩
    · rw [hs.user n userId user hwrites] at hid
      cases hid
    · exact .inl ⟨user, hbefore, hid⟩
  | hardDelete =>
    obtain ⟨user₀, huser₀, rfl⟩ := Option.map_eq_some_iff.mp huser
    split at hid
    · cases hid
    · exact .inl ⟨user₀, huser₀, hid⟩
  | _ => exact .inl ⟨user, huser, hid⟩

/-- A statement that waits did before, or has found the image ready. -/
theorem Step.waits {priorId : Option ℕ} (h : Step s l s')
    (hcall : s'.calls m = .waiting userId imageId priorId) :
  s.calls m = .waiting userId imageId priorId
    ∨ s'.images = s.images ∧ ∃ row, s.images.committed imageId = some row ∧ row.ReadyOf userId
  := by
  have hupdate : ∀ n phase, Function.update s.calls n phase m = .waiting userId imageId priorId →
      phase = .waiting userId imageId priorId ∨ s.calls m = .waiting userId imageId priorId := by
    intro n phase hafter
    rcases update_cases (fun phase => phase = Phase.waiting userId imageId priorId) hafter with
      ⟨_, hnew⟩ | ⟨_, hbefore⟩
    · exact .inl hnew
    · exact .inr hbefore
  cases h with
  | put | tick | requestUpload => exact .inl hcall
  | wait _ _ hrow hready =>
    rcases hupdate _ _ hcall with hphase | hbefore
    · cases hphase
      exact .inr ⟨rfl, _, hrow, hready⟩
    · exact .inl hbefore
  | _ =>
    rcases hupdate _ _ hcall with hphase | hbefore
    · cases hphase
    · exact .inl hbefore

/-- A derivative that has been published was so before, or is stored. -/
theorem Step.published (h : Step s l s') (hcall : (s'.calls m).Published imageId size) :
  (s.calls m).Published imageId size ∨ s'.stored (.publicDerivative imageId size) = true
  := by
  have hsize : ∀ size, size ∈ derivativeSpecs := by
    intro size
    cases size <;> decide
  cases h with
  | put | tick | requestUpload => exact .inl hcall
  | find =>
    rcases update_cases (Phase.Published imageId size) hcall with ⟨_, hphase⟩ | ⟨_, hbefore⟩
    · exact absurd (hsize size) hphase.2.1
    · exact .inl hbefore
  | @download n userId imageId' priorId rest buffered size' hphase₀ =>
    rcases update_cases (Phase.Published imageId size) hcall with ⟨rfl, hphase⟩ | ⟨_, hbefore⟩
    · obtain ⟨himage, hrest, hbuffered⟩ := hphase
      obtain ⟨hne, hbuffered⟩ := not_or.mp fun h => hbuffered (List.mem_cons.mpr h)
      left
      rw [hphase₀]
      exact ⟨himage, fun hmem => hrest ((List.mem_erase_of_ne hne).mpr hmem), hbuffered⟩
    · exact .inl hbefore
  | @upload n userId imageId' priorId rest buffered size' hphase₀ =>
    rcases update_cases (Phase.Published imageId size) hcall with ⟨rfl, hphase⟩ | ⟨_, hbefore⟩
    · obtain ⟨rfl, hrest, hbuffered⟩ := hphase
      by_cases heq : size = size'
      · right
        rw [heq]
        exact Function.update_self ..
      · left
        rw [hphase₀]
        exact ⟨rfl, hrest, fun hmem => hbuffered ((List.mem_erase_of_ne heq).mpr hmem)⟩
    · exact .inl hbefore
  | wait hphase₀ =>
    rcases update_cases (Phase.Published imageId size) hcall with ⟨rfl, hphase⟩ | ⟨_, hbefore⟩
    · left
      rw [hphase₀]
      exact ⟨hphase, List.not_mem_nil, List.not_mem_nil⟩
    · exact .inl hbefore
  | _ =>
    rcases update_cases (Phase.Published imageId size) hcall with ⟨_, hphase⟩ | ⟨_, hbefore⟩
    · exact hphase.elim
    · exact .inl hbefore

/-- What is needed was needed before, or is stored. -/
theorem Step.needs (hs : Locked s) (h : Step s l s') (hneeds : s'.Needs imageId size) :
  s.Needs imageId size ∨ s'.stored (.publicDerivative imageId size) = true
  := by
  rcases hneeds with ⟨userId, href⟩ | ⟨m, hcall⟩
  · left
    rcases h.refers hs href with hbefore | ⟨_, n, priorId, row, _, hphase⟩
    · exact .inl ⟨userId, hbefore⟩
    · refine .inr ⟨n, ?_⟩
      rcases hphase with ⟨hphase, _⟩ | hphase
      · rw [hphase]
        exact ⟨rfl, List.not_mem_nil, List.not_mem_nil⟩
      · rw [hphase]
        rfl
  · rcases h.published hcall with hbefore | hstored
    · exact .inl (.inr ⟨m, hbefore⟩)
    · exact .inr hstored

/-- What is stored stays so, until a call removes it. -/
theorem Step.stored {path : Path} (h : Step s l s') (hstored : s.stored path = true) :
  s'.stored path = true ∨ ∃ n paths removals rows, s.calls n = .purging (paths :: removals) rows
    ∧ path ∈ paths ∧ s'.calls n = .purging removals rows
  := by
  have hstore : ∀ path', (s.store path').stored path = true := by
    intro path'
    by_cases heq : path = path'
    · rw [heq]
      exact Function.update_self ..
    · exact (Function.update_of_ne heq ..).trans hstored
  cases h with
  | put | derive | upload => exact .inl (hstore _)
  | @purge n paths removals rows hphase =>
    by_cases hmem : path ∈ paths
    · exact .inr ⟨n, paths, removals, rows, hphase, hmem, Function.update_self ..⟩
    · left
      exact (Bool.and_eq_true _ _).mpr ⟨hstored, decide_eq_true hmem⟩
  | _ => exact .inl hstored

/-- A row that is to be deleted is so still, or is deleted, or the call has stopped. -/
theorem Step.rows (h : Step s l s') (hmem : imageId ∈ (s.calls m).rows) :
  imageId ∈ (s'.calls m).rows ∨ s'.images.committed imageId = none ∨ l = .stop m
  := by
  have hupdate : ∀ n phase, (m = n → imageId ∈ phase.rows ∨ s'.images.committed imageId = none
      ∨ l = .stop m) → imageId ∈ (Function.update s.calls n phase m).rows
        ∨ s'.images.committed imageId = none ∨ l = .stop m := by
    intro n phase hphase
    rw [Function.update_apply]
    split
    · rename_i hm
      exact hphase hm
    · exact .inl hmem
  cases h with
  | put | tick | requestUpload => exact .inl hmem
  | purge hphase | purgeFail hphase =>
    apply hupdate
    rintro rfl
    rw [hphase] at hmem
    exact .inl hmem
  | hardDelete hphase =>
    apply hupdate
    rintro rfl
    rw [hphase] at hmem
    rcases List.mem_cons.mp hmem with rfl | hrest
    · exact .inr (.inl put_committed)
    · exact .inl hrest
  | stop =>
    apply hupdate
    rintro rfl
    exact .inr (.inr rfl)
  | markFailed hphase =>
    apply hupdate
    rintro rfl
    rcases hphase with ⟨_, hphase⟩ | hphase
    · rw [hphase] at hmem
      cases hmem
    · rw [hphase] at hmem
      cases hmem
  | _ =>
    apply hupdate
    rintro rfl
    rw [‹s.calls _ = _›] at hmem
    cases hmem

/-! ### The avatars -/

/-- The avatar before, and its user, as an update knows it. -/
def Phase.prior : Phase → Option (ℕ × ℕ)
  | .updating userId _ priorId | .publishing userId _ priorId _ _ | .waiting userId _ priorId
  | .retiring userId _ priorId => priorId.map fun imageId => (userId, imageId)
  | _ => none

/-- An avatar is ready, and so is the image for which a statement waits. The avatar before is
one of the user. -/
structure Avatars (s : State) : Prop where
  ready : ∀ userId imageId, s.Refers userId imageId →
    ∃ row, s.images.committed imageId = some row ∧ row.ReadyOf userId
  waiting : ∀ n userId imageId priorId, s.calls n = .waiting userId imageId priorId →
    imageId < s.nextImage ∧ ∀ row, s.images.committed imageId = some row → row.ReadyOf userId
  prior : ∀ n userId imageId, (s.calls n).prior = some (userId, imageId) →
    imageId < s.nextImage ∧ ∀ row, s.images.committed imageId = some row → row.userId = userId

/-- The avatar before was so before, or is the avatar. -/
theorem Step.prior (h : Step s l s') (hcall : (s'.calls m).prior = some (userId, imageId)) :
  (s.calls m).prior = some (userId, imageId) ∨ s.Refers userId imageId
  := by
  have hupdate : ∀ n phase, (Function.update s.calls n phase m).prior = some (userId, imageId) →
      (phase.prior = some (userId, imageId) → (s.calls n).prior = some (userId, imageId)
        ∨ s.Refers userId imageId) →
        (s.calls m).prior = some (userId, imageId) ∨ s.Refers userId imageId := by
    intro n phase hafter hphase
    rcases update_cases (fun phase => Phase.prior phase = some (userId, imageId)) hafter with
      ⟨rfl, hnew⟩ | ⟨_, hbefore⟩
    · exact hphase hnew
    · exact .inl hbefore
  cases h with
  | put | tick | requestUpload => exact .inl hcall
  | @updateProfile n userId' newId user _ huser =>
    apply hupdate _ _ hcall
    intro hprior
    right
    obtain ⟨imageId', hid, heq⟩ := Option.map_eq_some_iff.mp hprior
    obtain ⟨rfl, rfl⟩ := Prod.mk.inj heq
    exact ⟨user, huser, hid⟩
  | clear hphase | find hphase | download hphase | upload hphase | activate hphase | wait hphase
    | resume hphase =>
    apply hupdate _ _ hcall
    intro hprior
    left
    rw [hphase, ← hprior]
    rfl
  | _ =>
    apply hupdate _ _ hcall
    intro hprior
    cases hprior

/-- What is retired or deleted is neither an avatar nor about to become one. -/
theorem Step.avatars (hl : Locked s) (hs : Avatars s) (h : Step s l s')
    (hcareful : Careful s l s') :
  Avatars s'
  := by
  have howned : ∀ userId imageId, imageId < s.nextImage ∧ (∀ row,
      s.images.committed imageId = some row → row.userId = userId) → imageId < s'.nextImage ∧ ∀ row,
        s'.images.committed imageId = some row → row.userId = userId := by
    rintro userId imageId ⟨hlt, howner⟩
    refine ⟨Nat.lt_of_lt_of_le hlt h.nextImage_le, ?_⟩
    intro row' hrow'
    obtain ⟨row, hrow, huser, _⟩ := h.before hl hlt hrow'
    exact huser.trans (howner row hrow)
  constructor
  · intro userId imageId href
    rcases h.refers hl href with hbefore | ⟨himages, n, priorId, row, hrow, hphase⟩
    · obtain ⟨row, hrow, hready⟩ := hs.ready userId imageId hbefore
      rcases h.stays hl hrow hready with hstays | rfl | ⟨n, rfl⟩ | ⟨_, hnone⟩
      · exact ⟨row, hstays, hready⟩
      · exact absurd hbefore hcareful.1
      · cases h with
        | commit =>
          obtain ⟨user, huser, hid⟩ := href
          obtain ⟨profileImageId⟩ := user
          obtain rfl : profileImageId = some imageId := hid
          exact absurd huser hcareful.1
      · exact absurd href (hnone userId)
    · rw [himages]
      refine ⟨row, hrow, ?_⟩
      rcases hphase with ⟨_, hready⟩ | hwaiting
      · exact hready
      · exact (hs.waiting n userId imageId priorId hwaiting).2 row hrow
  · intro n userId imageId priorId hcall
    rcases h.waits hcall with hbefore | ⟨himages, row, hrow, hready⟩
    · obtain ⟨hlt, hwaiting⟩ := hs.waiting n userId imageId priorId hbefore
      refine ⟨Nat.lt_of_lt_of_le hlt h.nextImage_le, ?_⟩
      intro row' hrow'
      obtain ⟨row, hrow, _⟩ := h.before hl hlt hrow'
      have hready := hwaiting row hrow
      rcases h.stays hl hrow hready with hstays | rfl | ⟨m, rfl⟩ | ⟨hnone, _⟩
      · obtain rfl := Option.some.inj (hstays.symm.trans hrow')
        exact hready
      · exact absurd hbefore (hcareful.2 n priorId)
      · exact absurd hbefore (hcareful.2 n priorId)
      · cases hnone.symm.trans hrow'
    · refine ⟨Nat.lt_of_lt_of_le (hl.fresh imageId row hrow) h.nextImage_le, ?_⟩
      intro row' hrow'
      rw [himages] at hrow'
      obtain rfl := Option.some.inj (hrow.symm.trans hrow')
      exact hready
  · intro n userId imageId hcall
    apply howned
    rcases h.prior hcall with hbefore | href
    · exact hs.prior n userId imageId hbefore
    · obtain ⟨row, hrow, huser, _⟩ := hs.ready userId imageId href
      refine ⟨hl.fresh imageId row hrow, ?_⟩
      intro row' hrow'
      obtain rfl := Option.some.inj (hrow.symm.trans hrow')
      exact huser

/-! ### The public derivatives -/

theorem of_mem_removals {paths : List Path} {imageId' : ℕ}
    (hpaths : paths ∈ removals userId imageId)
    (hmem : .publicDerivative imageId' size ∈ paths) :
  imageId' = imageId
  := by
  rcases List.mem_append.mp hpaths with hpublic | hprivate
  · obtain ⟨size', _, rfl⟩ := List.mem_map.mp hpublic
    cases List.mem_singleton.mp hmem
    rfl
  · rcases List.mem_cons.mp hprivate with rfl | hprivate
    · cases List.mem_singleton.mp hmem
    · obtain ⟨size', _, rfl⟩ := List.mem_map.mp hprivate
      cases List.mem_singleton.mp hmem

/-- What is in a request is in the list. -/
theorem of_mem_slices {paths slice : List Path} {path : Path} (hslice : slice ∈ slices paths)
    (hmem : path ∈ slice) :
  path ∈ paths
  := by
  obtain ⟨k, _, rfl⟩ := List.mem_map.mp hslice
  exact List.mem_of_mem_drop (List.mem_of_mem_take hmem)

theorem of_mem_reapRemovals {rows : List (ℕ × ProfileImage)} {paths : List Path}
    (hpaths : paths ∈ reapRemovals rows) (hmem : .publicDerivative imageId size ∈ paths) :
  imageId ∈ rows.map (·.1)
  := by
  rcases List.mem_append.mp hpaths with hpublic | hprivate
  · obtain ⟨img, himg, hderivative⟩ := List.mem_flatMap.mp (of_mem_slices hpublic hmem)
    obtain ⟨size', _, heq⟩ := List.mem_map.mp hderivative
    cases heq
    exact List.mem_map_of_mem himg
  · obtain ⟨img, _, hpath⟩ := List.mem_flatMap.mp (of_mem_slices hprivate hmem)
    rcases List.mem_append.mp hpath with hderivative | hsource
    · obtain ⟨size', _, heq⟩ := List.mem_map.mp hderivative
      cases heq
    · cases List.mem_singleton.mp hsource

/-- What a call is to remove is of an image that is gone, or whose row it is to delete. -/
def Phase.Removes (s : State) : Phase → Prop
  | .purging removals rows => (∀ imageId ∈ rows, imageId < s.nextImage) ∧ ∀ paths ∈ removals,
    ∀ imageId size, .publicDerivative imageId size ∈ paths → s.Gone imageId ∨ imageId ∈ rows
  | .reaping stale => ∀ img ∈ stale, img.1 < s.nextImage
  | _ => True

theorem Phase.Removes.mono (h : phase.Removes s) (hle : s.nextImage ≤ s'.nextImage)
    (hgone : ∀ imageId, s.Gone imageId → s'.Gone imageId) :
  phase.Removes s'
  := by
  cases phase with
  | purging removals rows =>
    obtain ⟨hrows, hremovals⟩ := h
    refine ⟨fun imageId hmem => Nat.lt_of_lt_of_le (hrows imageId hmem) hle, ?_⟩
    intro paths hpaths imageId size hmem
    rcases hremovals paths hpaths imageId size hmem with hbefore | hrow
    · exact .inl (hgone imageId hbefore)
    · exact .inr hrow
  | reaping stale => exact fun img hmem => Nat.lt_of_lt_of_le (h img hmem) hle
  | _ => trivial

/-- What is needed is stored, or it is removed with its image. -/
structure Stored (s : State) : Prop where
  needs : ∀ imageId size, s.Needs imageId size → s.stored (.publicDerivative imageId size) = true
    ∨ s.Gone imageId ∨ ∃ m, imageId ∈ (s.calls m).rows
  removes : ∀ n, (s.calls n).Removes s

/-- The objects of an image are removed after the row was deleted, softly or at last by the same
call. -/
theorem Step.removes (hl : Locked s) (ha : Avatars s) (hs : Stored s) (h : Step s l s') (m : ℕ) :
  (s'.calls m).Removes s'
  := by
  have hgone := fun imageId => @Step.gone _ _ _ imageId hl h
  have hle := h.nextImage_le
  have hbefore := fun m => (hs.removes m).mono hle hgone
  have hupdate : ∀ n phase, phase.Removes s' → (Function.update s.calls n phase m).Removes s' := by
    intro n phase hphase
    rw [Function.update_apply]
    split
    · exact hphase
    · exact hbefore m
  have hremovals : ∀ userId imageId, s'.Gone imageId →
      (Phase.purging (removals userId imageId) []).Removes s' := by
    intro userId imageId himage
    refine ⟨(fun _ hmem => by cases hmem), ?_⟩
    intro paths hpaths imageId' size hmem
    obtain rfl := of_mem_removals hpaths hmem
    exact .inl himage
  cases h with
  | put | tick | requestUpload => exact hbefore m
  | @retire n userId imageId newId row hphase _ _ hrow =>
    apply hupdate
    apply hremovals
    refine ⟨hl.fresh imageId row hrow, ?_⟩
    intro row' hrow'
    rcases of_put_committed hrow' with ⟨_, heq⟩ | ⟨hne, _⟩
    · obtain rfl := Option.some.inj heq
      exact Option.some_ne_none _
    · exact absurd rfl hne
  | @retireNone n userId imageId newId hphase _ hnone =>
    apply hupdate
    apply hremovals
    have hprior : (s.calls n).prior = some (userId, imageId) := by
      rw [hphase]
      rfl
    obtain ⟨hlt, howner⟩ := ha.prior n userId imageId hprior
    exact ⟨hlt, fun row hrow => absurd (howner row hrow) (hnone row hrow)⟩
  | @commit n userId imageId hphase =>
    apply hupdate
    apply hremovals
    obtain ⟨row, hwrites⟩ := hl.held n userId imageId (by rw [hphase]; rfl)
    obtain ⟨_, row₀, _, hrow₀, _, _, hdeleted⟩ := hl.image n imageId row hwrites
    refine ⟨hl.fresh imageId row₀ hrow₀, ?_⟩
    intro row' hrow'
    obtain rfl := Option.some.inj ((view_of_writes hwrites).symm.trans hrow')
    exact hdeleted
  | findStale _ _ hstale =>
    apply hupdate
    exact fun img hmem => hl.fresh img.1 img.2 (hstale img hmem).1
  | @findDeleted n stale deleted hphase _ hdeleted =>
    apply hupdate
    have hstale := hs.removes n
    rw [hphase] at hstale
    constructor
    · intro imageId hmem
      obtain ⟨img, himg, rfl⟩ := List.mem_map.mp hmem
      rcases List.mem_append.mp himg with hold | hnew
      · exact hstale img hold
      · exact hl.fresh img.1 img.2 (hdeleted img hnew).1
    · exact fun paths hpaths imageId size hmem => .inr (of_mem_reapRemovals hpaths hmem)
  | @purge n paths removals rows hphase | @purgeFail n paths removals rows hphase =>
    apply hupdate
    obtain ⟨hrows, hpaths⟩ := hphase ▸ hbefore n
    exact ⟨hrows, fun paths' hmem => hpaths paths' (List.mem_cons_of_mem _ hmem)⟩
  | @hardDelete n imageId rows hphase =>
    apply hupdate
    obtain ⟨hrows, _⟩ := hphase ▸ hbefore n
    refine ⟨fun imageId' hmem => hrows imageId' (List.mem_cons_of_mem _ hmem), ?_⟩
    exact fun _ hmem => by cases hmem
  | _ => exact hupdate _ _ trivial

theorem Step.kept (hl : Locked s) (ha : Avatars s) (hs : Stored s) (h : Step s l s')
    (hcareful : Careful s l s') :
  Stored s'
  := by
  refine ⟨?_, h.removes hl ha hs⟩
  intro imageId size hneeds
  have hstored : s.stored (.publicDerivative imageId size) = true →
      s'.stored (.publicDerivative imageId size) = true ∨ s'.Gone imageId
        ∨ ∃ m, imageId ∈ (s'.calls m).rows := by
    intro hbefore
    rcases h.stored hbefore with hafter | ⟨n, paths, removals, rows, hphase, hmem, hphase'⟩
    · exact .inl hafter
    · obtain ⟨_, hremoves⟩ := hphase ▸ hs.removes n
      right
      rcases hremoves paths List.mem_cons_self imageId size hmem with hgone | hrow
      · exact .inl (h.gone hl hgone)
      · exact .inr ⟨n, by rw [hphase']; exact hrow⟩
  rcases h.needs hl hneeds with hbefore | hafter
  · rcases hs.needs imageId size hbefore with hthere | hgone | ⟨m, hmem⟩
    · exact hstored hthere
    · exact .inr (.inl (h.gone hl hgone))
    · rcases h.rows hmem with hrow | hnone | rfl
      · exact .inr (.inr ⟨m, hrow⟩)
      · right
        left
        have hlt : imageId < s.nextImage := by
          have hremoves := hs.removes m
          cases hphase : s.calls m with
          | purging removals rows =>
            rw [hphase] at hremoves hmem
            exact hremoves.1 imageId hmem
          | _ =>
            rw [hphase] at hmem
            cases hmem
        refine ⟨Nat.lt_of_lt_of_le hlt h.nextImage_le, ?_⟩
        intro row hrow
        cases hnone.symm.trans hrow
      · rcases hcareful imageId hmem size hbefore with hthere | hgone
        · exact hstored hthere
        · exact .inr (.inl (h.gone hl hgone))
  · exact .inl hafter

/-! ### The runs -/

theorem avatars_init (h : system.init s) :
  Locked s ∧ Avatars s ∧ Stored s
  := by
  obtain ⟨hquiet, hintact, hfresh, husers, himages⟩ := h
  refine ⟨⟨?_, ?_, ?_, ?_, hfresh⟩, ⟨?_, ?_, ?_⟩, ⟨?_, ?_⟩⟩
  · intro m n imageId row row' h
    rw [himages] at h
    cases h
  · intro n imageId row h
    rw [himages] at h
    cases h
  · intro n userId imageId h
    rw [hquiet] at h
    cases h
  · intro n userId user h
    rw [husers] at h
    cases h
  · intro userId imageId href
    obtain ⟨row, hrow, hready, _⟩ := hintact userId imageId href
    exact ⟨row, hrow, hready⟩
  · intro n userId imageId priorId h
    rw [hquiet] at h
    cases h
  · intro n userId imageId h
    rw [hquiet] at h
    cases h
  · rintro imageId size (⟨userId, href⟩ | ⟨m, h⟩)
    · obtain ⟨row, _, _, hstored⟩ := hintact userId imageId href
      exact .inl (hstored size)
    · rw [hquiet] at h
      exact h.elim
  · intro n
    rw [hquiet]
    trivial

theorem Reachable.avatars (h : (system.restrict Careful).Reachable s) :
  Locked s ∧ Avatars s ∧ Stored s
  := by
  apply h.invariant
  · exact fun s₀ hinit => avatars_init hinit
  · rintro s₁ l s₂ ⟨hl, ha, hs⟩ ⟨hstep, hcareful⟩
    exact ⟨hstep.locked hl, hstep.avatars hl ha hcareful, hstep.kept hl ha hs hcareful⟩

/-- The avatar does not dangle, when no call is in progress, in every run whose steps are
careful. -/
theorem intact_of_careful (h : (system.restrict Careful).Reachable s) (hquiet : Quiet s) :
  Intact s
  := by
  obtain ⟨_, ha, hs⟩ := Reachable.avatars h
  intro userId imageId href
  obtain ⟨row, hrow, hready⟩ := ha.ready userId imageId href
  refine ⟨row, hrow, hready, ?_⟩
  intro size
  rcases hs.needs imageId size (.inl ⟨userId, href⟩) with hstored | hgone | ⟨m, hmem⟩
  · exact hstored
  · exact absurd hready.2.2 (hgone.2 row hrow)
  · rw [hquiet] at hmem
    cases hmem

/-- An image of the user `0` that is ready. -/
def sampleImage (imageId : ℕ) : ProfileImage := ⟨0, .ready, ⟨0, imageId⟩, 0, 0, none⟩

/-- The user has two images, and an avatar. -/
def sampleState (avatar : Option ℕ) : State where
  users := { committed := fun userId => if userId = 0 then some ⟨avatar⟩ else none, writes := fun _ _ => none }
  images :=
    { committed := fun imageId => if imageId < 2 then some (sampleImage imageId) else none
      writes := fun _ _ => none }
  stored := fun _ => true
  nextImage := 2
  now := 0
  calls := fun _ => .idle

theorem sampleState_init {avatar : Option ℕ}
    (havatar : ∀ imageId, avatar = some imageId → imageId < 2) :
  (system.restrict Careful).Reachable (sampleState avatar)
  := by
  apply System.Reachable.init
  refine ⟨fun _ => rfl, ?_, ?_, fun _ => rfl, fun _ => rfl⟩
  · rintro userId imageId ⟨user, huser, hid⟩
    obtain ⟨rfl, heq⟩ := Option.ite_none_right_eq_some.mp huser
    obtain rfl := Option.some.inj heq
    exact ⟨sampleImage imageId, if_pos (havatar imageId hid), ⟨rfl, rfl, rfl⟩, fun _ => rfl⟩
  · intro imageId row hrow
    exact (Option.ite_none_right_eq_some.mp hrow).1

theorem sampleStore {path' : Path} (hstored : ∀ path, s.stored path) (path : Path) :
  (s.store path').stored path = true
  := by
  by_cases heq : path = path'
  · rw [heq]
    exact Function.update_self ..
  · exact (Function.update_of_ne heq ..).trans (hstored path)

/-- What has been downloaded is uploaded. -/
theorem sampleUpload {priorId : Option ℕ} (buffered : List Size)
    (hs : (system.restrict Careful).Reachable s)
    (hphase : s.calls n = .publishing 0 imageId priorId [] buffered) (hstored : ∀ path, s.stored path) :
  ∃ s', (system.restrict Careful).Reachable s' ∧ s'.users = s.users ∧ s'.images = s.images
    ∧ (∀ path, s'.stored path)
    ∧ s'.calls = Function.update s.calls n (.publishing 0 imageId priorId [] [])
  := by
  induction buffered generalizing s with
  | nil => exact ⟨s, hs, rfl, rfl, hstored, by rw [← hphase, Function.update_eq_self]⟩
  | cons size buffered ih =>
    have hstep := Step.upload hphase List.mem_cons_self
    rw [List.erase_cons_head] at hstep
    obtain ⟨s', hs', husers, himages, hstored', hcalls⟩ :=
      ih (hs.step ⟨hstep, trivial⟩) (Function.update_self ..) (sampleStore hstored)
    refine ⟨s', hs', husers, himages, hstored', ?_⟩
    rw [hcalls, enter_calls, Function.update_idem]
    rfl

/-- The derivatives of an image are downloaded, and uploaded. -/
theorem samplePublish {priorId : Option ℕ} (rest : List Size) {buffered : List Size}
    (hs : (system.restrict Careful).Reachable s)
    (hphase : s.calls n = .publishing 0 imageId priorId rest buffered)
    (hstored : ∀ path, s.stored path) :
  ∃ s', (system.restrict Careful).Reachable s' ∧ s'.users = s.users ∧ s'.images = s.images
    ∧ (∀ path, s'.stored path)
    ∧ s'.calls = Function.update s.calls n (.publishing 0 imageId priorId [] [])
  := by
  induction rest generalizing s buffered with
  | nil => exact sampleUpload buffered hs hphase hstored
  | cons size rest ih =>
    have hstep := Step.download hphase List.mem_cons_self (hstored _)
    rw [List.erase_cons_head] at hstep
    obtain ⟨s', hs', husers, himages, hstored', hcalls⟩ :=
      ih (hs.step ⟨hstep, trivial⟩) (Function.update_self ..) hstored
    refine ⟨s', hs', husers, himages, hstored', ?_⟩
    rw [hcalls, enter_calls, Function.update_idem]

/-- An image becomes the avatar. -/
theorem sampleActivate (imageId : ℕ) {priorId : Option ℕ} {user : User}
    (hs : (system.restrict Careful).Reachable s)
    (hphase : s.calls n = .updating 0 (some imageId) priorId) (hfree : s.UserFree 0)
    (huser : s.users.committed 0 = some user)
    (himage : s.images.committed imageId = some (sampleImage imageId)) (hstored : ∀ path, s.stored path) :
  ∃ s', (system.restrict Careful).Reachable s' ∧ s'.users = s.users.put 0 (some ⟨some imageId⟩)
    ∧ s'.images = s.images ∧ (∀ path, s'.stored path)
    ∧ s'.calls = Function.update s.calls n (.retiring 0 (some imageId) priorId)
  := by
  have hfind := hs.step ⟨Step.find hphase himage ⟨rfl, rfl, rfl⟩, trivial⟩
  obtain ⟨s', hs', husers, himages, hstored', hcalls⟩ :=
    samplePublish derivativeSpecs hfind (Function.update_self ..) hstored
  have hpublished : s'.calls n = .publishing 0 imageId priorId [] [] := by
    rw [hcalls, Function.update_self]
  have husers : s'.users = s.users := husers
  have himages : s'.images = s.images := himages
  have hactivate := hs'.step ⟨Step.activate hpublished (by rw [State.UserFree, husers]; exact hfree)
    (by rw [husers]; exact huser) (by rw [himages]; exact himage) ⟨rfl, rfl, rfl⟩, trivial⟩
  refine ⟨_, hactivate, ?_, himages, hstored', ?_⟩
  · rw [← husers]
    rfl
  · have hcalls' : (s'.putUser 0 ⟨some imageId⟩).calls = s'.calls := rfl
    rw [enter_calls, hcalls', hcalls, enter_calls, Function.update_idem, Function.update_idem]

/-- A call removes objects, and is done. -/
theorem samplePurge (removals : List (List Path)) (hs : system.Reachable s)
    (hphase : s.calls n = .purging removals []) :
  ∃ s', system.Reachable s' ∧ s'.users = s.users ∧ s'.images = s.images
    ∧ s'.calls = Function.update s.calls n .idle
  := by
  induction removals generalizing s with
  | nil => exact ⟨_, hs.step (Step.purged hphase), rfl, rfl, rfl⟩
  | cons paths removals ih =>
    obtain ⟨s', hs', husers, himages, hcalls⟩ :=
      ih (hs.step (Step.purge hphase)) (Function.update_self ..)
    refine ⟨s', hs', husers, himages, ?_⟩
    rw [hcalls, enter_calls, Function.update_idem]
    rfl

/-- An update makes another image the avatar, and retires the one before. It crashes before the
objects are removed, and so does the pass that finds them. -/
theorem intact_of_careful_sample :
  ∃ s, s.Refers 0 1 ∧ s.Gone 0 ∧ Intact s
  := by
  have hinit := @sampleState_init (some 0) fun _ h => by
    cases h
    decide
  have hupdate := hinit.step ⟨@Step.updateProfile _ 0 0 (some 1) ⟨some 0⟩ rfl rfl, trivial⟩
  obtain ⟨s, hs, husers, himages, _, hcalls⟩ :=
    sampleActivate 1 hupdate (n := 0) rfl (fun _ => rfl) rfl rfl fun _ => rfl
  obtain ⟨users, images, stored, nextImage, now, calls⟩ := s
  obtain rfl : users = (sampleState (some 0)).users.put 0 (some ⟨some 1⟩) := husers
  obtain rfl : images = (sampleState (some 0)).images := himages
  obtain rfl := hcalls
  have hnext : 0 < nextImage := (Reachable.avatars hs).1.fresh 0 (sampleImage 0) rfl
  have hretire := hs.step ⟨@Step.retire _ 0 0 0 (some 1) (sampleImage 0) rfl (by decide)
    (fun _ => rfl) rfl rfl, by
      constructor
      · rintro ⟨user, huser, hid⟩
        cases huser
        cases hid
      · intro m priorId hwaiting
        match m with
        | 0 | _ + 1 => cases hwaiting⟩
  have hcrash := hretire.step ⟨@Step.stop _ 0, fun imageId hmem => by cases hmem⟩
  have hstale := hcrash.step ⟨@Step.findStale _ 1 [] rfl (by decide) (fun _ h => by cases h), trivial⟩
  have hfind := hstale.step ⟨@Step.findDeleted _ 1 [] [(0, (sampleImage 0).softDelete now)] rfl
    (Nat.le_add_left 1 199) (by
      intro img himg
      obtain rfl := List.mem_singleton.mp himg
      refine ⟨rfl, Option.some_ne_none _, ?_⟩
      rintro userId ⟨user, huser, hid⟩
      match userId with
      | 0 =>
        cases huser
        cases hid
      | _ + 1 => cases huser), trivial⟩
  have hstop := hfind.step ⟨@Step.stop _ 1, by
    intro imageId hmem size _
    obtain rfl := List.mem_singleton.mp hmem
    right
    use hnext
    intro row hrow
    cases hrow
    exact Option.some_ne_none _⟩
  refine ⟨_, ⟨⟨some 1⟩, rfl, rfl⟩, ⟨hnext, ?_⟩, intact_of_careful hstop ?_⟩
  · intro row hrow
    cases hrow
    exact Option.some_ne_none _
  · intro k
    match k with
    | 0 | 1 | _ + 2 => rfl

/-- Two updates make one image the avatar, and then the other one; then the first retires the
one that was the avatar when it began, and is the avatar again. -/
theorem not_forall_intact :
  ¬ ∀ s, system.Reachable s → Quiet s → Intact s
  := by
  intro h
  have hinit := @sampleState_init (some 0) fun _ h => by
    cases h
    decide
  have hfirst := hinit.step ⟨@Step.updateProfile _ 0 0 (some 1) ⟨some 0⟩ rfl rfl, trivial⟩
  have hsecond := hfirst.step ⟨@Step.updateProfile _ 1 0 (some 0) ⟨some 0⟩ rfl rfl, trivial⟩
  obtain ⟨s₁, hs₁, husers₁, himages₁, hstored₁, hcalls₁⟩ :=
    sampleActivate 1 hsecond (n := 0) rfl (fun _ => rfl) rfl rfl fun _ => rfl
  obtain ⟨s₂, hs₂, husers₂, himages₂, _, hcalls₂⟩ :=
    sampleActivate 0 hs₁ (n := 1) (by rw [hcalls₁]; rfl) (fun _ => by rw [husers₁]; rfl)
      (by rw [husers₁]; rfl) (by rw [himages₁]; rfl) hstored₁
  have hcall : s₂.calls 0 = .retiring 0 (some 1) (some 0) := by
    rw [hcalls₂, hcalls₁]
    rfl
  have himages : s₂.images = (sampleState (some 0)).images := himages₂.trans himages₁
  have hkeep := hs₂.step ⟨@Step.keep _ 1 0 (some 0) (some 0) (by rw [hcalls₂]; rfl) (.inr rfl), trivial⟩
  have hreachable := System.Reachable.of_restrict system hkeep
  have hretire := hreachable.step (@Step.retire _ 0 0 0 (some 1) (sampleImage 0) hcall (by decide)
    (fun m => congrFun (congrFun (congrArg Store.writes himages) m) 0)
    (congrFun (congrArg Store.committed himages) 0) rfl)
  obtain ⟨s, hs, husers, himages', hcalls⟩ := samplePurge _ hretire (Function.update_self ..)
  have hquiet : Quiet s := by
    intro n
    rw [hcalls, Function.update_apply]
    split
    · rfl
    · rename_i hfirst
      rw [enter_calls, Function.update_of_ne hfirst]
      change Function.update s₂.calls 1 .idle n = .idle
      by_cases hsecond : n = 1
      · rw [hsecond]
        exact Function.update_self ..
      · rw [Function.update_of_ne hsecond, hcalls₂, Function.update_of_ne hsecond, hcalls₁, Function.update_of_ne hfirst, enter_calls,
          Function.update_of_ne hsecond, enter_calls, Function.update_of_ne hfirst]
        rfl
  have husers' : s.users = s₂.users := husers
  obtain ⟨row, hrow, ⟨_, _, hlive⟩, _⟩ :=
    h s hs hquiet 0 0 ⟨⟨some 0⟩, by rw [husers', husers₂]; rfl, rfl⟩
  rw [himages'] at hrow
  rcases of_put_committed hrow with ⟨_, heq⟩ | ⟨hne, _⟩
  · obtain rfl := Option.some.inj heq
    cases hlive
  · exact hne rfl

end ProfileImages
