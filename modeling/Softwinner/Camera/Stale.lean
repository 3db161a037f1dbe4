import Softwinner.Camera.RefCount

/-!
# References across sessions

`stopDevice` clears `mV4l2buf` but not the queues, and nobody tells the consumers or the encoder.
Their pointers and indices are valid again as soon as the next session has filled the same
buffer.  Whether a picture is a copy, and must not be released, is decided by one flag for all
pictures, long after the picture was queued.

`NoStale` is what should hold in every state.  `noStale_of_run` says that it does when no
reference is left at a `startDevice`, no other picture is queued while a copy waits for its
delivery, and `continuousPictureThread` does not take a copy.
-/

namespace Softwinner.Camera

variable {s s' t : State} {i j : Fin nbBuffer} {e : Entry} {a : Act}

/-! ## The property -/

namespace State

variable (s : State)

/-- The entries whose frame is read by the next step of their thread. -/
def readers : List Entry :=
  (match s.preview with | .checked e => [e] | _ => []) ++
  (match s.picture with | .got e => [e] | _ => []) ++
  (match s.smart with | .blink e | .smile e => [e] | _ => []) ++
  match s.continuous with | .checked e => [e] | _ => []

/-- The entries for which `releasePreviewFrame` will be called, with its argument. -/
def releasers : List (Entry × Fin nbBuffer) :=
  (match s.preview with | .called e => [(e, (s.deref e.ptr).index)] | _ => []) ++
  (match s.picture with | .release e i => [(e, i)] | _ => []) ++
  (match s.smart with | .release e i => [(e, i)] | _ => []) ++
  (match s.continuous with | .done e => [(e, (s.deref e.ptr).index)] | _ => []) ++
  s.encoder.filterMap fun e => match e.ptr with | .buf i => some (e, i) | .pic => none

/-- The entries that do not depend on `mIsPicCopy`. -/
def others : List Entry :=
  s.queueBufferPreview ++ s.preview.entries ++ s.continuous.entries ++ s.encoder

end State

/-- No reference of an earlier session reads a frame, or drops a count, of the present one, and
no copied picture is released. -/
structure NoStale (s : State) : Prop where
  read : ∀ e ∈ s.readers, e.ptr ≠ .pic → ¬ e.session < (s.deref e.ptr).session
  release : ∀ x ∈ s.releasers, x.1.ptr ≠ .pic → ¬ x.1.session < (s.v4l2buf x.2).session
  copy : ∀ x ∈ s.releasers, x.1.ptr ≠ .pic

/-! ## What a step does to the references -/

lemma session_release (s : State) (i j : Fin nbBuffer) (ok : Bool) :
    ((s.releasePreviewFrame i ok).v4l2buf j).session = (s.v4l2buf j).session := by
  have hupdate : ∀ b : V4L2Buf, b.session = (s.v4l2buf i).session →
      (Function.update s.v4l2buf i b j).session = (s.v4l2buf j).session := by
    intro b hb
    by_cases hji : j = i
    · rw [hji, Function.update_self]
      exact hb
    · rw [Function.update_of_ne hji]
  unfold State.releasePreviewFrame
  simp only
  split_ifs
  · exact hupdate _ rfl
  · exact hupdate _ rfl
  · rfl

/-- A release changes nothing that a reference depends on. -/
lemma exists_release_session (s : State) (i : Fin nbBuffer) (ok : Bool) :
    ∃ v d c q, s.releasePreviewFrame i ok =
        { s with v4l2buf := v, driver := d, curAvailBufferCnt := c, qbufs := q } ∧
      ∀ j, (v j).session = (s.v4l2buf j).session := by
  obtain ⟨v, d, c, q, heq⟩ := exists_release_eq s i ok
  refine ⟨v, d, c, q, heq, fun j => ?_⟩
  have hfilled := session_release s i j ok
  rwa [heq] at hfilled

lemma session_addRef (s : State) (i j : Fin nbBuffer) :
    ((s.addRef i).v4l2buf j).session = (s.v4l2buf j).session := by
  by_cases hji : j = i
  · simp [State.addRef, hji]
  · simp [State.addRef, hji]

/-- References change hands or go, but none are taken from the driver. -/
structure Moves (a : Act) (s s' : State) : Prop where
  session : s'.session = s.session
  filled : ∀ i, (s'.v4l2buf i).session = (s.v4l2buf i).session
  isPicCopy : s'.isPicCopy = s.isPicCopy
  pictures : ∀ e ∈ s'.pictures, e ∈ s.pictures
  others : ∀ e ∈ s'.others, e ∈ s.others ∨
    (a = .continuousDequeue ∧ s.queueBufferPicture.head? = some e) ∨
    ∃ e₀ ∈ s.others, e.session = e₀.session ∧ e.ptr ≠ .pic ∧ e₀.ptr ≠ .pic
  picture : ∀ e i, s'.picture = .release e i →
    s.picture = .release e i ∨ s.isPicCopy = false ∧ e ∈ s.pictures
  smart : ∀ e i, s'.smart = .release e i →
    s.smart = .release e i ∨ s.isPicCopy = false ∧ e ∈ s.pictures

/-- The steps that take references or clear them. -/
def Act.Ordinary : Act → Prop
  | .captureFrame _ _ | .startDevice _ | .stopDevice => False
  | _ => True

lemma State.mem_pictures : e ∈ s.pictures ↔
    e ∈ s.queueBufferPicture ∨ e ∈ s.picture.entries ∨ e ∈ s.smart.entries := by
  simp only [State.pictures, List.mem_append]
  tauto

lemma State.mem_others : e ∈ s.others ↔ e ∈ s.queueBufferPreview ∨ e ∈ s.preview.entries ∨
    e ∈ s.continuous.entries ∨ e ∈ s.encoder := by
  simp only [State.others, List.mem_append]
  tauto

/-- A step of `previewThread`, of `continuousPictureThread` or of the encoder. -/
lemma Moves.of_others (hsession : s'.session = s.session)
    (hfilled : ∀ i, (s'.v4l2buf i).session = (s.v4l2buf i).session)
    (hcopy : s'.isPicCopy = s.isPicCopy) (hqueue : s'.queueBufferPicture = s.queueBufferPicture)
    (hpicture : s'.picture = s.picture) (hsmart : s'.smart = s.smart)
    (hothers : ∀ e ∈ s'.others, e ∈ s.others) : Moves a s s' := by
  refine ⟨hsession, hfilled, hcopy, fun e he => ?_, fun e he => Or.inl (hothers e he),
    fun e i h => ?_, fun e i h => ?_⟩
  · rw [State.mem_pictures, hqueue, hpicture, hsmart] at he
    exact State.mem_pictures.mpr he
  · rw [hpicture] at h
    exact Or.inl h
  · rw [hsmart] at h
    exact Or.inl h

lemma moves_preview (ha : a = .previewDequeue ∨ a = .previewCheck ∨
    (∃ r, a = .previewCallback r) ∨ ∃ ok, a = .previewRelease ok) (hstep : s.step a = some s') :
    Moves a s s' := by
  rcases ha with rfl | rfl | ⟨recorded, rfl⟩ | ⟨ok, rfl⟩
  · obtain ⟨e, q, hp, hq, rfl⟩ := State.of_previewDequeue hstep
    refine .of_others rfl (fun _ => rfl) rfl rfl rfl rfl fun x hx => ?_
    rw [State.mem_others] at hx ⊢
    simp only [hp, hq, PreviewPc.entries, List.mem_cons, List.not_mem_nil] at hx ⊢
    tauto
  · obtain ⟨e, hp, -, rfl⟩ := State.of_previewCheck hstep
    refine .of_others rfl (fun _ => rfl) rfl rfl rfl rfl fun x hx => ?_
    rw [State.mem_others] at hx ⊢
    dsimp only at hx
    split_ifs at hx
    all_goals
      simp only [hp, PreviewPc.entries, List.mem_cons, List.not_mem_nil] at hx ⊢
      tauto
  · obtain ⟨e, hp, ⟨-, rfl⟩ | ⟨-, i, hi, rfl⟩⟩ := State.of_previewCallback hstep
    · refine .of_others rfl (fun _ => rfl) rfl rfl rfl rfl fun x hx => ?_
      rw [State.mem_others] at hx ⊢
      simpa only [hp, PreviewPc.entries] using hx
    · refine ⟨rfl, fun j => session_addRef s i j, rfl, fun _ he => he, fun x hx => ?_,
        fun _ _ h => Or.inl h, fun _ _ h => Or.inl h⟩
      have he : e ∈ s.others := by
        rw [State.mem_others, hp]
        simp [PreviewPc.entries]
      rw [State.mem_others] at hx
      simp only [PreviewPc.entries, State.addRef, List.mem_cons, List.not_mem_nil, or_false] at hx
      rw [State.mem_others]
      rcases hx with hx | rfl | hx | rfl | hx
      · exact Or.inl (Or.inl hx)
      · exact Or.inl (Or.inr (Or.inl (by simp [hp, PreviewPc.entries])))
      · exact Or.inl (Or.inr (Or.inr (Or.inl hx)))
      · exact Or.inr (Or.inr ⟨e, he, rfl, by simp, by simp [hi]⟩)
      · exact Or.inl (Or.inr (Or.inr (Or.inr hx)))
  · obtain ⟨e, hp, rfl⟩ := State.of_previewRelease hstep
    obtain ⟨v, d, c, q, heq, hfilled⟩ := exists_release_session s (s.deref e.ptr).index ok
    rw [heq]
    refine .of_others rfl hfilled rfl rfl rfl rfl fun x hx => ?_
    rw [State.mem_others] at hx ⊢
    simp only [hp, PreviewPc.entries, List.not_mem_nil] at hx ⊢
    tauto

lemma moves_picture (ha : a = .pictureDequeue ∨ a = .pictureTake ∨ a = .pictureCopyTest ∨
    ∃ ok, a = .pictureRelease ok) (hstep : s.step a = some s') : Moves a s s' := by
  rcases ha with rfl | rfl | rfl | ⟨ok, rfl⟩
  · obtain ⟨e, q, hp, hq, rfl⟩ := State.of_pictureDequeue hstep
    refine ⟨rfl, fun _ => rfl, rfl, fun x hx => ?_, fun _ hx => Or.inl hx, by simp,
      fun _ _ h => Or.inl h⟩
    rw [State.mem_pictures] at hx ⊢
    simp only [hp, hq, PicturePc.entries, List.mem_cons, List.not_mem_nil] at hx ⊢
    tauto
  · obtain ⟨e, hp, rfl⟩ := State.of_pictureTake hstep
    refine ⟨rfl, fun _ => rfl, rfl, fun x hx => ?_, fun _ hx => Or.inl hx, by simp,
      fun _ _ h => Or.inl h⟩
    rw [State.mem_pictures] at hx ⊢
    simpa only [hp, PicturePc.entries, State.take] using hx
  · obtain ⟨e, hp, rfl⟩ := State.of_pictureCopyTest hstep
    have he : e ∈ s.pictures := by
      rw [State.mem_pictures, hp]
      simp [PicturePc.entries]
    cases hflag : s.isPicCopy with
    | true =>
      simp only [if_true]
      refine ⟨rfl, fun _ => rfl, hflag.symm, fun x hx => ?_, fun _ hx => Or.inl hx, by simp,
        fun _ _ h => Or.inl h⟩
      rw [State.mem_pictures] at hx ⊢
      simp only [PicturePc.entries, List.not_mem_nil] at hx
      tauto
    | false =>
      simp only [Bool.false_eq_true, if_false]
      refine ⟨rfl, fun _ => rfl, hflag.symm, fun x hx => ?_, fun _ hx => Or.inl hx, fun x k h => ?_,
        fun _ _ h => Or.inl h⟩
      · rw [State.mem_pictures] at hx ⊢
        simpa only [hp, PicturePc.entries] using hx
      · obtain ⟨rfl, rfl⟩ := PicturePc.release.inj h
        exact Or.inr ⟨hflag, he⟩
  · obtain ⟨e, i, hp, rfl⟩ := State.of_pictureRelease hstep
    obtain ⟨v, d, c, q, heq, hfilled⟩ := exists_release_session s i ok
    rw [heq]
    refine ⟨rfl, hfilled, rfl, fun x hx => ?_, fun _ hx => Or.inl hx, by simp, fun _ _ h => Or.inl h⟩
    rw [State.mem_pictures] at hx ⊢
    simp only [hp, PicturePc.entries, List.not_mem_nil] at hx ⊢
    tauto

lemma moves_smart (ha : a = .smartDequeue ∨ a = .smartDoneTest ∨ (∃ hit, a = .smartBlink hit) ∨
    (∃ hit, a = .smartSmile hit) ∨ a = .smartCopyTest ∨ ∃ ok, a = .smartRelease ok)
    (hstep : s.step a = some s') : Moves a s s' := by
  have hsame : ∀ (p : SmartPc) (m : TakePictureState) (d : Bool) (l : List (Entry × Bool)),
      p.entries = s.smart.entries → (∀ e i, p ≠ .release e i) →
      Moves a s { s with takePictureState := m, smartPictureDone := d, taken := l, smart := p } := by
    intro p m d l hp hno
    refine ⟨rfl, fun _ => rfl, rfl, fun x hx => ?_, fun _ hx => Or.inl hx, fun _ _ h => Or.inl h,
      fun e i h => absurd h (hno e i)⟩
    rw [State.mem_pictures] at hx ⊢
    simpa only [hp] using hx
  rcases ha with rfl | rfl | ⟨hit, rfl⟩ | ⟨hit, rfl⟩ | rfl | ⟨ok, rfl⟩
  · obtain ⟨e, q, hp, hq, rfl⟩ := State.of_smartDequeue hstep
    refine ⟨rfl, fun _ => rfl, rfl, fun x hx => ?_, fun _ hx => Or.inl hx, fun _ _ h => Or.inl h,
      by simp⟩
    rw [State.mem_pictures] at hx ⊢
    simp only [hp, hq, SmartPc.entries, List.mem_cons, List.not_mem_nil] at hx ⊢
    tauto
  · obtain ⟨e, hp, rfl | rfl⟩ := State.of_smartDoneTest hstep
    · exact hsame (.taken e) _ _ _ (by simp [hp, SmartPc.entries]) (by simp)
    · exact hsame (.blink e) _ _ _ (by simp [hp, SmartPc.entries]) (by simp)
  · obtain ⟨e, hp, rfl⟩ := State.of_smartBlink hstep
    cases hit with
    | false => exact hsame (.smile e) _ _ _ (by simp [hp, SmartPc.entries]) (by simp)
    | true => exact hsame (.smile e) _ _ _ (by simp [hp, SmartPc.entries]) (by simp)
  · obtain ⟨e, hp, rfl⟩ := State.of_smartSmile hstep
    cases hit with
    | false => exact hsame (.taken e) _ _ _ (by simp [hp, SmartPc.entries]) (by simp)
    | true => exact hsame (.taken e) _ _ _ (by simp [hp, SmartPc.entries]) (by simp)
  · obtain ⟨e, hp, rfl⟩ := State.of_smartCopyTest hstep
    have he : e ∈ s.pictures := by
      rw [State.mem_pictures, hp]
      simp [SmartPc.entries]
    cases hflag : s.isPicCopy with
    | true =>
      simp only [if_true]
      refine ⟨rfl, fun _ => rfl, hflag.symm, fun x hx => ?_, fun _ hx => Or.inl hx,
        fun _ _ h => Or.inl h, by simp⟩
      rw [State.mem_pictures] at hx ⊢
      simp only [SmartPc.entries, List.not_mem_nil] at hx
      tauto
    | false =>
      simp only [Bool.false_eq_true, if_false]
      refine ⟨rfl, fun _ => rfl, hflag.symm, fun x hx => ?_, fun _ hx => Or.inl hx,
        fun _ _ h => Or.inl h, fun x k h => ?_⟩
      · rw [State.mem_pictures] at hx ⊢
        simpa only [hp, SmartPc.entries] using hx
      · obtain ⟨rfl, rfl⟩ := SmartPc.release.inj h
        exact Or.inr ⟨hflag, he⟩
  · obtain ⟨e, i, hp, rfl⟩ := State.of_smartRelease hstep
    obtain ⟨v, d, c, q, heq, hfilled⟩ := exists_release_session s i ok
    rw [heq]
    refine ⟨rfl, hfilled, rfl, fun x hx => ?_, fun _ hx => Or.inl hx, fun _ _ h => Or.inl h, by simp⟩
    rw [State.mem_pictures] at hx ⊢
    simp only [hp, SmartPc.entries, List.not_mem_nil] at hx ⊢
    tauto

lemma moves_continuous (ha : a = .continuousDequeue ∨ a = .continuousCheck ∨
    (∃ ret, a = .continuousTake ret) ∨ ∃ ok, a = .continuousRelease ok)
    (hstep : s.step a = some s') : Moves a s s' := by
  have hothers : ∀ p : ContinuousPc, (∀ x ∈ p.entries, x ∈ s.continuous.entries) → ∀ x,
      x ∈ s.queueBufferPreview ∨ x ∈ s.preview.entries ∨ x ∈ p.entries ∨ x ∈ s.encoder →
      x ∈ s.others := by
    intro p hp x hx
    rw [State.mem_others]
    have hpx := hp x
    tauto
  rcases ha with rfl | rfl | ⟨ret, rfl⟩ | ⟨ok, rfl⟩
  · obtain ⟨e, q, hp, hq, rfl⟩ := State.of_continuousDequeue hstep
    refine ⟨rfl, fun _ => rfl, rfl, fun x hx => ?_, fun x hx => ?_, fun _ _ h => Or.inl h,
      fun _ _ h => Or.inl h⟩
    · rw [State.mem_pictures] at hx ⊢
      simp only [hq, List.mem_cons] at hx ⊢
      tauto
    · rw [State.mem_others] at hx ⊢
      simp only [hp, ContinuousPc.entries, List.mem_cons, List.not_mem_nil, or_false] at hx ⊢
      rcases hx with hx | hx | rfl | hx
      · exact Or.inl (Or.inl hx)
      · exact Or.inl (Or.inr (Or.inl hx))
      · exact Or.inr (Or.inl ⟨trivial, by simp [hq]⟩)
      · exact Or.inl (Or.inr (Or.inr (Or.inr hx)))
  · obtain ⟨e, hp, -, rfl⟩ := State.of_continuousCheck hstep
    refine .of_others rfl (fun _ => rfl) rfl rfl rfl rfl fun x hx => ?_
    refine hothers (if s.Released e then .idle else .checked e) ?_ x (State.mem_others.mp hx)
    split_ifs
    · simp [ContinuousPc.entries]
    · simp [hp, ContinuousPc.entries]
  · obtain ⟨e, hp, rfl⟩ := State.of_continuousTake hstep
    have hgo : ∀ m b c l, Moves (.continuousTake ret) s { s with
        takePictureState := m, continuousPictureStarted := b, continuousPictureCnt := c, taken := l
        continuous := .done e } := by
      intro m b c l
      refine .of_others rfl (fun _ => rfl) rfl rfl rfl rfl fun x hx => ?_
      exact hothers (.done e) (by simp [hp, ContinuousPc.entries]) x (State.mem_others.mp hx)
    unfold State.takeContinuous
    split_ifs
    all_goals exact hgo _ _ _ _
  · obtain ⟨e, hp, rfl⟩ := State.of_continuousRelease hstep
    obtain ⟨v, d, c, q, heq, hfilled⟩ := exists_release_session s (s.deref e.ptr).index ok
    rw [heq]
    refine .of_others rfl hfilled rfl rfl rfl rfl fun x hx => ?_
    exact hothers .idle (by simp [ContinuousPc.entries]) x (State.mem_others.mp hx)

/-- Everything but the capture of a frame and the start and stop of the device. -/
lemma moves_of_step (ha : a.Ordinary) (hstep : s.step a = some s') : Moves a s s' := by
  cases a with
  | captureFrame i f => exact ha.elim
  | startDevice n => exact ha.elim
  | stopDevice => exact ha.elim
  | setTakePictureState _ | startDeliveringFrames | stopDeliveringFrames | startSmartPicture
  | stopSmartPicture | startContinuousPicture | stopContinuousPicture
  | setContinuousPictureCnt _ =>
    obtain rfl := Option.some.inj hstep
    exact ⟨rfl, fun _ => rfl, rfl, fun _ he => he, fun _ he => Or.inl he, fun _ _ h => Or.inl h,
      fun _ _ h => Or.inl h⟩
  | captureRelease ok =>
    obtain ⟨i, hp, rfl⟩ := State.of_captureRelease hstep
    obtain ⟨v, d, c, q, heq, hfilled⟩ := exists_release_session s i ok
    rw [heq]
    exact ⟨rfl, hfilled, rfl, fun _ he => he, fun _ he => Or.inl he, fun _ _ h => Or.inl h,
      fun _ _ h => Or.inl h⟩
  | previewDequeue => exact moves_preview (by tauto) hstep
  | previewCheck => exact moves_preview (by tauto) hstep
  | previewCallback recorded => exact moves_preview (Or.inr (Or.inr (Or.inl ⟨_, rfl⟩))) hstep
  | previewRelease ok => exact moves_preview (Or.inr (Or.inr (Or.inr ⟨_, rfl⟩))) hstep
  | pictureDequeue => exact moves_picture (by tauto) hstep
  | pictureTake => exact moves_picture (by tauto) hstep
  | pictureCopyTest => exact moves_picture (by tauto) hstep
  | pictureRelease ok => exact moves_picture (Or.inr (Or.inr (Or.inr ⟨_, rfl⟩))) hstep
  | smartDequeue => exact moves_smart (by tauto) hstep
  | smartDoneTest => exact moves_smart (by tauto) hstep
  | smartBlink hit => exact moves_smart (Or.inr (Or.inr (Or.inl ⟨_, rfl⟩))) hstep
  | smartSmile hit => exact moves_smart (Or.inr (Or.inr (Or.inr (Or.inl ⟨_, rfl⟩)))) hstep
  | smartCopyTest => exact moves_smart (by tauto) hstep
  | smartRelease ok =>
    exact moves_smart (Or.inr (Or.inr (Or.inr (Or.inr (Or.inr ⟨_, rfl⟩))))) hstep
  | continuousDequeue => exact moves_continuous (by tauto) hstep
  | continuousCheck => exact moves_continuous (by tauto) hstep
  | continuousTake ret => exact moves_continuous (Or.inr (Or.inr (Or.inl ⟨_, rfl⟩))) hstep
  | continuousRelease ok => exact moves_continuous (Or.inr (Or.inr (Or.inr ⟨_, rfl⟩))) hstep
  | encoderRelease e ok =>
    obtain ⟨i, -, -, rfl⟩ := State.of_encoderRelease hstep
    obtain ⟨v, d, c, q, heq, hfilled⟩ := exists_release_session s i ok
    rw [heq]
    refine .of_others rfl hfilled rfl rfl rfl rfl fun x hx => ?_
    rw [State.mem_others] at hx ⊢
    have hsub : x ∈ s.encoder.erase e → x ∈ s.encoder := fun hx => List.mem_of_mem_erase hx
    tauto

/-! ## Clean runs -/

/-- `captureThread` would queue this frame as a picture in place. -/
def State.queuesInPlace (s : State) (f : Frame) : Bool :=
  match s.takePictureState with
  | .fast | .record => !f.reserved
  | .smart => true
  | .continuous | .continuousFast => f.continuousPictureTime
  | _ => false

/-- No reference to a driver's buffer is left when the device is started, no picture is queued in
place while a copy waits for `mIsPicCopy` to be read, and `continuousPictureThread` takes no
copy. -/
def CleanOk (a : Act) (s : State) : Prop :=
  match a with
  | .startDevice _ => ∀ e ∈ s.entries, e.ptr = .pic
  | .captureFrame _ f => s.queuesInPlace f = true → ∀ e ∈ s.pictures, e.ptr ≠ .pic
  | .continuousDequeue => ∀ e ∈ s.queueBufferPicture.head?, e.ptr ≠ .pic
  | _ => True

instance (a : Act) (s : State) : Decidable (CleanOk a s) :=
  match a with
  | .startDevice _ => inferInstanceAs (Decidable (∀ e ∈ s.entries, e.ptr = .pic))
  | .captureFrame _ f =>
    inferInstanceAs (Decidable (s.queuesInPlace f = true → ∀ e ∈ s.pictures, e.ptr ≠ .pic))
  | .continuousDequeue =>
    inferInstanceAs (Decidable (∀ e ∈ s.queueBufferPicture.head?, e.ptr ≠ .pic))
  | .setTakePictureState _ | .startDeliveringFrames | .stopDeliveringFrames | .stopDevice
  | .startSmartPicture | .stopSmartPicture | .startContinuousPicture | .stopContinuousPicture
  | .setContinuousPictureCnt _ | .captureRelease _ | .previewDequeue | .previewCheck
  | .previewCallback _ | .previewRelease _ | .pictureDequeue | .pictureTake | .pictureCopyTest
  | .pictureRelease _ | .smartDequeue | .smartDoneTest | .smartBlink _ | .smartSmile _
  | .smartCopyTest | .smartRelease _ | .continuousCheck | .continuousTake _
  | .continuousRelease _ | .encoderRelease _ _ => isTrue trivial

/-- What clean runs keep. -/
structure CleanInv (s : State) : Prop where
  pictures : ∀ e ∈ s.pictures, e.ptr ≠ .pic → e.session = s.session
  others : ∀ e ∈ s.others, e.ptr ≠ .pic ∧ e.session = s.session
  filled : ∀ i, (s.v4l2buf i).session ≤ s.session
  copies : ∀ e ∈ s.pictures, e.ptr = .pic → s.isPicCopy = true
  picture : ∀ e i, s.picture = .release e i → e.ptr ≠ .pic
  smart : ∀ e i, s.smart = .release e i → e.ptr ≠ .pic

lemma State.mem_entries_iff : e ∈ s.entries ↔ e ∈ s.pictures ∨ e ∈ s.others := by
  rw [State.mem_entries, State.mem_pictures, State.mem_others]
  tauto

lemma CleanInv.moved (hs : CleanInv s) (hok : CleanOk a s) (hm : Moves a s s') : CleanInv s' := by
  refine ⟨fun e he hp => ?_, fun e he => ?_, fun i => ?_, fun e he hp => ?_, fun e i hp => ?_,
    fun e i hp => ?_⟩
  · rw [hm.session]
    exact hs.pictures e (hm.pictures e he) hp
  · rw [hm.session]
    rcases hm.others e he with hold | ⟨rfl, hhead⟩ | ⟨e₀, he₀, hses, hp, -⟩
    · exact hs.others e hold
    · have hmem : e ∈ s.pictures :=
        State.mem_pictures.mpr (Or.inl (List.mem_of_mem_head? hhead))
      exact ⟨hok e hhead, hs.pictures e hmem (hok e hhead)⟩
    · exact ⟨hp, hses.trans (hs.others e₀ he₀).2⟩
  · rw [hm.filled, hm.session]
    exact hs.filled i
  · rw [hm.isPicCopy]
    exact hs.copies e (hm.pictures e he) hp
  · rcases hm.picture e i hp with hold | ⟨hflag, hmem⟩
    · exact hs.picture e i hold
    · intro hpic
      simp [hs.copies e hmem hpic] at hflag
  · rcases hm.smart e i hp with hold | ⟨hflag, hmem⟩
    · exact hs.smart e i hold
    · intro hpic
      simp [hs.copies e hmem hpic] at hflag

/-! ### The capture of a frame -/

lemma CleanInv.fill (hs : CleanInv s) (i : Fin nbBuffer) (addr : ℕ) (p : CapturePc) :
    CleanInv { s.fill i addr with capture := p } := by
  refine ⟨hs.pictures, hs.others, fun j => ?_, hs.copies, hs.picture, hs.smart⟩
  by_cases hji : j = i
  · simp [State.fill, hji]
  · simpa [State.fill, hji] using hs.filled j

lemma CleanInv.queuePreview (hs : CleanInv s) (hq : s.queuePreview i = some s') :
    CleanInv s' ∧ s'.pictures = s.pictures ∧ s'.takePictureState = s.takePictureState := by
  obtain ⟨q, hpush, rfl⟩ := Option.map_eq_some_iff.mp hq
  obtain ⟨-, rfl⟩ := push_eq_some.mp hpush
  refine ⟨⟨hs.pictures, fun e he => ?_, fun j => ?_, hs.copies, hs.picture, hs.smart⟩, rfl, rfl⟩
  · have hold := hs.others e
    simp only [State.mem_others, State.addRef, List.mem_append, List.mem_singleton] at he hold
    by_cases hnew : e = s.entry (.buf i) .preview
    · rw [hnew]
      exact ⟨by simp [State.entry], rfl⟩
    · exact hold (by tauto)
  · have hfilled := session_addRef s i j
    exact hfilled.trans_le (hs.filled j)

lemma CleanInv.queuePicture {k : Kind} (hs : CleanInv s) (hno : ∀ e ∈ s.pictures, e.ptr ≠ .pic)
    (hq : s.queuePicture i k = some s') : CleanInv s' := by
  obtain ⟨q, hpush, rfl⟩ := Option.map_eq_some_iff.mp hq
  obtain ⟨-, rfl⟩ := push_eq_some.mp hpush
  have hnew : ∀ e : Entry, e ∈ s.queueBufferPicture ++ [s.entry (.buf i) k] ∨
      e ∈ s.picture.entries ∨ e ∈ s.smart.entries → e ∈ s.pictures ∨ e = s.entry (.buf i) k := by
    intro e he
    rw [State.mem_pictures]
    simp only [List.mem_append, List.mem_singleton] at he
    tauto
  refine ⟨fun e he hp => ?_, hs.others, fun j => ?_, fun e he hp => ?_, hs.picture, hs.smart⟩
  · rcases hnew e (State.mem_pictures.mp he) with hold | rfl
    · exact hs.pictures e hold hp
    · rfl
  · exact (session_addRef s i j).trans_le (hs.filled j)
  · rcases hnew e (State.mem_pictures.mp he) with hold | rfl
    · exact absurd hp (hno e hold)
    · exact absurd hp (by simp [State.entry])

lemma CleanInv.queueCopy (hs : CleanInv s) (i : Fin nbBuffer) : CleanInv (s.queueCopy i) := by
  unfold State.queueCopy
  simp only
  split
  · exact ⟨hs.pictures, hs.others, hs.filled, hs.copies, hs.picture, hs.smart⟩
  · rename_i q hpush
    obtain ⟨-, rfl⟩ := push_eq_some.mp hpush
    refine ⟨fun e he hp => ?_, hs.others, hs.filled, fun _ _ _ => rfl, hs.picture, hs.smart⟩
    have he' := State.mem_pictures.mp he
    simp only [List.mem_append, List.mem_singleton] at he'
    by_cases hnew : e = s.entry .pic .single
    · exact absurd (by simp [hnew, State.entry]) hp
    · refine hs.pictures e (State.mem_pictures.mpr ?_) hp
      have hne : ¬ e = State.entry { s with
          picBuffer := { s.v4l2buf i with addrPhyY := s.picBuffer.addrPhyY } } .pic .single := hnew
      tauto

lemma CleanInv.queueFrame (hs : CleanInv s) (i : Fin nbBuffer) (f : Frame)
    (hok : s.queuesInPlace f = true → ∀ e ∈ s.pictures, e.ptr ≠ .pic) :
    CleanInv (s.queueFrame i f) := by
  unfold State.queueFrame
  cases hprev : s.queuePreview i with
  | none => exact hs
  | some s₁ =>
    obtain ⟨hs₁, hpics, hmode₁⟩ := hs.queuePreview hprev
    rw [← hpics] at hok
    have hpicture : ∀ k, s.queuesInPlace f = true → CleanInv ((s₁.queuePicture i k).getD s₁) := by
      intro k hin
      cases hq : s₁.queuePicture i k with
      | none => exact hs₁
      | some s₂ => exact hs₁.queuePicture (hok hin) hq
    unfold State.queuesInPlace at hok hpicture
    rw [← hmode₁] at hok hpicture
    cases hmode : s₁.takePictureState with
    | null | normal =>
      simp only [hmode]
      exact hs₁
    | fast | record =>
      simp only [hmode] at hok ⊢
      split_ifs with hres
      · exact hs₁
      cases hq : s₁.queuePicture i .single with
      | none => exact hs₁
      | some s₂ =>
        have hs₂ := hs₁.queuePicture (hok (by simpa using hres)) hq
        exact ⟨hs₂.pictures, hs₂.others, hs₂.filled, hs₂.copies, hs₂.picture, hs₂.smart⟩
    | smart =>
      simp only [hmode] at hpicture ⊢
      exact hpicture .smart trivial
    | continuous | continuousFast =>
      simp only [hmode] at hpicture ⊢
      split_ifs with htime
      · exact hpicture .burst htime
      · exact hs₁

lemma CleanInv.captureFrame (hs : CleanInv s) (i : Fin nbBuffer) (f : Frame)
    (hok : s.queuesInPlace f = true → ∀ e ∈ s.pictures, e.ptr ≠ .pic) :
    CleanInv (s.captureFrame i f) := by
  have hfill := hs.fill i f.addrPhyY (.release i)
  unfold State.captureFrame
  simp only
  split_ifs
  · exact hs.fill i f.addrPhyY .exited
  · exact hfill.queueCopy i
  · exact hfill.queueFrame i f hok

/-! ### Runs -/

/-- The step lemma of clean runs. -/
lemma CleanInv.step (hs : CleanInv s) (hok : CleanOk a s) (hstep : s.step a = some s') :
    CleanInv s' := by
  by_cases hord : a.Ordinary
  · exact hs.moved hok (moves_of_step hord hstep)
  cases a with
  | captureFrame i f =>
    simp only [State.step] at hstep
    split_ifs at hstep
    obtain rfl := Option.some.inj hstep
    exact hs.captureFrame i f hok
  | startDevice n =>
    simp only [State.step] at hstep
    split_ifs at hstep
    obtain rfl := Option.some.inj hstep
    have hpic : ∀ e, e ∈ s.pictures ∨ e ∈ s.others → e.ptr = .pic :=
      fun e he => hok e (State.mem_entries_iff.mpr he)
    refine ⟨fun e he hp => absurd (hpic e (Or.inl he)) hp, fun e he => ?_, fun i => ?_, hs.copies,
      hs.picture, hs.smart⟩
    · exact absurd (hpic e (Or.inr he)) (hs.others e he).1
    · exact (hs.filled i).trans (Nat.le_succ _)
  | stopDevice =>
    simp only [State.step] at hstep
    split_ifs at hstep
    obtain rfl := Option.some.inj hstep
    exact ⟨hs.pictures, hs.others, fun _ => Nat.zero_le _, hs.copies, hs.picture, hs.smart⟩
  | _ => exact absurd trivial hord

/-- The run lemma of clean runs. -/
lemma CleanInv.run (hs : CleanInv s) (hrun : Run CleanOk s s') : CleanInv s' :=
  Framework.Runs.invariant (fun hs hok hstep => hs.step hok hstep) hs hrun

lemma cleanInv_constructed (phy : ℕ) (v4l2buf : Fin nbBuffer → V4L2Buf) :
    CleanInv (constructed phy v4l2buf) := by
  have hnone : ∀ e, e ∉ (constructed phy v4l2buf).entries := by
    intro e he
    simp [State.mem_entries, constructed, PreviewPc.entries, PicturePc.entries, SmartPc.entries,
      ContinuousPc.entries] at he
  have hpics : ∀ e, e ∉ (constructed phy v4l2buf).pictures :=
    fun e he => hnone e (State.mem_entries_iff.mpr (Or.inl he))
  have hothers : ∀ e, e ∉ (constructed phy v4l2buf).others :=
    fun e he => hnone e (State.mem_entries_iff.mpr (Or.inr he))
  refine ⟨fun e he => absurd he (hpics e), fun e he => absurd he (hothers e), fun _ => le_rfl,
    fun e he => absurd he (hpics e), fun _ _ h => ?_, fun _ _ h => ?_⟩
  · cases h
  · cases h

lemma mem_readers (he : e ∈ s.readers) : e ∈ s.pictures ∨ e ∈ s.others := by
  rw [← State.mem_entries_iff, State.mem_entries]
  simp only [State.readers, List.mem_append] at he
  rcases he with ((he | he) | he) | he
  · cases hp : s.preview <;> simp_all [PreviewPc.entries]
  · cases hp : s.picture <;> simp_all [PicturePc.entries]
  · cases hp : s.smart <;> simp_all [SmartPc.entries]
  · cases hp : s.continuous <;> simp_all [ContinuousPc.entries]

lemma CleanInv.releasers (hs : CleanInv s) {x : Entry × Fin nbBuffer} (hx : x ∈ s.releasers) :
    x.1.ptr ≠ .pic ∧ x.1.session = s.session := by
  simp only [State.releasers, List.mem_append] at hx
  rcases hx with (((hx | hx) | hx) | hx) | hx
  · cases hp : s.preview <;> rw [hp] at hx <;> simp only [List.mem_singleton, List.not_mem_nil] at hx
    exact hs.others x.1 (State.mem_others.mpr (by simp [hp, hx, PreviewPc.entries]))
  · cases hp : s.picture <;> rw [hp] at hx <;> simp only [List.mem_singleton, List.not_mem_nil] at hx
    rename_i e i
    have hne := hs.picture e i hp
    refine ⟨by simpa [hx] using hne, ?_⟩
    rw [hx]
    exact hs.pictures e (State.mem_pictures.mpr (by simp [hp, PicturePc.entries])) hne
  · cases hp : s.smart <;> rw [hp] at hx <;> simp only [List.mem_singleton, List.not_mem_nil] at hx
    rename_i e i
    have hne := hs.smart e i hp
    refine ⟨by simpa [hx] using hne, ?_⟩
    rw [hx]
    exact hs.pictures e (State.mem_pictures.mpr (by simp [hp, SmartPc.entries])) hne
  · cases hp : s.continuous <;> rw [hp] at hx <;>
      simp only [List.mem_singleton, List.not_mem_nil] at hx
    exact hs.others x.1 (State.mem_others.mpr (by simp [hp, hx, ContinuousPc.entries]))
  · obtain ⟨e, he, hp⟩ := List.mem_filterMap.mp hx
    cases hptr : e.ptr with
    | pic => simp [hptr] at hp
    | buf i =>
      simp only [hptr, Option.some.injEq] at hp
      rw [← hp]
      exact hs.others e (State.mem_others.mpr (Or.inr (Or.inr (Or.inr he))))

lemma CleanInv.noStale (hs : CleanInv s) : NoStale s := by
  refine ⟨fun e he hp => ?_, fun x hx _ => ?_, fun x hx => (hs.releasers hx).1⟩
  · have hses : e.session = s.session := by
      rcases mem_readers he with hmem | hmem
      · exact hs.pictures e hmem hp
      · exact (hs.others e hmem).2
    cases hptr : e.ptr with
    | pic => exact absurd hptr hp
    | buf i =>
      rw [hses]
      exact Nat.not_lt.mpr (hs.filled i)
  · rw [(hs.releasers hx).2]
    exact Nat.not_lt.mpr (hs.filled x.2)

/-- **No stale reference in clean runs**, whatever the interleaving of the threads, of the
encoder, and of starting and stopping the device. -/
theorem noStale_of_run (phy : ℕ) (v4l2buf : Fin nbBuffer → V4L2Buf) (s : State)
    (hrun : Run CleanOk (constructed phy v4l2buf) s) : NoStale s :=
  ((cleanInv_constructed phy v4l2buf).run hrun).noStale

/-- Two sessions; `previewThread` takes the frame of the first one before the second starts. -/
theorem noStale_of_run_two : ∃ s : State,
    Run CleanOk (constructed 1 fun _ => .cleared) s ∧ s.session = 2 ∧ s.readers ≠ [] ∧
      NoStale s := by
  let i : Fin nbBuffer := ⟨0, by decide⟩
  let f : Frame := ⟨1, false, false, false⟩
  obtain ⟨s, hrun, hsession, hreaders⟩ := Framework.exists_runs State.step CleanOk
    (fun s => s.session = 2 ∧ s.readers ≠ []) (s := constructed 1 fun _ => .cleared)
    [.startDevice nbBuffer, .startDeliveringFrames, .captureFrame i f, .captureRelease true,
      .previewDequeue, .previewCheck, .previewCallback false, .previewRelease true,
      .stopDeliveringFrames, .stopDevice, .startDevice nbBuffer, .startDeliveringFrames,
      .captureFrame i f, .previewDequeue, .previewCheck] (by decide +kernel)
  exact ⟨s, hrun, hsession, hreaders, noStale_of_run 1 _ s hrun⟩

/-- The frame of the first session is still queued when the second one fills its buffer again:
`previewThread` finds the buffer valid, and shows the new frame as the old one. -/
theorem stale_preview : ∃ s : State, Run (fun _ _ => True) (constructed 1 fun _ => .cleared) s ∧
    (∃ e ∈ s.readers, e.ptr ≠ .pic ∧ e.session < (s.deref e.ptr).session) ∧ ¬ NoStale s := by
  let i : Fin nbBuffer := ⟨0, by decide⟩
  let f : Frame := ⟨1, false, false, false⟩
  obtain ⟨s, hrun, e, he, hp, hlt⟩ := Framework.exists_runs State.step (fun _ _ => True)
    (fun s => ∃ e ∈ s.readers, e.ptr ≠ .pic ∧ e.session < (s.deref e.ptr).session)
    (s := constructed 1 fun _ => .cleared)
    [.startDevice nbBuffer, .startDeliveringFrames, .captureFrame i f, .captureRelease true,
      .stopDeliveringFrames, .stopDevice, .startDevice nbBuffer, .startDeliveringFrames,
      .captureFrame i f, .previewDequeue, .previewCheck] (by decide +kernel)
  exact ⟨s, hrun, ⟨e, he, hp, hlt⟩, fun hs => hs.read e he hp hlt⟩

end Softwinner.Camera
