import Softwinner.Camera.Stale

/-!
# Delivery of pictures

`pictureThread`, `smartPictureThread` and `continuousPictureThread` each wait for a condition of
their own, but they all take from `mQueueBufferPicture`, and an entry does not say what it was
queued for.  The first one takes what it gets, the second one only if the detection says so, and
the third one counts, and drops what is over.

`pictures_delivered` says that single pictures are delivered once, and pictures of a burst not as
single ones, when no thread dequeues a picture that its way of delivery does not suit.
-/

namespace Softwinner.Camera

variable {s s' t : State} {i : Fin nbBuffer} {e : Entry} {a : Act}

/-! ## The invariant -/

/-- The single picture that `pictureThread` has not delivered yet. -/
def PicturePc.undelivered : PicturePc → List Entry
  | .got e => [e]
  | _ => []

/-- The pictures that are still to be delivered. -/
def State.pending (s : State) : List Entry := s.queueBufferPicture ++ s.picture.undelivered

/-- Which pictures a dequeuing action may take. -/
def Act.Suits : Act → Kind → Bool
  | .pictureDequeue, .burst => false
  | .smartDequeue, k => k = .smart
  | .continuousDequeue, .single => false
  | _, _ => true

/-- The next picture suits the thread that dequeues it. -/
def MatchedOk (a : Act) (s : State) : Prop :=
  ∀ e ∈ s.queueBufferPicture.head?, a.Suits e.kind = true

instance (a : Act) (s : State) : Decidable (MatchedOk a s) :=
  inferInstanceAs (Decidable (∀ e ∈ s.queueBufferPicture.head?, a.Suits e.kind = true))

/-- What matched runs keep. -/
structure DeliveryInv (s : State) : Prop where
  fresh : ∀ e ∈ s.queued, e.frame ≤ s.frames
  nodup : s.queued.Nodup
  count : ∀ e : Entry, e.kind = .single →
    s.pending.count e + s.taken.count (e, false) = s.queued.count e
  picture : ∀ e ∈ s.picture.undelivered, e.kind ≠ .burst
  smart : ∀ e ∈ s.smart.entries, e.kind = .smart
  continuous : ∀ e ∈ s.continuous.entries, e.kind ≠ .single
  single : ∀ e, (e, false) ∈ s.taken → e.kind ≠ .burst
  burst : ∀ e, (e, true) ∈ s.taken → e.kind ≠ .single

/-- The step queues and delivers nothing. -/
structure Quiet (s s' : State) : Prop where
  frames : s'.frames = s.frames
  queued : s'.queued = s.queued
  taken : s'.taken = s.taken
  queue : s'.queueBufferPicture = s.queueBufferPicture
  picture : s'.picture.undelivered = s.picture.undelivered
  smart : ∀ e ∈ s'.smart.entries, e ∈ s.smart.entries
  continuous : ∀ e ∈ s'.continuous.entries, e ∈ s.continuous.entries

lemma DeliveryInv.quiet (hs : DeliveryInv s) (hq : Quiet s s') : DeliveryInv s' := by
  have hpending : s'.pending = s.pending := by
    rw [State.pending, State.pending, hq.queue, hq.picture]
  refine ⟨?_, ?_, ?_, ?_, fun e he => hs.smart e (hq.smart e he),
    fun e he => hs.continuous e (hq.continuous e he), ?_, ?_⟩
  · rw [hq.queued, hq.frames]
    exact hs.fresh
  · rw [hq.queued]
    exact hs.nodup
  · rw [hpending, hq.taken, hq.queued]
    exact hs.count
  · rw [hq.picture]
    exact hs.picture
  · rw [hq.taken]
    exact hs.single
  · rw [hq.taken]
    exact hs.burst

/-- What `releasePreviewFrame` leaves alone. -/
lemma quiet_release (s : State) (i : Fin nbBuffer) (ok : Bool) :
    Quiet s (s.releasePreviewFrame i ok) := by
  obtain ⟨v, d, c, q, heq⟩ := exists_release_eq s i ok
  rw [heq]
  exact ⟨rfl, rfl, rfl, rfl, rfl, fun _ he => he, fun _ he => he⟩

lemma Quiet.trans {u : State} (h : Quiet s t) (h' : Quiet t u) : Quiet s u :=
  ⟨h'.frames.trans h.frames, h'.queued.trans h.queued, h'.taken.trans h.taken,
    h'.queue.trans h.queue, h'.picture.trans h.picture,
    fun e he => h.smart e (h'.smart e he), fun e he => h.continuous e (h'.continuous e he)⟩

/-! ## Capture -/

/-- The frame in hand has a number of its own. -/
def State.NewFrame (s : State) : Prop := ∀ e ∈ s.queued, e.frame < s.frames

/-- A picture is queued. -/
lemma DeliveryInv.queue (hs : DeliveryInv s) (hnew : s.NewFrame) (hframe : e.frame = s.frames)
    (hframes : s'.frames = s.frames) (hqueued : s'.queued = e :: s.queued)
    (hq : s'.queueBufferPicture = s.queueBufferPicture ++ [e]) (htaken : s'.taken = s.taken)
    (hpicture : s'.picture = s.picture) (hsmart : s'.smart = s.smart)
    (hcontinuous : s'.continuous = s.continuous) : DeliveryInv s' := by
  refine ⟨?_, ?_, fun x hx => ?_, ?_, ?_, ?_, ?_, ?_⟩
  · intro x hx
    rw [hqueued, List.mem_cons] at hx
    rw [hframes]
    rcases hx with rfl | hx
    · exact hframe.le
    · exact hs.fresh x hx
  · rw [hqueued, List.nodup_cons]
    refine ⟨fun he => ?_, hs.nodup⟩
    have hlt := hnew e he
    omega
  · have hcount := hs.count x hx
    simp only [State.pending, hq, hpicture, htaken, hqueued, List.count_append, List.count_cons,
      List.count_nil] at hcount ⊢
    omega
  · rw [hpicture]
    exact hs.picture
  · rw [hsmart]
    exact hs.smart
  · rw [hcontinuous]
    exact hs.continuous
  · rw [htaken]
    exact hs.single
  · rw [htaken]
    exact hs.burst

lemma DeliveryInv.queuePicture {k : Kind} (hs : DeliveryInv s) (hnew : s.NewFrame)
    (hq : s.queuePicture i k = some s') : DeliveryInv s' := by
  obtain ⟨q, hpush, rfl⟩ := Option.map_eq_some_iff.mp hq
  obtain ⟨-, rfl⟩ := push_eq_some.mp hpush
  exact hs.queue (e := s.entry (.buf i) k) hnew rfl rfl rfl rfl rfl rfl rfl rfl

lemma DeliveryInv.queueCopy (hs : DeliveryInv s) (hnew : s.NewFrame) (i : Fin nbBuffer) :
    DeliveryInv (s.queueCopy i) := by
  unfold State.queueCopy
  simp only
  split
  · exact hs.quiet ⟨rfl, rfl, rfl, rfl, rfl, fun _ he => he, fun _ he => he⟩
  · rename_i q hpush
    obtain ⟨-, rfl⟩ := push_eq_some.mp hpush
    exact hs.queue (e := s.entry .pic .single) hnew rfl rfl rfl rfl rfl rfl rfl rfl

lemma DeliveryInv.queueFrame (hs : DeliveryInv s) (hnew : s.NewFrame) (i : Fin nbBuffer)
    (f : Frame) : DeliveryInv (s.queueFrame i f) := by
  unfold State.queueFrame
  cases hprev : s.queuePreview i with
  | none => exact hs
  | some s₁ =>
    obtain ⟨q, -, rfl⟩ := Option.map_eq_some_iff.mp hprev
    generalize hs₁ : ({ s.addRef i with queueBufferPreview := q } : State) = s₁
    have hinv : DeliveryInv s₁ := by
      rw [← hs₁]
      exact hs.quiet ⟨rfl, rfl, rfl, rfl, rfl, fun _ he => he, fun _ he => he⟩
    have hnew₁ : s₁.NewFrame := by
      rw [← hs₁]
      exact hnew
    have hpicture : ∀ k, DeliveryInv ((s₁.queuePicture i k).getD s₁) := by
      intro k
      cases hq : s₁.queuePicture i k with
      | none => exact hinv
      | some s₂ => exact hinv.queuePicture hnew₁ hq
    cases hmode : s₁.takePictureState with
    | null | normal =>
      simp only [hmode]
      exact hinv
    | fast | record =>
      simp only [hmode]
      split_ifs
      · exact hinv
      cases hq : s₁.queuePicture i .single with
      | none => exact hinv
      | some s₂ =>
        have hinv₂ := hinv.queuePicture hnew₁ hq
        exact hinv₂.quiet ⟨rfl, rfl, rfl, rfl, rfl, fun _ he => he, fun _ he => he⟩
    | smart =>
      simp only [hmode]
      exact hpicture .smart
    | continuous | continuousFast =>
      simp only [hmode]
      split_ifs
      · exact hpicture .burst
      · exact hinv

lemma DeliveryInv.captureFrame (hs : DeliveryInv s) (i : Fin nbBuffer) (f : Frame) :
    DeliveryInv (s.captureFrame i f) := by
  have hfill : ∀ p, DeliveryInv { s.fill i f.addrPhyY with capture := p } := by
    intro p
    exact ⟨fun e he => (hs.fresh e he).trans (Nat.le_succ _), hs.nodup, hs.count, hs.picture,
      hs.smart, hs.continuous, hs.single, hs.burst⟩
  have hnew : State.NewFrame { s.fill i f.addrPhyY with capture := .release i } :=
    fun e he => Nat.lt_succ_of_le (hs.fresh e he)
  unfold State.captureFrame
  simp only
  split_ifs
  · exact hfill .exited
  · exact (hfill (.release i)).queueCopy hnew i
  · exact (hfill (.release i)).queueFrame hnew i f

/-! ## Steps -/

section Steps

variable (hs : DeliveryInv s)

include hs

/-- A delivery other than that of a single picture. -/
lemma DeliveryInv.take {b : Bool} (hsingle : e.kind ≠ .single)
    (hburst : b = false → e.kind ≠ .burst) : DeliveryInv (s.take e b) := by
  refine ⟨hs.fresh, hs.nodup, fun x hx => ?_, hs.picture, hs.smart, hs.continuous, fun x hx => ?_,
    fun x hx => ?_⟩
  · have hne : ((e, b) == (x, false)) = false := by
      simp only [beq_eq_false_iff_ne, ne_eq, Prod.mk.injEq, not_and]
      rintro rfl
      exact absurd hx hsingle
    have hcount := hs.count x hx
    simpa only [State.take, List.count_cons, hne, Bool.false_eq_true, if_false, Nat.add_zero,
      State.pending] using hcount
  · simp only [State.take, List.mem_cons, Prod.mk.injEq] at hx
    rcases hx with ⟨rfl, hb⟩ | hx
    · exact hburst hb.symm
    · exact hs.single x hx
  · simp only [State.take, List.mem_cons, Prod.mk.injEq] at hx
    rcases hx with ⟨rfl, -⟩ | hx
    · exact hsingle
    · exact hs.burst x hx

lemma DeliveryInv.pictureDequeue (hok : MatchedOk .pictureDequeue s)
    (hstep : s.step .pictureDequeue = some s') : DeliveryInv s' := by
  obtain ⟨e, q, hp, hq, rfl⟩ := State.of_pictureDequeue hstep
  refine ⟨hs.fresh, hs.nodup, fun x hx => ?_, fun x hx => ?_, hs.smart, hs.continuous, hs.single,
    hs.burst⟩
  · have hcount := hs.count x hx
    simp only [State.pending, hp, hq, PicturePc.undelivered, List.count_append, List.count_cons,
      List.count_nil] at hcount ⊢
    omega
  · obtain rfl := List.mem_singleton.mp hx
    intro hburst
    have hsuits := hok x (by simp [hq])
    simp [Act.Suits, hburst] at hsuits

lemma DeliveryInv.pictureTake (hstep : s.step .pictureTake = some s') : DeliveryInv s' := by
  obtain ⟨e, hp, rfl⟩ := State.of_pictureTake hstep
  have hkind : e.kind ≠ .burst := hs.picture e (by simp [hp, PicturePc.undelivered])
  refine ⟨hs.fresh, hs.nodup, fun x hx => ?_, by simp [PicturePc.undelivered], hs.smart,
    hs.continuous, fun x hx => ?_, fun x hx => ?_⟩
  · have hcount := hs.count x hx
    simp only [State.pending, State.take, hp, PicturePc.undelivered, List.count_append,
      List.count_cons, List.count_nil, beq_iff_eq, Prod.mk.injEq, and_true] at hcount ⊢
    omega
  · simp only [State.take, List.mem_cons, Prod.mk.injEq] at hx
    rcases hx with ⟨rfl, -⟩ | hx
    · exact hkind
    · exact hs.single x hx
  · simp only [State.take, List.mem_cons, Prod.mk.injEq, Bool.true_eq_false, and_false,
      false_or] at hx
    exact hs.burst x hx

lemma DeliveryInv.smartDequeue (hok : MatchedOk .smartDequeue s)
    (hstep : s.step .smartDequeue = some s') : DeliveryInv s' := by
  obtain ⟨e, q, hp, hq, rfl⟩ := State.of_smartDequeue hstep
  have hkind : e.kind = .smart := by simpa [Act.Suits] using hok e (by simp [hq])
  refine ⟨hs.fresh, hs.nodup, fun x hx => ?_, hs.picture, fun x hx => ?_, hs.continuous, hs.single,
    hs.burst⟩
  · have hne : ¬ e = x := by
      rintro rfl
      simp [hkind] at hx
    have hcount := hs.count x hx
    simpa [State.pending, hq, List.count_append, List.count_cons, hne] using hcount
  · obtain rfl := List.mem_singleton.mp hx
    exact hkind

/-- A smart picture is taken, or not. -/
lemma DeliveryInv.takeSmart {p : SmartPc} (hit : Bool) (he : e ∈ s.smart.entries)
    (hp : ∀ x ∈ p.entries, x ∈ s.smart.entries) :
    DeliveryInv { s.takeSmart e hit with smart := p } := by
  have hkind := hs.smart e he
  unfold State.takeSmart
  split_ifs
  · have htake := hs.take (e := e) (b := false) (by simp [hkind]) (by simp [hkind])
    exact htake.quiet ⟨rfl, rfl, rfl, rfl, rfl, hp, fun _ he => he⟩
  · exact hs.quiet ⟨rfl, rfl, rfl, rfl, rfl, hp, fun _ he => he⟩

lemma DeliveryInv.continuousDequeue (hok : MatchedOk .continuousDequeue s)
    (hstep : s.step .continuousDequeue = some s') : DeliveryInv s' := by
  obtain ⟨e, q, hp, hq, rfl⟩ := State.of_continuousDequeue hstep
  have hkind : e.kind ≠ .single := by
    intro hsingle
    have hsuits := hok e (by simp [hq])
    simp [Act.Suits, hsingle] at hsuits
  refine ⟨hs.fresh, hs.nodup, fun x hx => ?_, hs.picture, hs.smart, fun x hx => ?_, hs.single,
    hs.burst⟩
  · have hne : ¬ e = x := by
      rintro rfl
      exact hkind hx
    have hcount := hs.count x hx
    simpa [State.pending, hq, List.count_append, List.count_cons, hne] using hcount
  · obtain rfl := List.mem_singleton.mp hx
    exact hkind

lemma DeliveryInv.continuousTake {ret : Bool} (hstep : s.step (.continuousTake ret) = some s') :
    DeliveryInv s' := by
  obtain ⟨e, hp, rfl⟩ := State.of_continuousTake hstep
  have hentries : ∀ x ∈ (ContinuousPc.done e).entries, x ∈ s.continuous.entries := by
    simp [hp, ContinuousPc.entries]
  unfold State.takeContinuous
  split_ifs
  · exact hs.quiet ⟨rfl, rfl, rfl, rfl, rfl, fun _ he => he, hentries⟩
  · exact hs.quiet ⟨rfl, rfl, rfl, rfl, rfl, fun _ he => he, hentries⟩
  all_goals
    have hkind := hs.continuous e (by simp [hp, ContinuousPc.entries])
    have htake := hs.take (e := e) (b := true) hkind (by simp)
    exact htake.quiet ⟨rfl, rfl, rfl, rfl, rfl, fun _ he => he, hentries⟩

lemma DeliveryInv.previewStep (ha : a = .previewDequeue ∨ a = .previewCheck ∨
    (∃ r, a = .previewCallback r) ∨ ∃ ok, a = .previewRelease ok) (hstep : s.step a = some s') :
    DeliveryInv s' := by
  rcases ha with rfl | rfl | ⟨recorded, rfl⟩ | ⟨ok, rfl⟩
  · obtain ⟨_, _, _, _, rfl⟩ := State.of_previewDequeue hstep
    exact hs.quiet ⟨rfl, rfl, rfl, rfl, rfl, fun _ he => he, fun _ he => he⟩
  · obtain ⟨_, -, -, rfl⟩ := State.of_previewCheck hstep
    exact hs.quiet ⟨rfl, rfl, rfl, rfl, rfl, fun _ he => he, fun _ he => he⟩
  · obtain ⟨_, -, ⟨-, rfl⟩ | ⟨-, _, -, rfl⟩⟩ := State.of_previewCallback hstep
    · exact hs.quiet ⟨rfl, rfl, rfl, rfl, rfl, fun _ he => he, fun _ he => he⟩
    · exact hs.quiet ⟨rfl, rfl, rfl, rfl, rfl, fun _ he => he, fun _ he => he⟩
  · obtain ⟨_, _, rfl⟩ := State.of_previewRelease hstep
    exact hs.quiet ((quiet_release s _ ok).trans
      ⟨rfl, rfl, rfl, rfl, rfl, fun _ he => he, fun _ he => he⟩)

lemma DeliveryInv.pictureEnd (ha : a = .pictureCopyTest ∨ ∃ ok, a = .pictureRelease ok)
    (hstep : s.step a = some s') : DeliveryInv s' := by
  rcases ha with rfl | ⟨ok, rfl⟩
  · obtain ⟨e, hp, rfl⟩ := State.of_pictureCopyTest hstep
    refine hs.quiet ⟨rfl, rfl, rfl, rfl, ?_, fun _ he => he, fun _ he => he⟩
    cases hflag : s.isPicCopy with
    | true => simp [hp, PicturePc.undelivered]
    | false => simp [hp, PicturePc.undelivered]
  · obtain ⟨e, i, hp, rfl⟩ := State.of_pictureRelease hstep
    refine hs.quiet ((quiet_release s i ok).trans
      ⟨rfl, rfl, rfl, rfl, ?_, fun _ he => he, fun _ he => he⟩)
    have hsame := (quiet_release s i ok).picture
    rw [hsame, hp]
    rfl

lemma DeliveryInv.smartStep (ha : a = .smartDoneTest ∨ (∃ hit, a = .smartBlink hit) ∨
    (∃ hit, a = .smartSmile hit) ∨ a = .smartCopyTest ∨ ∃ ok, a = .smartRelease ok)
    (hstep : s.step a = some s') : DeliveryInv s' := by
  rcases ha with rfl | ⟨hit, rfl⟩ | ⟨hit, rfl⟩ | rfl | ⟨ok, rfl⟩
  · obtain ⟨e, hp, rfl | rfl⟩ := State.of_smartDoneTest hstep
    all_goals
      refine hs.quiet ⟨rfl, rfl, rfl, rfl, rfl, ?_, fun _ he => he⟩
      simp [hp, SmartPc.entries]
  · obtain ⟨e, hp, rfl⟩ := State.of_smartBlink hstep
    exact hs.takeSmart hit (by simp [hp, SmartPc.entries]) (by simp [hp, SmartPc.entries])
  · obtain ⟨e, hp, rfl⟩ := State.of_smartSmile hstep
    exact hs.takeSmart hit (by simp [hp, SmartPc.entries]) (by simp [hp, SmartPc.entries])
  · obtain ⟨e, hp, rfl⟩ := State.of_smartCopyTest hstep
    refine hs.quiet ⟨rfl, rfl, rfl, rfl, rfl, ?_, fun _ he => he⟩
    cases hflag : s.isPicCopy with
    | true => simp [SmartPc.entries]
    | false => simp [hp, SmartPc.entries]
  · obtain ⟨_, _, _, rfl⟩ := State.of_smartRelease hstep
    exact hs.quiet ((quiet_release s _ ok).trans
      ⟨rfl, rfl, rfl, rfl, rfl, by simp [SmartPc.entries], fun _ he => he⟩)

lemma DeliveryInv.continuousStep (ha : a = .continuousCheck ∨ ∃ ok, a = .continuousRelease ok)
    (hstep : s.step a = some s') : DeliveryInv s' := by
  rcases ha with rfl | ⟨ok, rfl⟩
  · obtain ⟨e, hp, -, rfl⟩ := State.of_continuousCheck hstep
    refine hs.quiet ⟨rfl, rfl, rfl, rfl, rfl, fun _ he => he, ?_⟩
    dsimp only
    split_ifs
    · simp [ContinuousPc.entries]
    · simp [hp, ContinuousPc.entries]
  · obtain ⟨_, _, rfl⟩ := State.of_continuousRelease hstep
    exact hs.quiet ((quiet_release s _ ok).trans
      ⟨rfl, rfl, rfl, rfl, rfl, fun _ he => he, by simp [ContinuousPc.entries]⟩)

/-- The step lemma of matched runs. -/
lemma DeliveryInv.step (hok : MatchedOk a s) (hstep : s.step a = some s') : DeliveryInv s' := by
  cases a with
  | setTakePictureState _ | startDeliveringFrames | stopDeliveringFrames | startSmartPicture
  | stopSmartPicture | startContinuousPicture | stopContinuousPicture
  | setContinuousPictureCnt _ =>
    obtain rfl := Option.some.inj hstep
    exact hs.quiet ⟨rfl, rfl, rfl, rfl, rfl, fun _ he => he, fun _ he => he⟩
  | startDevice _ | stopDevice =>
    simp only [State.step] at hstep
    split_ifs at hstep
    obtain rfl := Option.some.inj hstep
    exact hs.quiet ⟨rfl, rfl, rfl, rfl, rfl, fun _ he => he, fun _ he => he⟩
  | captureFrame i f =>
    simp only [State.step] at hstep
    split_ifs at hstep
    obtain rfl := Option.some.inj hstep
    exact hs.captureFrame i f
  | captureRelease ok =>
    obtain ⟨_, _, rfl⟩ := State.of_captureRelease hstep
    exact hs.quiet ((quiet_release s _ ok).trans
      ⟨rfl, rfl, rfl, rfl, rfl, fun _ he => he, fun _ he => he⟩)
  | previewDequeue => exact hs.previewStep (Or.inl rfl) hstep
  | previewCheck => exact hs.previewStep (Or.inr (Or.inl rfl)) hstep
  | previewCallback _ => exact hs.previewStep (Or.inr (Or.inr (Or.inl ⟨_, rfl⟩))) hstep
  | previewRelease _ => exact hs.previewStep (Or.inr (Or.inr (Or.inr ⟨_, rfl⟩))) hstep
  | pictureDequeue => exact hs.pictureDequeue hok hstep
  | pictureTake => exact hs.pictureTake hstep
  | pictureCopyTest => exact hs.pictureEnd (Or.inl rfl) hstep
  | pictureRelease _ => exact hs.pictureEnd (Or.inr ⟨_, rfl⟩) hstep
  | smartDequeue => exact hs.smartDequeue hok hstep
  | smartDoneTest => exact hs.smartStep (Or.inl rfl) hstep
  | smartBlink _ => exact hs.smartStep (Or.inr (Or.inl ⟨_, rfl⟩)) hstep
  | smartSmile _ => exact hs.smartStep (Or.inr (Or.inr (Or.inl ⟨_, rfl⟩))) hstep
  | smartCopyTest => exact hs.smartStep (Or.inr (Or.inr (Or.inr (Or.inl rfl)))) hstep
  | smartRelease _ => exact hs.smartStep (Or.inr (Or.inr (Or.inr (Or.inr ⟨_, rfl⟩)))) hstep
  | continuousDequeue => exact hs.continuousDequeue hok hstep
  | continuousCheck => exact hs.continuousStep (Or.inl rfl) hstep
  | continuousTake _ => exact hs.continuousTake hstep
  | continuousRelease _ => exact hs.continuousStep (Or.inr ⟨_, rfl⟩) hstep
  | encoderRelease e ok =>
    obtain ⟨_, -, -, rfl⟩ := State.of_encoderRelease hstep
    exact hs.quiet ((quiet_release s _ ok).trans
      ⟨rfl, rfl, rfl, rfl, rfl, fun _ he => he, fun _ he => he⟩)

end Steps

/-- The run lemma of matched runs. -/
lemma DeliveryInv.run (hs : DeliveryInv s) (hrun : Run MatchedOk s s') : DeliveryInv s' :=
  Framework.Runs.invariant (fun hs hok hstep => hs.step hok hstep) hs hrun

lemma deliveryInv_constructed (phy : ℕ) (v4l2buf : Fin nbBuffer → V4L2Buf) :
    DeliveryInv (constructed phy v4l2buf) := by
  have hnone : ∀ (e : Entry) (P : Prop), e ∈ ([] : List Entry) → P := by simp
  exact ⟨fun _ he => hnone _ _ he, List.nodup_nil, fun _ _ => rfl, fun _ he => hnone _ _ he,
    fun _ he => hnone _ _ he, fun _ he => hnone _ _ he, fun _ he => absurd he List.not_mem_nil,
    fun _ he => absurd he List.not_mem_nil⟩

/-! ## Progress -/

/-- A run that leaves the picture queue alone. -/
structure Settles (s t : State) : Prop where
  run : Run MatchedOk s t
  queue : t.queueBufferPicture = s.queueBufferPicture
  queued : t.queued = s.queued

lemma Settles.refl (s : State) : Settles s s := ⟨Relation.ReflTransGen.refl, rfl, rfl⟩

lemma Settles.trans {u : State} (h : Settles s t) (h' : Settles t u) : Settles s u :=
  ⟨h.run.trans h'.run, h'.queue.trans h.queue, h'.queued.trans h.queued⟩

/-- One step that takes nothing from the queue. -/
lemma settles_of_step (a : Act) (hstep : s.step a = some t)
    (hsame : t.queueBufferPicture = s.queueBufferPicture ∧ t.queued = s.queued)
    (hsuits : ∀ k, a.Suits k = true) : Settles s t :=
  ⟨Relation.ReflTransGen.single ⟨a, fun e _ => hsuits e.kind, hstep⟩, hsame.1, hsame.2⟩

/-- Such a step, and what can be reached behind it. -/
lemma exists_settles {u : State} {Q : State → Prop} (a : Act) (hstep : s.step a = some u)
    (hsame : u.queueBufferPicture = s.queueBufferPicture ∧ u.queued = s.queued)
    (hsuits : ∀ k, a.Suits k = true) (hrest : ∃ t, Settles u t ∧ Q t) : ∃ t, Settles s t ∧ Q t := by
  obtain ⟨t, ht, hQ⟩ := hrest
  exact ⟨t, (settles_of_step a hstep hsame hsuits).trans ht, hQ⟩

lemma release_same (s : State) (i : Fin nbBuffer) (ok : Bool) :
    (s.releasePreviewFrame i ok).queueBufferPicture = s.queueBufferPicture ∧
      (s.releasePreviewFrame i ok).queued = s.queued :=
  ⟨(quiet_release s i ok).queue, (quiet_release s i ok).queued⟩

/-- `pictureThread` never waits for another thread. -/
lemma exists_picture_idle (s : State) : ∃ t, Settles s t ∧ t.picture = .idle := by
  have hrelease : ∀ (s : State) e i, s.picture = .release e i →
      ∃ t, Settles s t ∧ t.picture = .idle := by
    intro s e i hp
    refine ⟨_, settles_of_step (.pictureRelease true) (by simp only [State.step, hp]; rfl) ?_
      fun _ => rfl, rfl⟩
    exact release_same s i true
  have htaken : ∀ (s : State) e, s.picture = .taken e → ∃ t, Settles s t ∧ t.picture = .idle := by
    intro s e hp
    have hstep : s.step .pictureCopyTest = some { s with
        picture := if s.isPicCopy then .idle else .release e (s.deref e.ptr).index } := by
      simp only [State.step, hp]
    refine exists_settles .pictureCopyTest hstep ⟨rfl, rfl⟩ (fun _ => rfl) ?_
    by_cases hflag : s.isPicCopy = true
    · exact ⟨_, Settles.refl _, if_pos hflag⟩
    · exact hrelease _ e (s.deref e.ptr).index (if_neg hflag)
  cases hp : s.picture with
  | idle => exact ⟨s, Settles.refl s, hp⟩
  | got e =>
    have hstep : s.step .pictureTake = some { s.take e false with picture := .taken e } := by
      simp only [State.step, hp]
    exact exists_settles _ hstep ⟨rfl, rfl⟩ (fun _ => rfl) (htaken _ e rfl)
  | taken e => exact htaken s e hp
  | release e i => exact hrelease s e i hp

lemma exists_smart_idle (s : State) : ∃ t, Settles s t ∧ t.smart = .idle := by
  have hrelease : ∀ (s : State) e i, s.smart = .release e i →
      ∃ t, Settles s t ∧ t.smart = .idle := by
    intro s e i hp
    refine ⟨_, settles_of_step (.smartRelease true) (by simp only [State.step, hp]; rfl) ?_
      fun _ => rfl, rfl⟩
    exact release_same s i true
  have htaken : ∀ (s : State) e, s.smart = .taken e → ∃ t, Settles s t ∧ t.smart = .idle := by
    intro s e hp
    have hstep : s.step .smartCopyTest = some { s with
        smart := if s.isPicCopy then .idle else .release e (s.deref e.ptr).index } := by
      simp only [State.step, hp]
    refine exists_settles .smartCopyTest hstep ⟨rfl, rfl⟩ (fun _ => rfl) ?_
    by_cases hflag : s.isPicCopy = true
    · exact ⟨_, Settles.refl _, if_pos hflag⟩
    · exact hrelease _ e (s.deref e.ptr).index (if_neg hflag)
  have hsmile : ∀ (s : State) e, s.smart = .smile e → ∃ t, Settles s t ∧ t.smart = .idle := by
    intro s e hp
    have hstep : s.step (.smartSmile false) = some { s with smart := .taken e } := by
      simp only [State.step, hp]
      rfl
    exact exists_settles _ hstep ⟨rfl, rfl⟩ (fun _ => rfl) (htaken _ e rfl)
  have hblink : ∀ (s : State) e, s.smart = .blink e → ∃ t, Settles s t ∧ t.smart = .idle := by
    intro s e hp
    have hstep : s.step (.smartBlink false) = some { s with smart := .smile e } := by
      simp only [State.step, hp]
      rfl
    exact exists_settles _ hstep ⟨rfl, rfl⟩ (fun _ => rfl) (hsmile _ e rfl)
  cases hp : s.smart with
  | idle => exact ⟨s, Settles.refl s, hp⟩
  | got e =>
    by_cases hdone : s.smartPictureDone = true
    · have hstep : s.step .smartDoneTest =
          some { s with takePictureState := .null, smart := .taken e } := by
        simp only [State.step, hp, if_pos hdone]
      exact exists_settles _ hstep ⟨rfl, rfl⟩ (fun _ => rfl) (htaken _ e rfl)
    · have hstep : s.step .smartDoneTest = some { s with smart := .blink e } := by
        simp only [State.step, hp, if_neg hdone]
      exact exists_settles _ hstep ⟨rfl, rfl⟩ (fun _ => rfl) (hblink _ e rfl)
  | blink e => exact hblink s e hp
  | smile e => exact hsmile s e hp
  | taken e => exact htaken s e hp
  | release e i => exact hrelease s e i hp

/-- `previewThread` gives `mObjectLock` back. -/
lemma exists_preview_unlocked (s : State) :
    ∃ t, Settles s t ∧ t.preview.locked = false ∧ t.continuous = s.continuous := by
  have hcalled : ∀ (s : State) e, s.preview = .called e →
      ∃ t, Settles s t ∧ t.preview.locked = false ∧ t.continuous = s.continuous := by
    intro s e hp
    have hstep : s.step (.previewRelease true) = some
        { s.releasePreviewFrame (s.deref e.ptr).index true with preview := .idle } := by
      simp only [State.step, hp]
    obtain ⟨v, d, c, q, heq⟩ := exists_release_eq s (s.deref e.ptr).index true
    refine ⟨_, settles_of_step _ hstep (release_same s _ true) fun _ => rfl, rfl, ?_⟩
    simp [heq]
  cases hp : s.preview with
  | idle => exact ⟨s, Settles.refl s, by rw [hp]; rfl, rfl⟩
  | got e => exact ⟨s, Settles.refl s, by rw [hp]; rfl, rfl⟩
  | checked e =>
    have hstep : s.step (.previewCallback false) = some { s with preview := .called e } := by
      simp only [State.step, hp]
      rfl
    exact exists_settles _ hstep ⟨rfl, rfl⟩ (fun _ => rfl) (hcalled _ e rfl)
  | called e => exact hcalled s e hp

lemma exists_continuous_idle (s : State) : ∃ t, Settles s t ∧ t.continuous = .idle := by
  have hdone : ∀ (s : State) e, s.continuous = .done e →
      ∃ t, Settles s t ∧ t.continuous = .idle := by
    intro s e hp
    refine ⟨_, settles_of_step (.continuousRelease true) (by simp only [State.step, hp]; rfl) ?_
      fun _ => rfl, rfl⟩
    exact release_same s _ true
  have hchecked : ∀ (s : State) e, s.continuous = .checked e →
      ∃ t, Settles s t ∧ t.continuous = .idle := by
    intro s e hp
    have hstep : s.step (.continuousTake true) =
        some { s.takeContinuous e true with continuous := .done e } := by
      simp only [State.step, hp]
    have hsame : (s.takeContinuous e true).queueBufferPicture = s.queueBufferPicture ∧
        (s.takeContinuous e true).queued = s.queued := by
      unfold State.takeContinuous
      split_ifs
      all_goals exact ⟨rfl, rfl⟩
    exact exists_settles _ hstep hsame (fun _ => rfl) (hdone _ e rfl)
  cases hp : s.continuous with
  | idle => exact ⟨s, Settles.refl s, hp⟩
  | got e =>
    obtain ⟨u, hu, hfree, hsame⟩ := exists_preview_unlocked s
    rw [hp] at hsame
    have hlock : u.ObjectLockFree := ⟨hfree, by rw [hsame]; rfl⟩
    have hstep : u.step .continuousCheck = some { u with
        continuous := if u.Released e then .idle else .checked e } := by
      simp only [State.step, hsame, if_pos hlock]
    have hrest : ∃ t, Settles u t ∧ t.continuous = .idle := by
      refine exists_settles _ hstep ⟨rfl, rfl⟩ (fun _ => rfl) ?_
      by_cases hrel : u.Released e
      · exact ⟨_, Settles.refl _, if_pos hrel⟩
      · exact hchecked _ e (if_neg hrel)
    obtain ⟨t, ht, hidle⟩ := hrest
    exact ⟨t, hu.trans ht, hidle⟩
  | checked e => exact hchecked s e hp
  | done e => exact hdone s e hp

/-- The thread of its kind takes the next picture. -/
lemma exists_dequeue {q : List Entry} (hq : s.queueBufferPicture = e :: q) :
    ∃ t, Run MatchedOk s t ∧ t.queueBufferPicture = q ∧ t.queued = s.queued := by
  have htail : ∀ {u v : State} (a : Act), Settles s u → u.step a = some v →
      a.Suits e.kind = true → Run MatchedOk s v := by
    intro u v a hu hstep hsuits
    refine hu.run.tail ⟨a, fun x hx => ?_, hstep⟩
    rw [hu.queue, hq] at hx
    obtain rfl := Option.some.inj hx
    exact hsuits
  cases hkind : e.kind with
  | single | preview =>
    obtain ⟨u, hu, hidle⟩ := exists_picture_idle s
    have hstep : u.step .pictureDequeue =
        some { u with queueBufferPicture := q, picture := .got e } := by
      simp only [State.step, hidle, hu.queue, hq]
    exact ⟨_, htail _ hu hstep (by simp [hkind, Act.Suits]), rfl, hu.queued⟩
  | smart =>
    obtain ⟨u, hu, hidle⟩ := exists_smart_idle s
    have hstep : u.step .smartDequeue =
        some { u with queueBufferPicture := q, smart := .got e } := by
      simp only [State.step, hidle, hu.queue, hq]
    exact ⟨_, htail _ hu hstep (by simp [hkind, Act.Suits]), rfl, hu.queued⟩
  | burst =>
    obtain ⟨u, hu, hidle⟩ := exists_continuous_idle s
    have hstep : u.step .continuousDequeue =
        some { u with queueBufferPicture := q, continuous := .got e } := by
      simp only [State.step, hidle, hu.queue, hq]
    exact ⟨_, htail _ hu hstep (by simp [hkind, Act.Suits]), rfl, hu.queued⟩

/-- From every state the pending pictures can be delivered. -/
lemma exists_drained (q : List Entry) : ∀ s : State, s.queueBufferPicture = q →
    ∃ t, Run MatchedOk s t ∧ t.pending = [] ∧ t.queued = s.queued := by
  induction q with
  | nil =>
    intro s hq
    obtain ⟨t, ht, hidle⟩ := exists_picture_idle s
    exact ⟨t, ht.run, by rw [State.pending, ht.queue, hq, hidle]; rfl, ht.queued⟩
  | cons e q ih =>
    intro s hq
    obtain ⟨u, hu, hqu, hsame⟩ := exists_dequeue hq
    obtain ⟨t, ht, hdone, hqueued⟩ := ih u hqu
    exact ⟨t, hu.trans ht, hdone, hqueued.trans hsame⟩

/-! ## The result -/

/-- **Delivery of pictures.**  In every state of a matched run a single picture that was queued
is pending, or has been taken once, and never as one of a burst; a picture of a burst has never
been taken as a single one; and the run can go on until every single picture has been taken. -/
theorem pictures_delivered (phy : ℕ) (v4l2buf : Fin nbBuffer → V4L2Buf) (s : State)
    (hrun : Run MatchedOk (constructed phy v4l2buf) s) :
    (∀ e ∈ s.queued, e.kind = .single →
      s.pending.count e + s.taken.count (e, false) = 1 ∧ (e, true) ∉ s.taken) ∧
    (∀ e ∈ s.queued, e.kind = .burst → (e, false) ∉ s.taken) ∧
    ∃ t, Run MatchedOk s t ∧
      ∀ e ∈ s.queued, e.kind = .single → t.taken.count (e, false) = 1 := by
  have hs := (deliveryInv_constructed phy v4l2buf).run hrun
  refine ⟨fun e he hkind => ⟨?_, fun htaken => hs.burst e htaken hkind⟩,
    fun e _ hkind htaken => hs.single e htaken hkind, ?_⟩
  · rw [hs.count e hkind]
    exact List.count_eq_one_of_mem hs.nodup he
  · obtain ⟨t, ht, hdone, hqueued⟩ := exists_drained _ s rfl
    refine ⟨t, ht, fun e he hkind => ?_⟩
    have hcount := (hs.run ht).count e hkind
    rw [hdone, hqueued, List.count_eq_one_of_mem hs.nodup he] at hcount
    simpa using hcount

/-- One picture in the fast mode. -/
theorem pictures_delivered_fast : ∃ s : State, ∃ e ∈ s.queued,
    Run MatchedOk (constructed 1 fun _ => .cleared) s ∧ e.kind = .single ∧ (e, false) ∈ s.taken ∧
      s.pending.count e + s.taken.count (e, false) = 1 := by
  let i : Fin nbBuffer := ⟨0, by decide⟩
  let f : Frame := ⟨1, false, false, false⟩
  obtain ⟨s, hrun, e, he, hkind, htaken⟩ := Framework.exists_runs State.step MatchedOk
    (fun s => ∃ e ∈ s.queued, e.kind = .single ∧ (e, false) ∈ s.taken)
    (s := constructed 1 fun _ => .cleared)
    [.startDevice nbBuffer, .startDeliveringFrames, .setTakePictureState .fast, .captureFrame i f,
      .captureRelease true, .pictureDequeue, .pictureTake] (by decide +kernel)
  exact ⟨s, e, he, hrun, hkind, htaken, ((pictures_delivered 1 _ s hrun).1 e he hkind).1⟩

/-- A picture in the fast mode right behind a burst of one: `continuousPictureThread` has not gone
to sleep yet, takes it for the second of the burst, and drops it. -/
theorem single_picture_dropped : ∃ s : State,
    Run (fun _ _ => True) (constructed 1 fun _ => .cleared) s ∧
      ∃ e ∈ s.queued, e.kind = .single ∧ e ∉ s.pictures ∧ e ∉ s.others ∧
        s.pending.count e = 0 ∧ s.taken.count (e, false) = 0 := by
  let i : Fin nbBuffer := ⟨0, by decide⟩
  let j : Fin nbBuffer := ⟨1, by decide⟩
  let f : Frame := ⟨1, false, false, true⟩
  exact Framework.exists_runs State.step (fun _ _ => True) (fun s => ∃ e ∈ s.queued, e.kind = .single ∧
      e ∉ s.pictures ∧ e ∉ s.others ∧ s.pending.count e = 0 ∧ s.taken.count (e, false) = 0)
    (s := constructed 1 fun _ => .cleared)
    [.startDevice nbBuffer, .startDeliveringFrames, .setContinuousPictureCnt 1,
      .startContinuousPicture, .setTakePictureState .continuous, .captureFrame i f,
      .captureRelease true, .continuousDequeue, .continuousCheck, .continuousTake true,
      .setTakePictureState .fast, .captureFrame j f, .captureRelease true,
      .continuousRelease true, .continuousDequeue, .continuousCheck, .continuousTake true,
      .continuousRelease true] (by decide +kernel)

end Softwinner.Camera
