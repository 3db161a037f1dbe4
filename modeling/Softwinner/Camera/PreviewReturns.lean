import Softwinner.Camera.PreviewRuns

/-!
# Calls that do not return

`stopDevice` waits for the capture thread to pass its pause.  A frame that does not fit into the
memory of the picture ends that thread, and a device that is started then cannot be stopped again:
the calls that have to stop it wait for ever, with `mObjectLock` held.  These are all the calls
that do not return (`calls_return_iff`).
-/

namespace Softwinner.Camera.Preview

open Framework Connection

/-- The device is started, and nothing will say that it can be disconnected. -/
structure Blocked (s : State) : Prop where
  started : s.device.deviceState = .started
  ended : s.device.alive = false
  waits : s.device.canBeDisconnected = false

/-- The driver gives no more buffers than there are entries for. -/
def Modest (d : Driver) : Prop :=
  ∀ n ≤ nbBuffer, ∀ cnt, d.reqBufs n = some cnt → cnt ≤ nbBuffer

/-- A call of the camera service or a command, and no step of a thread. -/
def Act.IsCall : Act → Prop
  | .pause | .frame _ | .pictureDone => False
  | _ => True

section Calls

lemma wanted_le {v : Connection.State} : v.wanted ≤ nbBuffer := by
  unfold Connection.State.wanted
  split_ifs <;> decide

variable {s t : State} {env : Env}

lemma not_blocked_of_state (h : s.device.deviceState ≠ .started) : ¬ Blocked s :=
  fun hblocked => h hblocked.started

lemma not_blocked_iff (hstate : s.device.deviceState = .started) :
    ¬ Blocked s ↔ s.device.canBeDisconnected = true ∨ s.device.alive = true := by
  constructor
  · intro hfree
    by_contra hno
    rw [not_or, Bool.not_eq_true, Bool.not_eq_true] at hno
    exact hfree ⟨hstate, hno.2, hno.1⟩
  · rintro (hcan | halive) hblocked
    · exact Bool.false_ne_true (hblocked.waits.symm.trans hcan)
    · exact Bool.false_ne_true (hblocked.ended.symm.trans halive)

/-! ## Calls that return -/

/-- Where the device can be stopped. -/
lemma stopStarted_isSome (h : Asked s.device) :
    (s.stopStarted env).isSome = true ↔ ¬ Blocked s := by
  unfold State.stopStarted
  split_ifs with hstate
  · rw [State.stopCapture, Option.isSome_map, stopCapture_isSome h]
    exact (not_blocked_iff hstate).symm
  · exact iff_of_true rfl (not_blocked_of_state hstate)

lemma stopStarted_returns (env : Env) (h : Asked s.device) (hfree : ¬ Blocked s) :
    ∃ t, s.stopStarted env = some t ∧ Stops env.driver s t := by
  obtain ⟨t, hstop⟩ := Option.isSome_iff_exists.mp ((stopStarted_isSome h).mpr hfree)
  exact ⟨t, hstop, stopStarted_cases h hstop⟩

lemma doStopPreview_returns (env : Env) (h : Inv s) (hfree : ¬ Blocked s) :
    ∃ t, s.doStopPreview env = some t ∧ Inv t ∧ ¬ Blocked t := by
  unfold State.doStopPreview
  split_ifs with henabled
  · obtain ⟨t, hstop, hstops⟩ := stopStarted_returns env h.asked hfree
    rw [hstop]
    exact ⟨_, rfl, inv_of_disabled hstops.asked rfl, not_blocked_of_state hstops.state⟩
  · exact ⟨s, rfl, h, hfree⟩

lemma startDevice_returns {v : Connection.State} {d : Driver} (hd : Modest d) :
    ∃ w ok, v.startDevice d = some (w, ok) := by
  unfold Connection.State.startDevice
  dsimp only
  split_ifs
  · split
    · exact ⟨_, _, rfl⟩
    next cnt hreq =>
      rw [if_neg (Nat.not_lt.mpr (hd _ wanted_le cnt hreq))]
      exact ⟨_, _, rfl⟩
  · exact ⟨_, _, rfl⟩
  · exact ⟨_, _, rfl⟩

lemma startCapture_returns (h : Asked s.device) (hd : Modest env.driver) :
    (s.startCapture env).isSome = true := by
  obtain ⟨w, ok, hstart⟩ := startDevice_returns (v := s.device) hd
  obtain ⟨htask, -⟩ := startDevice_task hstart
  unfold State.startCapture
  dsimp only
  rw [hstart]
  cases ok with
  | false => rfl
  | true =>
    obtain ⟨b, hdeliver⟩ := startDeliveringFrames_asked (v := w) (d := env.driver) (htask.asked h)
    simp only [State.deliver, hdeliver, Option.isSome_some]

lemma connectAndStart_returns (h : Asked s.device) (hstate : s.device.deviceState ≠ .started)
    (hd : Modest env.driver) : (s.connectAndStart env).isSome = true := by
  obtain ⟨htask, -⟩ := connectDevice_task (d := env.driver) hstate
  unfold State.connectAndStart
  dsimp only
  split
  · rfl
  next w hw =>
    rw [hw] at htask
    exact startCapture_returns (htask.asked h) hd

lemma doStartPreview_returns (h : Asked s.device) (hfree : ¬ Blocked s) (hd : Modest env.driver) :
    (s.doStartPreview env).isSome = true := by
  unfold State.doStartPreview
  split_ifs with hruns
  · rfl
  · obtain ⟨t, hstop, hstops⟩ := stopStarted_returns env h hfree
    rw [hstop]
    exact connectAndStart_returns hstops.asked hstops.state hd

lemma capturePicture_returns {previewOn : Bool} (h : Asked s.device)
    (hstate : s.device.deviceState ≠ .started) (hd : Modest env.driver) :
    (s.capturePicture env previewOn).isSome = true := by
  obtain ⟨w, ok, hstart⟩ :=
    startDevice_returns (v := (s.setTakePictureState .normal).device) hd
  obtain ⟨htask, -, hsame, -⟩ := startDevice_task hstart
  unfold State.capturePicture
  dsimp only
  rw [hstart]
  cases ok with
  | false =>
    simp only [State.restartPreview]
    split_ifs
    · rw [Option.isSome_map]
      exact doStartPreview_returns (htask.asked h)
        (not_blocked_of_state fun hno => hstate ((hsame rfl).symm.trans hno)) hd
    · rfl
  | true =>
    obtain ⟨b, hdeliver⟩ := startDeliveringFrames_asked (v := w) (d := env.driver) (htask.asked h)
    simp only [hdeliver, Option.isSome_some]

lemma doTakePicture_returns (h : Inv s) (hfree : ¬ Blocked s) (hd : Modest env.driver) :
    (s.doTakePicture env).isSome = true := by
  have hnormal : (s.takeNormalPicture env).isSome = true := by
    unfold State.takeNormalPicture
    dsimp only
    split_ifs
    · rfl
    · obtain ⟨t, hdisable, ht, hfree'⟩ := doStopPreview_returns env h hfree
      obtain ⟨u, hstop, hstops⟩ := stopStarted_returns env ht.asked hfree'
      rw [hdisable, Option.bind_some, hstop]
      exact capturePicture_returns hstops.asked hstops.state hd
  unfold State.doTakePicture
  split_ifs
  · rfl
  · split
    · rfl
    · rfl
    · rfl
    · rfl
    · exact hnormal

lemma doTakePictureEnd_returns (h : Inv s) (hfree : ¬ Blocked s) (hd : Modest env.driver) :
    (s.doTakePictureEnd env).isSome = true := by
  unfold State.doTakePictureEnd
  split_ifs
  · rw [Option.isSome_map]
    exact doStartPreview_returns h.asked hfree hd
  · rfl

lemma startRecording_returns (h : Inv s) (hfree : ¬ Blocked s) (hd : Modest env.driver) :
    (s.startRecording env).isSome = true := by
  unfold State.startRecording
  dsimp only
  split_ifs
  · obtain ⟨t, hdisable, ht, hfree'⟩ := doStopPreview_returns
      { env with params := { env.params with recordingHint := true } } h hfree
    rw [hdisable, Option.bind_some, Option.isSome_map]
    exact doStartPreview_returns ht.asked hfree' hd
  · rfl

lemma closeCamera_isSome (h : Inv s) : (s.closeCamera env).isSome = true ↔ ¬ Blocked s := by
  constructor
  · intro hsome
    obtain ⟨t, hclose⟩ := Option.isSome_iff_exists.mp hsome
    obtain ⟨v, hv, -⟩ := Option.map_eq_some_iff.mp hclose
    obtain ⟨u, hu, hv⟩ := Option.bind_eq_some_iff.mp hv
    unfold State.doStopPreview at hu
    split_ifs at hu with henabled
    · obtain ⟨w, hw, -⟩ := Option.map_eq_some_iff.mp hu
      exact (stopStarted_isSome h.asked).mp (Option.isSome_iff_exists.mpr ⟨w, hw⟩)
    · obtain rfl := Option.some.inj hu
      exact (stopStarted_isSome h.asked).mp (Option.isSome_iff_exists.mpr ⟨v, hv⟩)
  · intro hfree
    obtain ⟨t, hdisable, ht, hfree'⟩ := doStopPreview_returns env h hfree
    obtain ⟨u, hstop, -⟩ := stopStarted_returns env ht.asked hfree'
    rw [State.closeCamera, hdisable, Option.bind_some, hstop]
    rfl

/-- Every call returns if the device is not blocked. -/
lemma step_returns (h : Inv s) (hfree : ¬ Blocked s) (hd : Modest env.driver) {act : Act}
    (hcall : act.IsCall) : (step s (env, act)).isSome = true := by
  cases act with
  | connectCamera => rfl
  | startPreview =>
    rw [step, Option.isSome_map]
    exact doStartPreview_returns h.asked hfree hd
  | stopPreview =>
    obtain ⟨t, hdisable, -⟩ := doStopPreview_returns env h hfree
    exact Option.isSome_iff_exists.mpr ⟨t, hdisable⟩
  | startRecording => exact startRecording_returns h hfree hd
  | takePicture => exact doTakePicture_returns h hfree hd
  | pictureMsg =>
    rw [step, State.pictureMsg]
    split_ifs
    · exact doTakePictureEnd_returns h hfree hd
    · rfl
  | stopContinuousSnap =>
    refine doTakePictureEnd_returns (setTakePictureState_keeps h (by decide)).inv ?_ hd
    exact fun hblocked => hfree ⟨hblocked.started, hblocked.ended, hblocked.waits⟩
  | cancelPicture => rfl
  | closeCamera => exact (closeCamera_isSome h).mpr hfree
  | pause => exact hcall.elim
  | frame => exact hcall.elim
  | pictureDone => exact hcall.elim

/-! ## A device that is blocked -/

lemma stopStarted_blocked (h : Asked s.device) (hblocked : Blocked s) :
    s.stopStarted env = none := by
  rw [← Option.not_isSome_iff_eq_none, stopStarted_isSome h]
  exact not_not_intro hblocked

/-- It runs the preview already, or the call does not return. -/
lemma doStartPreview_blocked {ok : Bool} (h : Asked s.device) (hblocked : Blocked s)
    (hstart : s.doStartPreview env = some (t, ok)) : t = s := by
  unfold State.doStartPreview at hstart
  split_ifs at hstart
  · cases hstart
    rfl
  · rw [stopStarted_blocked h hblocked] at hstart
    cases hstart

lemma doStopPreview_blocked (h : Asked s.device) (hblocked : Blocked s)
    (hstop : s.doStopPreview env = some t) : t = s := by
  unfold State.doStopPreview at hstop
  split_ifs at hstop
  · rw [stopStarted_blocked h hblocked] at hstop
    cases hstop
  · exact (Option.some.inj hstop).symm

lemma Blocked.setTakePictureState (h : Blocked s) (p : TakePictureState) :
    Blocked (s.setTakePictureState p) := ⟨h.started, h.ended, h.waits⟩

lemma doTakePicture_blocked (h : Inv s) (hblocked : Blocked s)
    (htake : s.doTakePicture env = some t) : Blocked t := by
  have hnormal : s.takeNormalPicture env = some t → Blocked t := by
    intro htake
    unfold State.takeNormalPicture at htake
    dsimp only at htake
    split_ifs at htake
    · exact Option.some.inj htake ▸ hblocked.setTakePictureState _
    · obtain ⟨v, hv, -⟩ := Option.bind_eq_some_iff.mp htake
      obtain ⟨u, hu, hstop⟩ := Option.bind_eq_some_iff.mp hv
      rw [doStopPreview_blocked h.asked hblocked hu, stopStarted_blocked h.asked hblocked] at hstop
      cases hstop
  unfold State.doTakePicture at htake
  split_ifs at htake
  · exact Option.some.inj htake ▸ hblocked.setTakePictureState _
  · split at htake
    · exact Option.some.inj htake ▸ hblocked.setTakePictureState _
    · exact Option.some.inj htake ▸ hblocked.setTakePictureState _
    · exact Option.some.inj htake ▸ hblocked.setTakePictureState _
    · exact Option.some.inj htake ▸ hblocked.setTakePictureState _
    · exact hnormal htake

lemma doTakePictureEnd_blocked (h : Asked s.device) (hblocked : Blocked s)
    (hend : s.doTakePictureEnd env = some t) : Blocked t := by
  unfold State.doTakePictureEnd at hend
  split_ifs at hend
  · obtain ⟨⟨u, ok⟩, hstart, rfl⟩ := Option.map_eq_some_iff.mp hend
    exact doStartPreview_blocked h hblocked hstart ▸ hblocked
  · exact Option.some.inj hend ▸ hblocked

/-- No step leads out of it. -/
lemma blocked_step (h : Inv s) (hblocked : Blocked s) {a : Env × Act}
    (hstep : step s a = some t) : Blocked t := by
  obtain ⟨env, act⟩ := a
  cases act with
  | connectCamera =>
    obtain rfl := Option.some.inj hstep
    have hsame : s.device.connectDevice env.driver = (s.device, true) :=
      if_neg (by rw [hblocked.started]; decide)
    rw [hsame]
    exact hblocked
  | startPreview =>
    obtain ⟨⟨u, ok⟩, hstart, rfl⟩ := Option.map_eq_some_iff.mp hstep
    exact doStartPreview_blocked h.asked hblocked hstart ▸ hblocked
  | stopPreview => exact doStopPreview_blocked h.asked hblocked hstep ▸ hblocked
  | startRecording =>
    simp only [step, State.startRecording] at hstep
    split_ifs at hstep
    · obtain ⟨u, hu, hnext⟩ := Option.bind_eq_some_iff.mp hstep
      rw [doStopPreview_blocked h.asked hblocked hu] at hnext
      obtain ⟨⟨v, ok⟩, hstart, rfl⟩ := Option.map_eq_some_iff.mp hnext
      exact doStartPreview_blocked h.asked hblocked hstart ▸ hblocked
    · exact Option.some.inj hstep ▸ hblocked
  | takePicture => exact doTakePicture_blocked h hblocked hstep
  | pictureMsg =>
    simp only [step, State.pictureMsg] at hstep
    split_ifs at hstep
    · exact doTakePictureEnd_blocked h.asked hblocked hstep
    · exact Option.some.inj hstep ▸ hblocked
  | stopContinuousSnap =>
    exact doTakePictureEnd_blocked (s := s.setTakePictureState .null) h.asked
      (hblocked.setTakePictureState .null) hstep
  | cancelPicture => exact Option.some.inj hstep ▸ hblocked.setTakePictureState .null
  | closeCamera =>
    have hsome := (closeCamera_isSome h).mp (Option.isSome_iff_exists.mpr ⟨t, hstep⟩)
    exact absurd hblocked hsome
  | pause =>
    obtain ⟨w, hw, -⟩ := Option.map_eq_some_iff.mp hstep
    simp only [Connection.step] at hw
    split_ifs at hw with hpauses
    exact absurd (hblocked.ended.symm.trans hpauses.1) (by decide)
  | frame f =>
    obtain ⟨w, hw, -⟩ := Option.map_eq_some_iff.mp hstep
    simp only [Connection.step] at hw
    split_ifs at hw with hready
    exact absurd (hblocked.ended.symm.trans hready.1) (by decide)
  | pictureDone =>
    rw [step, thread] at hstep
    obtain ⟨w, hw, rfl⟩ := Option.map_eq_some_iff.mp hstep
    obtain rfl := Option.some.inj hw
    exact hblocked.setTakePictureState .null

end Calls

/-- Behind every run, all calls return exactly if the device is not blocked; a device that is
blocked stays so in all that follows, and is not before a frame was too large. -/
theorem calls_return_iff (as : List (Env × Act)) {s : State}
    (hrun : as.foldlM step initial = some s) :
    (∀ env, Modest env.driver →
      ((∀ act, Act.IsCall act → (step s (env, act)).isSome = true) ↔ ¬ Blocked s)) ∧
    (∀ (bs : List (Env × Act)) (t : State), bs.foldlM step s = some t → Blocked s → Blocked t) ∧
    (Meets step Fits initial as → ¬ Blocked s) := by
  have hinv : Inv s := Runs.invariant (fun hs _ hstep => (step_cases hs hstep).inv) inv_initial
    (runs_of_foldlM as hrun)
  refine ⟨fun env hd => ⟨fun hall => ?_, fun hfree act hcall => ?_⟩, fun bs t hrest hblocked => ?_,
    fun hmeets hblocked => ?_⟩
  · exact (closeCamera_isSome hinv).mp (hall .closeCamera trivial)
  · exact step_returns hinv hfree hd hcall
  · have hkeep : ∀ {u v : State} {a : Env × Act}, Inv u ∧ Blocked u → True →
        step u a = some v → Inv v ∧ Blocked v :=
      fun hu _ hstep => ⟨(step_cases hu.1 hstep).inv, blocked_step hu.1 hu.2 hstep⟩
    exact (Runs.invariant hkeep ⟨hinv, hblocked⟩ (runs_of_foldlM bs hrest)).2
  · have hkeep : ∀ {u v : State} {a : Env × Act}, Inv u ∧ u.device.alive = true → Fits a u →
        step u a = some v → Inv v ∧ v.device.alive = true := by
      intro u v a hu hfits hstep
      have hcase := step_cases hu.1 hstep
      exact ⟨hcase.inv, (hcase.alive hfits).trans hu.2⟩
    have halive := Runs.invariant hkeep ⟨inv_initial, rfl⟩ (runs_of_meets as hmeets hrun)
    exact Bool.false_ne_true (hblocked.ended.symm.trans halive.2)

/-- A picture of its own size. -/
def stillPicture : Env where
  driver := willing
  params :=
    { recordingHint := false, pictureMode := .normal, pictureSize := (4, 4), previewSize := (2, 2)
      videoSize := (2, 2), fullSize := (4, 4), fastPictureMode := false, isUvc := false
      isImageCaptureIntent := false, ctsVerifier := false, ctsStub := false
      ctsMediastress := false }

lemma modest_willing : Modest willing := fun _ hn _ hreq => Option.some.inj hreq ▸ hn

/-- Its frame is too large. -/
theorem calls_return_iff_tooLarge : ∃ s : State,
    [(stillPicture, Act.connectCamera), (stillPicture, .takePicture),
      (stillPicture, .frame ⟨true, false, false⟩)].foldlM step initial = some s ∧
    ¬ ∀ act, Act.IsCall act → (step s (stillPicture, act)).isSome = true := by
  obtain ⟨s, hrun⟩ : ∃ s : State, [(stillPicture, Act.connectCamera), (stillPicture, .takePicture),
      (stillPicture, .frame ⟨true, false, false⟩)].foldlM step initial = some s := ⟨_, rfl⟩
  refine ⟨s, hrun, fun hall => ?_⟩
  have hfree := ((calls_return_iff _ hrun).1 stillPicture modest_willing).mp hall
  obtain rfl := Option.some.inj hrun
  exact hfree ⟨rfl, rfl, rfl⟩

end Softwinner.Camera.Preview
