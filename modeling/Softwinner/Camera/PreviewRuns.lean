import Softwinner.Camera.Preview

/-!
# The preview in all runs

A preview that is enabled gets the frames of the device: it is started, captures, and the next frame
is not taken for a picture in the normal mode.  This holds in all states of a run exactly if the
preview is never started while such a picture is waited for (`previews_iff`).
-/

namespace Softwinner.Camera.Preview

open Framework Connection

/-! ## The device -/

/-- The capture thread is asked to pause or to capture. -/
def Asked (v : Connection.State) : Prop := v.captureState = .paused ∨ v.captureState = .started

/-- `startDevice`, with `connectDevice` in front of it, succeeds. -/
structure Accepts (d : Driver) (v : Connection.State) : Prop where
  connects : v.deviceState = .constructed → d.opens = true ∧ d.accepts = true ∧ d.allocOpens = true
  opened : v.deviceState ≠ .constructed → v.cameraFd.isSome = true
  setFmt : d.setFmt = true
  starts : ∃ cnt ≤ nbBuffer, d.reqBufs v.wanted = some cnt ∧ Completes d cnt

section Device

variable {v w : Connection.State} {d : Driver} {ok : Bool}

lemma Asked.ne_null (h : Asked v) : v.captureState ≠ .null := by
  rcases h with h | h <;> rw [h] <;> decide

/-- The fields that the preview depends on, for a device that is started or stopped. -/
structure SameTask (v w : Connection.State) : Prop where
  capture : w.captureState = v.captureState
  picture : w.takePictureState = v.takePictureState
  alive : w.alive = v.alive

lemma SameTask.asked (h : SameTask v w) (hv : Asked v) : Asked w := by
  rw [Asked, h.capture]
  exact hv

lemma startDevice_task (h : v.startDevice d = some (w, ok)) : SameTask v w ∧
    (ok = true → v.deviceState = .connected ∧ w.deviceState = .started) ∧
    (ok = false → w.deviceState = v.deviceState) ∧
    (ok = false → v.deviceState = .connected → w.cameraFd = none) := by
  cases startDevice_cases h with
  | refused hstate =>
    exact ⟨⟨rfl, rfl, rfl⟩, fun hno => (by cases hno), fun _ => rfl, fun _ h => absurd h hstate⟩
  | early hstate => exact ⟨⟨rfl, rfl, rfl⟩, fun hno => (by cases hno), fun _ => rfl, fun _ _ => rfl⟩
  | failed cnt hstate =>
    obtain ⟨maps, mapMem, blocks, bufVirAddr, hquery⟩ :=
      queryBuf_kept (d := d) cnt (s := asking v cnt) (i := 0)
    rw [hquery]
    exact ⟨⟨rfl, rfl, rfl⟩, fun hno => (by cases hno), fun _ => rfl, fun _ _ => rfl⟩
  | completed cnt hstate =>
    obtain ⟨maps, mapMem, blocks, bufVirAddr, hquery⟩ :=
      queryBuf_kept (d := d) cnt (s := asking v cnt) (i := 0)
    rw [hquery]
    exact ⟨⟨rfl, rfl, rfl⟩, fun _ => ⟨hstate, rfl⟩, fun hno => (by cases hno),
      fun hno => (by cases hno)⟩

/-- When a connected device starts. -/
lemma startDevice_iff (hstate : v.deviceState = .connected) (h : v.startDevice d = some (w, ok)) :
    ok = true ↔ Accepts d v := by
  have hnot : v.deviceState ≠ .constructed := by rw [hstate]; decide
  cases startDevice_cases h with
  | refused hno => exact absurd hstate hno
  | early _ hearly =>
    refine iff_of_false (by decide) fun ha => ?_
    obtain ⟨cnt, -, hreq, -⟩ := ha.starts
    rw [hearly (ha.opened hnot) ha.setFmt] at hreq
    cases hreq
  | failed cnt _ hfd hfmt hreq hno =>
    refine iff_of_false (by decide) fun ha => ?_
    obtain ⟨cnt', -, hreq', hall⟩ := ha.starts
    obtain rfl := Option.some.inj (hreq.symm.trans hreq')
    exact hno hall
  | completed cnt _ hfd hfmt hreq hle hall =>
    exact iff_of_true rfl ⟨fun hno => absurd hno hnot, fun _ => hfd, hfmt, cnt, hle, hreq, hall⟩

/-- A device that has just been connected starts if the driver agrees. -/
lemma accepts_connected {u : Connection.State} (hstate : v.deviceState = .constructed)
    (hconnects : d.opens = true ∧ d.accepts = true ∧ d.allocOpens = true)
    (hu : u.deviceState = .connected) (hfd : u.cameraFd.isSome = true)
    (hpicture : u.takePictureState = v.takePictureState) : Accepts d u ↔ Accepts d v := by
  have hwanted : u.wanted = v.wanted := by
    rw [Connection.State.wanted, Connection.State.wanted, hpicture]
  constructor
  · intro ha
    exact ⟨fun _ => hconnects, fun hno => absurd hstate hno, ha.setFmt, hwanted ▸ ha.starts⟩
  · intro ha
    refine ⟨fun hno => ?_, fun _ => hfd, ha.setFmt, hwanted ▸ ha.starts⟩
    rw [hu] at hno
    cases hno

/-- What `connectDevice` makes of a device that is not started. -/
lemma connectDevice_task (hstate : v.deviceState ≠ .started) :
    SameTask v (v.connectDevice d).1 ∧
      ((v.connectDevice d).2 = true → (v.connectDevice d).1.deviceState = .connected ∧
        (Accepts d (v.connectDevice d).1 ↔ Accepts d v)) ∧
      ((v.connectDevice d).2 = false → (v.connectDevice d).1.deviceState = .constructed ∧
        ¬ Accepts d v) := by
  cases hv : v.deviceState with
  | started => exact absurd hv hstate
  | connected =>
    have hsame : v.connectDevice d = (v, true) := if_neg (by rw [hv]; decide)
    rw [hsame]
    exact ⟨⟨rfl, rfl, rfl⟩, fun _ => ⟨hv, Iff.rfl⟩, fun hno => by cases hno⟩
  | constructed =>
    have hrefused : (d.opens && d.accepts && d.allocOpens) = false → ¬ Accepts d v := by
      intro hno ha
      obtain ⟨hopens, haccepts, hallocs⟩ := ha.connects hv
      rw [hopens, haccepts, hallocs] at hno
      cases hno
    unfold Connection.State.connectDevice Connection.State.openCameraDev
    rw [if_pos hv]
    cases hopens : d.opens with
    | false =>
      refine ⟨⟨rfl, rfl, rfl⟩, fun hno => (by cases hno), fun _ => ⟨hv, hrefused ?_⟩⟩
      rw [hopens]
      rfl
    | true =>
      cases haccepts : d.accepts with
      | false =>
        refine ⟨⟨rfl, rfl, rfl⟩, fun hno => (by cases hno), fun _ => ⟨hv, hrefused ?_⟩⟩
        rw [hopens, haccepts]
        rfl
      | true =>
        cases hallocs : d.allocOpens with
        | false =>
          refine ⟨⟨rfl, rfl, rfl⟩, fun hno => (by cases hno), fun _ => ⟨hv, hrefused ?_⟩⟩
          rw [hopens, haccepts, hallocs]
          rfl
        | true =>
          refine ⟨⟨rfl, rfl, rfl⟩, fun _ => ⟨rfl, ?_⟩, fun hno => by cases hno⟩
          exact accepts_connected hv ⟨hopens, haccepts, hallocs⟩ rfl rfl rfl

lemma stopDeliveringFrames_asked (h : Asked v) : v.stopDeliveringFrames =
    { v with captureState := .paused } := if_neg h.ne_null

/-- `stopDevice`, with `stopDeliveringFrames` in front of it. -/
lemma stopCapture_cases (h : Asked v)
    (hstop : v.stopDeliveringFrames.stopDevice d = some w) :
    w.captureState = .paused ∧ w.takePictureState = v.takePictureState ∧ w.alive = v.alive ∧
      w.cameraFd = v.cameraFd ∧ w.canBeDisconnected = true ∧
      w.deviceState = if v.deviceState = .started then .connected else v.deviceState := by
  rw [stopDeliveringFrames_asked h] at hstop
  rcases stopDevice_cases hstop with ⟨hstate, rfl⟩ | ⟨hstate, rfl⟩
  · exact ⟨rfl, rfl, rfl, rfl, rfl, (if_neg hstate).symm⟩
  · obtain ⟨maps, mapMem, blocks, hunmap⟩ := unmapBuf_kept (d := d) v.bufferCnt
      (s := { v with captureState := .paused, canBeDisconnected := true }) (i := 0)
    rw [hunmap]
    exact ⟨rfl, rfl, rfl, rfl, rfl, (if_pos hstate).symm⟩

/-- Whether it returns. -/
lemma stopCapture_isSome (h : Asked v) :
    (v.stopDeliveringFrames.stopDevice d).isSome = true ↔
      v.canBeDisconnected = true ∨ v.alive = true := by
  rw [stopDeliveringFrames_asked h]
  unfold Connection.State.stopDevice Connection.State.Pauses
  by_cases hwait : v.canBeDisconnected = true ∨ v.alive = true
  · refine iff_of_true ?_ hwait
    rw [if_pos (hwait.imp_right fun halive => ⟨halive, .inl rfl⟩)]
    show (if v.deviceState = .started then some _ else some _ : Option Connection.State).isSome = _
    split_ifs <;> rfl
  · refine iff_of_false ?_ hwait
    rw [if_neg fun hno => hwait (hno.imp_right And.left)]
    exact Bool.false_ne_true

lemma startDeliveringFrames_asked (h : Asked v) : ∃ b, v.startDeliveringFrames d =
    ({ v with captureState := .started, canBeDisconnected := b }, true) := ⟨_, if_neg h.ne_null⟩

end Device

/-! ## The preview -/

section Calls

variable {s t : State} {env : Env} {ok : Bool}

/-- What the calls that stop the device leave. -/
structure Stops (d : Driver) (s t : State) : Prop where
  state : t.device.deviceState ≠ .started
  connected : s.device.deviceState = .started → t.device.deviceState = .connected
  asked : Asked t.device
  picture : t.device.takePictureState = s.device.takePictureState
  accepts : Accepts d t.device ↔ Accepts d s.device
  enabled : t.previewEnabled = s.previewEnabled
  alive : t.device.alive = s.device.alive

lemma stopStarted_cases (h : Asked s.device) (hstop : s.stopStarted env = some t) :
    Stops env.driver s t := by
  unfold State.stopStarted at hstop
  split_ifs at hstop with hstate
  · obtain ⟨w, hw, rfl⟩ := Option.map_eq_some_iff.mp hstop
    obtain ⟨hcapture, hpicture, halive, hfd, -, hdevice⟩ := stopCapture_cases h hw
    rw [if_pos hstate] at hdevice
    have hwanted : w.wanted = s.device.wanted := by
      rw [Connection.State.wanted, Connection.State.wanted, hpicture]
    refine ⟨by rw [hdevice]; decide, fun _ => hdevice, .inl hcapture, hpicture, ?_, rfl, halive⟩
    constructor
    · intro ha
      refine ⟨fun hno => ?_, fun _ => ?_, ha.setFmt, hwanted ▸ ha.starts⟩
      · rw [hstate] at hno
        cases hno
      · exact hfd ▸ ha.opened (by rw [hdevice]; decide)
    · intro ha
      refine ⟨fun hno => ?_, fun _ => ?_, ha.setFmt, hwanted ▸ ha.starts⟩
      · rw [hdevice] at hno
        cases hno
      · exact hfd ▸ ha.opened (by rw [hstate]; decide)
  · obtain rfl := Option.some.inj hstop
    exact ⟨hstate, fun hyes => absurd hyes hstate, h, rfl, Iff.rfl, rfl, rfl⟩

/-- What the calls that start the preview leave. -/
structure Begins (d : Driver) (s t : State) (ok : Bool) : Prop where
  iff : ok = true ↔ Accepts d s.device
  enabled : t.previewEnabled = ok
  started : ok = true → t.device.deviceState = .started ∧ t.device.captureState = .started
  asked : Asked t.device
  picture : t.device.takePictureState = s.device.takePictureState
  alive : t.device.alive = s.device.alive

lemma startCapture_cases (h : Asked s.device) (hstate : s.device.deviceState = .connected)
    (henabled : s.previewEnabled = true) (hstart : s.startCapture env = some (t, ok)) :
    Begins env.driver s t ok := by
  unfold State.startCapture at hstart
  dsimp only at hstart
  split at hstart
  · cases hstart
  · next w hw =>
    cases hstart
    obtain ⟨htask, -⟩ := startDevice_task hw
    exact ⟨startDevice_iff hstate hw, rfl, fun hno => (by cases hno), htask.asked h,
      htask.picture, htask.alive⟩
  · next w hw =>
    obtain ⟨htask, hstarted, -⟩ := startDevice_task hw
    obtain ⟨b, hdeliver⟩ := startDeliveringFrames_asked (v := w) (d := env.driver)
      (htask.asked h)
    unfold State.deliver at hstart
    simp only [hdeliver] at hstart
    cases hstart
    exact ⟨startDevice_iff hstate hw, henabled, fun _ => ⟨(hstarted rfl).2, rfl⟩, .inr rfl,
      htask.picture, htask.alive⟩

lemma connectAndStart_cases (h : Asked s.device) (hstate : s.device.deviceState ≠ .started)
    (hstart : s.connectAndStart env = some (t, ok)) : Begins env.driver s t ok := by
  obtain ⟨htask, hyes, hno⟩ := connectDevice_task (d := env.driver) hstate
  unfold State.connectAndStart at hstart
  dsimp only at hstart
  split at hstart
  next w hw =>
    rw [hw] at htask hno
    cases hstart
    exact ⟨iff_of_false (by decide) (hno rfl).2, rfl, fun hno => (by cases hno),
      htask.asked h, htask.picture, htask.alive⟩
  next w hw =>
    rw [hw] at htask hyes
    obtain ⟨hconnected, haccepts⟩ := hyes rfl
    have hbegins := startCapture_cases (htask.asked h) hconnected rfl hstart
    exact ⟨hbegins.iff.trans haccepts, hbegins.enabled, hbegins.started, hbegins.asked,
      hbegins.picture.trans htask.picture, hbegins.alive.trans htask.alive⟩

/-- `doStartPreview`, on a preview that does not run. -/
lemma doStartPreview_cases (h : Asked s.device)
    (hnot : ¬ (s.device.deviceState = .started ∧ s.previewEnabled = true))
    (hstart : s.doStartPreview env = some (t, ok)) : Begins env.driver s t ok := by
  unfold State.doStartPreview at hstart
  rw [if_neg hnot] at hstart
  obtain ⟨u, hstop, hstart⟩ := Option.bind_eq_some_iff.mp hstart
  have hstops := stopStarted_cases h hstop
  have hbegins := connectAndStart_cases hstops.asked hstops.state hstart
  exact ⟨hbegins.iff.trans hstops.accepts, hbegins.enabled, hbegins.started, hbegins.asked,
    hbegins.picture.trans hstops.picture, hbegins.alive.trans hstops.alive⟩

/-- What holds in every state. -/
structure Inv (s : State) : Prop where
  asked : Asked s.device
  enabled : s.previewEnabled = true → s.device.deviceState = .started

/-- The next frame goes to the preview that is enabled. -/
def Previews (s : State) : Prop :=
  s.previewEnabled = true → s.device.deviceState = .started ∧ s.device.captureState = .started ∧
    s.device.takePictureState ≠ .normal

/-- A picture in the normal mode is waited for, and the device would start. -/
def Pending (d : Driver) (s : State) : Prop :=
  s.device.takePictureState = .normal ∧ Accepts d s.device

lemma Begins.inv {d : Driver} (h : Begins d s t ok) : Inv t :=
  ⟨h.asked, fun henabled => (h.started (h.enabled.symm.trans henabled)).1⟩

lemma Begins.previews_iff_not_pending {d : Driver} (h : Begins d s t ok) :
    Previews t ↔ ¬ Pending d s := by
  unfold Previews Pending
  rw [h.enabled, h.picture, ← h.iff]
  cases ok with
  | false => exact iff_of_true (fun hno => by cases hno) fun hno => by cases hno.2
  | true =>
    obtain ⟨hstate, hcapture⟩ := h.started rfl
    exact ⟨fun hp hpending => (hp rfl).2.2 hpending.1,
      fun hno _ => ⟨hstate, hcapture, fun hnormal => hno ⟨hnormal, rfl⟩⟩⟩

lemma inv_doStartPreview (h : Inv s) (hstart : s.doStartPreview env = some (t, ok)) :
    Inv t ∧ t.device.alive = s.device.alive := by
  by_cases hnot : s.device.deviceState = .started ∧ s.previewEnabled = true
  · unfold State.doStartPreview at hstart
    rw [if_pos hnot] at hstart
    cases hstart
    exact ⟨h, rfl⟩
  · have hbegins := doStartPreview_cases h.asked hnot hstart
    exact ⟨hbegins.inv, hbegins.alive⟩

lemma previews_doStartPreview (h : Inv s) (hp : Previews s)
    (hstart : s.doStartPreview env = some (t, ok)) : Previews t ↔ ¬ Pending env.driver s := by
  by_cases hnot : s.device.deviceState = .started ∧ s.previewEnabled = true
  · unfold State.doStartPreview at hstart
    rw [if_pos hnot] at hstart
    cases hstart
    exact iff_of_true hp fun hpending => (hp hnot.2).2.2 hpending.1
  · exact (doStartPreview_cases h.asked hnot hstart).previews_iff_not_pending

lemma previews_of_disabled (h : s.previewEnabled = false) : Previews s := by
  intro henabled
  rw [h] at henabled
  cases henabled

lemma inv_of_disabled (hasked : Asked s.device) (h : s.previewEnabled = false) : Inv s := by
  refine ⟨hasked, fun henabled => ?_⟩
  rw [h] at henabled
  cases henabled

/-- `doStopPreview`: the preview is disabled, and a device that it ran on is connected. -/
structure Disabled (d : Driver) (s t : State) : Prop where
  inv : Inv t
  enabled : t.previewEnabled = false
  connected : s.previewEnabled = true → t.device.deviceState = .connected
  picture : t.device.takePictureState = s.device.takePictureState
  accepts : Accepts d t.device ↔ Accepts d s.device
  alive : t.device.alive = s.device.alive

lemma doStopPreview_cases (h : Inv s) (hstop : s.doStopPreview env = some t) :
    Disabled env.driver s t := by
  unfold State.doStopPreview at hstop
  split_ifs at hstop with henabled
  · obtain ⟨u, hu, rfl⟩ := Option.map_eq_some_iff.mp hstop
    have hstops := stopStarted_cases h.asked hu
    exact ⟨inv_of_disabled hstops.asked rfl, rfl, fun _ => hstops.connected (h.enabled henabled),
      hstops.picture, hstops.accepts, hstops.alive⟩
  · obtain rfl := Option.some.inj hstop
    exact ⟨h, Bool.eq_false_iff.mpr henabled, fun hyes => absurd hyes henabled, rfl, Iff.rfl, rfl⟩

lemma Disabled.pending {d : Driver} (h : Disabled d s t) : Pending d t ↔ Pending d s := by
  unfold Pending
  rw [h.picture, h.accepts]

/-! ## Pictures -/

/-- The invariant holds, the preview goes on if it did, and so does the capture thread. -/
structure Keeps (s t : State) : Prop where
  inv : Inv t
  previews : Previews s → Previews t
  alive : t.device.alive = s.device.alive

/-- A preview that is off. -/
lemma Keeps.of_disabled (h : Asked t.device) (hoff : t.previewEnabled = false)
    (halive : t.device.alive = s.device.alive) : Keeps s t :=
  ⟨inv_of_disabled h hoff, fun _ => previews_of_disabled hoff, halive⟩

/-- A start that has failed has closed the device node, so that the preview is not started
either. -/
lemma capturePicture_keeps {previewOn : Bool} (hasked : Asked s.device)
    (henabled : s.previewEnabled = false) (hstate : s.device.deviceState ≠ .started)
    (hconnected : previewOn = true → s.device.deviceState = .connected)
    (h : s.capturePicture env previewOn = some t) : Keeps s t := by
  unfold State.capturePicture at h
  dsimp only at h
  split at h
  · cases h
  · next w hw =>
    obtain ⟨htask, -, hsame, hclosed⟩ := startDevice_task hw
    have hw' : w.deviceState = s.device.deviceState := hsame rfl
    unfold State.restartPreview at h
    split_ifs at h with hon
    · obtain ⟨⟨u, ok⟩, hstart, rfl⟩ := Option.map_eq_some_iff.mp h
      have hbegins := doStartPreview_cases (htask.asked hasked)
        (fun hno => hstate (hw'.symm.trans hno.1)) hstart
      have hfails : ok = false := by
        refine Bool.eq_false_iff.mpr fun hok => ?_
        have hopened := (hbegins.iff.mp hok).opened (by
          show w.deviceState ≠ _
          rw [hw', hconnected hon]
          decide)
        have hnone : w.cameraFd = none := hclosed rfl (hconnected hon)
        rw [show ({ s.setTakePictureState .normal with
            device := w, captureSize := env.params.pictureSize } : State).device.cameraFd = none
          from hnone] at hopened
        cases hopened
      exact .of_disabled hbegins.asked (hbegins.enabled.trans hfails)
        (hbegins.alive.trans htask.alive)
    · obtain rfl := Option.some.inj h
      exact .of_disabled (htask.asked hasked) henabled htask.alive
  · next w hw =>
    obtain ⟨htask, -⟩ := startDevice_task hw
    obtain ⟨b, hdeliver⟩ := startDeliveringFrames_asked (d := env.driver) (htask.asked hasked)
    rw [hdeliver] at h
    obtain rfl := Option.some.inj h
    exact .of_disabled (.inr rfl) henabled htask.alive

lemma setTakePictureState_keeps (h : Inv s) {p : TakePictureState} (hne : p ≠ .normal) :
    Keeps s (s.setTakePictureState p) :=
  ⟨⟨h.asked, h.enabled⟩, fun hp henabled => ⟨(hp henabled).1, (hp henabled).2.1, hne⟩, rfl⟩

lemma takeNormalPicture_keeps (h : Inv s) (htake : s.takeNormalPicture env = some t) :
    Keeps s t := by
  unfold State.takeNormalPicture at htake
  dsimp only at htake
  split_ifs at htake
  · obtain rfl := Option.some.inj htake
    exact setTakePictureState_keeps h (by decide)
  · obtain ⟨v, hv, htake⟩ := Option.bind_eq_some_iff.mp htake
    obtain ⟨u, hu, hv⟩ := Option.bind_eq_some_iff.mp hv
    have hdisabled := doStopPreview_cases h hu
    have hstops := stopStarted_cases hdisabled.inv.asked hv
    have hoff : v.previewEnabled = false := hstops.enabled.trans hdisabled.enabled
    have hconnected : s.previewEnabled = true → v.device.deviceState = .connected := by
      intro hon
      have hu := hdisabled.connected hon
      unfold State.stopStarted at hv
      rw [if_neg (by rw [hu]; decide)] at hv
      exact Option.some.inj hv ▸ hu
    have hkeeps := capturePicture_keeps hstops.asked hoff hstops.state hconnected htake
    exact ⟨hkeeps.inv, fun _ => hkeeps.previews (previews_of_disabled hoff),
      hkeeps.alive.trans (hstops.alive.trans hdisabled.alive)⟩

lemma doTakePicture_keeps (h : Inv s) (htake : s.doTakePicture env = some t) : Keeps s t := by
  unfold State.doTakePicture at htake
  split_ifs at htake
  · exact Option.some.inj htake ▸ setTakePictureState_keeps h (by decide)
  · split at htake
    · exact Option.some.inj htake ▸ setTakePictureState_keeps h (by decide)
    · exact Option.some.inj htake ▸ setTakePictureState_keeps h (by decide)
    · exact Option.some.inj htake ▸ setTakePictureState_keeps h (by decide)
    · exact Option.some.inj htake ▸ setTakePictureState_keeps h (by decide)
    · exact takeNormalPicture_keeps h htake

end Calls

/-! ## Steps -/

/-- The preview is started, when a picture has been reported or its mode is left. -/
def Restarts (p : Params) (s : State) : Prop :=
  s.device.deviceState ≠ .constructed ∧ s.previewEnabled = false ∧ p.fastPictureMode = false

/-- The call does not start the preview while a picture in the normal mode is waited for. -/
def Waits : Env × Act → State → Prop
  | (env, .startPreview), s => ¬ Pending env.driver s
  | (env, .startRecording), s => env.params.videoSize ≠ s.captureSize → ¬ Pending env.driver s
  | (env, .pictureMsg), s =>
    env.params.ctsStub = false → env.params.ctsMediastress = false →
      env.params.isImageCaptureIntent = false → Restarts env.params s → ¬ Pending env.driver s
  | _, _ => True

/-- No frame for a picture in the normal mode is too large. -/
def Fits : Env × Act → State → Prop
  | (_, .frame f), s => s.device.takePictureState = .normal → f.tooLarge = false
  | _, _ => True

/-- What a step does: the capture thread goes on if the frame is not too large. -/
structure Steps (a : Env × Act) (s t : State) : Prop where
  inv : Inv t
  previews : Previews s → (Previews t ↔ Waits a s)
  alive : Fits a s → t.device.alive = s.device.alive

section Steps

variable {s t : State} {env : Env}

lemma Keeps.steps {a : Env × Act} (h : Keeps s t) (hwaits : Waits a s) : Steps a s t :=
  ⟨h.inv, fun hp => iff_of_true (h.previews hp) hwaits, fun _ => h.alive⟩

lemma doTakePictureEnd_cases (h : Inv s) (hend : s.doTakePictureEnd env = some t) :
    Inv t ∧ t.device.alive = s.device.alive ∧
      (Previews s → (Previews t ↔ (Restarts env.params s → ¬ Pending env.driver s))) := by
  unfold State.doTakePictureEnd at hend
  split_ifs at hend with hrestarts
  · obtain ⟨⟨u, ok⟩, hstart, rfl⟩ := Option.map_eq_some_iff.mp hend
    obtain ⟨hinv, halive⟩ := inv_doStartPreview h hstart
    exact ⟨hinv, halive, fun hp =>
      (previews_doStartPreview h hp hstart).trans (imp_iff_right hrestarts).symm⟩
  · obtain rfl := Option.some.inj hend
    exact ⟨h, rfl, fun hp => iff_of_true hp fun hyes => absurd hyes hrestarts⟩

/-- A frame. -/
lemma captureFrame_steps (h : Inv s) (f : Connection.Frame) :
    Steps (env, .frame f) s { s with device := s.device.captureFrame f } := by
  unfold Connection.State.captureFrame
  split_ifs with hnormal hlarge hfull hpicture
  · refine ⟨⟨h.asked, h.enabled⟩, fun hp => iff_of_true hp trivial, fun hfits => ?_⟩
    rw [hfits hnormal] at hlarge
    cases hlarge
  · exact ⟨h, fun hp => iff_of_true hp trivial, fun _ => rfl⟩
  · refine ⟨⟨.inl rfl, h.enabled⟩, fun hp => iff_of_true (fun henabled => ?_) trivial,
      fun _ => rfl⟩
    exact absurd hnormal (hp henabled).2.2
  · exact (setTakePictureState_keeps h (by decide)).steps trivial
  · exact ⟨h, fun hp => iff_of_true hp trivial, fun _ => rfl⟩

lemma connectCamera_keeps (h : Inv s) {d : Driver} :
    Keeps s { s with device := (s.device.connectDevice d).1 } := by
  by_cases hstate : s.device.deviceState = .started
  · have hsame : s.device.connectDevice d = (s.device, true) := if_neg (by rw [hstate]; decide)
    rw [hsame]
    exact ⟨h, id, rfl⟩
  · have hoff : s.previewEnabled = false :=
      Bool.eq_false_iff.mpr fun henabled => hstate (h.enabled henabled)
    obtain ⟨htask, -⟩ := connectDevice_task (d := d) hstate
    exact .of_disabled (htask.asked h.asked) hoff htask.alive

lemma disconnectDevice_task {v : Connection.State} : SameTask v v.disconnectDevice.1 := by
  unfold Connection.State.disconnectDevice
  split
  · exact ⟨rfl, rfl, rfl⟩
  · exact ⟨rfl, rfl, rfl⟩
  · exact ⟨rfl, rfl, rfl⟩

lemma closeCamera_keeps (h : Inv s) (hclose : s.closeCamera env = some t) : Keeps s t := by
  obtain ⟨v, hv, rfl⟩ := Option.map_eq_some_iff.mp hclose
  obtain ⟨u, hu, hv⟩ := Option.bind_eq_some_iff.mp hv
  have hdisabled := doStopPreview_cases h hu
  have hstops := stopStarted_cases hdisabled.inv.asked hv
  exact .of_disabled (disconnectDevice_task.asked hstops.asked)
    (hstops.enabled.trans hdisabled.enabled)
    (disconnectDevice_task.alive.trans (hstops.alive.trans hdisabled.alive))

/-- What every step does to the preview. -/
lemma step_cases (h : Inv s) {a : Env × Act} (hstep : step s a = some t) : Steps a s t := by
  obtain ⟨env, act⟩ := a
  cases act with
  | connectCamera =>
    obtain rfl := Option.some.inj hstep
    exact (connectCamera_keeps h).steps trivial
  | startPreview =>
    obtain ⟨⟨u, ok⟩, hstart, rfl⟩ := Option.map_eq_some_iff.mp hstep
    obtain ⟨hinv, halive⟩ := inv_doStartPreview h hstart
    exact ⟨hinv, fun hp => previews_doStartPreview h hp hstart, fun _ => halive⟩
  | stopPreview =>
    have hdisabled := doStopPreview_cases h hstep
    exact (Keeps.of_disabled hdisabled.inv.asked hdisabled.enabled hdisabled.alive).steps trivial
  | startRecording =>
    simp only [step, State.startRecording] at hstep
    split_ifs at hstep with hsize
    · obtain ⟨u, hu, hstep⟩ := Option.bind_eq_some_iff.mp hstep
      obtain ⟨⟨v, ok⟩, hstart, rfl⟩ := Option.map_eq_some_iff.mp hstep
      have hdisabled := doStopPreview_cases h hu
      obtain ⟨hinv, halive⟩ := inv_doStartPreview hdisabled.inv hstart
      have hiff := previews_doStartPreview hdisabled.inv
        (previews_of_disabled hdisabled.enabled) hstart
      exact ⟨hinv, fun _ =>
        (hiff.trans (not_congr hdisabled.pending)).trans (imp_iff_right hsize).symm,
        fun _ => halive.trans hdisabled.alive⟩
    · obtain rfl := Option.some.inj hstep
      exact Keeps.steps ⟨h, id, rfl⟩ fun hno => absurd hno hsize
  | takePicture => exact (doTakePicture_keeps h hstep).steps trivial
  | pictureMsg =>
    simp only [step, State.pictureMsg] at hstep
    split_ifs at hstep with hcalling
    · obtain ⟨hinv, halive, hiff⟩ := doTakePictureEnd_cases h hstep
      refine ⟨hinv, fun hp => (hiff hp).trans ⟨fun hno _ _ _ => hno, fun hno => ?_⟩,
        fun _ => halive⟩
      exact hno hcalling.1 hcalling.2.1 hcalling.2.2
    · obtain rfl := Option.some.inj hstep
      exact Keeps.steps ⟨h, id, rfl⟩ fun hstub hmedia hintent =>
        absurd ⟨hstub, hmedia, hintent⟩ hcalling
  | stopContinuousSnap =>
    have hnull := setTakePictureState_keeps h (p := .null) (by decide)
    obtain ⟨hinv, halive, hiff⟩ := doTakePictureEnd_cases hnull.inv hstep
    refine Keeps.steps ⟨hinv, fun hp => ?_, halive⟩ trivial
    exact (hiff (hnull.previews hp)).mpr fun _ hpending => by cases hpending.1
  | cancelPicture =>
    exact Option.some.inj hstep ▸ (setTakePictureState_keeps h (by decide)).steps trivial
  | closeCamera => exact (closeCamera_keeps h hstep).steps trivial
  | pause =>
    obtain ⟨w, hw, rfl⟩ := Option.map_eq_some_iff.mp hstep
    simp only [Connection.step] at hw
    split_ifs at hw
    obtain rfl := Option.some.inj hw
    exact Keeps.steps ⟨⟨h.asked, h.enabled⟩, id, rfl⟩ trivial
  | frame f =>
    obtain ⟨w, hw, rfl⟩ := Option.map_eq_some_iff.mp hstep
    simp only [Connection.step] at hw
    split_ifs at hw
    obtain rfl := Option.some.inj hw
    exact captureFrame_steps h f
  | pictureDone =>
    rw [step, thread] at hstep
    obtain ⟨w, hw, rfl⟩ := Option.map_eq_some_iff.mp hstep
    obtain rfl := Option.some.inj hw
    exact (setTakePictureState_keeps h (by decide)).steps trivial

end Steps

lemma inv_initial : Inv initial := ⟨.inl rfl, fun hno => by cases hno⟩

/-- In all states of a run the next frame goes to the preview that is enabled, exactly if no call
starts the preview while a picture in the normal mode is waited for: the state of the picture
is kept across a failed start, a new start of the preview and the close of the camera. -/
theorem previews_iff (as : List (Env × Act)) :
    Along step Previews (fun _ _ _ => True) initial as ↔ Meets step Waits initial as := by
  have hgood : ∀ {s}, Inv s ∧ Previews s → Previews s := fun hs => hs.2
  have hkeep : ∀ {a s s'}, Inv s ∧ Previews s → Waits a s → step s a = some s' →
      (Inv s' ∧ Previews s') ∧ True := by
    intro a s s' hs hok hstep
    have hcase := step_cases hs.1 hstep
    exact ⟨⟨hcase.inv, (hcase.previews hs.2).mpr hok⟩, trivial⟩
  have hexact : ∀ {a s s'}, Inv s ∧ Previews s → step s a = some s' → True → Previews s' →
      Waits a s :=
    fun hs hstep _ hp => ((step_cases hs.1 hstep).previews hs.2).mp hp
  exact along_iff_meets hgood hkeep hexact as ⟨inv_initial, previews_of_disabled rfl⟩

end Softwinner.Camera.Preview
