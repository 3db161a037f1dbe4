import Mathlib.Data.Fintype.Basic
import Mathlib.Logic.Function.Basic
import Mathlib.Tactic.SplitIfs
import Softwinner.Framework.Runs

/-!
# The output stream

`out_write`, `out_standby`, `out_set_parameters` and `adev_close_output_stream` of `audio_hw.c`.
A stream in standby has no open card.  The first `out_write` opens all cards that exist and are
active, one after the other, and leaves standby if all could be opened.

The loop over the cards has two error returns.  A `pcm_open` that fails closes its own card, but
not those before it; a `create_resampler` that fails closes nothing.  The stream then stays in
standby, in which `do_output_standby` does nothing.  `good_iff_clean` is what follows.

The build is that of a product without `KARAOK_AUDIO_DEVICE`.  `out_write` starts its loop one card
behind the table; no flag there is `AUDIO_OUT`, and the model starts with the last card.
-/

namespace Softwinner.Audio.OutputStream

/-! ## State -/

def maxAudioDevices : ℕ := 16

abbrev Card := Fin maxAudioDevices

inductive Mode
  | normal | ringtone | inCall | inCommunication | factoryTest | fm
  deriving DecidableEq

/-- In these modes the output streams are left alone. -/
def Mode.blocked : Mode → Bool
  | .inCall | .factoryTest | .fm => true
  | _ => false

/-- The fields of `sunxi_audio_device_manager` for playback; `flagOut` is that `flag_out` is
`AUDIO_OUT`. -/
structure DevManager where
  name : String
  flagOut : Bool
  flagOutActive : Bool
  flagExist : Bool

/-- `RAW_INFO_t`. -/
structure RawInfo where
  enable : ℤ
  mode : ℤ
  sampleRate : ℤ
  deriving DecidableEq

/-- The device and one output stream. -/
structure State where
  mode : Mode
  rawFlag : Bool
  raw : RawInfo
  outDevice : BitVec 32
  firstSetAudioRouting : Bool
  devManager : Card → DevManager
  /-- `active_output` is this stream. -/
  activeOutput : Bool
  standby : Bool
  /-- Which entries are not null. -/
  multiPcm : Card → Bool
  multiResampler : Card → Bool
  /-- The stream has been freed. -/
  closed : Bool

/-- What an `out_write` finds outside: the raw mode, the property `audio.routing`, the rates of the
USB cards, and what `pcm_open`, `create_resampler` and `pcm_write` return. -/
structure WriteInput where
  raw : RawInfo
  routing : Option (BitVec 32)
  usbRate : Card → Option ℤ
  pcmOpen : Card → Bool
  createResampler : Card → Bool
  pcmWrite : Card → Bool

/-- The keys of an `out_set_parameters`; the devices are split into names. -/
structure ParamsInput where
  routing : Option (BitVec 32)
  devicesOutActive : Option (List String)
  rawDataOut : Option Bool

def defaultOutSamplingRate : ℤ := 44100

/-- `CARD_A1X_HDMI`. -/
def cardHdmi : Card := ⟨1, by decide⟩

def deviceOutSpeaker : BitVec 32 := 0x2
def deviceOutAuxDigital : BitVec 32 := 0x400
def deviceOutDgtlDockHeadset : BitVec 32 := 0x1000

namespace State

variable (s : State) (x : WriteInput)

/-- A card that is opened, and written to. -/
def plays (c : Card) : Bool :=
  (s.devManager c).flagExist && (s.devManager c).flagOut && (s.devManager c).flagOutActive

/-- The rate of a card. -/
def rate (c : Card) : ℤ :=
  let rate := if x.raw.enable = 1 ∧ c = cardHdmi then x.raw.sampleRate else defaultOutSamplingRate
  if "AUDIO_USB".toList.isPrefixOf (s.devManager c).name.toList then (x.usbRate c).getD rate
  else rate

def needsResampler (c : Card) : Bool :=
  decide (defaultOutSamplingRate ≠ s.rate x c ∧ x.raw.enable = 0)

def setPcm (c : Card) (b : Bool) : State :=
  { s with multiPcm := Function.update s.multiPcm c b }

def setResampler (c : Card) : State :=
  { s with multiResampler := Function.update s.multiResampler c true }

def doOutputStandby : State :=
  if s.standby then s
  else
    { s with
      multiPcm := fun _ => false, multiResampler := fun _ => false, activeOutput := false
      standby := true }

end State

/-- The loop of `start_output_stream`, and whether it came to its end. -/
def openCards (x : WriteInput) : List Card → State → State × Bool
  | [], s => (s, true)
  | c :: cs, s =>
    if s.plays c then
      if x.pcmOpen c then
        if s.needsResampler x c then
          if x.createResampler c then openCards x cs ((s.setPcm c true).setResampler c)
          else (s.setPcm c true, false)
        else openCards x cs (s.setPcm c true)
      else ({ s.setPcm c false with activeOutput := false }, false)
    else openCards x cs s

namespace State

variable (s : State)

/-- All cards, in the order of the table. -/
abbrev cards : List Card := List.finRange maxAudioDevices

def startOutputStream (x : WriteInput) : State × Bool :=
  if s.mode.blocked || s.rawFlag then (s, true)
  else
    let device :=
      match x.routing with
      | some d =>
        if d = deviceOutSpeaker ∨ d = deviceOutAuxDigital ∨ d = deviceOutDgtlDockHeadset then d
        else s.outDevice
      | none => s.outDevice
    openCards x cards { s with outDevice := device, activeOutput := true }

/-- The loop of `out_write`; a card that cannot be written to sends the stream to standby. -/
def writeCards (x : WriteInput) : List Card → State
  | [] => s
  | c :: cs => if s.plays c && !x.pcmWrite c then s.doOutputStandby else writeCards x cs

/-- The raw mode is not that of the device. -/
def rawChanged (x : WriteInput) : Bool :=
  decide (x.raw.enable ≠ s.raw.enable ∨
    (x.raw.enable = 1 ∧ (x.raw.sampleRate ≠ s.raw.sampleRate ∨ x.raw.mode ≠ s.raw.mode)))

/-- `out_write` behind its first test: a new raw mode. -/
def updateRaw (x : WriteInput) : State :=
  if s.rawChanged x then { s.doOutputStandby with raw := x.raw } else s

def outWrite (x : WriteInput) : State :=
  if s.mode.blocked then s
  else
    let s := s.updateRaw x
    if s.rawFlag then s
    else if s.standby then
      match s.startOutputStream x with
      | (s, false) => s
      | (s, true) => State.writeCards { s with standby := false } x cards.reverse
    else s.writeCards x cards.reverse

/-! ## Parameters -/

/-- The names of `set_audio_devices_active`, one after the other; an unknown one makes the first
two cards active. -/
def activate : List String → (Card → DevManager) → Card → DevManager
  | [], m => m
  | name :: names, m =>
    match cards.find? fun c => (m c).flagOut && (m c).name == name with
    | some c => activate names (Function.update m c { m c with flagOutActive := true })
    | none => fun c => if c.val ≤ 1 then { m c with flagOutActive := true } else m c

def setAudioDevicesActive (names : List String) : State :=
  { s with devManager := activate names fun c => { s.devManager c with flagOutActive := false } }

/-- `AUDIO_PARAMETER_STREAM_ROUTING`. -/
def setRouting (val : BitVec 32) : State :=
  if s.outDevice ≠ val ∧ val ≠ 0 then
    -- to or from HDMI or the dock
    let moves :=
      val &&& deviceOutAuxDigital ≠ s.outDevice &&& deviceOutAuxDigital ∨
        val &&& deviceOutDgtlDockHeadset ≠ s.outDevice &&& deviceOutDgtlDockHeadset
    if s.activeOutput ∧ moves then { s.doOutputStandby with outDevice := val }
    else { s with outDevice := val }
  else s

/-- `AUDIO_PARAMETER_RAW_DATA_OUT`. -/
def setRawDataOut (val : Option Bool) : State :=
  match val with
  | some b => if s.rawFlag ≠ b then State.doOutputStandby { s with rawFlag := b } else s
  | none => s

def outSetParameters (x : ParamsInput) : State :=
  if x.routing.isSome ∧ s.firstSetAudioRouting = true then { s with firstSetAudioRouting := false }
  else
    let s := match x.routing with | some val => s.setRouting val | none => s
    match x.devicesOutActive with
    | some names =>
      if s.rawFlag then s
      else (s.setAudioDevicesActive names).doOutputStandby.setRawDataOut x.rawDataOut
    | none => s.setRawDataOut x.rawDataOut

def closeOutputStream : State :=
  if s.mode.blocked then s else { s.doOutputStandby with closed := true }

end State

inductive Call
  | outWrite (x : WriteInput)
  | outStandby
  | outSetParameters (x : ParamsInput)
  | closeOutputStream

def State.step (s : State) (c : Call) : Option State :=
  if s.closed then none
  else
    match c with
    | .outWrite x => some (s.outWrite x)
    | .outStandby => some s.doOutputStandby
    | .outSetParameters x => some (s.outSetParameters x)
    | .closeOutputStream => some s.closeOutputStream

/-- A stream from `adev_open_output_stream`, on a device in any state. -/
def State.Opened (s : State) : Prop :=
  s.standby = true ∧ s.activeOutput = false ∧ s.closed = false ∧
    ∀ c, s.multiPcm c = false ∧ s.multiResampler c = false

/-! ## The property, and the condition -/

/-- The stream has nothing open. -/
def State.Clean (s : State) : Prop :=
  (∀ c, s.multiPcm c = false ∧ s.multiResampler c = false) ∧ s.activeOutput = false

/-- Standby means that nothing is open, and otherwise all cards that are written to are. -/
structure Good (s : State) : Prop where
  clean : s.standby = true → s.Clean
  playing : s.standby = false → ∀ c, s.plays c = true → s.multiPcm c = true

/-- The card can be opened, with its resampler. -/
def State.Opens (s : State) (x : WriteInput) (c : Card) : Prop :=
  x.pcmOpen c = true ∧ (s.needsResampler x c = true → x.createResampler c = true)

/-- The write starts the stream. -/
def State.Starts (s : State) (x : WriteInput) : Prop :=
  s.mode.blocked = false ∧ s.rawFlag = false ∧ (s.standby = true ∨ s.rawChanged x = true)

/-- A write that starts the stream can open all cards, or cannot open the first one. -/
def CleanOk (c : Call) (s : State) : Prop :=
  match c with
  | .outWrite x => s.Starts x → (∀ c, s.plays c = true → s.Opens x c) ∨
      ∃ c, State.cards.find? s.plays = some c ∧ x.pcmOpen c = false
  | _ => True

variable {s s' : State} {x : WriteInput}

/-! ## The loop over the cards -/

/-- The loop leaves everything but the cards and `active_output` alone. -/
lemma openCards_frame (cs : List Card) : ∀ s : State, ∃ pcm resampler active,
    (openCards x cs s).1 =
      { s with multiPcm := pcm, multiResampler := resampler, activeOutput := active } := by
  induction cs with
  | nil => exact fun s => ⟨_, _, _, rfl⟩
  | cons c cs ih =>
    intro s
    simp only [openCards]
    split_ifs
    · obtain ⟨pcm, resampler, active, h⟩ := ih ((s.setPcm c true).setResampler c)
      exact ⟨pcm, resampler, active, h⟩
    · exact ⟨_, _, _, rfl⟩
    · obtain ⟨pcm, resampler, active, h⟩ := ih (s.setPcm c true)
      exact ⟨pcm, resampler, active, h⟩
    · exact ⟨_, _, _, rfl⟩
    · exact ih s

/-- A card that the loop does not come to keeps its pcm. -/
lemma openCards_multiPcm (cs : List Card) {d : Card} (hd : d ∉ cs) : ∀ s : State,
    (openCards x cs s).1.multiPcm d = s.multiPcm d := by
  induction cs with
  | nil => exact fun s => rfl
  | cons c cs ih =>
    intro s
    obtain ⟨hne, hcs⟩ := not_or.mp (mt List.mem_cons.mpr hd)
    have hset (b : Bool) : (s.setPcm c b).multiPcm d = s.multiPcm d :=
      Function.update_of_ne hne _ _
    simp only [openCards]
    split_ifs
    · exact (ih hcs _).trans (hset true)
    · exact hset true
    · exact (ih hcs _).trans (hset true)
    · exact hset false
    · exact ih hcs s

/-- The loop comes to its end if all cards can be opened. -/
lemma openCards_done (cs : List Card) : ∀ s : State,
    (openCards x cs s).2 = true ↔ ∀ c ∈ cs, s.plays c = true → s.Opens x c := by
  induction cs with
  | nil => simp [openCards]
  | cons c cs ih =>
    intro s
    rw [List.forall_mem_cons]
    simp only [openCards]
    split_ifs with hplays hpcm hneeds hcreate
    · rw [ih]
      exact ⟨fun h => ⟨fun _ => ⟨hpcm, fun _ => hcreate⟩, h⟩, fun h => h.2⟩
    · simp [State.Opens, hplays, hneeds, hcreate]
    · rw [ih]
      exact ⟨fun h => ⟨fun _ => ⟨hpcm, fun h => absurd h hneeds⟩, h⟩, fun h => h.2⟩
    · simp [State.Opens, hplays, hpcm]
    · simp [ih, hplays]

/-- At its end the cards are open. -/
lemma openCards_playing (cs : List Card) (hnodup : cs.Nodup) : ∀ s : State,
    (openCards x cs s).2 = true → ∀ c ∈ cs, s.plays c = true →
      (openCards x cs s).1.multiPcm c = true := by
  induction cs with
  | nil => exact fun s _ c hc => absurd hc List.not_mem_nil
  | cons c cs ih =>
    intro s
    obtain ⟨hnot, hnodup⟩ := List.nodup_cons.mp hnodup
    have hself : (s.setPcm c true).multiPcm c = true := Function.update_self ..
    have hopened : ∀ t : State, t.plays = s.plays → t.multiPcm c = true →
        (openCards x cs t).2 = true → ∀ d ∈ c :: cs, s.plays d = true →
          (openCards x cs t).1.multiPcm d = true := by
      intro t hsame hopen hdone d hd hp
      rcases List.mem_cons.mp hd with rfl | hd
      · exact (openCards_multiPcm cs hnot t).trans hopen
      · exact ih hnodup t hdone d hd (by rw [hsame]; exact hp)
    simp only [openCards]
    split_ifs with hplays hpcm hneeds hcreate
    · exact hopened _ rfl hself
    · exact fun hdone => nomatch hdone
    · exact hopened _ rfl hself
    · exact fun hdone => nomatch hdone
    · rintro hdone d hd hp
      rcases List.mem_cons.mp hd with rfl | hd
      · exact absurd hp hplays
      · exact ih hnodup s hdone d hd hp

/-- A loop that does not come to its end leaves nothing open if and only if it got stuck on the
first card. -/
lemma openCards_clean (cs : List Card) (hnodup : cs.Nodup) : ∀ s : State,
    (∀ c, s.multiPcm c = false ∧ s.multiResampler c = false) → (openCards x cs s).2 = false →
      ((openCards x cs s).1.Clean ↔ ∃ c, cs.find? s.plays = some c ∧ x.pcmOpen c = false) := by
  induction cs with
  | nil => exact fun s _ h => nomatch h
  | cons c cs ih =>
    intro s hclosed
    obtain ⟨hnot, hnodup⟩ := List.nodup_cons.mp hnodup
    have hself : (s.setPcm c true).multiPcm c = true := Function.update_self ..
    -- a first card that was opened stays open
    have hstays (t : State) (hopen : t.multiPcm c = true) (hplays : s.plays c = true)
        (hpcm : x.pcmOpen c = true) : t.Clean ↔
          ∃ d, (c :: cs).find? s.plays = some d ∧ x.pcmOpen d = false := by
      constructor
      · intro hclean
        exact nomatch hopen.symm.trans (hclean.1 c).1
      · rintro ⟨d, hd, hfail⟩
        rw [List.find?_cons_of_pos hplays] at hd
        obtain rfl := Option.some.inj hd
        exact nomatch hpcm.symm.trans hfail
    simp only [openCards]
    split_ifs with hplays hpcm hneeds hcreate
    · exact fun _ => hstays _ ((openCards_multiPcm cs hnot _).trans hself) hplays hpcm
    · exact fun _ => hstays _ hself hplays hpcm
    · exact fun _ => hstays _ ((openCards_multiPcm cs hnot _).trans hself) hplays hpcm
    · intro _
      have hsame : (s.setPcm c false).multiPcm = s.multiPcm :=
        Function.update_eq_self_iff.mpr (hclosed c).1.symm
      refine ⟨fun _ => ⟨c, List.find?_cons_of_pos hplays, by simpa using hpcm⟩, fun _ => ⟨?_, rfl⟩⟩
      intro d
      exact ⟨(congrFun hsame d).trans (hclosed d).1, (hclosed d).2⟩
    · intro hfail
      rw [List.find?_cons_of_neg hplays]
      exact ih hnodup s hclosed hfail

/-! ## Calls -/

/-- A stream in standby is good if it has nothing open. -/
lemma State.Clean.good (hclean : s.Clean) (hstandby : s.standby = true) : Good s :=
  ⟨fun _ => hclean, fun h => nomatch hstandby.symm.trans h⟩

@[simp] lemma standby_doOutputStandby : s.doOutputStandby.standby = true := by
  unfold State.doOutputStandby
  split_ifs with hstandby
  · exact hstandby
  · rfl

/-- `do_output_standby` changes nothing but the stream. -/
lemma doOutputStandby_frame : ∃ pcm resampler active,
    s.doOutputStandby =
      { s with
        multiPcm := pcm, multiResampler := resampler, activeOutput := active, standby := true } := by
  unfold State.doOutputStandby
  split_ifs with hstandby
  · exact ⟨s.multiPcm, s.multiResampler, s.activeOutput, by rw [← hstandby]⟩
  · exact ⟨_, _, _, rfl⟩

/-- Which cards are active does not matter for standby. -/
lemma good_doOutputStandby (hclean : s.standby = true → s.Clean) : Good s.doOutputStandby := by
  refine State.Clean.good ?_ standby_doOutputStandby
  unfold State.doOutputStandby
  split_ifs with hstandby
  · exact hclean hstandby
  · exact ⟨fun _ => ⟨rfl, rfl⟩, rfl⟩

/-- Writing keeps a stream that plays good. -/
lemma Good.writeCards (hs : Good s) (cs : List Card) : Good (s.writeCards x cs) := by
  induction cs with
  | nil => exact hs
  | cons c cs ih =>
    simp only [State.writeCards]
    split_ifs
    · exact good_doOutputStandby hs.clean
    · exact ih

/-- A start opens the cards, on the device that is to be used. -/
lemma exists_startOutputStream_eq (hmode : s.mode.blocked = false) (hraw : s.rawFlag = false) :
    ∃ d, s.startOutputStream x =
      openCards x State.cards { s with outDevice := d, activeOutput := true } := by
  unfold State.startOutputStream
  rw [hmode, hraw]
  exact ⟨_, rfl⟩

/-- A stream in standby with nothing open, behind a start. -/
lemma Good.start {d : BitVec 32} (hclean : s.Clean) (hstandby : s.standby = true) :
    Good (match openCards x State.cards { s with outDevice := d, activeOutput := true } with
      | (s, false) => s
      | (s, true) => State.writeCards { s with standby := false } x State.cards.reverse) ↔
    (∀ c, s.plays c = true → s.Opens x c) ∨
      ∃ c, State.cards.find? s.plays = some c ∧ x.pcmOpen c = false := by
  have hnodup : State.cards.Nodup := List.nodup_finRange _
  generalize hu : { s with outDevice := d, activeOutput := true } = u
  have hplays : u.plays = s.plays := by rw [← hu]; rfl
  have hdone : (openCards x State.cards u).2 = true ↔ ∀ c, s.plays c = true → s.Opens x c := by
    rw [openCards_done, ← hu]
    exact ⟨fun h c => h c (List.mem_finRange c), fun h c _ => h c⟩
  obtain ⟨pcm, resampler, active, hframe⟩ := openCards_frame (x := x) State.cards u
  have hopen := openCards_playing (x := x) State.cards hnodup u
  have hstuck := openCards_clean (x := x) State.cards hnodup u (by rw [← hu]; exact hclean.1)
  rcases h : openCards x State.cards u with ⟨r, done⟩
  rw [h] at hdone hframe hopen hstuck
  cases done with
  | true =>
    refine ⟨fun _ => .inl (hdone.mp rfl), fun _ => Good.writeCards ⟨?_, ?_⟩ _⟩
    · exact fun h => absurd h Bool.false_ne_true
    intro _ c hc
    refine hopen rfl c (List.mem_finRange c) ?_
    rw [← hc]
    simp only at hframe
    rw [hframe]
    rfl
  | false =>
    have hrstandby : r.standby = true := by
      simp only at hframe
      rw [hframe, ← hu]
      exact hstandby
    have hgood : Good r ↔ r.Clean := ⟨fun h => h.clean hrstandby, fun h => h.good hrstandby⟩
    rw [hgood, hstuck rfl, hplays]
    exact ⟨.inr, fun h => h.resolve_left fun hall => nomatch hdone.mpr hall⟩

/-- A new raw mode sends the stream to standby. -/
lemma Good.updateRaw (hs : Good s) : Good (s.updateRaw x) := by
  unfold State.updateRaw
  split_ifs
  · have hstandby := good_doOutputStandby hs.clean
    exact ⟨hstandby.clean, hstandby.playing⟩
  · exact hs

lemma updateRaw_frame : ∃ pcm resampler active raw,
    s.updateRaw x =
      { s with
        raw := raw, multiPcm := pcm, multiResampler := resampler, activeOutput := active
        standby := s.standby || s.rawChanged x } := by
  unfold State.updateRaw
  split_ifs with hraw
  · obtain ⟨pcm, resampler, active, h⟩ := doOutputStandby_frame (s := s)
    refine ⟨pcm, resampler, active, x.raw, ?_⟩
    rw [h, hraw, Bool.or_true]
  · refine ⟨s.multiPcm, s.multiResampler, s.activeOutput, s.raw, ?_⟩
    rw [Bool.not_eq_true] at hraw
    rw [hraw, Bool.or_false]

/-- A write keeps a stream good under the condition, and only then. -/
lemma Good.outWrite_iff (hs : Good s) : Good (s.outWrite x) ↔ CleanOk (.outWrite x) s := by
  have hraw := hs.updateRaw (x := x)
  obtain ⟨pcm, resampler, active, raw, hframe⟩ := updateRaw_frame (s := s) (x := x)
  have hmode : (s.updateRaw x).mode = s.mode := by rw [hframe]
  have hflag : (s.updateRaw x).rawFlag = s.rawFlag := by rw [hframe]
  have hstandby : (s.updateRaw x).standby = true ↔ s.standby = true ∨ s.rawChanged x = true := by
    rw [hframe]
    exact Bool.or_eq_true_iff
  have hplays : (s.updateRaw x).plays = s.plays := by rw [hframe]; rfl
  have hopens : (s.updateRaw x).Opens x = s.Opens x := by rw [hframe]; rfl
  -- a write that does not start the stream
  have hidle (t : State) (ht : Good t) (hnot : ¬ s.Starts x) :
      Good t ↔ CleanOk (.outWrite x) s := ⟨fun _ h => absurd h hnot, fun _ => ht⟩
  simp only [State.outWrite]
  split_ifs with hblocked hrawFlag hstart
  · exact hidle s hs fun h => nomatch h.1.symm.trans hblocked
  · exact hidle _ hraw fun h => nomatch h.2.1.symm.trans (hflag.symm.trans hrawFlag)
  · rw [Bool.not_eq_true] at hblocked hrawFlag
    have hstarts : s.Starts x := ⟨hblocked, hflag.symm.trans hrawFlag, hstandby.mp hstart⟩
    obtain ⟨d, hd⟩ := exists_startOutputStream_eq (x := x) (hmode ▸ hblocked) hrawFlag
    simp only [hd]
    rw [Good.start (hraw.clean hstart) hstart, hplays, hopens]
    exact ⟨fun h _ => h, fun h => h hstarts⟩
  · exact hidle _ (hraw.writeCards _) fun h => hstart (hstandby.mpr h.2.2)

lemma Good.setRouting (hs : Good s) (val : BitVec 32) : Good (s.setRouting val) := by
  simp only [State.setRouting]
  split_ifs
  · have hstandby := good_doOutputStandby hs.clean
    exact ⟨hstandby.clean, hstandby.playing⟩
  · exact ⟨hs.clean, hs.playing⟩
  · exact hs

lemma Good.setRawDataOut (hs : Good s) (val : Option Bool) : Good (s.setRawDataOut val) := by
  cases val with
  | none => exact hs
  | some b =>
    simp only [State.setRawDataOut]
    split_ifs
    · exact good_doOutputStandby hs.clean
    · exact hs

lemma Good.outSetParameters (hs : Good s) (x : ParamsInput) : Good (s.outSetParameters x) := by
  unfold State.outSetParameters
  split_ifs
  · exact ⟨hs.clean, hs.playing⟩
  · -- the routing, and then the cards
    have hrouting : Good (match x.routing with | some val => s.setRouting val | none => s) := by
      split
      · exact hs.setRouting _
      · exact hs
    revert hrouting
    generalize (match x.routing with | some val => s.setRouting val | none => s) = t
    intro ht
    simp only
    split
    · split_ifs
      · exact ht
      · exact (good_doOutputStandby (s := t.setAudioDevicesActive _) ht.clean).setRawDataOut _
    · exact ht.setRawDataOut _

lemma Good.closeOutputStream (hs : Good s) : Good s.closeOutputStream := by
  unfold State.closeOutputStream
  split_ifs
  · exact hs
  · have hstandby := good_doOutputStandby hs.clean
    exact ⟨hstandby.clean, hstandby.playing⟩

/-- Every call keeps a stream good under the condition, and only then. -/
lemma Good.step_iff (hs : Good s) {c : Call} (hstep : s.step c = some s') :
    Good s' ↔ CleanOk c s := by
  simp only [State.step] at hstep
  split_ifs at hstep with hclosed
  cases c with
  | outWrite x =>
    obtain rfl := Option.some.inj hstep
    exact hs.outWrite_iff
  | outStandby =>
    obtain rfl := Option.some.inj hstep
    exact ⟨fun _ => trivial, fun _ => good_doOutputStandby hs.clean⟩
  | outSetParameters x =>
    obtain rfl := Option.some.inj hstep
    exact ⟨fun _ => trivial, fun _ => hs.outSetParameters x⟩
  | closeOutputStream =>
    obtain rfl := Option.some.inj hstep
    exact ⟨fun _ => trivial, fun _ => hs.closeOutputStream⟩

lemma State.Opened.good (hs : s.Opened) : Good s := by
  obtain ⟨hstandby, hactive, -, hclosed⟩ := hs
  exact State.Clean.good ⟨hclosed, hactive⟩ hstandby

/-- **The output stream.**  Along any sequence of calls, a stream in standby has nothing open and
one that plays has all its cards open, if and only if every write that starts the stream can open
all cards or cannot open the first one. -/
theorem good_iff_clean (hs : s.Opened) (cs : List Call) :
    Framework.Along State.step Good (fun _ _ _ => True) s cs ↔
      Framework.Meets State.step CleanOk s cs :=
  Framework.along_iff_meets (fun hs => hs)
    (fun hs hok hstep => ⟨(hs.step_iff hstep).mpr hok, trivial⟩)
    (fun hs hstep _ hgood => (hs.step_iff hstep).mp hgood) cs hs.good

/-- A device with the codec and HDMI, both active. -/
def codecAndHdmi : State where
  mode := .normal
  rawFlag := false
  raw := ⟨0, 0, 0⟩
  outDevice := deviceOutSpeaker
  firstSetAudioRouting := false
  devManager := fun c =>
    ⟨if c.val = 0 then "AUDIO_CODEC" else "AUDIO_HDMI", c.val ≤ 1, c.val ≤ 1, c.val ≤ 1⟩
  activeOutput := false
  standby := true
  multiPcm := fun _ => false
  multiResampler := fun _ => false
  closed := false

/-- A write at the device's own rate, with the cards that can be opened. -/
def plainWrite (pcmOpen : Card → Bool) : WriteInput :=
  ⟨⟨0, 0, 0⟩, none, fun _ => none, pcmOpen, fun _ => true, fun _ => true⟩

lemma opened_codecAndHdmi : codecAndHdmi.Opened := ⟨rfl, rfl, rfl, fun _ => ⟨rfl, rfl⟩⟩

/-- Both cards can be opened. -/
theorem good_iff_clean_codecAndHdmi :
    Framework.Along State.step Good (fun _ _ _ => True) codecAndHdmi
      [.outWrite (plainWrite fun _ => true), .outStandby] := by
  refine (good_iff_clean opened_codecAndHdmi _).mpr ⟨trivial, fun s' _ => ⟨?_, trivial, ?_⟩⟩
  · intro _
    refine .inl fun c _ => ⟨rfl, fun _ => rfl⟩
  · exact fun _ _ => ⟨trivial, trivial⟩

/-- HDMI cannot be opened: the codec stays open in standby. -/
theorem codec_open_in_standby : ∃ s, codecAndHdmi.Opened ∧
    codecAndHdmi.step (.outWrite (plainWrite fun c => c.val = 0)) = some s ∧
      s.standby = true ∧ s.multiPcm ⟨0, by decide⟩ = true ∧ ¬ Good s := by
  refine ⟨_, opened_codecAndHdmi, rfl, by decide +kernel, by decide +kernel, fun hgood => ?_⟩
  have hclean := hgood.clean (by decide +kernel)
  exact absurd (hclean.1 ⟨0, by decide⟩).1 (by decide +kernel)

end Softwinner.Audio.OutputStream
