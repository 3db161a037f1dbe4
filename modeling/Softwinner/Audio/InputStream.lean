import Mathlib.Logic.Function.Basic
import Mathlib.Tactic.SplitIfs
import Softwinner.Audio.AfLifetime
import Softwinner.Audio.OutputStream
import Softwinner.Framework.Runs

/-!
# The input streams

`in_read`, `in_standby`, `in_set_parameters`, the effects, opens and closes of input streams, and
`adev_set_mode`, for all input streams of a device.

The pcm of a stream is opened by the first `in_read`, by `start_input_stream`.  Two things go wrong.
A start that fails leaves the closed pcm in the stream, or an open one.  And a read from the AF
ring leaves standby without a pcm; when the ring is gone, which another stream may bring about, the
next read goes to the card.  `good_iff_started` says that nothing else does.

The ring is that of `AfLifetime`, without its contents; echo references and the mixer are left out.
-/

namespace Softwinner.Audio.InputStream

open OutputStream (Mode Card maxAudioDevices)

/-! ## State -/

/-- What a pointer to a pcm or a resampler points to. -/
inductive Handle
  | null | live | freed
  deriving DecidableEq

/-- What is released is not set to null. -/
def Handle.release : Handle → Handle
  | .null => .null
  | _ => .freed

/-- `sunxi_stream_in`. -/
structure In where
  requestedRate : ℕ
  /-- `config.rate`. -/
  rate : ℕ
  source : ℤ
  device : BitVec 32
  pcm : Handle
  resampler : Handle
  standby : Bool
  preprocessors : List ℕ
  needEchoReference : Bool
  /-- For the specification: standby was left by a read from the AF ring. -/
  viaAf : Bool

/-- The device, and its streams by their number. -/
structure State where
  ring : AfLifetime.State
  ins : ℕ → In
  activeInput : Option ℕ
  mode : Mode
  inCall : Bool
  /-- The card exists, is for capture, and is active. -/
  captures : Card → Bool

/-- What `in_read` finds outside: `pcm_open_req`, which chooses the rate, by card and rate, and
`create_resampler`. -/
structure ReadInput where
  pcmOpenReq : ℕ → ℕ → Option ℕ
  createResampler : Bool

/-- The keys of an `in_set_parameters`. -/
structure ParamsInput where
  inputSource : Option ℤ
  routing : Option (BitVec 32)
  devicesInActive : Bool

def samplingRate8K : ℕ := 8000
def samplingRate11K : ℕ := 11025
def samplingRate44K : ℕ := 44100
def maxPreprocessors : ℕ := 3
def deviceBitIn : BitVec 32 := 0x80000000

/-- Capture is at a rate of the 44.1K series. -/
def In.ajustRate (i : In) : ℕ :=
  if i.requestedRate % samplingRate11K = 0 then i.requestedRate
  else min (samplingRate11K * i.requestedRate / samplingRate8K) samplingRate44K

/-- A stream from `adev_open_input_stream`. -/
def newIn (requestedRate : ℕ) (device : BitVec 32) : In :=
  ⟨requestedRate, samplingRate44K, 0, device &&& ~~~ deviceBitIn, .null, .null, true, [], false,
    false⟩

/-- `AUDIO_PARAMETER_STREAM_INPUT_SOURCE`, and whether it asks for standby. -/
def In.setSource (i : In) : Option ℤ → In × Bool
  | some val => if i.source ≠ val ∧ val ≠ 0 then ({ i with source := val }, true) else (i, false)
  | none => (i, false)

/-- `AUDIO_PARAMETER_STREAM_ROUTING`, and whether it asks for standby. -/
def In.setDevice (i : In) (mode : Mode) : Option (BitVec 32) → In × Bool
  | some val =>
    let val := val &&& ~~~ deviceBitIn
    if mode ≠ .inCall ∧ i.device ≠ val ∧ val ≠ 0 then ({ i with device := val }, true)
    -- in a call, it is the source that is compared
    else if mode = .inCall ∧ i.source ≠ val.toInt ∧ val ≠ 0 then ({ i with device := val }, false)
    else (i, false)
  | none => (i, false)

namespace State

variable (s : State) (id : ℕ)

/-- The stream has been opened and not been closed. -/
def IsOpen : Prop := ∃ y ∈ s.ring.streams, y.id = id

instance : Decidable (s.IsOpen id) := inferInstanceAs (Decidable (∃ y ∈ _, _ = _))

/-- The stream and `active_input` are set. -/
def put (i : In) (active : Option ℕ) : State :=
  { s with ins := Function.update s.ins id i, activeInput := active }

def setIn (i : In) : State := s.put id i s.activeInput

/-- Reads are from the AF ring. -/
def afMode : Bool := s.ring.afCaptureFlag && s.ring.pcmManager.bufExist

/-- The first card that captures, or one behind the table. -/
def card : ℕ :=
  match (List.finRange maxAudioDevices).find? s.captures with
  | some c => c.val
  | none => maxAudioDevices

/-! ## Calls -/

def startInputStream (x : ReadInput) : State × Bool :=
  let i := s.ins id
  if s.mode = .inCall then (s.put id i (some id), true)
  else
    match x.pcmOpenReq s.card i.ajustRate with
    | none => (s.put id { i with pcm := .freed } none, false)
    | some rate =>
      let i := { i with rate := rate, pcm := .live }
      if i.requestedRate ≠ rate then
        if x.createResampler then (s.put id { i with resampler := .live } (some id), true)
        else (s.put id { i with resampler := i.resampler.release } (some id), false)
      else (s.put id i (some id), true)

/-- `in_read`, and the pcm that is read from. -/
def inRead (x : ReadInput) : State × Option Handle :=
  if s.mode = .inCall then (s, none)
  else if s.afMode then
    if (s.ins id).standby then
      (s.setIn id { s.ins id with standby := false, viaAf := true }, none)
    else (s, none)
  else if (s.ins id).standby then
    match s.startInputStream id x with
    | (s, true) => (s.setIn id { s.ins id with standby := false }, some (s.ins id).pcm)
    | (s, false) => (s, none)
  else (s, some (s.ins id).pcm)

/-- `do_input_standby`; `pcm_close` is called on null too. -/
def doInputStandby : State :=
  if (s.ins id).standby then s
  else
    s.put id { s.ins id with pcm := .null, resampler := .null, standby := true, viaAf := false }
      none

def inSetParameters (x : ParamsInput) : State :=
  let (i, newSource) := (s.ins id).setSource x.inputSource
  let (i, newDevice) := i.setDevice s.mode x.routing
  if newSource || newDevice || x.devicesInActive then (s.setIn id i).doInputStandby id
  else s.setIn id i

/-- `in_add_audio_effect`; the descriptor says whether the effect is an AEC. -/
def inAddAudioEffect (effect : ℕ) (descriptor : Option Bool) : State :=
  let i := s.ins id
  if maxPreprocessors ≤ i.preprocessors.length then s
  else
    match descriptor with
    | none => s
    | some aec =>
      let i := { i with preprocessors := i.preprocessors ++ [effect] }
      if aec then (s.setIn id { i with needEchoReference := true }).doInputStandby id
      else s.setIn id i

def inRemoveAudioEffect (effect : ℕ) (descriptor : Option Bool) : State :=
  let i := s.ins id
  if effect ∈ i.preprocessors then
    let i := { i with preprocessors := i.preprocessors.erase effect }
    match descriptor with
    | some true => (s.setIn id { i with needEchoReference := false }).doInputStandby id
    | _ => s.setIn id i
  else s

/-- `force_all_standby`, for the input. -/
def forceAllStandby : State :=
  match s.activeInput with
  | some id => s.doInputStandby id
  | none => s

/-- The first half of `select_mode`: a call is entered or left. -/
def selectCall : State :=
  if s.mode = .inCall ∨ s.mode = .factoryTest then
    if s.inCall then s else { s.forceAllStandby with inCall := true }
  else if s.inCall then State.forceAllStandby { s with inCall := false }
  else s

def selectMode : State :=
  if s.selectCall.mode = .fm then s.selectCall.forceAllStandby else s.selectCall

def setMode (mode : Mode) : State :=
  if s.mode ≠ mode then selectMode { s with mode := mode } else s

end State

inductive Call
  | inRead (id : ℕ) (x : ReadInput)
  | inStandby (id : ℕ)
  | inSetParameters (id : ℕ) (x : ParamsInput)
  | inAddAudioEffect (id effect : ℕ) (descriptor : Option Bool)
  | inRemoveAudioEffect (id effect : ℕ) (descriptor : Option Bool)
  | openInputStream (x : AfLifetime.OpenInput) (device : BitVec 32)
  | closeInputStream (id : ℕ)
  | setMode (mode : Mode)

def State.step (s : State) : Call → Option State
  | .inRead id x => if s.IsOpen id then some (s.inRead id x).1 else none
  | .inStandby id => if s.IsOpen id then some (s.doInputStandby id) else none
  | .inSetParameters id x => if s.IsOpen id then some (s.inSetParameters id x) else none
  | .inAddAudioEffect id effect descriptor =>
    if s.IsOpen id then some (s.inAddAudioEffect id effect descriptor) else none
  | .inRemoveAudioEffect id effect descriptor =>
    if s.IsOpen id then some (s.inRemoveAudioEffect id effect descriptor) else none
  | .openInputStream x device =>
    (s.ring.step (.openInputStream x)).map fun ring =>
      { s.setIn s.ring.opens (newIn x.sampleRate.toNat device) with ring := ring }
  | .closeInputStream id =>
    (s.ring.step (.closeInputStream id)).map fun ring =>
      { s.doInputStandby id with ring := ring }
  | .setMode mode => some (s.setMode mode)

/-- The device after `adev_open`. -/
def fresh (pcmManager : AfLifetime.PcmManager) (captures : Card → Bool) : State :=
  ⟨AfLifetime.fresh pcmManager, fun _ => newIn 0 0, none, .normal, false, captures⟩

/-! ## The property, and the condition -/

/-- A stream in standby has nothing open and is not the active one. -/
def Good (s : State) : Prop :=
  ∀ id, s.IsOpen id → (s.ins id).standby = true →
    (s.ins id).pcm = .null ∧ (s.ins id).resampler = .null ∧ s.activeInput ≠ some id

/-- What is read from is an open pcm. -/
def ReadsLive (c : Call) (s _ : State) : Prop :=
  match c with
  | .inRead id x => ∀ h, (s.inRead id x).2 = some h → h = .live
  | _ => True

/-- The pcm of the stream can be opened, with its resampler. -/
def State.CanStart (s : State) (id : ℕ) (x : ReadInput) : Prop :=
  ∃ rate, x.pcmOpenReq s.card (s.ins id).ajustRate = some rate ∧
    ((s.ins id).requestedRate ≠ rate → x.createResampler = true)

/-- A read from the card can start the stream, if it has to, and is not made on a stream that a
read from the ring brought out of standby. -/
def Started (c : Call) (s : State) : Prop :=
  match c with
  | .inRead id x => s.mode ≠ .inCall → s.afMode = false →
      if (s.ins id).standby then s.CanStart id x else (s.ins id).viaAf = false
  | _ => True

/-- What holds of every stream. -/
structure In.Ok (i : In) : Prop where
  standby : i.standby = true → i.pcm = .null ∧ i.resampler = .null
  via : i.standby = true → i.viaAf = false
  started : i.standby = false → (i.pcm = .live ↔ i.viaAf = false)

/-- What holds as long as all calls satisfy the condition.  A number that was not given out yet is
in standby, so that it cannot be the active one. -/
structure Inv (s : State) : Prop where
  ok : ∀ id, (s.ins id).Ok
  active : ∀ id, s.activeInput = some id → (s.ins id).standby = false
  fresh : ∀ id, s.ring.opens ≤ id → (s.ins id).standby = true
  opens : ∀ y ∈ s.ring.streams, y.id < s.ring.opens

variable {s s' : State} {id : ℕ} {x : ReadInput} {c : Call}

@[simp] lemma ins_put (i : In) (active : Option ℕ) : (s.put id i active).ins id = i :=
  Function.update_self ..

@[simp] lemma setIn_put (i j : In) (active : Option ℕ) :
    (s.put id i active).setIn id j = s.put id j active := by
  simp [State.setIn, State.put]

lemma In.Ok.of_standby {i : In} (hstandby : i.standby = true) (hpcm : i.pcm = .null)
    (hresampler : i.resampler = .null) (hvia : i.viaAf = false) : i.Ok :=
  ⟨fun _ => ⟨hpcm, hresampler⟩, fun _ => hvia, fun h => nomatch hstandby.symm.trans h⟩

lemma In.Ok.of_started {i : In} (hstandby : i.standby = false)
    (hpcm : i.pcm = .live ↔ i.viaAf = false) : i.Ok :=
  have hnot : i.standby ≠ true := Bool.eq_false_iff.mp hstandby
  ⟨fun h => absurd h hnot, fun h => absurd h hnot, fun _ => hpcm⟩

lemma Inv.good (hs : Inv s) : Good s := by
  intro id _ hstandby
  obtain ⟨hpcm, hresampler⟩ := (hs.ok id).standby hstandby
  refine ⟨hpcm, hresampler, fun hactive => ?_⟩
  exact nomatch hstandby.symm.trans (hs.active id hactive)

lemma Inv.not_fresh (hs : Inv s) (hopen : s.IsOpen id) : ¬ s.ring.opens ≤ id := by
  obtain ⟨y, hy, rfl⟩ := hopen
  exact Nat.not_le.mpr (hs.opens y hy)

/-! ## Updates of one stream -/

/-- A stream gets a new value that is in order, and the active stream is one that is not in
standby. -/
lemma Inv.update (hs : Inv s) {i : In} (hi : i.Ok) (hfresh : s.ring.opens ≤ id → i.standby = true)
    {active : Option ℕ}
    (hactive : ∀ j, active = some j → (Function.update s.ins id i j).standby = false) :
    Inv (s.put id i active) := by
  refine ⟨fun j => ?_, hactive, fun j hj => ?_, hs.opens⟩
  · show (Function.update s.ins id i j).Ok
    rcases eq_or_ne j id with rfl | hne
    · rw [Function.update_self]
      exact hi
    · rw [Function.update_of_ne hne]
      exact hs.ok j
  · show (Function.update s.ins id i j).standby = true
    rcases eq_or_ne j id with rfl | hne
    · rw [Function.update_self]
      exact hfresh hj
    · rw [Function.update_of_ne hne]
      exact hs.fresh j hj

/-- A change that does not touch standby keeps the active stream. -/
lemma Inv.setIn (hs : Inv s) {i : In} (hi : i.Ok) (hfresh : s.ring.opens ≤ id → i.standby = true)
    (hstandby : (s.ins id).standby = false → i.standby = false) : Inv (s.setIn id i) := by
  refine hs.update hi hfresh fun j hj => ?_
  rcases eq_or_ne j id with rfl | hne
  · rw [Function.update_self]
    exact hstandby (hs.active j hj)
  · rw [Function.update_of_ne hne]
    exact hs.active j hj

lemma Inv.doInputStandby (hs : Inv s) (id : ℕ) : Inv (s.doInputStandby id) := by
  unfold State.doInputStandby
  split_ifs with hstandby
  · exact hs
  · exact hs.update (.of_standby rfl rfl rfl rfl) (fun _ => rfl) nofun

@[simp] lemma ring_doInputStandby (s : State) (id : ℕ) : (s.doInputStandby id).ring = s.ring := by
  unfold State.doInputStandby
  split_ifs
  · rfl
  · rfl

/-! ## Reads -/

/-- A start that succeeds. -/
lemma State.CanStart.startInputStream (hstart : s.CanStart id x) (hmode : s.mode ≠ .inCall) :
    ∃ rate resampler, s.startInputStream id x =
      (s.put id { s.ins id with rate := rate, pcm := .live, resampler := resampler } (some id),
        true) := by
  obtain ⟨rate, hrate, hcreate⟩ := hstart
  refine ⟨rate, ?_⟩
  simp only [State.startInputStream, hmode, if_false, hrate]
  split_ifs with hne hres
  · exact ⟨.live, rfl⟩
  · exact absurd (hcreate hne) hres
  · exact ⟨(s.ins id).resampler, rfl⟩

/-- A start that fails leaves something in the stream. -/
lemma startInputStream_of_not_canStart (hstart : ¬ s.CanStart id x) (hmode : s.mode ≠ .inCall) :
    ∃ pcm rate resampler active, pcm ≠ .null ∧ s.startInputStream id x =
      (s.put id { s.ins id with rate := rate, pcm := pcm, resampler := resampler } active,
        false) := by
  simp only [State.startInputStream, hmode, if_false]
  cases hrate : x.pcmOpenReq s.card (s.ins id).ajustRate with
  | none => exact ⟨.freed, (s.ins id).rate, (s.ins id).resampler, none, nofun, rfl⟩
  | some rate =>
    simp only
    split_ifs with hne hres
    · exact absurd ⟨rate, hrate, fun _ => hres⟩ hstart
    · exact ⟨.live, rate, _, some id, nofun, rfl⟩
    · exact absurd ⟨rate, hrate, fun h => absurd h hne⟩ hstart

/-- A read under the condition. -/
lemma Inv.inRead (hs : Inv s) (hopen : s.IsOpen id) (hok : Started (.inRead id x) s) :
    Inv (s.inRead id x).1 ∧ ReadsLive (.inRead id x) s (s.inRead id x).1 := by
  have hid {p : Prop} (h : s.ring.opens ≤ id) : p := absurd h (hs.not_fresh hopen)
  show Inv (s.inRead id x).1 ∧ ∀ h, (s.inRead id x).2 = some h → h = .live
  simp only [Started] at hok
  unfold State.inRead
  split_ifs with hmode haf hstandby hstandby
  · exact ⟨hs, nofun⟩
  · -- from the ring
    obtain ⟨hpcm, -⟩ := (hs.ok id).standby hstandby
    exact ⟨hs.setIn (.of_started rfl (by simp [hpcm])) hid fun _ => rfl, nofun⟩
  · exact ⟨hs, nofun⟩
  · have hstart : s.CanStart id x := by
      simpa [hstandby] using hok hmode (by simpa using haf)
    obtain ⟨rate, resampler, hs1⟩ := hstart.startInputStream hmode
    have hvia := (hs.ok id).via hstandby
    simp only [hs1, ins_put, setIn_put]
    refine ⟨hs.update (.of_started rfl (by simp [hvia])) hid fun j hj => ?_, fun h hh => ?_⟩
    · obtain rfl := Option.some.inj hj
      rw [Function.update_self]
    · exact (Option.some.inj hh).symm
  · have hvia : (s.ins id).viaAf = false := by
      simpa [hstandby] using hok hmode (by simpa using haf)
    rw [Bool.not_eq_true] at hstandby
    refine ⟨hs, fun h hh => ?_⟩
    obtain rfl := Option.some.inj hh
    exact ((hs.ok id).started hstandby).mpr hvia

/-- A read that is good satisfies the condition. -/
lemma Inv.started_of_good (hs : Inv s) (hopen : s.IsOpen id) (hgood : Good (s.inRead id x).1)
    (hlive : ReadsLive (.inRead id x) s (s.inRead id x).1) : Started (.inRead id x) s := by
  intro hmode haf
  have hlive : ∀ h, (s.inRead id x).2 = some h → h = .live := hlive
  split_ifs with hstandby
  · by_contra hstart
    obtain ⟨pcm, rate, resampler, active, hpcm, hs1⟩ := startInputStream_of_not_canStart hstart hmode
    have hread : (s.inRead id x).1 =
        s.put id { s.ins id with rate := rate, pcm := pcm, resampler := resampler } active := by
      simp [State.inRead, hmode, haf, hstandby, hs1]
    have hins : (s.inRead id x).1.ins id =
        { s.ins id with rate := rate, pcm := pcm, resampler := resampler } := by
      rw [hread, ins_put]
    have hopen' : (s.inRead id x).1.IsOpen id := by
      rw [hread]
      exact hopen
    obtain ⟨hnull, -⟩ := hgood id hopen' (by rw [hins]; exact hstandby)
    rw [hins] at hnull
    exact hpcm hnull
  · have hpcm := hlive (s.ins id).pcm (by simp [State.inRead, hmode, haf, hstandby])
    rw [Bool.not_eq_true] at hstandby
    exact ((hs.ok id).started hstandby).mp hpcm

/-! ## Other calls -/

/-- What standby looks at is the same. -/
def In.SameUse (i j : In) : Prop :=
  j.standby = i.standby ∧ j.pcm = i.pcm ∧ j.resampler = i.resampler ∧ j.viaAf = i.viaAf

lemma In.Ok.sameUse {i j : In} (hi : i.Ok) (h : i.SameUse j) : j.Ok := by
  obtain ⟨hstandby, hpcm, hresampler, hvia⟩ := h
  refine ⟨?_, ?_, ?_⟩
  · rw [hstandby, hpcm, hresampler]
    exact hi.standby
  · rw [hstandby, hvia]
    exact hi.via
  · rw [hstandby, hpcm, hvia]
    exact hi.started

lemma Inv.setIn_sameUse (hs : Inv s) (hopen : s.IsOpen id) {i : In} (h : (s.ins id).SameUse i) :
    Inv (s.setIn id i) :=
  hs.setIn ((hs.ok id).sameUse h) (fun hfresh => absurd hfresh (hs.not_fresh hopen))
    fun hfalse => h.1.trans hfalse

lemma sameUse_setSource (i : In) (val : Option ℤ) : i.SameUse (i.setSource val).1 := by
  unfold In.setSource
  split
  · split_ifs
    · exact ⟨rfl, rfl, rfl, rfl⟩
    · exact ⟨rfl, rfl, rfl, rfl⟩
  · exact ⟨rfl, rfl, rfl, rfl⟩

lemma sameUse_setDevice (i : In) (mode : Mode) (val : Option (BitVec 32)) :
    i.SameUse (i.setDevice mode val).1 := by
  unfold In.setDevice
  split
  · simp only
    split_ifs
    · exact ⟨rfl, rfl, rfl, rfl⟩
    · exact ⟨rfl, rfl, rfl, rfl⟩
    · exact ⟨rfl, rfl, rfl, rfl⟩
  · exact ⟨rfl, rfl, rfl, rfl⟩

lemma In.SameUse.trans {i j k : In} (hij : i.SameUse j) (hjk : j.SameUse k) : i.SameUse k := by
  obtain ⟨h1, h2, h3, h4⟩ := hij
  obtain ⟨g1, g2, g3, g4⟩ := hjk
  exact ⟨g1.trans h1, g2.trans h2, g3.trans h3, g4.trans h4⟩

lemma Inv.inSetParameters (hs : Inv s) (hopen : s.IsOpen id) (x : ParamsInput) :
    Inv (s.inSetParameters id x) := by
  have hset := hs.setIn_sameUse hopen
    ((sameUse_setSource (s.ins id) x.inputSource).trans
      (sameUse_setDevice ((s.ins id).setSource x.inputSource).1 s.mode x.routing))
  simp only [State.inSetParameters]
  split_ifs
  · exact hset.doInputStandby id
  · exact hset

lemma Inv.inAddAudioEffect (hs : Inv s) (hopen : s.IsOpen id) (effect : ℕ)
    (descriptor : Option Bool) : Inv (s.inAddAudioEffect id effect descriptor) := by
  have hset {i : In} (h : (s.ins id).SameUse i) := hs.setIn_sameUse hopen h
  simp only [State.inAddAudioEffect]
  split_ifs
  · exact hs
  · split
    · exact hs
    · split_ifs
      · refine Inv.doInputStandby (hset ?_) id
        exact ⟨rfl, rfl, rfl, rfl⟩
      · exact hset ⟨rfl, rfl, rfl, rfl⟩

lemma Inv.inRemoveAudioEffect (hs : Inv s) (hopen : s.IsOpen id) (effect : ℕ)
    (descriptor : Option Bool) : Inv (s.inRemoveAudioEffect id effect descriptor) := by
  have hset {i : In} (h : (s.ins id).SameUse i) := hs.setIn_sameUse hopen h
  simp only [State.inRemoveAudioEffect]
  split_ifs
  · split
    · refine Inv.doInputStandby (hset ?_) id
      exact ⟨rfl, rfl, rfl, rfl⟩
    · exact hset ⟨rfl, rfl, rfl, rfl⟩
  · exact hs

lemma Inv.forceAllStandby (hs : Inv s) : Inv s.forceAllStandby := by
  unfold State.forceAllStandby
  split
  · exact hs.doInputStandby _
  · exact hs

/-- The mode and the flag of a call do not matter. -/
lemma Inv.withMode (hs : Inv s) (mode : Mode) (inCall : Bool) :
    Inv { s with mode := mode, inCall := inCall } :=
  ⟨hs.ok, hs.active, hs.fresh, hs.opens⟩

lemma Inv.selectCall (hs : Inv s) : Inv s.selectCall := by
  unfold State.selectCall
  split_ifs
  · exact hs
  · exact hs.forceAllStandby.withMode _ true
  · exact (hs.withMode s.mode false).forceAllStandby
  · exact hs

lemma Inv.setMode (hs : Inv s) (mode : Mode) : Inv (s.setMode mode) := by
  unfold State.setMode
  split_ifs
  · have hcall := (hs.withMode mode s.inCall).selectCall
    unfold State.selectMode
    split_ifs
    · exact hcall.forceAllStandby
    · exact hcall
  · exact hs

/-- The numbers of the streams, behind an open or a close. -/
lemma ring_step {r r' : AfLifetime.State} {c : AfLifetime.Call}
    (hr : ∀ y ∈ r.streams, y.id < r.opens) (hstep : r.step c = some r') :
    (∀ y ∈ r'.streams, y.id < r'.opens) ∧ r.opens ≤ r'.opens := by
  have hadd (ring : Option ℕ) :
      ∀ y ∈ (⟨r.opens, ring⟩ : AfLifetime.Stream) :: r.streams, y.id < r.opens + 1 := by
    intro y hy
    rcases List.mem_cons.mp hy with rfl | hy
    · exact Nat.lt_succ_self _
    · exact Nat.lt_succ_of_lt (hr y hy)
  cases c with
  | openInputStream x =>
    simp only [AfLifetime.State.step] at hstep
    split_ifs at hstep
    · obtain rfl := Option.some.inj hstep
      simp only [AfLifetime.State.openRing]
      split_ifs
      · exact ⟨hadd _, Nat.le_succ _⟩
      · exact ⟨hr, Nat.le_refl _⟩
      · exact ⟨hadd _, Nat.le_succ _⟩
    · obtain rfl := Option.some.inj hstep
      exact ⟨hr, Nat.le_refl _⟩
  | closeInputStream id =>
    simp only [AfLifetime.State.step] at hstep
    split_ifs at hstep
    obtain rfl := Option.some.inj hstep
    exact ⟨fun y hy => hr y (List.mem_filter.mp hy).1, Nat.le_refl _⟩

lemma Inv.withRing (hs : Inv s) {c : AfLifetime.Call} {ring : AfLifetime.State}
    (hring : s.ring.step c = some ring) : Inv { s with ring := ring } := by
  obtain ⟨hopens, hle⟩ := ring_step hs.opens hring
  exact ⟨hs.ok, hs.active, fun id hid => hs.fresh id (Nat.le_trans hle hid), hopens⟩

/-- A new stream has a number of its own. -/
lemma Inv.setIn_newIn (hs : Inv s) (rate : ℕ) (device : BitVec 32) :
    Inv (s.setIn s.ring.opens (newIn rate device)) := by
  refine hs.setIn (.of_standby rfl rfl rfl rfl) (fun _ => rfl) fun hfalse => ?_
  have hfresh := hs.fresh s.ring.opens (Nat.le_refl _)
  exact nomatch hfresh.symm.trans hfalse

/-- A call under the condition keeps everything. -/
lemma Inv.step (hs : Inv s) (hok : Started c s) (hstep : s.step c = some s') :
    Inv s' ∧ ReadsLive c s s' := by
  cases c with
  | inRead id x =>
    simp only [State.step] at hstep
    split_ifs at hstep with hopen
    obtain rfl := Option.some.inj hstep
    exact hs.inRead hopen hok
  | inStandby id =>
    simp only [State.step] at hstep
    split_ifs at hstep
    obtain rfl := Option.some.inj hstep
    exact ⟨hs.doInputStandby id, trivial⟩
  | inSetParameters id x =>
    simp only [State.step] at hstep
    split_ifs at hstep with hopen
    obtain rfl := Option.some.inj hstep
    exact ⟨hs.inSetParameters hopen x, trivial⟩
  | inAddAudioEffect id effect descriptor =>
    simp only [State.step] at hstep
    split_ifs at hstep with hopen
    obtain rfl := Option.some.inj hstep
    exact ⟨hs.inAddAudioEffect hopen effect descriptor, trivial⟩
  | inRemoveAudioEffect id effect descriptor =>
    simp only [State.step] at hstep
    split_ifs at hstep with hopen
    obtain rfl := Option.some.inj hstep
    exact ⟨hs.inRemoveAudioEffect hopen effect descriptor, trivial⟩
  | openInputStream x device =>
    obtain ⟨ring, hring, rfl⟩ := Option.map_eq_some_iff.mp hstep
    exact ⟨(hs.setIn_newIn x.sampleRate.toNat device).withRing hring, trivial⟩
  | closeInputStream id =>
    obtain ⟨ring, hring, rfl⟩ := Option.map_eq_some_iff.mp hstep
    rw [← ring_doInputStandby s id] at hring
    exact ⟨(hs.doInputStandby id).withRing hring, trivial⟩
  | setMode mode =>
    obtain rfl := Option.some.inj hstep
    exact ⟨hs.setMode mode, trivial⟩

/-- A call that is good satisfies the condition. -/
lemma Inv.started (hs : Inv s) (hstep : s.step c = some s') (hlive : ReadsLive c s s')
    (hgood : Good s') : Started c s := by
  cases c with
  | inRead id x =>
    simp only [State.step] at hstep
    split_ifs at hstep with hopen
    obtain rfl := Option.some.inj hstep
    exact hs.started_of_good hopen hgood hlive
  | _ => exact trivial

lemma inv_fresh (pcmManager : AfLifetime.PcmManager) (captures : Card → Bool) :
    Inv (fresh pcmManager captures) :=
  ⟨fun _ => .of_standby rfl rfl rfl rfl, nofun, fun _ _ => rfl, nofun⟩

/-- **The input streams.**  Along any sequence of calls on any streams, a stream in standby has
nothing open and is not the active one, and a read from the card is from an open pcm, if and only
if every read from the card that has to start the stream can do so, and no other is made on a
stream that a read from the ring brought out of standby. -/
theorem good_iff_started (pcmManager : AfLifetime.PcmManager) (captures : Card → Bool)
    (cs : List Call) :
    Framework.Along State.step Good ReadsLive (fresh pcmManager captures) cs ↔
      Framework.Meets State.step Started (fresh pcmManager captures) cs :=
  Framework.along_iff_meets (fun hs => hs.good) (fun hs hok hstep => hs.step hok hstep)
    (fun hs hstep hlive hgood => hs.started hstep hlive hgood) cs (inv_fresh pcmManager captures)

/-- A device with no ring, and the first card for capture. -/
def oneCard : State := fresh ⟨false, none, 0, none, 0, none, 0, 0, 0⟩ fun c => c.val = 0

/-- An open at 44.1K that succeeds. -/
def openCall (af : Bool) : Call := .openInputStream ⟨af, 44100, true, true, true, true⟩ 4

/-- `pcm_open_req` fails: the stream keeps the closed pcm.  Or the ring of a stream is taken by the
open of another one: the stream reads from null. -/
theorem null_pcm_read :
    (∃ s, [openCall false, .inRead 0 ⟨fun _ _ => none, true⟩].foldlM State.step oneCard = some s ∧
      ¬ Good s) ∧
    ∃ s, [openCall true, .inRead 0 ⟨fun _ rate => some rate, true⟩, openCall false].foldlM
        State.step oneCard = some s ∧
      (s.inRead 0 ⟨fun _ rate => some rate, true⟩).2 = some .null := by
  refine ⟨⟨_, rfl, fun hgood => ?_⟩, _, rfl, by decide +kernel⟩
  obtain ⟨hpcm, -⟩ := hgood 0 (by decide +kernel) (by decide +kernel)
  exact absurd hpcm (by decide +kernel)

end Softwinner.Audio.InputStream
