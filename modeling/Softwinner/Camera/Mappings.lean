import Softwinner.Camera.Connection
import Softwinner.Framework.Table

/-!
# What the device has obtained

What is open, mapped and allocated in any run of the device.  The device node is never left open
and never closed twice; a mapping or a block is lost exactly by a start that fails behind its first
mapping, because `CHECK_NO_ERROR` closes the node and nothing else, and by a failed `munmap`.
-/

namespace Softwinner.Camera.Connection

open Framework

/-! ## Clean steps -/

/-- All buffers are mapped, and the stream starts. -/
def Completes (d : Driver) (cnt : ℕ) : Prop :=
  (∀ i < cnt, d.buffer i = .ok) ∧ d.streamOn = true

/-- At least one buffer is mapped. -/
def MapsFirst (d : Driver) (cnt : ℕ) : Prop :=
  0 < cnt ∧ (d.buffer 0 = .notQueued ∨ d.buffer 0 = .ok)

/-- A start that maps a buffer completes, and no `munmap` fails. -/
def Clean : Driver × Call → State → Prop
  | (d, .startDevice), s => s.deviceState = .connected → s.cameraFd.isSome = true →
      d.setFmt = true → ∀ cnt, d.reqBufs s.wanted = some cnt → MapsFirst d cnt → Completes d cnt
  | (d, .stopDevice), s => s.deviceState = .started → ∀ i < s.bufferCnt, d.munmap i = true
  | _, _ => True

/-! ## The buffers -/

section Buffers

variable {s t : State} {d : Driver} {i n cnt : ℕ}

/-- What the table of the buffers and their memory are while the first `i` are mapped. -/
structure Loaded (i : ℕ) (s : State) : Prop where
  maps : s.maps.Filling (fun _ => False) s.mapMem i
  usb : s.isUsbCamera = true →
    s.blocks.Filling (fun h => s.picBuffer = some h) s.bufVirAddr i
  other : s.isUsbCamera = false →
    s.blocks.Balanced (fun h => s.picBuffer = some h) ∧ ∀ j, s.bufVirAddr j = none

lemma Loaded.next (h : Loaded i s) : Loaded (i + 1) ((s.mapBuf i).allocBuf i) := by
  unfold State.allocBuf
  split_ifs with husb
  · refine ⟨h.maps.push, fun _ => (h.usb husb).push, fun hno => ?_⟩
    exact absurd (husb.symm.trans hno) (by decide)
  · exact ⟨h.maps.push, fun hyes => absurd hyes husb, h.other⟩

/-- The fields that the buffers are not kept in. -/
lemma allocBuf_kept : ∃ blocks bufVirAddr, s.allocBuf i =
    { s with blocks := blocks, bufVirAddr := bufVirAddr } := by
  unfold State.allocBuf
  split_ifs
  · exact ⟨_, _, rfl⟩
  · exact ⟨_, _, rfl⟩

lemma queryBuf_kept (n : ℕ) : ∀ {s : State} {i : ℕ}, ∃ maps mapMem blocks bufVirAddr,
    (State.queryBuf d s i n).1 =
      { s with maps := maps, mapMem := mapMem, blocks := blocks, bufVirAddr := bufVirAddr } := by
  induction n with
  | zero => exact fun {s i} => ⟨_, _, _, _, rfl⟩
  | succ n ih =>
    intro s i
    unfold State.queryBuf
    split
    · exact ⟨_, _, _, _, rfl⟩
    · exact ⟨_, _, _, _, rfl⟩
    · exact ⟨_, _, _, _, rfl⟩
    · obtain ⟨blocks, bufVirAddr, halloc⟩ := allocBuf_kept (s := s.mapBuf i) (i := i)
      obtain ⟨maps, mapMem, blocks', bufVirAddr', hrest⟩ :=
        ih (s := (s.mapBuf i).allocBuf i) (i := i + 1)
      exact ⟨maps, mapMem, blocks', bufVirAddr', by rw [hrest, halloc]; rfl⟩

lemma queryBuf_loaded (n : ℕ) : ∀ {s : State} {i : ℕ}, Loaded i s →
    (State.queryBuf d s i n).2 = true → Loaded (i + n) (State.queryBuf d s i n).1 := by
  induction n with
  | zero => exact fun {s i} h _ => h
  | succ n ih =>
    intro s i h hok
    unfold State.queryBuf at hok ⊢
    split at hok
    · cases hok
    · cases hok
    · cases hok
    · rw [show i + (n + 1) = i + 1 + n by omega]
      exact ih h.next hok

lemma queryBuf_ok_iff (n : ℕ) : ∀ {s : State} {i : ℕ},
    (State.queryBuf d s i n).2 = true ↔ ∀ j, i ≤ j → j < i + n → d.buffer j = .ok := by
  induction n with
  | zero => exact fun {s i} => iff_of_true rfl fun j hle hlt => by omega
  | succ n ih =>
    intro s i
    have hfirst : (∀ j, i ≤ j → j < i + (n + 1) → d.buffer j = .ok) ↔
        d.buffer i = .ok ∧ ∀ j, i + 1 ≤ j → j < i + 1 + n → d.buffer j = .ok := by
      refine ⟨fun h => ⟨h i (Nat.le_refl i) (by omega), fun j hle hlt => h j (by omega) (by omega)⟩,
        fun h j hle hlt => ?_⟩
      by_cases hj : j = i
      · exact hj ▸ h.1
      · exact h.2 j (by omega) (by omega)
    rw [hfirst]
    cases hbuffer : d.buffer i with
    | ok =>
      simp only [State.queryBuf, hbuffer, true_and]
      exact ih
    | _ => simp only [State.queryBuf, hbuffer, reduceCtorEq, false_and, Bool.false_eq_true]

/-- A first buffer that is not mapped leaves everything as it is. -/
lemma queryBuf_unmapped (hfirst : d.buffer i = .notQueried ∨ d.buffer i = .notMapped) :
    ∃ mapMem, (State.queryBuf d s i n).1 = { s with mapMem := mapMem } := by
  cases n with
  | zero => exact ⟨_, rfl⟩
  | succ n => rcases hfirst with h | h <;> exact ⟨_, by simp only [State.queryBuf, h]; rfl⟩

lemma queryBuf_of_not_mapsFirst (h : ¬ MapsFirst d cnt) :
    ∃ mapMem, (State.queryBuf d s 0 cnt).1 = { s with mapMem := mapMem } := by
  by_cases hcnt : 0 < cnt
  · refine queryBuf_unmapped ?_
    have hfirst : ¬ (d.buffer 0 = .notQueued ∨ d.buffer 0 = .ok) := fun hf => h ⟨hcnt, hf⟩
    cases hbuffer : d.buffer 0 with
    | notQueried => exact .inl rfl
    | notMapped => exact .inr rfl
    | notQueued => exact absurd (.inl hbuffer) hfirst
    | ok => exact absurd (.inr hbuffer) hfirst
  · rw [Nat.eq_zero_of_not_pos hcnt]
    exact ⟨_, rfl⟩

/-- A mapping that nothing refers to. -/
structure Lost (s : State) (h : ℕ) : Prop where
  lt : h < s.maps.next
  live : s.maps.released h = 0
  entries : s.deviceState = .started → ∀ j < s.bufferCnt, s.mapMem j ≠ some h

/-- What is mapped from here on is new. -/
lemma queryBuf_new (n : ℕ) : ∀ {s : State} {i : ℕ},
    (State.queryBuf d s i n).1.maps.released = s.maps.released ∧
      s.maps.next ≤ (State.queryBuf d s i n).1.maps.next ∧
      (∀ j < i, (State.queryBuf d s i n).1.mapMem j = s.mapMem j) ∧
      ((State.queryBuf d s i n).2 = true → ∀ j, i ≤ j → j < i + n →
        ∀ h, (State.queryBuf d s i n).1.mapMem j = some h → s.maps.next ≤ h) := by
  induction n with
  | zero => exact fun {s i} => ⟨rfl, Nat.le_refl _, fun _ _ => rfl, fun _ j hle hlt => by omega⟩
  | succ n ih =>
    intro s i
    have hother : ∀ v, ∀ j < i, Function.update s.mapMem i v j = s.mapMem j :=
      fun v j hj => Function.update_of_ne (Nat.ne_of_lt hj) ..
    unfold State.queryBuf
    split
    · exact ⟨rfl, Nat.le_refl _, fun _ _ => rfl, fun hok => by cases hok⟩
    · exact ⟨rfl, Nat.le_refl _, hother _, fun hok => by cases hok⟩
    · exact ⟨rfl, Nat.le_succ _, hother _, fun hok => by cases hok⟩
    · obtain ⟨blocks, bufVirAddr, halloc⟩ := allocBuf_kept (s := s.mapBuf i) (i := i)
      obtain ⟨hreleased, hnext, hbelow, hnew⟩ := ih (s := (s.mapBuf i).allocBuf i) (i := i + 1)
      have hmaps : ((s.mapBuf i).allocBuf i).maps = s.maps.alloc := by rw [halloc]; rfl
      have hmem : ((s.mapBuf i).allocBuf i).mapMem =
          Function.update s.mapMem i (some s.maps.next) := by rw [halloc]; rfl
      rw [hmaps] at hreleased hnext hnew
      refine ⟨hreleased, Nat.le_of_succ_le hnext, fun j hj => ?_, fun hok j hle hlt h hj => ?_⟩
      · rw [hbelow j (by omega), hmem, hother _ j hj]
      · by_cases hij : j = i
        · rw [hij, hbelow i (Nat.lt_succ_self i), hmem, Function.update_self] at hj
          exact Nat.le_of_eq (Option.some.inj hj)
        · exact Nat.le_of_succ_le (hnew hok j (by omega) (by omega) h hj)

/-- Where the first buffer is mapped, there is a new mapping. -/
lemma queryBuf_maps_first (hn : 0 < n) (hfirst : d.buffer i = .notQueued ∨ d.buffer i = .ok) :
    s.maps.next < (State.queryBuf d s i n).1.maps.next := by
  obtain ⟨n, rfl⟩ := Nat.exists_eq_succ_of_ne_zero (Nat.ne_of_gt hn)
  rcases hfirst with hfirst | hfirst
  · simp only [State.queryBuf, hfirst]
    exact Nat.lt_succ_self _
  · simp only [State.queryBuf, hfirst]
    obtain ⟨blocks, bufVirAddr, halloc⟩ := allocBuf_kept (s := s.mapBuf i) (i := i)
    refine Nat.lt_of_lt_of_le ?_ (queryBuf_new n).2.1
    rw [halloc]
    exact Nat.lt_succ_self _

/-! ## The release of the buffers -/

lemma unmapBuf_kept (n : ℕ) : ∀ {s : State} {i : ℕ}, ∃ maps mapMem blocks,
    State.unmapBuf d s i n = { s with maps := maps, mapMem := mapMem, blocks := blocks } := by
  induction n with
  | zero => exact fun {s i} => ⟨_, _, _, rfl⟩
  | succ n ih =>
    intro s i
    unfold State.unmapBuf
    split_ifs
    · obtain ⟨maps, mapMem, blocks, hrest⟩ := ih (s := s.unmap i) (i := i + 1)
      exact ⟨maps, mapMem, blocks, hrest⟩
    · exact ⟨_, _, _, rfl⟩

/-- What the buffers from `i` on still hold. -/
structure Unloading (i n : ℕ) (s : State) : Prop where
  maps : s.maps.Holds (fun _ => False) s.mapMem i n
  usb : s.isUsbCamera = true → s.blocks.Holds (fun h => s.picBuffer = some h) s.bufVirAddr i n
  other : s.isUsbCamera = false →
    s.blocks.Balanced (fun h => s.picBuffer = some h) ∧ ∀ j, s.bufVirAddr j = none

lemma Unloading.next (h : Unloading i cnt s) (hi : i < cnt) :
    Unloading (i + 1) cnt (s.unmap i) := by
  refine ⟨h.maps.pop hi fun j hj => Function.update_of_ne (Nat.ne_of_gt hj) ..,
    fun husb => (h.usb husb).pop hi fun _ _ => rfl, fun hno => ⟨?_, (h.other hno).2⟩⟩
  show (s.blocks.releaseIf (s.bufVirAddr i)).Balanced _
  rw [(h.other hno).2 i]
  exact (h.other hno).1

lemma unmapBuf_unloads (n : ℕ) : ∀ {s : State} {i : ℕ}, Unloading i (i + n) s →
    (∀ j, i ≤ j → j < i + n → d.munmap j = true) →
      Unloading (i + n) (i + n) (State.unmapBuf d s i n) := by
  induction n with
  | zero => exact fun {s i} h _ => h
  | succ n ih =>
    intro s i h hunmap
    unfold State.unmapBuf
    rw [if_pos (hunmap i (Nat.le_refl i) (by omega))]
    have hnext := h.next (Nat.lt_add_of_pos_right (Nat.succ_pos n))
    rw [show i + (n + 1) = i + 1 + n by omega] at hnext hunmap ⊢
    exact ih hnext fun j hle hlt => hunmap j (by omega) hlt

lemma releaseIf_of_ne {l : Ledger} {o : Option ℕ} {h : ℕ} (hne : o ≠ some h) :
    (l.releaseIf o).released h = l.released h := by
  rw [Ledger.releaseIf_released, if_neg hne]

/-- What is not in the table is not released, nor what is behind a failed `munmap`. -/
lemma unmapBuf_released (n : ℕ) : ∀ {s : State} {i h : ℕ},
    (∀ j, i ≤ j → j < i + n → s.mapMem j = some h → ∃ k, i ≤ k ∧ k ≤ j ∧ d.munmap k = false) →
      (State.unmapBuf d s i n).maps.released h = s.maps.released h ∧
        (State.unmapBuf d s i n).maps.next = s.maps.next := by
  induction n with
  | zero => exact fun {s i h} _ => ⟨rfl, rfl⟩
  | succ n ih =>
    intro s i h hkeep
    unfold State.unmapBuf
    split_ifs with hunmap
    · have hne : s.mapMem i ≠ some h := by
        intro hmem
        obtain ⟨k, hle, hge, hfail⟩ := hkeep i (Nat.le_refl i) (by omega) hmem
        obtain rfl : k = i := Nat.le_antisymm hge hle
        rw [hunmap] at hfail
        cases hfail
      have hrest := ih (s := s.unmap i) (i := i + 1) (h := h) fun j hle hlt hj => by
        rw [show (s.unmap i).mapMem j = s.mapMem j from
          Function.update_of_ne (by omega) ..] at hj
        obtain ⟨k, hik, hkj, hfail⟩ := hkeep j (by omega) (by omega) hj
        refine ⟨k, Nat.lt_of_le_of_ne hik fun heq => ?_, hkj, hfail⟩
        rw [← heq, hunmap] at hfail
        cases hfail
      exact ⟨hrest.1.trans (releaseIf_of_ne hne),
        hrest.2.trans (Ledger.releaseIf_next _)⟩
    · exact ⟨rfl, rfl⟩

end Buffers

/-! ## The calls -/

section Calls

variable {s t : State} {d : Driver} {ok : Bool}

/-- The state in front of the buffers. -/
def asking (s : State) (cnt : ℕ) : State :=
  { s with canBeDisconnected := false, bufferCnt := cnt }

/-- The outcomes of `startDevice`. -/
inductive StartCase (s : State) (d : Driver) : State → Bool → Prop
  | refused (h : s.deviceState ≠ .connected) : StartCase s d s false
  | early (h : s.deviceState = .connected)
      (hearly : s.cameraFd.isSome = true → d.setFmt = true → d.reqBufs s.wanted = none) :
      StartCase s d { s with canBeDisconnected := false }.closeCameraDev false
  | failed (cnt : ℕ) (h : s.deviceState = .connected) (hfd : s.cameraFd.isSome = true)
      (hfmt : d.setFmt = true) (hreq : d.reqBufs s.wanted = some cnt) (hnot : ¬ Completes d cnt) :
      StartCase s d (State.queryBuf d (asking s cnt) 0 cnt).1.closeCameraDev false
  | completed (cnt : ℕ) (h : s.deviceState = .connected) (hfd : s.cameraFd.isSome = true)
      (hfmt : d.setFmt = true) (hreq : d.reqBufs s.wanted = some cnt) (hle : cnt ≤ nbBuffer)
      (hall : Completes d cnt) :
      StartCase s d { (State.queryBuf d (asking s cnt) 0 cnt).1 with deviceState := .started } true

lemma queryBuf_ok_iff' {v : State} {cnt : ℕ} :
    (State.queryBuf d v 0 cnt).2 = true ↔ ∀ i < cnt, d.buffer i = .ok := by
  rw [queryBuf_ok_iff]
  exact ⟨fun h i hi => h i (Nat.zero_le i) (by omega), fun h i _ hi => h i (by omega)⟩

lemma startBuffers_cases {cnt : ℕ} (hstate : s.deviceState = .connected)
    (hfd : s.cameraFd.isSome = true) (hfmt : d.setFmt = true) (hreq : d.reqBufs s.wanted = some cnt)
    (hle : cnt ≤ nbBuffer)
    (h : ({ s with canBeDisconnected := false } : State).startBuffers d cnt = (t, ok)) :
    StartCase s d t ok := by
  unfold State.startBuffers at h
  split at h
  next u hquery =>
    have hu : (State.queryBuf d (asking s cnt) 0 cnt).1 = u := congrArg Prod.fst hquery
    have hno : (State.queryBuf d (asking s cnt) 0 cnt).2 = false := congrArg Prod.snd hquery
    cases h
    rw [← hu]
    refine .failed cnt hstate hfd hfmt hreq fun hall => ?_
    rw [queryBuf_ok_iff'.mpr hall.1] at hno
    cases hno
  next u hquery =>
    have hu : (State.queryBuf d (asking s cnt) 0 cnt).1 = u := congrArg Prod.fst hquery
    have hyes : (State.queryBuf d (asking s cnt) 0 cnt).2 = true := congrArg Prod.snd hquery
    by_cases hstream : d.streamOn = true
    · rw [if_pos hstream] at h
      cases h
      rw [← hu]
      exact .completed cnt hstate hfd hfmt hreq hle ⟨queryBuf_ok_iff'.mp hyes, hstream⟩
    · rw [if_neg hstream] at h
      cases h
      rw [← hu]
      exact .failed cnt hstate hfd hfmt hreq fun hall => hstream hall.2

lemma startDevice_cases (h : s.startDevice d = some (t, ok)) : StartCase s d t ok := by
  unfold State.startDevice at h
  by_cases hstate : s.deviceState = .connected
  · rw [if_pos hstate] at h
    by_cases hready : s.cameraFd.isSome = true ∧ d.setFmt = true
    · simp only [if_pos hready] at h
      rw [show ({ s with canBeDisconnected := false } : State).wanted = s.wanted from rfl] at h
      cases hreq : d.reqBufs s.wanted with
      | none =>
        rw [hreq] at h
        cases h
        exact .early hstate fun _ _ => hreq
      | some cnt =>
        simp only [hreq] at h
        by_cases hcnt : nbBuffer < cnt
        · rw [if_pos hcnt] at h
          cases h
        · rw [if_neg hcnt] at h
          exact startBuffers_cases hstate hready.1 hready.2 hreq (Nat.le_of_not_lt hcnt)
            (Option.some.inj h)
    · simp only [if_neg hready] at h
      cases h
      exact .early hstate fun hfd hfmt => absurd ⟨hfd, hfmt⟩ hready
  · rw [if_neg hstate] at h
    cases h
    exact .refused hstate

/-- The device node is what is open. -/
def OpenFile (s : State) : Prop := s.files.Balanced fun h => s.cameraFd = some h

lemma OpenFile.close (h : OpenFile s) : OpenFile s.closeCameraDev :=
  Ledger.Balanced.releaseIf h (fun _ hk => hk) fun k =>
    ⟨fun hk => (by cases hk), fun hk => absurd hk.2 hk.1⟩

lemma OpenFile.open (h : OpenFile s) (hnone : s.cameraFd = none) (usb : Bool) :
    OpenFile { s with
      files := s.files.alloc, cameraFd := some s.files.next, isUsbCamera := usb } := by
  refine Ledger.Balanced.alloc h fun k => ?_
  rw [hnone]
  exact ⟨fun hk => .inl (Option.some.inj hk).symm,
    fun hk => hk.elim (fun heq => congrArg some heq.symm) fun hk => (by cases hk)⟩

/-- The outcomes of `openCameraDev` on a device that is not connected. -/
lemma openCameraDev_cases (hfile : OpenFile s) (hnone : s.cameraFd = none) :
    ∃ files fd usb, (s.openCameraDev d).1 =
        { s with files := files, cameraFd := fd, isUsbCamera := usb } ∧
      (usb = false → s.isUsbCamera = false) ∧ OpenFile (s.openCameraDev d).1 ∧
      ((s.openCameraDev d).2 = false → fd = none) := by
  unfold State.openCameraDev
  split_ifs
  · refine ⟨_, _, _, rfl, fun hno => (Bool.or_eq_false_iff.mp hno).1, hfile.open hnone _,
      fun hno => (by cases hno)⟩
  · exact ⟨_, _, _, rfl, fun hno => (Bool.or_eq_false_iff.mp hno).1, (hfile.open hnone _).close,
      fun _ => rfl⟩
  · refine ⟨_, none, s.isUsbCamera, rfl, id, ?_, fun _ => rfl⟩
    exact Ledger.Balanced.congr hfile fun k => by rw [hnone]

/-- The outcomes of `connectDevice`. -/
inductive ConnectCase (s : State) : State → Bool → Prop
  | already (h : s.deviceState ≠ .constructed) : ConnectCase s s true
  | failed (files : Ledger) (usb : Bool) (h : s.deviceState = .constructed)
      (husb : usb = false → s.isUsbCamera = false)
      (hfile : OpenFile { s with files := files, cameraFd := none, isUsbCamera := usb }) :
      ConnectCase s { s with files := files, cameraFd := none, isUsbCamera := usb } false
  | connected (files : Ledger) (fd : Option ℕ) (usb : Bool) (h : s.deviceState = .constructed)
      (husb : usb = false → s.isUsbCamera = false)
      (hfile : OpenFile { s with files := files, cameraFd := fd, isUsbCamera := usb }) :
      ConnectCase s
        { s with
          files := files, cameraFd := fd, isUsbCamera := usb, blocks := s.blocks.alloc
          picBuffer := some s.blocks.next, deviceState := .connected } true

lemma connectDevice_cases (hfile : OpenFile s)
    (hnone : s.deviceState = .constructed → s.cameraFd = none) :
    ConnectCase s (s.connectDevice d).1 (s.connectDevice d).2 := by
  unfold State.connectDevice
  by_cases hstate : s.deviceState = .constructed
  · rw [if_pos hstate]
    obtain ⟨files, fd, usb, hopen, husb, hfile', hfailed⟩ :=
      openCameraDev_cases (d := d) hfile (hnone hstate)
    split
    next u hu =>
      have hu1 : (s.openCameraDev d).1 = u := congrArg Prod.fst hu
      have hfd : fd = none := hfailed (congrArg Prod.snd hu)
      subst hfd
      rw [hopen] at hfile' hu1
      exact hu1 ▸ .failed files usb hstate husb hfile'
    next u hu =>
      have hu1 : (s.openCameraDev d).1 = u := congrArg Prod.fst hu
      rw [hopen] at hfile' hu1
      subst hu1
      split_ifs
      · exact .connected files fd usb hstate husb hfile'
      · exact .failed _ usb hstate husb hfile'.close
  · rw [if_neg hstate]
    exact .already hstate

/-- What is open, mapped and allocated, in every state of the device. -/
structure Filed (s : State) : Prop where
  file : OpenFile s
  constructed : s.deviceState = .constructed → s.cameraFd = none

/-- What holds as long as all steps are clean. -/
structure Kept (s : State) : Prop where
  other : s.isUsbCamera = false → ∀ j, s.bufVirAddr j = none
  constructed : s.deviceState = .constructed →
    s.maps.Balanced (fun _ => False) ∧ s.blocks.Balanced fun _ => False
  connected : s.deviceState = .connected →
    s.maps.Balanced (fun _ => False) ∧ s.blocks.Balanced fun h => s.picBuffer = some h
  started : s.deviceState = .started → Unloading 0 s.bufferCnt s

lemma filed_initial : Filed initial :=
  ⟨Ledger.balanced_empty fun _ h => (by cases h), fun _ => rfl⟩

lemma kept_initial : Kept initial where
  other _ _ := rfl
  constructed _ := ⟨Ledger.balanced_empty fun _ => id, Ledger.balanced_empty fun _ => id⟩
  connected h := by cases h
  started h := by cases h

lemma queryBuf_closed {v : State} {cnt : ℕ} (h : Filed v) (hstate : v.deviceState = .connected) :
    Filed (State.queryBuf d v 0 cnt).1.closeCameraDev := by
  obtain ⟨maps, mapMem, blocks, bufVirAddr, hquery⟩ := queryBuf_kept (d := d) cnt (s := v) (i := 0)
  rw [hquery]
  exact ⟨OpenFile.close h.file, fun hno => by
    rw [show _ = CameraDeviceState.connected from hstate] at hno
    cases hno⟩

lemma StartCase.filed (h : Filed s) (hcase : StartCase s d t ok) : Filed t := by
  cases hcase with
  | refused => exact h
  | early hstate => exact ⟨OpenFile.close h.file, fun _ => rfl⟩
  | failed cnt hstate =>
    exact queryBuf_closed (v := asking s cnt) ⟨h.file, h.constructed⟩ hstate
  | completed cnt hstate =>
    obtain ⟨maps, mapMem, blocks, bufVirAddr, hquery⟩ :=
      queryBuf_kept (d := d) cnt (s := asking s cnt) (i := 0)
    rw [hquery]
    exact ⟨h.file, fun hno => by cases hno⟩

lemma stopDevice_cases (h : s.stopDevice d = some t) :
    s.deviceState ≠ .started ∧ t = { s with canBeDisconnected := true } ∨
    s.deviceState = .started ∧ t =
      { State.unmapBuf d { s with canBeDisconnected := true } 0 s.bufferCnt with
        deviceState := .connected } := by
  unfold State.stopDevice at h
  by_cases hwait : s.canBeDisconnected = true ∨ s.Pauses
  · rw [if_pos hwait] at h
    by_cases hstate : s.deviceState = .started
    · exact .inr ⟨hstate, (Option.some.inj ((if_pos hstate).symm.trans h)).symm⟩
    · exact .inl ⟨hstate, (Option.some.inj ((if_neg hstate).symm.trans h)).symm⟩
  · rw [if_neg hwait] at h
    cases h

/-- The outcomes of a step; `quiet` is for the calls that leave the device alone. -/
inductive StepCase (s : State) : Driver × Call → State → Prop
  | connect (d : Driver) (t : State) (ok : Bool) (hcase : ConnectCase s t ok) :
      StepCase s (d, .connectDevice) t
  | start (d : Driver) (t : State) (ok : Bool) (hcase : StartCase s d t ok) :
      StepCase s (d, .startDevice) t
  | notStarted (d : Driver) (hstate : s.deviceState ≠ .started) :
      StepCase s (d, .stopDevice) { s with canBeDisconnected := true }
  | stop (d : Driver) (hstate : s.deviceState = .started) :
      StepCase s (d, .stopDevice)
        { State.unmapBuf d { s with canBeDisconnected := true } 0 s.bufferCnt with
          deviceState := .connected }
  | notConnected (d : Driver) (hstate : s.deviceState ≠ .connected) :
      StepCase s (d, .disconnectDevice) s
  | disconnect (d : Driver) (hstate : s.deviceState = .connected) :
      StepCase s (d, .disconnectDevice)
        { s.closeCameraDev with
          blocks := s.blocks.releaseIf s.picBuffer, deviceState := .constructed }
  | quiet (d : Driver) (call : Call) (c : CaptureThreadState) (p : TakePictureState) (b a : Bool)
      (hclean : Clean (d, call) s) :
      StepCase s (d, call)
        { s with captureState := c, takePictureState := p, canBeDisconnected := b, alive := a }

lemma step_cases (h : Filed s) {a : Driver × Call} (hstep : step s a = some t) :
    StepCase s a t := by
  obtain ⟨d, call⟩ := a
  cases call with
  | connectDevice =>
    obtain rfl := Option.some.inj hstep
    exact .connect d _ _ (connectDevice_cases h.file h.constructed)
  | startDevice =>
    obtain ⟨⟨u, ok⟩, hstart, rfl⟩ := Option.map_eq_some_iff.mp hstep
    exact .start d u ok (startDevice_cases hstart)
  | stopDevice =>
    rcases stopDevice_cases hstep with ⟨hstate, rfl⟩ | ⟨hstate, rfl⟩
    · exact .notStarted d hstate
    · exact .stop d hstate
  | disconnectDevice =>
    obtain rfl := Option.some.inj hstep
    unfold State.disconnectDevice
    split
    next hstate => exact .notConnected d (by rw [hstate]; decide)
    next hstate => exact .notConnected d (by rw [hstate]; decide)
    next hstate => exact .disconnect d hstate
  | startDeliveringFrames =>
    obtain rfl := Option.some.inj hstep
    unfold State.startDeliveringFrames
    split_ifs
    · exact .quiet d _ s.captureState s.takePictureState s.canBeDisconnected s.alive trivial
    · exact .quiet d _ _ s.takePictureState _ s.alive trivial
  | stopDeliveringFrames =>
    obtain rfl := Option.some.inj hstep
    unfold State.stopDeliveringFrames
    split_ifs
    · exact .quiet d _ s.captureState s.takePictureState s.canBeDisconnected s.alive trivial
    · exact .quiet d _ _ s.takePictureState s.canBeDisconnected s.alive trivial
  | setTakePictureState p =>
    exact Option.some.inj hstep ▸ .quiet d _ s.captureState p s.canBeDisconnected s.alive trivial
  | pause =>
    simp only [step] at hstep
    split_ifs at hstep
    exact Option.some.inj hstep ▸
      .quiet d _ s.captureState s.takePictureState true s.alive trivial
  | frame f =>
    simp only [step] at hstep
    split_ifs at hstep
    obtain rfl := Option.some.inj hstep
    unfold State.captureFrame
    split_ifs
    · exact .quiet d _ s.captureState s.takePictureState s.canBeDisconnected false trivial
    · exact .quiet d _ s.captureState s.takePictureState s.canBeDisconnected s.alive trivial
    · exact .quiet d _ .paused .null s.canBeDisconnected s.alive trivial
    · exact .quiet d _ s.captureState .null s.canBeDisconnected s.alive trivial
    · exact .quiet d _ s.captureState s.takePictureState s.canBeDisconnected s.alive trivial
  | pictureDone =>
    exact Option.some.inj hstep ▸
      .quiet d _ s.captureState .null s.canBeDisconnected s.alive trivial

lemma filed_step (h : Filed s) {a : Driver × Call} (hstep : step s a = some t) : Filed t := by
  cases step_cases h hstep with
  | connect d t ok hcase =>
    cases hcase with
    | already => exact h
    | failed files usb _ _ hfile => exact ⟨hfile, fun _ => rfl⟩
    | connected files fd usb _ _ hfile => exact ⟨hfile, fun hno => by cases hno⟩
  | start d t ok hcase => exact hcase.filed h
  | notStarted => exact ⟨h.file, h.constructed⟩
  | stop d =>
    obtain ⟨maps, mapMem, blocks, hunmap⟩ := unmapBuf_kept (d := d) s.bufferCnt
      (s := { s with canBeDisconnected := true }) (i := 0)
    rw [hunmap]
    exact ⟨h.file, fun hno => by cases hno⟩
  | notConnected => exact h
  | disconnect => exact ⟨OpenFile.close h.file, fun _ => rfl⟩
  | quiet => exact ⟨h.file, h.constructed⟩

/-! ## Clean and unclean steps -/

lemma kept_constructed (hother : t.isUsbCamera = false → ∀ j, t.bufVirAddr j = none)
    (hstate : t.deviceState = .constructed) (hmaps : t.maps.Balanced fun _ => False)
    (hblocks : t.blocks.Balanced fun _ => False) :
    Kept t where
  other := hother
  constructed _ := ⟨hmaps, hblocks⟩
  connected h := by rw [hstate] at h; cases h
  started h := by rw [hstate] at h; cases h

lemma kept_connected (hother : t.isUsbCamera = false → ∀ j, t.bufVirAddr j = none)
    (hstate : t.deviceState = .connected) (hmaps : t.maps.Balanced fun _ => False)
    (hblocks : t.blocks.Balanced fun h => t.picBuffer = some h) : Kept t where
  other := hother
  constructed h := by rw [hstate] at h; cases h
  connected _ := ⟨hmaps, hblocks⟩
  started h := by rw [hstate] at h; cases h

lemma kept_started (hstate : t.deviceState = .started) (h : Unloading 0 t.bufferCnt t) :
    Kept t where
  other hno := (h.other hno).2
  constructed hno := by rw [hstate] at hno; cases hno
  connected hno := by rw [hstate] at hno; cases hno
  started _ := h

/-- A start keeps everything if it completes, or fails in front of its first mapping. -/
lemma kept_start (h : Kept s) (hclean : Clean (d, .startDevice) s) (hcase : StartCase s d t ok) :
    Kept t := by
  cases hcase with
  | refused => exact h
  | early hstate =>
    obtain ⟨hmaps, hblocks⟩ := h.connected hstate
    exact kept_connected h.other hstate hmaps hblocks
  | failed cnt hstate hfd hfmt hreq hnot =>
    obtain ⟨hmaps, hblocks⟩ := h.connected hstate
    have hfirst : ¬ MapsFirst d cnt := fun hfirst => hnot (hclean hstate hfd hfmt cnt hreq hfirst)
    obtain ⟨mapMem, hquery⟩ := queryBuf_of_not_mapsFirst (s := asking s cnt) hfirst
    rw [hquery]
    exact kept_connected h.other hstate hmaps hblocks
  | completed cnt hstate hfd hfmt hreq hle hall =>
    obtain ⟨hmaps, hblocks⟩ := h.connected hstate
    have hloaded : Loaded 0 (asking s cnt) :=
      ⟨hmaps.filling _, fun _ => hblocks.filling _, fun hno => ⟨hblocks, h.other hno⟩⟩
    have hall := queryBuf_loaded cnt hloaded (queryBuf_ok_iff'.mpr hall.1)
    rw [Nat.zero_add] at hall
    obtain ⟨maps, mapMem, blocks, bufVirAddr, hquery⟩ :=
      queryBuf_kept (d := d) cnt (s := asking s cnt) (i := 0)
    rw [hquery] at hall ⊢
    exact kept_started rfl ⟨hall.maps.holds, fun husb => (hall.usb husb).holds, hall.other⟩

lemma kept_stop (h : Kept s) (hstate : s.deviceState = .started)
    (hclean : Clean (d, .stopDevice) s) :
    Kept { State.unmapBuf d { s with canBeDisconnected := true } 0 s.bufferCnt with
      deviceState := .connected } := by
  have hload := h.started hstate
  have hfull : Unloading 0 (0 + s.bufferCnt) { s with canBeDisconnected := true } := by
    rw [Nat.zero_add]
    exact ⟨hload.maps, hload.usb, hload.other⟩
  have hempty := unmapBuf_unloads s.bufferCnt hfull fun j _ hlt => hclean hstate j (by omega)
  obtain ⟨maps, mapMem, blocks, hunmap⟩ := unmapBuf_kept (d := d) s.bufferCnt
    (s := { s with canBeDisconnected := true }) (i := 0)
  rw [hunmap] at hempty ⊢
  refine kept_connected h.other rfl hempty.maps.balanced ?_
  cases husb : s.isUsbCamera with
  | false => exact (hempty.other husb).1
  | true => exact (hempty.usb husb).balanced

lemma kept_step (hfiled : Filed s) (h : Kept s) {a : Driver × Call} (hclean : Clean a s)
    (hstep : step s a = some t) : Kept t := by
  cases step_cases hfiled hstep with
  | connect d t ok hcase =>
    cases hcase with
    | already => exact h
    | failed files usb hstate husb _ =>
      obtain ⟨hmaps, hblocks⟩ := h.constructed hstate
      exact kept_constructed (fun hno => h.other (husb hno)) hstate hmaps hblocks
    | connected files fd usb hstate husb _ =>
      obtain ⟨hmaps, hblocks⟩ := h.constructed hstate
      refine kept_connected (fun hno => h.other (husb hno)) rfl hmaps (hblocks.alloc fun k => ?_)
      exact ⟨fun hk => .inl (Option.some.inj hk).symm,
        fun hk => hk.elim (fun heq => congrArg some heq.symm) False.elim⟩
  | start d t ok hcase => exact kept_start h hclean hcase
  | notStarted d hstate =>
    exact ⟨h.other, h.constructed, h.connected, fun hno => absurd hno hstate⟩
  | stop d hstate => exact kept_stop h hstate hclean
  | notConnected => exact h
  | disconnect d hstate =>
    obtain ⟨hmaps, hblocks⟩ := h.connected hstate
    refine kept_constructed h.other rfl hmaps (hblocks.releaseIf (fun _ hk => hk) fun k => ?_)
    exact ⟨False.elim, fun hk => absurd hk.2 hk.1⟩
  | quiet =>
    refine ⟨h.other, h.constructed, h.connected, fun hstate => ?_⟩
    obtain ⟨hmaps, husb, hno⟩ := h.started hstate
    exact ⟨hmaps, husb, hno⟩

/-- A start that fails behind its first mapping loses it. -/
lemma lost_start (h : Kept s) (hclean : ¬ Clean (d, .startDevice) s) (hcase : StartCase s d t ok) :
    ∃ k, Lost t k := by
  simp only [Clean, not_forall] at hclean
  obtain ⟨hstate, hfd, hfmt, cnt, hreq, hfirst, hnot⟩ := hclean
  cases hcase with
  | refused hno => exact absurd hstate hno
  | early _ hearly =>
    rw [hearly hfd hfmt] at hreq
    cases hreq
  | completed cnt' _ _ _ hreq' _ hall =>
    obtain rfl := Option.some.inj (hreq'.symm.trans hreq)
    exact absurd hall hnot
  | failed cnt' _ _ _ hreq' _ =>
    obtain rfl := Option.some.inj (hreq'.symm.trans hreq)
    obtain ⟨hreleased, -⟩ := queryBuf_new (d := d) cnt' (s := asking s cnt') (i := 0)
    refine ⟨s.maps.next, queryBuf_maps_first (s := asking s cnt') hfirst.1 hfirst.2, ?_,
      fun hstarted => ?_⟩
    · exact (congrFun hreleased _).trans ((h.connected hstate).1.beyond _ (Nat.le_refl _))
    · obtain ⟨maps, mapMem, blocks, bufVirAddr, hquery⟩ :=
        queryBuf_kept (d := d) cnt' (s := asking s cnt') (i := 0)
      rw [hquery] at hstarted
      have hstarted : s.deviceState = .started := hstarted
      rw [hstate] at hstarted
      cases hstarted

/-- A stop loses the first mapping that it does not get rid of. -/
lemma lost_stop (h : Kept s) (hstate : s.deviceState = .started)
    (hclean : ¬ Clean (d, .stopDevice) s) :
    ∃ k, Lost { State.unmapBuf d { s with canBeDisconnected := true } 0 s.bufferCnt with
      deviceState := .connected } k := by
  simp only [Clean, not_forall] at hclean
  obtain ⟨-, i, hlt, hfail⟩ := hclean
  obtain ⟨base, hentries, -, hbalanced⟩ := (h.started hstate).maps
  have howned : False ∨ base + 0 ≤ base + i ∧ base + i < base + s.bufferCnt := .inr (by omega)
  obtain ⟨hreleased, hnext⟩ := unmapBuf_released (d := d) s.bufferCnt
    (s := { s with canBeDisconnected := true }) (i := 0) (h := base + i) fun j _ hj hmem => by
      have hbase := Option.some.inj ((hentries j (Nat.zero_le j) (by omega)).symm.trans hmem)
      exact ⟨i, Nat.zero_le i, by omega, Bool.eq_false_iff.mpr hfail⟩
  refine ⟨base + i, ?_, hreleased.trans (hbalanced.owned _ howned), fun hno => by cases hno⟩
  exact Nat.lt_of_lt_of_eq (hbalanced.owned_lt _ howned) hnext.symm

lemma lost_of_unclean (hfiled : Filed s) (h : Kept s) {a : Driver × Call} (hclean : ¬ Clean a s)
    (hstep : step s a = some t) : ∃ k, Lost t k := by
  cases step_cases hfiled hstep with
  | connect => exact absurd trivial hclean
  | start d t ok hcase => exact lost_start h hclean hcase
  | notStarted d hstate => exact absurd (fun hno => absurd hno hstate) hclean
  | stop d hstate => exact lost_stop h hstate hclean
  | notConnected => exact absurd trivial hclean
  | disconnect => exact absurd trivial hclean
  | quiet d call c p b a hquiet => exact absurd hquiet hclean

/-- What is lost is not found again. -/
lemma lost_step (hfiled : Filed s) {k : ℕ} (h : Lost s k) {a : Driver × Call}
    (hstep : step s a = some t) : Lost t k := by
  cases step_cases hfiled hstep with
  | connect d t ok hcase =>
    cases hcase with
    | already => exact h
    | failed => exact ⟨h.lt, h.live, h.entries⟩
    | connected => exact ⟨h.lt, h.live, fun hno => by cases hno⟩
  | start d t ok hcase =>
    cases hcase with
    | refused => exact h
    | early => exact ⟨h.lt, h.live, h.entries⟩
    | failed cnt hstate =>
      obtain ⟨hreleased, hnext, -⟩ := queryBuf_new (d := d) cnt (s := asking s cnt) (i := 0)
      refine ⟨Nat.lt_of_lt_of_le h.lt hnext, (congrFun hreleased k).trans h.live, fun hno => ?_⟩
      obtain ⟨maps, mapMem, blocks, bufVirAddr, hquery⟩ :=
        queryBuf_kept (d := d) cnt (s := asking s cnt) (i := 0)
      rw [hquery] at hno
      have hno : s.deviceState = .started := hno
      rw [hstate] at hno
      cases hno
    | completed cnt hstate hfd hfmt hreq hle hall =>
      obtain ⟨hreleased, hnext, -, hnew⟩ :=
        queryBuf_new (d := d) cnt (s := asking s cnt) (i := 0)
      refine ⟨Nat.lt_of_lt_of_le h.lt hnext, (congrFun hreleased k).trans h.live,
        fun _ j hj hmem => ?_⟩
      obtain ⟨maps, mapMem, blocks, bufVirAddr, hquery⟩ :=
        queryBuf_kept (d := d) cnt (s := asking s cnt) (i := 0)
      have hj : j < cnt := by rw [hquery] at hj; exact hj
      have hge := hnew (queryBuf_ok_iff'.mpr hall.1) j (Nat.zero_le j) (by omega) k hmem
      exact absurd h.lt (Nat.not_lt.mpr hge)
  | notStarted d hstate => exact ⟨h.lt, h.live, h.entries⟩
  | stop d hstate =>
    obtain ⟨hreleased, hnext⟩ := unmapBuf_released (d := d) s.bufferCnt
      (s := { s with canBeDisconnected := true }) (i := 0) (h := k) fun j _ hj hmem =>
        absurd hmem (h.entries hstate j (by omega))
    exact ⟨Nat.lt_of_lt_of_eq h.lt hnext.symm, hreleased.trans h.live, fun hno => by cases hno⟩
  | notConnected => exact h
  | disconnect => exact ⟨h.lt, h.live, fun hno => by cases hno⟩
  | quiet => exact ⟨h.lt, h.live, h.entries⟩

end Calls

/-! ## All runs -/

/-- The mappings that the device uses. -/
def mapped (s : State) (h : ℕ) : Prop :=
  s.deviceState = .started ∧ ∃ i < s.bufferCnt, s.mapMem i = some h

/-- The memory that it uses. -/
def allocated (s : State) (h : ℕ) : Prop :=
  s.deviceState ≠ .constructed ∧ s.picBuffer = some h ∨
    s.deviceState = .started ∧ s.isUsbCamera = true ∧ ∃ i < s.bufferCnt, s.bufVirAddr i = some h

lemma Kept.balanced {s : State} (h : Kept s) :
    s.maps.Balanced (mapped s) ∧ s.blocks.Balanced (allocated s) := by
  cases hstate : s.deviceState with
  | constructed =>
    obtain ⟨hmaps, hblocks⟩ := h.constructed hstate
    refine ⟨hmaps.congr fun k => ?_, hblocks.congr fun k => ?_⟩
    · simp only [mapped, hstate, reduceCtorEq, false_and]
    · simp only [allocated, hstate, ne_eq, not_true_eq_false, reduceCtorEq, false_and, or_self]
  | connected =>
    obtain ⟨hmaps, hblocks⟩ := h.connected hstate
    refine ⟨hmaps.congr fun k => ?_, hblocks.congr fun k => ?_⟩
    · simp only [mapped, hstate, reduceCtorEq, false_and]
    · simp only [allocated, hstate, ne_eq, reduceCtorEq, not_false_eq_true, true_and, false_and,
        or_false]
  | started =>
    have hload := h.started hstate
    refine ⟨hload.maps.balanced_iff.congr fun k => ?_, ?_⟩
    · simp only [mapped, hstate, true_and, false_or]
    · cases husb : s.isUsbCamera with
      | false =>
        refine (hload.other husb).1.congr fun k => ?_
        simp only [allocated, hstate, husb, ne_eq, reduceCtorEq, not_false_eq_true, true_and,
          Bool.false_eq_true, false_and, or_false]
      | true =>
        refine (hload.usb husb).balanced_iff.congr fun k => ?_
        simp only [allocated, hstate, husb, ne_eq, reduceCtorEq, not_false_eq_true, true_and]

lemma Lost.not_balanced {s : State} {k : ℕ} (h : Lost s k) : ¬ s.maps.Balanced (mapped s) := by
  intro hbalanced
  have hnot : ¬ mapped s k := fun ⟨hstate, j, hj, hmem⟩ => h.entries hstate j hj hmem
  exact Nat.zero_ne_one (h.live.symm.trans (hbalanced.others k h.lt hnot))

/-- In every run the device node is open exactly while its descriptor is kept; and what is mapped
and allocated is what the device uses exactly if all steps were clean: no start has failed
behind its first mapping, and no `munmap`. -/
theorem memory_iff {t : State} (as : List (Driver × Call))
    (hrun : as.foldlM step initial = some t) :
    t.files.Balanced (fun h => t.cameraFd = some h) ∧
      (t.maps.Balanced (mapped t) ∧ t.blocks.Balanced (allocated t) ↔
        Meets step Clean initial as) := by
  constructor
  · have hfiled : Filed t := Runs.invariant (fun hs _ hstep => filed_step hs hstep) filed_initial
      (runs_of_foldlM as hrun)
    exact hfiled.file
  · have hgood : ∀ {a s s'}, Filed s ∧ Kept s → Clean a s → step s a = some s' →
        Filed s' ∧ Kept s' :=
      fun hs hok hstep => ⟨filed_step hs.1 hstep, kept_step hs.1 hs.2 hok hstep⟩
    have hfail : ∀ {a s s'}, Filed s ∧ Kept s → ¬ Clean a s → step s a = some s' →
        Filed s' ∧ ∃ k, Lost s' k :=
      fun hs hnot hstep => ⟨filed_step hs.1 hstep, lost_of_unclean hs.1 hs.2 hnot hstep⟩
    have hbad : ∀ {a s s'}, (Filed s ∧ ∃ k, Lost s k) → step s a = some s' →
        Filed s' ∧ ∃ k, Lost s' k :=
      fun hs hstep => ⟨filed_step hs.1 hstep, hs.2.imp fun k hk => lost_step hs.1 hk hstep⟩
    rcases meets_or_not_meets hgood hfail hbad as ⟨filed_initial, kept_initial⟩ hrun with
      ⟨hall, -, hkept⟩ | ⟨hnot, -, k, hlost⟩
    · exact iff_of_true hkept.balanced hall
    · exact iff_of_false (fun h => hlost.not_balanced h.1) hnot

/-- A driver that agrees to everything. -/
def willing : Driver where
  opens := true
  usb := true
  accepts := true
  allocOpens := true
  setFmt := true
  reqBufs := some
  buffer _ := .ok
  streamOn := true
  munmap _ := true
  acks := false

/-- A stream that does not start: its buffers stay mapped. -/
theorem memory_iff_streamOff : ∃ t : State,
    [(willing, Call.connectDevice), ({ willing with streamOn := false }, .startDevice)].foldlM step
      initial = some t ∧ ¬ (t.maps.Balanced (mapped t) ∧ t.blocks.Balanced (allocated t)) := by
  obtain ⟨t, hrun⟩ : ∃ t : State, [(willing, Call.connectDevice),
      ({ willing with streamOn := false }, .startDevice)].foldlM step initial = some t := ⟨_, rfl⟩
  refine ⟨t, hrun, fun hbalanced => ?_⟩
  have hmeets := (memory_iff _ hrun).2.mp hbalanced
  have hclean := ((hmeets.2 _ rfl).2.2 _ rfl).1
  have hcompletes := hclean rfl rfl rfl nbBuffer rfl ⟨by decide, .inr rfl⟩
  exact Bool.false_ne_true hcompletes.2

end Softwinner.Camera.Connection
