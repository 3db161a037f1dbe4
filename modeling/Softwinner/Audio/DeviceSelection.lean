import Softwinner.Audio.Devices
import Softwinner.Framework.Runs

/-!
# The active cards

What `set_audio_devices_active` makes active, along any sequence of requests and of updates of the
table, and what is active behind `init_audio_devices_active`.

The loop over the names of a request ends with the first name in the capture direction, whether
there is a card for it or not: without one, card 0 is made active, and 0 is returned.
`selection_iff` says when this, and the array for the names, does what is expected.  The initial
selection takes the same value 0 for success, and its last loop ends at the first number without a
card; `complete_iff` is the exact condition there.
-/

namespace Softwinner.Audio.DeviceSelection

open Framework Devices
open OutputStream (Card)

/-- The card exists, can be used in a direction, and is active there. -/
def isActive (d : Dir) (e : DevManager) : Bool := e.flagExist && e.flag d && e.flagActive d

/-- The card exists, and can be used in a direction. -/
def isUsable (d : Dir) (e : DevManager) : Bool := e.flagExist && e.flag d

/-- The first existing card for a direction with a name. -/
def firstNamed (t : Table) (d : Dir) (n : List Char) : Option Card :=
  cards.find? fun c => isUsable d (t c) && decide ((t c).name.1 = n)

/-! ## Requests and updates -/

inductive Act
  | setAudioDevicesActive (d : Dir) (r : Request) (stack : TextMemory)
  | updataAudioDevices (sys : Sys)

def step (s : State) : Act → Option State
  | .setAudioDevicesActive d r stack =>
    some { s with devManager := (s.devManager.setAudioDevicesActive d r stack).1 }
  | .updataAudioDevices sys => some (s.updataAudioDevices sys)

/-- What is expected of a request; `ret` is that 0 is returned. -/
structure Selects (d : Dir) (r : Request) (t t' : Table) (ret : Bool) : Prop where
  inside : r.Fits
  other : ∀ c d', d' ≠ d → isActive d' (t' c) = isActive d' (t c)
  unique : d = .audioIn → ∀ c c', isActive d (t' c) = true → isActive d (t' c') = true → c = c'
  named : d = .audioIn → (∃ n ∈ r.names, ∃ c, isUsable d (t c) = true ∧ (t c).name.1 = n) →
    ∃ c, isActive d (t' c) = true ∧ (t' c).name.1 ∈ r.names
  all : d = .audioOut → ret = true → ∀ c,
    isActive d (t' c) = true ↔ ∃ n ∈ r.names, firstNamed t d n = some c

/-- What is expected of a step. -/
def Good (a : Act) (s s' : State) : Prop :=
  match a with
  | .setAudioDevicesActive d r stack =>
    Selects d r s.devManager s'.devManager (s.devManager.setAudioDevicesActive d r stack).2
  | .updataAudioDevices _ =>
    ∀ c d, isActive d (s'.devManager c) = true → isActive d (s.devManager c) = true

/-- The names fit into the array.  For capture, if any name is that of a card, then the card of the
first name, or card 0 if there is none, is one that bears a requested name.  For playback, if there
is a card for each name, none is only marked as one without existing.  A card that is plugged in is
not still marked, and active, for a direction that it does not have. -/
def SelectOk (a : Act) (s : State) : Prop :=
  let t := s.devManager
  match a with
  | .setAudioDevicesActive .audioIn r _ =>
    r.Fits ∧ ((∃ n ∈ r.names, ∃ c, isUsable .audioIn (t c) = true ∧ (t c).name.1 = n) →
      ∀ n ∈ r.names.head?, let c := (t.named .audioIn n).getD card0
        isUsable .audioIn (t c) = true ∧ (t c).name.1 ∈ r.names)
  | .setAudioDevicesActive .audioOut r _ =>
    r.Fits ∧ ((∀ n ∈ r.names, (t.named .audioOut n).isSome) →
      ∀ n ∈ r.names, ∀ c, firstNamed t .audioOut n = some c → t.named .audioOut n = some c)
  | .updataAudioDevices sys =>
    ∀ c n, sys c = some n → n.id ≠ none → (t c).flagExist = false →
      ∀ d, n.has d = false → ((t c).flag d && (t c).flagActive d) = false

variable {s s' : State} {t t' : Table} {d : Dir} {c : Card} {n : List Char} {r : Request}

lemma isUsable_sameBut (h : t.SameBut d t') (d' : Dir) (c : Card) :
    isUsable d' (t' c) = isUsable d' (t c) := by
  rw [isUsable, isUsable, h.flagExist, h.flag]

lemma isActive_eq (d : Dir) (e : DevManager) :
    isActive d e = (isUsable d e && e.flagActive d) := rfl

/-- A request changes nothing for the other direction. -/
lemma isActive_other (h : t.SameBut d t') (c : Card) {d' : Dir} (hd : d' ≠ d) :
    isActive d' (t' c) = isActive d' (t c) := by
  rw [isActive_eq, isActive_eq, isUsable_sameBut h, h.other c d' hd]

lemma firstNamed_name (h : firstNamed t d n = some c) :
    isUsable d (t c) = true ∧ (t c).name.1 = n := by
  have hfound := List.find?_some h
  rw [Bool.and_eq_true, decide_eq_true_iff] at hfound
  exact hfound

lemma named_name (h : t.named d n = some c) : (t c).flag d = true ∧ (t c).name.1 = n := by
  have hfound := List.find?_some h
  rw [Bool.and_eq_true, decide_eq_true_iff] at hfound
  exact hfound

lemma exists_firstNamed (hc : isUsable d (t c) = true) (hn : (t c).name.1 = n) :
    ∃ c', firstNamed t d n = some c' := by
  rw [← Option.isSome_iff_exists, firstNamed, List.find?_isSome]
  exact ⟨c, List.mem_finRange c, by rw [hc, Bool.true_and, decide_eq_true hn]⟩

/-- A request for capture makes one card active, and returns 0. -/
lemma setAudioDevicesActive_in (t : Table) (r : Request) (stack : TextMemory) :
    (t.setAudioDevicesActive .audioIn r stack).2 = true ∧
    ∀ c, ((t.setAudioDevicesActive .audioIn r stack).1 c).flagActive .audioIn = true ↔
      ∃ n ∈ r.names.head?, c = (t.named .audioIn n).getD card0 := by
  rw [setAudioDevicesActive_eq]
  cases hnames : r.names with
  | nil => simp [Table.activateAll, flagActive_clear]
  | cons n ns =>
    simp [Table.activateAll, flagActive_activate, flagActive_clear,
      (sameBut_clear t .audioIn).named]

/-- A request for playback that finds all names makes their cards active, and returns 0. -/
lemma setAudioDevicesActive_out (t : Table) (r : Request) (stack : TextMemory) :
    ((t.setAudioDevicesActive .audioOut r stack).2 = true ↔
      ∀ n ∈ r.names, (t.named .audioOut n).isSome) ∧
    ((t.setAudioDevicesActive .audioOut r stack).2 = true → ∀ c,
      ((t.setAudioDevicesActive .audioOut r stack).1 c).flagActive .audioOut = true ↔
        ∃ n ∈ r.names, t.named .audioOut n = some c) := by
  obtain ⟨hret, hactive⟩ := activateAll_out r.names (t.clear .audioOut)
  rw [← setAudioDevicesActive_eq t .audioOut r stack] at hret hactive
  simp only [(sameBut_clear t .audioOut).named, flagActive_clear, Bool.false_eq_true,
    false_or] at hret hactive
  exact ⟨hret, hactive⟩

/-- A request for capture. -/
lemma selects_in_iff (r : Request) (stack : TextMemory) :
    Selects .audioIn r t (t.setAudioDevicesActive .audioIn r stack).1
        (t.setAudioDevicesActive .audioIn r stack).2 ↔
      r.Fits ∧ ((∃ n ∈ r.names, ∃ c, isUsable .audioIn (t c) = true ∧ (t c).name.1 = n) →
        ∀ n ∈ r.names.head?, let c := (t.named .audioIn n).getD card0
          isUsable .audioIn (t c) = true ∧ (t c).name.1 ∈ r.names) := by
  have hsame := sameBut_setAudioDevicesActive t .audioIn r stack
  obtain ⟨-, hactive⟩ := setAudioDevicesActive_in t r stack
  have hisActive : ∀ c, isActive .audioIn ((t.setAudioDevicesActive .audioIn r stack).1 c) = true ↔
      isUsable .audioIn (t c) = true ∧
        ∃ n ∈ r.names.head?, c = (t.named .audioIn n).getD card0 := by
    intro c
    rw [isActive_eq, Bool.and_eq_true, isUsable_sameBut hsame, hactive]
  constructor
  · rintro ⟨hfits, -, -, hnamed, -⟩
    refine ⟨hfits, fun hex n hn => ?_⟩
    obtain ⟨c, hc, hname⟩ := hnamed rfl hex
    obtain ⟨husable, n', hn', rfl⟩ := (hisActive c).mp hc
    obtain rfl := Option.mem_unique hn hn'
    rw [hsame.name] at hname
    exact ⟨husable, hname⟩
  · rintro ⟨hfits, hok⟩
    refine ⟨hfits, fun c d' hd => isActive_other hsame c hd, fun _ c c' hc hc' => ?_,
      fun _ hex => ?_, nofun⟩
    · obtain ⟨-, n, hn, rfl⟩ := (hisActive c).mp hc
      obtain ⟨-, n', hn', rfl⟩ := (hisActive c').mp hc'
      rw [Option.mem_unique hn hn']
    · have hhead := hok hex
      obtain ⟨n, hn, -⟩ := hex
      obtain ⟨n₀, hn₀⟩ : ∃ n₀, n₀ ∈ r.names.head? := by
        cases hnames : r.names with
        | nil => exact absurd (hnames ▸ hn) List.not_mem_nil
        | cons n₀ ns => exact ⟨n₀, rfl⟩
      obtain ⟨husable, hname⟩ := hhead n₀ hn₀
      refine ⟨_, (hisActive _).mpr ⟨husable, n₀, hn₀, rfl⟩, ?_⟩
      rw [hsame.name]
      exact hname

/-- A request for playback. -/
lemma selects_out_iff (r : Request) (stack : TextMemory) :
    Selects .audioOut r t (t.setAudioDevicesActive .audioOut r stack).1
        (t.setAudioDevicesActive .audioOut r stack).2 ↔
      r.Fits ∧ ((∀ n ∈ r.names, (t.named .audioOut n).isSome) →
        ∀ n ∈ r.names, ∀ c, firstNamed t .audioOut n = some c → t.named .audioOut n = some c) := by
  have hsame := sameBut_setAudioDevicesActive t .audioOut r stack
  obtain ⟨hret, hactive⟩ := setAudioDevicesActive_out t r stack
  have hisActive : (t.setAudioDevicesActive .audioOut r stack).2 = true → ∀ c,
      isActive .audioOut ((t.setAudioDevicesActive .audioOut r stack).1 c) = true ↔
        isUsable .audioOut (t c) = true ∧ ∃ n ∈ r.names, t.named .audioOut n = some c := by
    intro h c
    rw [isActive_eq, Bool.and_eq_true, isUsable_sameBut hsame, hactive h]
  constructor
  · rintro ⟨hfits, -, -, -, hall⟩
    refine ⟨hfits, fun hknown n hn c hc => ?_⟩
    have hret := hret.mpr hknown
    obtain ⟨-, n', -, hn'⟩ := (hisActive hret c).mp ((hall rfl hret c).mpr ⟨n, hn, hc⟩)
    rw [← (firstNamed_name hc).2, (named_name hn').2]
    exact hn'
  · rintro ⟨hfits, hok⟩
    refine ⟨hfits, fun c d' hd => isActive_other hsame c hd, nofun, nofun, fun _ h c => ?_⟩
    have hsound := hok (hret.mp h)
    rw [hisActive h]
    constructor
    · rintro ⟨husable, n, hn, hc⟩
      obtain ⟨c', hc'⟩ := exists_firstNamed husable (named_name hc).2
      rw [hsound n hn c' hc'] at hc
      exact ⟨n, hn, hc ▸ hc'⟩
    · rintro ⟨n, hn, hc⟩
      exact ⟨(firstNamed_name hc).1, n, hn, hsound n hn c hc⟩

/-- An update of the table. -/
lemma updated_iff {sys : Sys} {e e' : DevManager} (h : Updated sys c e e') :
    (∀ d, isActive d e' = true → isActive d e = true) ↔
      ∀ n, sys c = some n → n.id ≠ none → e.flagExist = false →
        ∀ d, n.has d = false → (e.flag d && e.flagActive d) = false := by
  unfold Updated at h
  cases hnode : sys c with
  | none =>
    rw [hnode] at h
    refine iff_of_true (fun d hd => ?_) nofun
    rw [isActive, h.1, Bool.false_and] at hd
    exact nomatch hd
  | some n =>
    rw [hnode] at h
    simp only at h
    split_ifs at h with hkeep
    · rw [h]
      refine iff_of_true (fun _ hd => hd) fun n' hn' hid hexist => ?_
      obtain rfl := Option.some.inj hn'
      rcases hkeep with hexist' | hid'
      · exact nomatch hexist.symm.trans hexist'
      · exact absurd hid' hid
    · obtain ⟨hexist, hid⟩ := not_or.mp hkeep
      rw [Bool.not_eq_true] at hexist
      have hactive : ∀ d, isActive d e' = (!n.has d && (e.flag d && e.flagActive d)) := by
        intro d
        rw [isActive, h.exist, h.flag, h.active]
        cases n.has d <;> simp
      have hnot : ∀ d, isActive d e = false := by
        intro d
        rw [isActive, hexist]
        rfl
      simp only [hactive, hnot, Bool.false_eq_true, imp_false, Bool.not_eq_true,
        Option.some_inj, forall_eq']
      constructor
      · intro hall _ _ d hd
        have h := hall d
        rwa [hd, Bool.not_false, Bool.true_and] at h
      · intro hall d
        cases hd : n.has d with
        | true => rfl
        | false => exact hall hid hexist d hd

lemma Sound.isUsable (ht : t.Sound) (d : Dir) (c : Card) : isUsable d (t c) = (t c).flag d := by
  rw [DeviceSelection.isUsable]
  cases hflag : (t c).flag d with
  | false => rw [Bool.and_false]
  | true => rw [ht c d hflag, Bool.and_true]

/-- Requests and updates leave the table of `init_audio_devices` sound. -/
lemma sound_of_runs {sys : Sys}
    (hrun : Runs step (fun _ _ => True) (s.initAudioDevices sys) s') : s'.devManager.Sound := by
  refine Runs.invariant (P := fun s => s.devManager.Sound) (fun {s s' a} hs _ hstep => ?_)
    (built_initAudioDevices s sys).sound hrun
  cases a with
  | setAudioDevicesActive d r stack =>
    obtain rfl := Option.some.inj hstep
    exact hs.sameBut (sameBut_setAudioDevicesActive s.devManager d r stack)
  | updataAudioDevices sys =>
    obtain rfl := Option.some.inj hstep
    exact hs.updataAudioDevices sys

/-- In the tables that the code makes, the last two conditions always hold. -/
lemma sound_ok (ht : t.Sound) : (∀ n c, firstNamed t d n = some c → t.named d n = some c) ∧
    ∀ c, (t c).flagExist = false → (t c).flag d = false := by
  refine ⟨fun n c h => ?_, fun c hexist => ?_⟩
  · rw [firstNamed] at h
    simp only [Sound.isUsable ht] at h
    exact h
  · cases hflag : (t c).flag d with
    | false => rfl
    | true => exact nomatch hexist.symm.trans (ht c d hflag)

/-- **Selection.**  Along any sequence of requests and updates, from any table, every step does what
is expected, if and only if every step satisfies the condition.  From `init_audio_devices` on, no
card is marked for a direction without existing, which is what the condition asks of the cards of a
playback request and of an update. -/
theorem selection_iff (s : State) (acts : List Act) :
    (Along step (fun _ => True) Good s acts ↔ Meets step SelectOk s acts) ∧
      ∀ sys s', Runs step (fun _ _ => True) (s.initAudioDevices sys) s' → ∀ d,
        (∀ n c, firstNamed s'.devManager d n = some c → s'.devManager.named d n = some c) ∧
          ∀ c, (s'.devManager c).flagExist = false → (s'.devManager c).flag d = false := by
  refine ⟨?_, fun sys s' hrun d => sound_ok (sound_of_runs hrun)⟩
  have hone : ∀ {a : Act} {s s' : State}, step s a = some s' → (Good a s s' ↔ SelectOk a s) := by
    intro a s s' hstep
    cases a with
    | setAudioDevicesActive d r stack =>
      obtain rfl := Option.some.inj hstep
      cases d with
      | audioIn => exact selects_in_iff r stack
      | audioOut => exact selects_out_iff r stack
    | updataAudioDevices sys =>
      obtain rfl := Option.some.inj hstep
      exact forall_congr' fun c => updated_iff (updataAudioDevices_entry s sys c)
  refine along_iff_meets (fun {s} (_ : True) => trivial) ?_ ?_ acts trivial
  · exact fun _ hok hstep => ⟨trivial, (hone hstep).mpr hok⟩
  · exact fun _ hstep hgood _ => (hone hstep).mp hgood

/-! ### A card for a later name -/

def usbId : CardId := ⟨"Device".toList, by decide, by decide⟩

/-- The codec, and behind it a USB card that captures. -/
def withUsb : State where
  devManager c :=
    if c = card0 then ⟨nameCodec, CardId.empty, true, false, true, false, true⟩
    else if c = card1 then ⟨usbName usbId, usbId, true, false, false, false, true⟩
    else .blank
  audioNameMap := audioNameMap
  given := []

def hdmiOrUsb : Request := ⟨"AUDIO_HDMI,AUDIO_USB_Device".toList, by decide, by decide⟩

/-- The second name is that of the card 1, but the card 0 is made active. -/
theorem later_name_ignored :
    ¬ ∀ (s : State) (acts : List Act), Along step (fun _ => True) Good s acts := by
  intro hall
  have hgood := (hall withUsb [.setAudioDevicesActive .audioIn hdmiOrUsb fun _ => nul]).2 _ rfl
  have hok := (selects_in_iff hdmiOrUsb fun _ => nul).mp hgood.1
  have hnames : hdmiOrUsb.names = ["AUDIO_HDMI".toList, "AUDIO_USB_Device".toList] := by
    decide +kernel
  have hcard : isUsable .audioIn (withUsb.devManager card1) = true ∧
      (withUsb.devManager card1).name.1 = "AUDIO_USB_Device".toList := ⟨rfl, rfl⟩
  have hsecond := hok.2 ⟨_, by rw [hnames]; simp, card1, hcard⟩ "AUDIO_HDMI".toList
    (by rw [hnames]; rfl)
  have hbears := hsecond.2
  rw [hnames] at hbears
  revert hbears
  decide +kernel

/-! ## The initial selection -/

/-- The first existing card with the codec's name. -/
def codecCard (t : Table) : Option Card :=
  cards.find? fun c => (t c).flagExist && (t c).name == nameCodec

/-- The cards of the last two loops, in their order. -/
def fallbacks (t : Table) : List Card :=
  (codecCard t).toList ++ cards.takeWhile fun c => (t c).flagExist

/-- The codec, or a card with no free number below it. -/
def Reached (t : Table) (d : Dir) (c : Card) : Prop :=
  isUsable d (t c) = true ∧ (codecCard t = some c ∨ ∀ c' < c, (t c').flagExist = true)

/-- If there is a card for capture, one of them is reached without the property; with it, the first
name is that of one, or card 0 is one. -/
def CaptureOk (t : Table) (prop : Request) : Prop :=
  (∃ c, isUsable .audioIn (t c) = true) →
    if prop.1 = [] then ∃ c, Reached t .audioIn c
    else ∃ n ∈ prop.names.head?, isUsable .audioIn (t ((t.named .audioIn n).getD card0)) = true

/-- If there is a card for playback, one of them is reached without the property; with it, there is
a name, and it is that of one, or one is reached, or card 1 is one. -/
def PlaybackOk (t : Table) (prop : Request) : Prop :=
  (∃ c, isUsable .audioOut (t c) = true) →
    if prop.1 = [] then ∃ c, Reached t .audioOut c
    else ∃ n ∈ prop.names.head?, (t.named .audioOut n).isSome ∨
      isUsable .audioOut (t card1) = true ∨ ∃ c, Reached t .audioOut c

/-- What is expected of the selection in a table. -/
structure Complete (t t' : Table) : Prop where
  capture : (∃ c, isUsable .audioIn (t c) = true) → ∃! c, isActive .audioIn (t' c) = true
  playback : (∃ c, isUsable .audioOut (t c) = true) → ∃ c, isActive .audioOut (t' c) = true

/-- Two tables that differ in the active cards only. -/
structure SameCards (t t' : Table) : Prop where
  flag : ∀ c d, (t' c).flag d = (t c).flag d
  flagExist : ∀ c, (t' c).flagExist = (t c).flagExist
  name : ∀ c, (t' c).name = (t c).name

lemma SameCards.trans {t'' : Table} (h : SameCards t t') (h' : SameCards t' t'') :
    SameCards t t'' where
  flag c d := (h'.flag c d).trans (h.flag c d)
  flagExist c := (h'.flagExist c).trans (h.flagExist c)
  name c := (h'.name c).trans (h.name c)

lemma sameCards_of_sameBut (h : t.SameBut d t') : SameCards t t' := ⟨h.flag, h.flagExist, h.name⟩

lemma SameCards.isUsable (h : SameCards t t') (d : Dir) (c : Card) :
    isUsable d (t' c) = isUsable d (t c) := by
  rw [DeviceSelection.isUsable, DeviceSelection.isUsable, h.flagExist, h.flag]

lemma SameCards.fallbacks (h : SameCards t t') : fallbacks t' = fallbacks t := by
  unfold DeviceSelection.fallbacks codecCard
  simp only [h.flagExist, h.name]

/-- The cards below the first gap. -/
lemma mem_takeWhile_cards {p : Card → Bool} {c : Card} :
    c ∈ cards.takeWhile p ↔ ∀ c' ≤ c, p c' = true := by
  have hall : ∀ l : List Card, l.Pairwise (· < ·) →
      (c ∈ l.takeWhile p ↔ c ∈ l ∧ ∀ c' ∈ l, c' ≤ c → p c' = true) := by
    intro l hl
    induction l with
    | nil => simp
    | cons a l ih =>
      obtain ⟨hlt, hl⟩ := List.pairwise_cons.mp hl
      cases ha : p a with
      | false =>
        rw [List.takeWhile_cons_of_neg (by simp [ha])]
        refine iff_of_false List.not_mem_nil fun ⟨hmem, hbelow⟩ => ?_
        have hle : a ≤ c := by
          rcases List.mem_cons.mp hmem with rfl | hc
          · exact Nat.le_refl _
          · exact Nat.le_of_lt (hlt c hc)
        exact nomatch ha.symm.trans (hbelow a List.mem_cons_self hle)
      | true =>
        rw [List.takeWhile_cons_of_pos ha, List.mem_cons, List.mem_cons, ih hl]
        simp only [List.forall_mem_cons, ha, implies_true, true_and]
        constructor
        · rintro (rfl | ⟨hc, hbelow⟩)
          · exact ⟨Or.inl rfl, fun c' hc' hle => absurd (hlt c' hc') (Nat.not_lt.mpr hle)⟩
          · exact ⟨Or.inr hc, hbelow⟩
        · rintro ⟨rfl | hc, hbelow⟩
          · exact Or.inl rfl
          · exact Or.inr ⟨hc, hbelow⟩
  rw [hall cards (List.pairwise_lt_finRange _)]
  simp only [List.mem_finRange, true_and, forall_const]

lemma find?_fallbacks_isSome (t : Table) (d : Dir) :
    ((fallbacks t).find? fun c => isUsable d (t c)).isSome = true ↔ ∃ c, Reached t d c := by
  rw [List.find?_isSome]
  refine exists_congr fun c => ?_
  rw [fallbacks, List.mem_append, Option.mem_toList, mem_takeWhile_cards, Reached, and_comm]
  refine and_congr_right fun hc => or_congr Iff.rfl ⟨fun h c' hlt => h c' (Nat.le_of_lt hlt), ?_⟩
  intro h c' hle
  rcases Nat.lt_or_eq_of_le hle with hlt | heq
  · exact h c' hlt
  · rw [isUsable, Bool.and_eq_true] at hc
    obtain rfl := Fin.ext heq
    exact hc.1

variable {x : Selection} {b : Card}

/-- One card in the last two loops. -/
def useBoth (x : Selection) (c : Card) : Selection := (x.useCard .audioIn c).useCard .audioOut c

/-- What the choice of a card does in its direction, and in the other one. -/
lemma useCard_spec (x : Selection) (d : Dir) (c : Card) :
    x.table.SameBut d (x.useCard d c).table ∧
    (∀ d', d' ≠ d → (x.useCard d c).activeName d' = x.activeName d') ∧
    ((x.useCard d c).activeName d).isNone = ((x.activeName d).isNone && !(x.table c).flag d) ∧
    ∀ b, ((x.useCard d c).table b).flagActive d =
      ((x.table b).flagActive d ||
        ((x.activeName d).isNone && (x.table c).flag d && decide (b = c))) := by
  unfold Selection.useCard
  split_ifs with h
  · obtain ⟨hnone, hflag⟩ := (Bool.and_eq_true _ _).mp h
    refine ⟨sameBut_activate .., fun d' hd => Function.update_of_ne hd .., ?_, fun b => ?_⟩
    · simp [hflag]
    · simp [flagActive_activate, hnone, hflag, Bool.or_comm]
  · rw [Bool.not_eq_true] at h
    refine ⟨.refl d _, fun _ _ => rfl, ?_, fun b => ?_⟩
    · revert h
      cases (x.activeName d).isNone <;> simp
    · rw [h, Bool.false_and, Bool.or_false]

lemma useBoth_spec (x : Selection) (c : Card) : SameCards x.table (useBoth x c).table ∧ ∀ d,
    ((useBoth x c).activeName d).isNone = ((x.activeName d).isNone && !(x.table c).flag d) ∧
    ∀ b, ((useBoth x c).table b).flagActive d =
      ((x.table b).flagActive d ||
        ((x.activeName d).isNone && (x.table c).flag d && decide (b = c))) := by
  obtain ⟨hsame, hother, hnone, hactive⟩ := useCard_spec x .audioIn c
  obtain ⟨hsame', hother', hnone', hactive'⟩ := useCard_spec (x.useCard .audioIn c) .audioOut c
  refine ⟨(sameCards_of_sameBut hsame).trans (sameCards_of_sameBut hsame'), fun d => ?_⟩
  cases d with
  | audioIn =>
    have hne : Dir.audioIn ≠ .audioOut := nofun
    exact ⟨(congrArg _ (hother' _ hne)).trans hnone,
      fun b => (hsame'.other b _ hne).trans (hactive b)⟩
  | audioOut =>
    have hne : Dir.audioOut ≠ .audioIn := nofun
    rw [hother _ hne, hsame.flag] at hnone'
    refine ⟨hnone', fun b => (hactive' b).trans ?_⟩
    rw [hother _ hne, hsame.flag, hsame.other b _ hne]

/-- The loops choose, for a direction without a card, the first that can be used. -/
lemma foldl_useBoth (cs : List Card) : ∀ x : Selection,
    SameCards x.table (cs.foldl useBoth x).table ∧ ∀ d b,
      ((cs.foldl useBoth x).table b).flagActive d = ((x.table b).flagActive d ||
        ((x.activeName d).isNone && decide (cs.find? (fun c => (x.table c).flag d) = some b))) := by
  induction cs with
  | nil => exact fun x => ⟨⟨fun _ _ => rfl, fun _ => rfl, fun _ => rfl⟩, fun d b => by simp⟩
  | cons c cs ih =>
    intro x
    obtain ⟨hsame, hone⟩ := useBoth_spec x c
    obtain ⟨hrest, hactive⟩ := ih (useBoth x c)
    refine ⟨hsame.trans hrest, fun d b => ?_⟩
    rw [List.foldl_cons, hactive, (hone d).1, (hone d).2]
    simp only [hsame.flag]
    cases hflag : (x.table c).flag d with
    | false => simp [hflag]
    | true => simp [hflag, @eq_comm _ c b]

lemma foldl_useBoth_of_chosen (h : x.chosen = true) (cs : List Card) : cs.foldl useBoth x = x := by
  obtain ⟨hin, hout⟩ := (Bool.and_eq_true _ _).mp h
  rw [← Option.isNone_eq_false_iff] at hin hout
  have hone : ∀ c, useBoth x c = x := fun c => by simp [useBoth, Selection.useCard, hin, hout]
  induction cs with
  | nil => rfl
  | cons c cs ih => rw [List.foldl_cons, hone, ih]

lemma useCodec_eq (x : Selection) : x.useCodec = (codecCard x.table).toList.foldl useBoth x := by
  rw [Selection.useCodec, ← codecCard]
  cases codecCard x.table <;> rfl

lemma useAny_eq (cs : List Card) : ∀ x : Selection,
    Selection.useAny cs x = (cs.takeWhile fun c => (x.table c).flagExist).foldl useBoth x := by
  induction cs with
  | nil => exact fun x => rfl
  | cons c cs ih =>
    intro x
    rw [Selection.useAny]
    split_ifs with hexist
    · have hsame := (useBoth_spec x c).1
      rw [List.takeWhile_cons, if_pos hexist, List.foldl_cons]
      refine (ih (useBoth x c)).trans ?_
      simp only [hsame.flagExist]
    · rw [List.takeWhile_cons, if_neg hexist]
      rfl

/-- The selection with the values of the properties. -/
def withProperties (t : Table) (propIn propOut : Request) (stack : TextMemory) : Selection :=
  (Selection.useProperty ⟨t, fun _ => none⟩ .audioIn propIn stack).useProperty .audioOut propOut
    stack

/-- The last two loops, one behind the other. -/
lemma lastLoops_eq (x : Selection) :
    (if x.chosen then x
      else if x.useCodec.chosen then x.useCodec else Selection.useAny cards x.useCodec) =
        (fallbacks x.table).foldl useBoth x := by
  have hcodec := useCodec_eq x
  have hsame := (foldl_useBoth (codecCard x.table).toList x).1
  rw [← hcodec] at hsame
  rw [fallbacks, List.foldl_append, ← hcodec]
  split_ifs with h h'
  · rw [hcodec, foldl_useBoth_of_chosen h, foldl_useBoth_of_chosen h]
  · rw [foldl_useBoth_of_chosen h']
  · rw [useAny_eq]
    simp only [hsame.flagExist]

lemma choose_eq (t : Table) (propIn propOut : Request) (stack : TextMemory) :
    Selection.choose ⟨t, fun _ => none⟩ propIn propOut stack =
      (fallbacks (withProperties t propIn propOut stack).table).foldl useBoth
        (withProperties t propIn propOut stack) :=
  lastLoops_eq (withProperties t propIn propOut stack)

lemma useProperty_spec (x : Selection) (d : Dir) (prop : Request) (stack : TextMemory) :
    x.table.SameBut d (x.useProperty d prop stack).table ∧
    (∀ d', d' ≠ d → (x.useProperty d prop stack).activeName d' = x.activeName d') ∧
    (prop.1 = [] → x.useProperty d prop stack = x) ∧
    (prop.1 ≠ [] →
      (x.useProperty d prop stack).table = (x.table.setAudioDevicesActive d prop stack).1 ∧
      ((x.useProperty d prop stack).activeName d).isNone =
        ((x.activeName d).isNone && !(x.table.setAudioDevicesActive d prop stack).2)) := by
  unfold Selection.useProperty
  split_ifs with hprop
  · exact ⟨.refl d _, fun _ _ => rfl, fun _ => rfl, fun h => absurd hprop h⟩
  · have hsame := sameBut_setAudioDevicesActive x.table d prop stack
    generalize x.table.setAudioDevicesActive d prop stack = result at hsame
    obtain ⟨table, ok⟩ := result
    refine ⟨hsame, fun d' hd => ?_, fun h => absurd h hprop, fun _ => ⟨rfl, ?_⟩⟩
    · cases ok with
      | false => rfl
      | true => exact Function.update_of_ne hd ..
    · cases ok <;> simp

/-- The active cards behind the selection. -/
lemma isActive_choose (ht : t.Sound) (propIn propOut : Request) (stack : TextMemory) (d : Dir)
    (c : Card) :
    let x := withProperties t propIn propOut stack
    SameCards t x.table →
      (isActive d ((Selection.choose ⟨t, fun _ => none⟩ propIn propOut stack).table c) = true ↔
        isUsable d (t c) = true ∧ ((x.table c).flagActive d = true ∨
          (x.activeName d).isNone = true ∧
            (fallbacks t).find? (fun c => isUsable d (t c)) = some c)) := by
  intro x hx
  rw [choose_eq]
  obtain ⟨hsame, hactive⟩ := foldl_useBoth (fallbacks x.table) x
  rw [isActive_eq, Bool.and_eq_true, (hx.trans hsame).isUsable, hactive, hx.fallbacks]
  simp only [hx.flag, Sound.isUsable ht, Bool.or_eq_true, Bool.and_eq_true, decide_eq_true_iff]

lemma sameCards_withProperties (t : Table) (propIn propOut : Request) (stack : TextMemory) :
    SameCards t (withProperties t propIn propOut stack).table :=
  (sameCards_of_sameBut (useProperty_spec ⟨t, fun _ => none⟩ .audioIn propIn stack).1).trans
    (sameCards_of_sameBut (useProperty_spec _ .audioOut propOut stack).1)

lemma exists_fallback_iff (t : Table) (d : Dir) :
    (∃ c, isUsable d (t c) = true ∧ (fallbacks t).find? (fun c => isUsable d (t c)) = some c) ↔
      ∃ c, Reached t d c := by
  rw [← find?_fallbacks_isSome, Option.isSome_iff_exists]
  refine exists_congr fun c => and_iff_right_of_imp fun h => ?_
  have hfound := List.find?_some h
  exact hfound

/-- The capture direction. -/
lemma captures_iff (ht : t.Built) (propIn propOut : Request) (stack : TextMemory) :
    ((∃ c, isUsable .audioIn (t c) = true) → ∃! c, isActive .audioIn
        ((Selection.choose ⟨t, fun _ => none⟩ propIn propOut stack).table c) = true) ↔
      CaptureOk t propIn := by
  refine imp_congr_right fun _ => ?_
  simp only [isActive_choose ht.sound propIn propOut stack .audioIn _
    (sameCards_withProperties t propIn propOut stack)]
  have hne : Dir.audioIn ≠ .audioOut := nofun
  obtain ⟨-, -, hnil, hprop⟩ := useProperty_spec ⟨t, fun _ => none⟩ .audioIn propIn stack
  obtain ⟨hsame, hother, -, -⟩ :=
    useProperty_spec (Selection.useProperty ⟨t, fun _ => none⟩ .audioIn propIn stack) .audioOut
      propOut stack
  rw [← withProperties] at hsame hother
  simp only [hsame.other _ _ hne, hother _ hne]
  split_ifs with hempty
  · simp only [hnil hempty, ht.inactive, Option.isNone_none, Bool.false_eq_true, false_or, true_and]
    rw [← exists_fallback_iff]
    refine ⟨ExistsUnique.exists, fun ⟨c, hc⟩ => ⟨c, hc, fun c' hc' => ?_⟩⟩
    exact Option.some.inj (hc'.2.symm.trans hc.2)
  · obtain ⟨htable, hnone⟩ := hprop hempty
    obtain ⟨hret, hactive⟩ := setAudioDevicesActive_in t propIn stack
    simp only [htable, hnone, hret, hactive, Bool.not_true, Bool.and_false, Bool.false_eq_true,
      false_and, or_false]
    constructor
    · rintro ⟨c, ⟨husable, n, hn, rfl⟩, -⟩
      exact ⟨n, hn, husable⟩
    · rintro ⟨n, hn, husable⟩
      refine ⟨_, ⟨husable, n, hn, rfl⟩, ?_⟩
      rintro c ⟨-, n', hn', rfl⟩
      rw [Option.mem_unique hn hn']

/-- The playback direction. -/
lemma plays_iff (ht : t.Built) (propIn propOut : Request) (stack : TextMemory) :
    ((∃ c, isUsable .audioOut (t c) = true) → ∃ c, isActive .audioOut
        ((Selection.choose ⟨t, fun _ => none⟩ propIn propOut stack).table c) = true) ↔
      PlaybackOk t propOut := by
  refine imp_congr_right fun _ => ?_
  simp only [isActive_choose ht.sound propIn propOut stack .audioOut _
    (sameCards_withProperties t propIn propOut stack)]
  have hne : Dir.audioOut ≠ .audioIn := nofun
  obtain ⟨hsame, hother, -, -⟩ := useProperty_spec ⟨t, fun _ => none⟩ .audioIn propIn stack
  obtain ⟨-, -, hnil, hprop⟩ :=
    useProperty_spec (Selection.useProperty ⟨t, fun _ => none⟩ .audioIn propIn stack) .audioOut
      propOut stack
  rw [← withProperties] at hnil hprop
  generalize Selection.useProperty ⟨t, fun _ => none⟩ .audioIn propIn stack = x at *
  split_ifs with hempty
  · simp only [hnil hempty, hsame.other _ _ hne, hother _ hne, ht.inactive, Option.isNone_none,
      Bool.false_eq_true, false_or, true_and]
    exact exists_fallback_iff t .audioOut
  · obtain ⟨htable, hnone⟩ := hprop hempty
    rw [hother _ hne] at hnone
    simp only [htable, hnone, Option.isNone_none, Bool.true_and, Bool.not_eq_true']
    have hnamed : ∀ n, (x.table.clear .audioOut).named .audioOut n = t.named .audioOut n :=
      fun n => ((sameBut_clear x.table .audioOut).named _ n).trans (hsame.named _ n)
    obtain ⟨hret, hactive⟩ := setAudioDevicesActive_out x.table propOut stack
    simp only [hsame.named] at hret hactive
    have hall := setAudioDevicesActive_eq x.table .audioOut propOut stack
    cases hnames : propOut.names with
    | nil =>
      rw [hnames] at hret hactive
      have hok := hret.mpr (List.forall_mem_nil _)
      refine iff_of_false ?_ fun ⟨n, hn, _⟩ => nomatch hn
      rintro ⟨c, -, hflag | ⟨hfailed, -⟩⟩
      · obtain ⟨n, hn, -⟩ := (hactive hok c).mp hflag
        exact absurd hn List.not_mem_nil
      · exact nomatch hok.symm.trans hfailed
    | cons n ns =>
      rw [hnames] at hret hactive hall
      simp only [List.head?_cons, Option.mem_some_iff, exists_eq_left']
      cases hn : t.named .audioOut n with
      | some c =>
        have husable : isUsable .audioOut (t c) = true := by
          rw [Sound.isUsable ht.sound]
          exact (named_name hn).1
        refine iff_of_true ⟨c, husable, Or.inl ?_⟩ (Or.inl rfl)
        cases hok : (x.table.setAudioDevicesActive .audioOut propOut stack).2 with
        | true => exact (hactive hok c).mpr ⟨n, List.mem_cons_self, hn⟩
        | false =>
          rw [hall] at hok ⊢
          exact activateAll_out_failed _ hok c (Or.inr (Or.inr ((hnamed n).trans hn)))
      | none =>
        have hfailed : x.table.setAudioDevicesActive .audioOut propOut stack =
            (((x.table.clear .audioOut).activate .audioOut card0).activate .audioOut card1,
              false) := by
          rw [hall, Table.activateAll, hnamed, hn]
        simp only [hfailed, flagActive_activate, flagActive_clear, Bool.or_false, Bool.or_eq_true,
          decide_eq_true_iff, true_and, Option.isSome_none, Bool.false_eq_true, false_or]
        rw [← exists_fallback_iff]
        constructor
        · rintro ⟨c, husable, (rfl | rfl) | hc⟩
          · exact Or.inl husable
          · refine Or.inr ((exists_fallback_iff t .audioOut).mpr ⟨card0, husable, Or.inr ?_⟩)
            exact fun c' hlt => absurd hlt (Nat.not_lt_zero _)
          · exact Or.inr ⟨c, husable, hc⟩
        · rintro (husable | ⟨c, husable, hc⟩)
          · exact ⟨card1, husable, Or.inl (Or.inl rfl)⟩
          · exact ⟨c, husable, Or.inr hc⟩

/-- **The initial selection.**  In every table that `init_audio_devices` makes, with all values of
the two properties, the selection is complete if and only if it is so in both directions. -/
theorem complete_iff (s : State) (sys : Sys) (propIn propOut : Request) (stack : TextMemory) :
    Complete (s.initAudioDevices sys).devManager
        ((s.initAudioDevices sys).initAudioDevicesActive propIn propOut stack).1.devManager ↔
      CaptureOk (s.initAudioDevices sys).devManager propIn ∧
        PlaybackOk (s.initAudioDevices sys).devManager propOut := by
  have hbuilt := built_initAudioDevices s sys
  rw [← captures_iff hbuilt propIn propOut stack, ← plays_iff hbuilt propIn propOut stack]
  exact ⟨fun h => ⟨h.capture, h.playback⟩, fun h => ⟨h.1, h.2⟩⟩

/-- There is a card 1, for both directions, and no card 0. -/
def onlyCard1 : Sys := fun c => if c = card1 then some ⟨some usbId, true, true⟩ else none

def noValue : Request := ⟨[], by decide, by decide⟩

/-- No card is active with a card 1 only. -/
theorem card_behind_gap :
    ¬ ∀ (s : State) (sys : Sys) (propIn propOut : Request) (stack : TextMemory),
      Complete (s.initAudioDevices sys).devManager
        ((s.initAudioDevices sys).initAudioDevicesActive propIn propOut stack).1.devManager := by
  intro hall
  have hcomplete := hall loaded onlyCard1 noValue noValue fun _ => nul
  have hbuilt := built_initAudioDevices loaded onlyCard1
  have hok := (captures_iff hbuilt noValue noValue fun _ => nul).mp hcomplete.capture
  have hcard : isUsable .audioIn ((loaded.initAudioDevices onlyCard1).devManager card1) = true := by
    decide +kernel
  have hnone : ∀ c, ¬ (isUsable .audioIn ((loaded.initAudioDevices onlyCard1).devManager c) = true ∧
      (codecCard (loaded.initAudioDevices onlyCard1).devManager = some c ∨
        ∀ c' < c, ((loaded.initAudioDevices onlyCard1).devManager c').flagExist = true)) := by
    decide +kernel
  obtain ⟨c, hc⟩ := hok ⟨card1, hcard⟩
  exact hnone c hc

end Softwinner.Audio.DeviceSelection
