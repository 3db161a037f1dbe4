import Softwinner.Audio.DeviceSelection

/-!
# The lists of cards

`get_audio_devices` and `get_audio_devices_active` write the names of cards into arrays of 128
characters, with a comma behind each one, and then set the last character to the end of the string.
Nothing is tested: neither that there is a last character, nor that the names fit.

The arrays `in_devices` and `out_devices` are one behind the other in `sunxi_audio_device`; the
first one starts at the address 0.  The array of `adev_get_parameters` starts at 0 as well.
`lists_iff` says when the lists are right.
-/

namespace Softwinner.Audio.DeviceLists

open Framework Framework.TextMemory Devices DeviceSelection
open OutputStream (Card)

/-- The size of `in_devices`, of `out_devices`, and of `devices` in `adev_get_parameters`. -/
def devicesSize : ℕ := 128

/-- `in_devices` and `out_devices`. -/
def devicesArray : Dir → ℤ
  | .audioIn => 0
  | .audioOut => 128

def memset (m : TextMemory) (n : ℕ) : TextMemory := fun k => if 0 ≤ k ∧ k < n then nul else m k

/-- The loop of `get_audio_devices`, as what it appends. -/
def existing (t : Table) : List (Dir × List Char) :=
  cards.flatMap fun c =>
    if (t c).flagExist then
      (if (t c).flagIn then [(.audioIn, (t c).name.1)] else []) ++
        if (t c).flagOut then [(.audioOut, (t c).name.1)] else []
    else []

/-- The loop of `get_audio_devices_active`. -/
def active (t : Table) (d : Dir) : List (Unit × List Char) :=
  cards.flatMap fun c =>
    if (t c).flag d && (t c).flagActive d then [((), (t c).name.1)] else []

/-- `get_audio_devices`, with the address of the array that is returned; `mem` is the memory
before. -/
def getAudioDevices (s : State) (sys : Sys) (d : Dir) (mem : TextMemory) : State × Arrays × ℤ :=
  let s := s.updataAudioDevices sys
  let x : Arrays := ⟨memset mem (2 * devicesSize), []⟩
  let x := x.appendAll devicesArray ',' (existing s.devManager)
  (s, (x.dropLast (devicesArray .audioIn)).dropLast (devicesArray .audioOut), devicesArray d)

/-- `get_audio_devices_active`, for `devices` as `adev_get_parameters` has it. -/
def getAudioDevicesActive (t : Table) (d : Dir) (mem : TextMemory) : Arrays :=
  let x : Arrays := ⟨memset mem devicesSize, []⟩
  (x.appendAll (fun _ => 0) ',' (active t d)).dropLast 0

/-- The names of some cards, in the order of the cards. -/
def namesOf (t : Table) (p : DevManager → Bool) : List (List Char) :=
  (cards.filter fun c => p (t c)).map fun c => (t c).name.1

/-- The names with commas between them. -/
def joined (names : List (List Char)) : List Char := [','].intercalate names

/-- There are names, and they fit with a comma behind each one. -/
def Fits (names : List (List Char)) : Prop :=
  names ≠ [] ∧ (names.map fun n => n.length + 1).sum < devicesSize

/-- The list of the existing cards is returned, and is written in its array. -/
def ListsExisting (s : State) (sys : Sys) (d : Dir) (mem : TextMemory) : Prop :=
  let result := getAudioDevices s sys d mem
  result.2.1.Inside devicesSize ∧
    result.2.1.text.Holds result.2.2 (joined (namesOf result.1.devManager (isUsable d)))

/-- The list of the active cards is written in the array. -/
def ListsActive (t : Table) (d : Dir) (mem : TextMemory) : Prop :=
  (getAudioDevicesActive t d mem).Inside devicesSize ∧
    (getAudioDevicesActive t d mem).text.Holds 0 (joined (namesOf t (isActive d)))

variable {s : State} {t : Table} {d : Dir} {names : List (List Char)} {x : Arrays} {a : ℤ}

lemma textsOf_existing (t : Table) (d : Dir) :
    textsOf d (existing t) = namesOf t (isUsable d) := by
  unfold textsOf existing namesOf
  induction cards with
  | nil => rfl
  | cons c cs ih =>
    rw [List.flatMap_cons, List.filter_append, List.map_append, ih, List.filter_cons, isUsable]
    cases d <;> cases hexist : (t c).flagExist <;> cases hin : (t c).flagIn <;>
      cases hout : (t c).flagOut <;> simp [DevManager.flag, hin, hout]

lemma textsOf_active (ht : t.Sound) (d : Dir) :
    textsOf () (active t d) = namesOf t (isActive d) := by
  have hactive : ∀ c, isActive d (t c) = ((t c).flag d && (t c).flagActive d) := by
    intro c
    rw [isActive_eq, Sound.isUsable ht]
  unfold textsOf active namesOf
  induction cards with
  | nil => rfl
  | cons c cs ih =>
    rw [List.flatMap_cons, List.filter_append, List.map_append, ih, List.filter_cons, hactive]
    split_ifs <;> simp

lemma fits_iff (names : List (List Char)) :
    Fits names ↔ names ≠ [] ∧ (separated ',' names).length < devicesSize := by
  rw [Fits, length_separated]

lemma nul_notMem_namesOf (t : Table) (p : DevManager → Bool) : ∀ n ∈ namesOf t p, nul ∉ n := by
  intro n hn
  obtain ⟨c, -, rfl⟩ := List.mem_map.mp hn
  exact (t c).name.2.2

/-- Arrays that have just been cleared. -/
lemma lines_memset {ι : Type} (base : ι → ℤ) (mem : TextMemory) {n : ℕ}
    (hbase : ∀ i, 0 ≤ base i ∧ base i < n) :
    Arrays.Lines base ',' devicesSize (fun _ => []) ⟨memset mem n, []⟩ where
  holds i := if_pos (hbase i)
  nul _ := List.forall_mem_nil _
  length _ := by decide

/-- The last comma is taken away, if there is one. -/
lemma dropLast_spec (h : x.text.Holds a (separated ',' names)) (hnul : ∀ n ∈ names, nul ∉ n)
    (hlt : (separated ',' names).length < devicesSize) :
    ((x.dropLast a).Inside devicesSize ↔ x.Inside devicesSize ∧ names ≠ []) ∧
    (names ≠ [] → (x.dropLast a).text.Holds a (joined names)) := by
  have hs := nul_notMem_separated (show nul ≠ ',' by decide) hnul
  have hlen : (separated ',' names).length ≤ Arrays.maxText :=
    Nat.le_of_lt (Nat.lt_trans hlt (by decide))
  constructor
  · rw [Arrays.inside_dropLast hs hlen h hlt]
    refine and_congr_right fun _ => ?_
    cases names <;> simp [separated]
  · intro hne
    rw [separated_eq names hne] at hs hlen h
    exact Arrays.holds_dropLast hs hlen h

/-- The last commas of both lists are taken away. -/
lemma dropBoth_iff {names : Dir → List (List Char)} (hnul : ∀ d, ∀ n ∈ names d, nul ∉ n)
    (hinside : x.Inside devicesSize ↔ ∀ d, (separated ',' (names d)).length < devicesSize)
    (hlines : (∀ d, (separated ',' (names d)).length < devicesSize) →
      ∀ d, x.text.Holds (devicesArray d) (separated ',' (names d))) (d : Dir) :
    let y := (x.dropLast (devicesArray .audioIn)).dropLast (devicesArray .audioOut)
    y.Inside devicesSize ∧ y.text.Holds (devicesArray d) (joined (names d)) ↔
      ∀ d, Fits (names d) := by
  intro y
  simp only [fits_iff]
  have hs := fun d => nul_notMem_separated (show nul ≠ ',' by decide) (hnul d)
  have hmax : devicesSize ≤ Arrays.maxText := by decide
  -- without the last comma of the first list, the second one is still there
  have hsecond : (∀ d, (separated ',' (names d)).length < devicesSize) → names .audioIn ≠ [] →
      (x.dropLast (devicesArray .audioIn)).text.Holds (devicesArray .audioOut)
        (separated ',' (names .audioOut)) := by
    intro hlen hne
    have hshort : _ < 128 := hlen .audioIn
    have hnonempty : separated ',' (names .audioIn) ≠ [] := by
      rw [separated_eq _ hne]
      exact List.append_ne_nil_of_right_ne_nil _ (List.cons_ne_nil _ _)
    refine Arrays.dropLast_frame (hs _) (Nat.le_trans (Nat.le_of_lt (hlen _)) hmax)
      (hlines hlen .audioIn) hnonempty (hlines hlen .audioOut) (Or.inr ?_)
    show (0 : ℤ) + _ ≤ 128
    omega
  constructor
  · rintro ⟨h, -⟩
    have hfirst : (x.dropLast (devicesArray .audioIn)).Inside devicesSize :=
      fun w hw => h w (List.mem_append_left _ hw)
    have hlen := hinside.mp fun w hw => hfirst w (List.mem_append_left _ hw)
    have hin := ((dropLast_spec (hlines hlen .audioIn) (hnul _) (hlen .audioIn)).1.mp hfirst).2
    have hout := ((dropLast_spec (hsecond hlen hin) (hnul _) (hlen .audioOut)).1.mp h).2
    intro d
    cases d with
    | audioIn => exact ⟨hin, hlen .audioIn⟩
    | audioOut => exact ⟨hout, hlen .audioOut⟩
  · intro hall
    have hlen := fun d => (hall d).2
    obtain ⟨hfirst, htext⟩ :=
      dropLast_spec (hlines hlen .audioIn) (hnul _) (hlen .audioIn)
    obtain ⟨hlast, htext'⟩ :=
      dropLast_spec (hsecond hlen (hall .audioIn).1) (hnul _) (hlen .audioOut)
    refine ⟨hlast.mpr ⟨hfirst.mpr ⟨hinside.mpr hlen, (hall .audioIn).1⟩, (hall .audioOut).1⟩, ?_⟩
    cases d with
    | audioIn =>
      have hshort : _ < 128 := hlen .audioIn
      have hnonempty : separated ',' (names .audioOut) ≠ [] := by
        rw [separated_eq _ (hall .audioOut).1]
        exact List.append_ne_nil_of_right_ne_nil _ (List.cons_ne_nil _ _)
      refine Arrays.dropLast_frame (hs _) (Nat.le_trans (Nat.le_of_lt (hlen _)) hmax)
        (hsecond hlen (hall .audioIn).1) hnonempty (htext (hall .audioIn).1) (Or.inl ?_)
      rw [separated_eq _ (hall .audioIn).1, List.length_append] at hshort
      show (0 : ℤ) + (joined (names .audioIn)).length < 128
      unfold joined
      omega
    | audioOut => exact htext' (hall .audioOut).1

/-- The list of existing cards is right if both lists fit. -/
lemma listsExisting_iff (s : State) (sys : Sys) (d : Dir) (mem : TextMemory) :
    ListsExisting s sys d mem ↔
      ∀ d', Fits (namesOf (s.updataAudioDevices sys).devManager (isUsable d')) := by
  have hgap : ∀ d d' : Dir, d ≠ d' → devicesArray d + devicesSize ≤ devicesArray d' ∨
      devicesArray d' + devicesSize ≤ devicesArray d := by
    intro d d' hne
    cases d <;> cases d' <;> first | exact absurd rfl hne | decide
  have hnul : ∀ op ∈ existing (s.updataAudioDevices sys).devManager, nul ∉ op.2 := by
    intro op hop
    have hmem : op.2 ∈ textsOf op.1 (existing (s.updataAudioDevices sys).devManager) :=
      List.mem_map.mpr ⟨op, List.mem_filter.mpr ⟨hop, decide_eq_true rfl⟩, rfl⟩
    rw [textsOf_existing] at hmem
    exact nul_notMem_namesOf _ _ _ hmem
  have hbase : ∀ d, 0 ≤ devicesArray d ∧ devicesArray d < (2 * devicesSize : ℕ) := by
    intro d
    cases d <;> decide
  obtain ⟨hinside, hlines⟩ := (lines_memset devicesArray mem hbase).appendAll (by decide)
    (by decide) hgap _ hnul
  simp only [List.nil_append, textsOf_existing] at hinside hlines
  refine dropBoth_iff (fun d => nul_notMem_namesOf _ _) (hinside.trans ?_)
    (fun hlen => (hlines hlen).holds) d
  exact and_iff_right fun _ hw => absurd hw List.not_mem_nil

/-- The list of active cards is right if it fits. -/
lemma listsActive_iff (ht : t.Sound) (d : Dir) (mem : TextMemory) :
    ListsActive t d mem ↔ Fits (namesOf t (isActive d)) := by
  have hnul : ∀ op ∈ active t d, nul ∉ op.2 := by
    intro op hop
    have hmem : op.2 ∈ textsOf () (active t d) :=
      List.mem_map.mpr ⟨op, List.mem_filter.mpr ⟨hop, decide_eq_true rfl⟩, rfl⟩
    rw [textsOf_active ht] at hmem
    exact nul_notMem_namesOf _ _ _ hmem
  have hbase : ∀ _ : Unit, (0 : ℤ) ≤ 0 ∧ (0 : ℤ) < (devicesSize : ℕ) := fun _ => by decide
  obtain ⟨hinside, hlines⟩ := (lines_memset (fun _ : Unit => 0) mem hbase).appendAll (by decide)
    (by decide) (fun _ _ hne => absurd rfl hne) _ hnul
  simp only [List.nil_append, textsOf_active ht] at hinside hlines
  have hnames := nul_notMem_namesOf t (isActive d)
  rw [fits_iff, ListsActive, getAudioDevicesActive]
  constructor
  · rintro ⟨h, -⟩
    have hlen := (hinside.mp fun w hw => h w (List.mem_append_left _ hw)).2
    exact ⟨((dropLast_spec ((hlines hlen).holds ()) hnames (hlen ())).1.mp h).2, hlen ()⟩
  · rintro ⟨hne, hlen⟩
    obtain ⟨hlast, htext⟩ := dropLast_spec ((hlines fun _ => hlen).holds ()) hnames hlen
    have hx := hinside.mpr ⟨fun _ hw => absurd hw List.not_mem_nil, fun _ => hlen⟩
    exact ⟨hlast.mpr ⟨hx, hne⟩, htext hne⟩

/-- **The lists of cards.**  The tables that the code makes from `init_audio_devices` on are sound.
For every sound table, the list of the existing cards for a direction is right if and only if there
are cards for both directions, and the names for each one fit into its array; the list of the active
cards is right if and only if there are some, and their names fit. -/
theorem lists_iff (s : State) :
    (∀ sys s', Runs DeviceSelection.step (fun _ _ => True) (s.initAudioDevices sys) s' →
      s'.devManager.Sound) ∧
    (s.devManager.Sound → ∀ (sys : Sys) (d : Dir) (mem : TextMemory),
      (ListsExisting s sys d mem ↔
        ∀ d', Fits (namesOf (s.updataAudioDevices sys).devManager (isUsable d'))) ∧
      (ListsActive s.devManager d mem ↔ Fits (namesOf s.devManager (isActive d)))) :=
  ⟨fun _ _ hrun => sound_of_runs hrun,
    fun hs sys d mem => ⟨listsExisting_iff s sys d mem, listsActive_iff hs d mem⟩⟩

lemma sound_withUsb : withUsb.devManager.Sound := by
  have hall : ∀ c : Card,
      ((withUsb.devManager c).flagIn = true → (withUsb.devManager c).flagExist = true) ∧
      ((withUsb.devManager c).flagOut = true → (withUsb.devManager c).flagExist = true) := by
    decide +kernel
  intro c d
  cases d with
  | audioIn => exact (hall c).1
  | audioOut => exact (hall c).2

/-- The cards of `withUsb` are still there. -/
def unchanged : Sys := fun c => if c = card0 ∨ c = card1 then some ⟨none, true, true⟩ else none

/-- The codec and a USB card are listed, but not as active ones, since none is active. -/
theorem lists_iff_withUsb : ListsExisting withUsb unchanged .audioIn (fun _ => nul) ∧
    ¬ ListsActive withUsb.devManager .audioIn fun _ => nul := by
  obtain ⟨hexisting, hactive⟩ :=
    (lists_iff withUsb).2 sound_withUsb unchanged .audioIn fun _ => nul
  refine ⟨hexisting.mpr fun d => ?_, fun h => (hactive.mp h).1 (by decide +kernel)⟩
  cases d <;> exact ⟨by decide +kernel, by decide +kernel⟩

/-- Without cards, the place before the array is written. -/
theorem no_cards_outside : loaded.devManager.Sound ∧
    (¬ ListsExisting loaded (fun _ => none) .audioIn fun _ => nul) ∧
    ¬ ListsActive loaded.devManager .audioIn fun _ => nul := by
  have hsound : loaded.devManager.Sound := fun c d h => by
    cases d <;> exact nomatch h
  refine ⟨hsound, ?_, ?_⟩
  · rw [listsExisting_iff]
    intro hall
    exact (hall .audioIn).1 (by decide +kernel)
  · rw [listsActive_iff hsound]
    intro hfits
    exact hfits.1 (by decide +kernel)

end Softwinner.Audio.DeviceLists
