import Softwinner.Audio.OutputStream
import Softwinner.Framework.Text

/-!
# The sound cards

The table of sound cards in `audio_hw.c`: `init_audio_devices`, `updata_audio_devices` for
hot-plugging, `find_name_map`, `set_audio_devices_active` and `init_audio_devices_active`.

`/sys/class/sound` is given by what it has at each card's number.  The names of a request are copied
into an array of 8 rows without a test, so that the array is a memory in which a long name, or a
ninth one, goes on; `nameWrites` are the places that are written.  A text in the table has at most
31 characters by its type, and a card's id at most 15, which is what ALSA allows.

The build is that of a product without `KARAOK_AUDIO_DEVICE`.
-/

namespace Softwinner.Audio.Devices

open Framework Framework.TextMemory
open OutputStream (Card maxAudioDevices)

/-! ## State -/

/-- A text for an array of 32 characters. -/
abbrev Name := { t : List Char // t.length < 32 ∧ nul ∉ t }

/-- What is read as the id of a card; it is empty if the read fails. -/
abbrev CardId := { t : List Char // t.length ≤ 15 ∧ nul ∉ t }

/-- `AUDIO_IN` and `AUDIO_OUT`. -/
inductive Dir
  | audioIn | audioOut
  deriving DecidableEq

def Name.empty : Name := ⟨[], by decide, by decide⟩

def CardId.empty : CardId := ⟨[], by decide, by decide⟩

/-- `AUDIO_NAME_CODEC`, `AUDIO_NAME_HDMI` and `AUDIO_NAME_SPDIF`. -/
def nameCodec : Name := ⟨"AUDIO_CODEC".toList, by decide, by decide⟩

@[inherit_doc nameCodec]
def nameHdmi : Name := ⟨"AUDIO_HDMI".toList, by decide, by decide⟩

@[inherit_doc nameCodec]
def nameSpdif : Name := ⟨"AUDIO_SPDIF".toList, by decide, by decide⟩

/-- `sunxi_audio_device_manager`; a `flag_in` or `flag_out` is either 0 or the constant for its
direction. -/
structure DevManager where
  name : Name
  cardId : CardId
  flagIn : Bool
  flagInActive : Bool
  flagOut : Bool
  flagOutActive : Bool
  flagExist : Bool

/-- `name_map`. -/
structure MapEntry where
  nameLinux : CardId
  nameAndroid : Name

abbrev Table := Card → DevManager

structure State where
  devManager : Table
  audioNameMap : List MapEntry
  /-- For the specification: the ids that were looked up, with the names they got. -/
  given : List (CardId × Name)

/-- A card in `/sys/class/sound`; the id may not be readable. -/
structure CardNode where
  id : Option CardId
  playback : Bool
  capture : Bool

abbrev Sys := Card → Option CardNode

/-- A request for devices. -/
abbrev Request := { t : List Char // t.length ≤ 127 ∧ nul ∉ t }

namespace DevManager

variable (e : DevManager)

def blank : DevManager := ⟨Name.empty, CardId.empty, false, false, false, false, false⟩

def flag : Dir → Bool
  | .audioIn => e.flagIn
  | .audioOut => e.flagOut

def flagActive : Dir → Bool
  | .audioIn => e.flagInActive
  | .audioOut => e.flagOutActive

def setActive (b : Bool) : Dir → DevManager
  | .audioIn => { e with flagInActive := b }
  | .audioOut => { e with flagOutActive := b }

end DevManager

def Table.activate (t : Table) (d : Dir) (c : Card) : Table :=
  Function.update t c ((t c).setActive true d)

def card0 : Card := ⟨0, by decide⟩

lemma one_lt_maxAudioDevices : 1 < maxAudioDevices := by decide

def card1 : Card := ⟨1, one_lt_maxAudioDevices⟩

abbrev cards : List Card := OutputStream.State.cards

/-! ## Names -/

def audioMapCnt : ℕ := 16

def builtin : List MapEntry :=
  [⟨⟨"snddaudio".toList, by decide, by decide⟩, nameCodec⟩,
    ⟨⟨"sndac100".toList, by decide, by decide⟩, nameCodec⟩,
    ⟨⟨"sndac200".toList, by decide, by decide⟩, nameCodec⟩,
    ⟨⟨"audiocodec".toList, by decide, by decide⟩, nameCodec⟩,
    ⟨⟨"sndhdmi".toList, by decide, by decide⟩, nameHdmi⟩,
    ⟨⟨"sndhdmiraw".toList, by decide, by decide⟩, nameHdmi⟩,
    ⟨⟨"sndspdif".toList, by decide, by decide⟩, nameSpdif⟩]

def emptyEntry : MapEntry := ⟨CardId.empty, Name.empty⟩

/-- `audio_name_map` when the program is loaded. -/
def audioNameMap : List MapEntry :=
  builtin ++ List.replicate (audioMapCnt - builtin.length) emptyEntry

/-- The state when the program is loaded. -/
def loaded : State := ⟨fun _ => .blank, audioNameMap, []⟩

/-- The name for an id that is not in the map. -/
def usbName (id : CardId) : Name :=
  ⟨"AUDIO_USB_".toList ++ id.1, by
    have hlen := id.2.1
    rw [List.length_append]
    exact Nat.lt_of_le_of_lt (Nat.add_le_add_left hlen _) (by decide), by
    rw [List.mem_append, not_or]
    exact ⟨by decide, id.2.2⟩⟩

/-- `find_name_map`; when the map is full, the name stays empty. -/
def findNameMap (id : CardId) : List MapEntry → Name × List MapEntry
  | [] => (Name.empty, [])
  | e :: es =>
    if e.nameLinux.1 = [] then (usbName id, ⟨id, usbName id⟩ :: es)
    else if id = e.nameLinux then (e.nameAndroid, e :: es)
    else
      let (name, es) := findNameMap id es
      (name, e :: es)

/-! ## The table -/

namespace State

variable (s : State)

def doInitAudioCard (node : Option CardNode) (c : Card) : State :=
  match node with
  | none => s
  | some node =>
    match node.id with
    | none => s
    | some id =>
      let (name, map) := findNameMap id s.audioNameMap
      let e := { s.devManager c with cardId := id, name := name, flagExist := true }
      let e := if node.playback then { e with flagOut := true, flagOutActive := false } else e
      let e := if node.capture then { e with flagIn := true, flagInActive := false } else e
      ⟨Function.update s.devManager c e, map, s.given ++ [(id, name)]⟩

def initAudioDevices (sys : Sys) : State :=
  cards.foldl (fun s c => s.doInitAudioCard (sys c) c) { s with devManager := fun _ => .blank }

/-- A card is unplugged. -/
def plugOut (c : Card) : State :=
  let e := { s.devManager c with flagExist := false, flagIn := false, flagOut := false }
  { s with devManager := Function.update s.devManager c e }

def updataAudioDevices (sys : Sys) : State :=
  cards.foldl
    (fun s c =>
      if (sys c).isSome then
        if (s.devManager c).flagExist then s else s.doInitAudioCard (sys c) c
      else if (s.devManager c).flagExist then s.plugOut c else s)
    s

end State

/-! ## Selection -/

/-- `seps`. -/
def isSep (c : Char) : Bool := c == ' ' || c == ','

/-- The names of a request. -/
def Request.names (r : Request) : List (List Char) := tokens isSep r.1

def nameSize : ℕ := 8 * 32

/-- The row of `name` with an index. -/
def row (i : ℕ) : ℤ := 32 * i

/-- `name` with the names copied to its rows, from row `i` on. -/
def copyNames : ℕ → List (List Char) → TextMemory → TextMemory
  | _, [], m => m
  | i, t :: ts, m => copyNames (i + 1) ts (m.strcpy (row i) t)

/-- The copy of every name, with its end, stays in the array. -/
def Request.Fits (r : Request) : Prop :=
  ∀ i t, r.names[i]? = some t → 32 * i + t.length + 1 ≤ nameSize

/-- The first card with the name in row `i`. -/
def cardNamed (d : Dir) (m : TextMemory) (t : Table) (i : ℕ) : Option Card :=
  cards.find? fun c => (t c).flag d && strcmp (t c).name.1 m (row i)

/-- The loop over the names, and whether 0 is returned. -/
def activateNames (m : TextMemory) : Dir → List ℕ → Table → Table × Bool
  | _, [], t => (t, true)
  | .audioIn, i :: _, t =>
    match cardNamed .audioIn m t i with
    | some c => (t.activate .audioIn c, true)
    | none => (t.activate .audioIn card0, true)
  | .audioOut, i :: is, t =>
    match cardNamed .audioOut m t i with
    | some c => activateNames m .audioOut is (t.activate .audioOut c)
    | none => ((t.activate .audioOut card0).activate .audioOut card1, false)

/-- `set_audio_devices_active`; `stack` is what is in `name` before. -/
def Table.setAudioDevicesActive (t : Table) (d : Dir) (r : Request) (stack : TextMemory) :
    Table × Bool :=
  activateNames (copyNames 0 r.names stack) d (List.range r.names.length)
    fun c => (t c).setActive false d

/-- The table in `init_audio_devices_active`, with `active_name_in` and `active_name_out`; one of
them is set together with its bit of `flag_active`. -/
structure Selection where
  table : Table
  activeName : Dir → Option (List Char)

namespace Selection

variable (t : Selection)

/-- The value of the property is used, if it has one. -/
def useProperty (d : Dir) (prop : Request) (stack : TextMemory) : Selection :=
  if prop.1 = [] then t
  else
    let (table, ok) := t.table.setAudioDevicesActive d prop stack
    ⟨table, if ok then Function.update t.activeName d (some prop.1) else t.activeName⟩

/-- The card is chosen, if none is and it can be. -/
def useCard (d : Dir) (c : Card) : Selection :=
  if (t.activeName d).isNone && (t.table c).flag d then
    ⟨t.table.activate d c, Function.update t.activeName d (some (t.table c).name.1)⟩
  else t

def chosen : Bool := (t.activeName .audioIn).isSome && (t.activeName .audioOut).isSome

/-- The codec is used. -/
def useCodec : Selection :=
  match cards.find? fun c => (t.table c).flagExist && (t.table c).name == nameCodec with
  | some c => (t.useCard .audioIn c).useCard .audioOut c
  | none => t

/-- Any card is used; the loop ends at the first one that does not exist. -/
def useAny : List Card → Selection → Selection
  | [], t => t
  | c :: cs, t =>
    if (t.table c).flagExist then useAny cs ((t.useCard .audioIn c).useCard .audioOut c) else t

/-- `init_audio_devices_active` up to `INIT_END`. -/
def choose (propIn propOut : Request) (stack : TextMemory) : Selection :=
  let t := (t.useProperty .audioIn propIn stack).useProperty .audioOut propOut stack
  if t.chosen then t
  else if t.useCodec.chosen then t.useCodec
  else useAny cards t.useCodec

end Selection

/-- The bits that are set in `in_device` and `out_device`. -/
structure Routes where
  builtinMic : Bool
  speaker : Bool
  dgtlDockHeadset : Bool
  auxDigital : Bool

/-- `init_audio_devices_active`. -/
def State.initAudioDevicesActive (s : State) (propIn propOut : Request) (stack : TextMemory) :
    State × Routes :=
  let t := Selection.choose ⟨s.devManager, fun _ => none⟩ propIn propOut stack
  -- `strstr`
  let has (name : Name) : Bool :=
    (t.activeName .audioOut).any fun t => t.tails.any name.1.isPrefixOf
  ({ s with devManager := t.table },
    ⟨(t.activeName .audioIn).isSome, has nameCodec, has nameSpdif, has nameHdmi⟩)

variable {s : State} {t t' : Table} {d d' : Dir} {c c' : Card} {m : TextMemory} {r : Request}

/-! ## Entries -/

@[simp] lemma flag_setActive (e : DevManager) (b : Bool) (d d' : Dir) :
    (e.setActive b d).flag d' = e.flag d' := by
  cases d <;> rfl

@[simp] lemma flagExist_setActive (e : DevManager) (b : Bool) (d : Dir) :
    (e.setActive b d).flagExist = e.flagExist := by
  cases d <;> rfl

@[simp] lemma name_setActive (e : DevManager) (b : Bool) (d : Dir) :
    (e.setActive b d).name = e.name := by
  cases d <;> rfl

@[simp] lemma flagActive_setActive (e : DevManager) (b : Bool) (d d' : Dir) :
    (e.setActive b d).flagActive d' = if d' = d then b else e.flagActive d' := by
  cases d <;> cases d' <;> rfl

/-- Two tables that differ in the active cards only, and only in one direction. -/
structure Table.SameBut (d : Dir) (t t' : Table) : Prop where
  flag : ∀ c d', (t' c).flag d' = (t c).flag d'
  flagExist : ∀ c, (t' c).flagExist = (t c).flagExist
  name : ∀ c, (t' c).name = (t c).name
  other : ∀ c d', d' ≠ d → (t' c).flagActive d' = (t c).flagActive d'

lemma Table.SameBut.refl (d : Dir) (t : Table) : t.SameBut d t :=
  ⟨fun _ _ => rfl, fun _ => rfl, fun _ => rfl, fun _ _ _ => rfl⟩

lemma Table.SameBut.trans {t'' : Table} (h : t.SameBut d t') (h' : t'.SameBut d t'') :
    t.SameBut d t'' where
  flag c d' := (h'.flag c d').trans (h.flag c d')
  flagExist c := (h'.flagExist c).trans (h.flagExist c)
  name c := (h'.name c).trans (h.name c)
  other c d' hd := (h'.other c d' hd).trans (h.other c d' hd)

lemma activate_apply (t : Table) (d : Dir) (c c' : Card) :
    t.activate d c c' = if c' = c then (t c).setActive true d else t c' :=
  Function.update_apply ..

lemma sameBut_activate (t : Table) (d : Dir) (c : Card) : t.SameBut d (t.activate d c) := by
  refine ⟨fun c' d' => ?_, fun c' => ?_, fun c' => ?_, fun c' d' hd => ?_⟩ <;>
    rw [activate_apply] <;> split_ifs with h
  · rw [h, flag_setActive]
  · rfl
  · rw [h, flagExist_setActive]
  · rfl
  · rw [h, name_setActive]
  · rfl
  · rw [h, flagActive_setActive, if_neg hd]
  · rfl

lemma flagActive_activate (t : Table) (d : Dir) (c c' : Card) :
    (t.activate d c c').flagActive d = (decide (c' = c) || (t c').flagActive d) := by
  rw [activate_apply]
  split_ifs with h
  · rw [flagActive_setActive, if_pos rfl, decide_eq_true h, Bool.true_or]
  · rw [decide_eq_false h, Bool.false_or]

/-- The table with no card active in a direction. -/
def Table.clear (t : Table) (d : Dir) : Table := fun c => (t c).setActive false d

lemma sameBut_clear (t : Table) (d : Dir) : t.SameBut d (t.clear d) :=
  ⟨fun _ _ => flag_setActive .., fun _ => flagExist_setActive .., fun _ => name_setActive ..,
    fun c d' hd => by rw [Table.clear, flagActive_setActive, if_neg hd]⟩

lemma flagActive_clear (t : Table) (d : Dir) (c : Card) : (t.clear d c).flagActive d = false := by
  rw [Table.clear, flagActive_setActive, if_pos rfl]

/-! ## The rows of a request -/

lemma copyNames_of_lt (ts : List (List Char)) : ∀ {j : ℕ} {m : TextMemory} {k : ℤ}, k < row j →
    copyNames j ts m k = m k := by
  induction ts with
  | nil => exact fun _ => rfl
  | cons t ts ih =>
    intro j m k hk
    have hnext : k < row (j + 1) := by
      simp only [row] at hk ⊢
      omega
    rw [copyNames, ih hnext, strcpy_of_lt hk]

/-- Up to the next row, a row is what has been copied there. -/
lemma copyNames_row (ts : List (List Char)) : ∀ {i j : ℕ} {n : List Char} (m : TextMemory),
    ts[i]? = some n → ∃ m' : TextMemory, ∀ k, k < row (j + i + 1) →
      copyNames j ts m k = m'.strcpy (row (j + i)) n k := by
  induction ts with
  | nil => exact fun m h => nomatch h
  | cons t ts ih =>
    intro i j n m h
    cases i with
    | zero =>
      obtain rfl := Option.some.inj h
      exact ⟨m, fun k hk => copyNames_of_lt ts hk⟩
    | succ i =>
      obtain ⟨m', hm'⟩ := ih (j := j + 1) (m.strcpy (row j) t) h
      have heq : j + 1 + i = j + (i + 1) := by omega
      rw [heq] at hm'
      exact ⟨m', hm'⟩

/-- A name of the table is compared with the name of the request, also if that is too long. -/
lemma strcmp_row {ts : List (List Char)} {i : ℕ} {n : List Char} (h : ts[i]? = some n)
    (hn : nul ∉ n) (name : Name) (m : TextMemory) :
    strcmp name.1 (copyNames 0 ts m) (row i) = decide (name.1 = n) := by
  obtain ⟨m', hm'⟩ := copyNames_row ts (j := 0) m h
  rw [Nat.zero_add] at hm'
  have hlt := name.2.1
  have hcongr : (copyNames 0 ts m).Holds (row i) name.1 ↔
      (m'.strcpy (row i) n).Holds (row i) name.1 := by
    refine holds_congr name.1 fun k _ hk => hm' k ?_
    simp only [row] at hk ⊢
    omega
  rw [Bool.eq_iff_iff, strcmp_iff, hcongr, decide_eq_true_iff]
  constructor
  · exact fun hholds => hholds.unique hn name.2.2 (holds_strcpy n m' _)
  · intro heq
    rw [heq]
    exact holds_strcpy n m' _

lemma nul_not_mem_names {n : List Char} (hn : n ∈ r.names) : nul ∉ n :=
  fun h => r.2.2 (mem_of_mem_tokens hn h)

/-- The first card for a direction with a name. -/
def Table.named (t : Table) (d : Dir) (n : List Char) : Option Card :=
  cards.find? fun c => (t c).flag d && decide ((t c).name.1 = n)

lemma cardNamed_eq {stack : TextMemory} {i : ℕ} {n : List Char} (h : r.names[i]? = some n) :
    cardNamed d (copyNames 0 r.names stack) t i = t.named d n := by
  unfold cardNamed Table.named
  have hn := nul_not_mem_names (List.mem_of_getElem? h)
  congr 1
  funext c
  rw [strcmp_row h hn]

lemma Table.SameBut.named (h : t.SameBut d t') (d' : Dir) (n : List Char) :
    t'.named d' n = t.named d' n := by
  unfold Table.named
  congr 1
  funext c
  rw [h.flag, h.name]

/-- What the loop over the names does. -/
def Table.activateAll : Dir → List (List Char) → Table → Table × Bool
  | _, [], t => (t, true)
  | .audioIn, n :: _, t => (t.activate .audioIn ((t.named .audioIn n).getD card0), true)
  | .audioOut, n :: ns, t =>
    match t.named .audioOut n with
    | some c => Table.activateAll .audioOut ns (t.activate .audioOut c)
    | none => ((t.activate .audioOut card0).activate .audioOut card1, false)

lemma activateNames_eq {stack : TextMemory} (d : Dir) (ns : List (List Char)) :
    ∀ {j : ℕ} {t : Table}, r.names.drop j = ns →
      activateNames (copyNames 0 r.names stack) d (List.range' j ns.length) t =
        Table.activateAll d ns t := by
  induction ns with
  | nil => exact fun _ => by cases d <;> rfl
  | cons n ns ih =>
    intro j t hdrop
    have hj : r.names[j]? = some n := by
      rw [← List.head?_drop, hdrop]
      rfl
    have hrest : r.names.drop (j + 1) = ns := by
      rw [← List.tail_drop, hdrop]
      rfl
    rw [List.length_cons, List.range'_succ]
    cases d with
    | audioIn =>
      simp only [activateNames, Table.activateAll, cardNamed_eq hj]
      cases t.named .audioIn n with
      | none => rfl
      | some c => rfl
    | audioOut =>
      simp only [activateNames, Table.activateAll, cardNamed_eq hj]
      cases t.named .audioOut n with
      | none => rfl
      | some c => exact ih hrest

/-- `set_audio_devices_active` goes by the names of the request. -/
lemma setAudioDevicesActive_eq (t : Table) (d : Dir) (r : Request) (stack : TextMemory) :
    t.setAudioDevicesActive d r stack = Table.activateAll d r.names (t.clear d) := by
  rw [Table.setAudioDevicesActive, List.range_eq_range']
  exact activateNames_eq d r.names rfl

lemma sameBut_activateAll (d : Dir) (ns : List (List Char)) : ∀ t : Table,
    t.SameBut d (Table.activateAll d ns t).1 := by
  induction ns with
  | nil =>
    intro t
    cases d <;> exact .refl _ t
  | cons n ns ih =>
    intro t
    cases d with
    | audioIn => exact sameBut_activate ..
    | audioOut =>
      rw [Table.activateAll]
      cases t.named .audioOut n with
      | none => exact (sameBut_activate ..).trans (sameBut_activate ..)
      | some c => exact (sameBut_activate ..).trans (ih _)

lemma sameBut_setAudioDevicesActive (t : Table) (d : Dir) (r : Request) (stack : TextMemory) :
    t.SameBut d (t.setAudioDevicesActive d r stack).1 := by
  rw [setAudioDevicesActive_eq]
  exact (sameBut_clear t d).trans (sameBut_activateAll d _ _)

/-- What is active stays active. -/
lemma flagActive_activateAll (ns : List (List Char)) : ∀ {t : Table},
    (t c).flagActive .audioOut = true →
      ((Table.activateAll .audioOut ns t).1 c).flagActive .audioOut = true := by
  induction ns with
  | nil => exact fun h => h
  | cons n ns ih =>
    intro t h
    rw [Table.activateAll]
    cases t.named .audioOut n with
    | none => simp [flagActive_activate, h]
    | some c' => exact ih (by simp [flagActive_activate, h])

/-- 0 is returned if all names are found; then their cards are active. -/
lemma activateAll_out (ns : List (List Char)) : ∀ t : Table,
    ((Table.activateAll .audioOut ns t).2 = true ↔ ∀ n ∈ ns, (t.named .audioOut n).isSome) ∧
    ((Table.activateAll .audioOut ns t).2 = true → ∀ c,
      ((Table.activateAll .audioOut ns t).1 c).flagActive .audioOut = true ↔
        (t c).flagActive .audioOut = true ∨ ∃ n ∈ ns, t.named .audioOut n = some c) := by
  induction ns with
  | nil => intro t; simp [Table.activateAll]
  | cons n ns ih =>
    intro t
    rw [Table.activateAll]
    cases hn : t.named .audioOut n with
    | none => simp [hn]
    | some c =>
      obtain ⟨hret, hactive⟩ := ih (t.activate .audioOut c)
      have hnamed := fun n => (sameBut_activate t .audioOut c).named .audioOut n
      simp only [hnamed] at hret hactive
      refine ⟨hret.trans ?_, fun h c' => ?_⟩
      · simp [hn]
      · rw [hactive h c', flagActive_activate, Bool.or_eq_true, decide_eq_true_iff]
        simp only [List.mem_cons, exists_eq_or_imp, hn, Option.some_inj]
        rw [or_assoc, or_left_comm, @eq_comm _ c c']

/-- Otherwise the first two cards are active, and the card of the first name is, if it has one. -/
lemma activateAll_out_failed (ns : List (List Char)) : ∀ {t : Table},
    (Table.activateAll .audioOut ns t).2 = false → ∀ c,
      c = card0 ∨ c = card1 ∨ ns.head?.bind (t.named .audioOut) = some c →
        ((Table.activateAll .audioOut ns t).1 c).flagActive .audioOut = true := by
  induction ns with
  | nil => exact fun h => nomatch h
  | cons n ns ih =>
    intro t h c hc
    rw [Table.activateAll] at h ⊢
    simp only [List.head?_cons, Option.bind_some] at hc
    cases hn : t.named .audioOut n with
    | none =>
      rw [hn] at hc
      rcases hc with rfl | rfl | hc
      · simp [flagActive_activate]
      · simp [flagActive_activate]
      · exact nomatch hc
    | some c' =>
      rw [hn] at h hc
      rcases hc with rfl | rfl | hc
      · exact ih h _ (Or.inl rfl)
      · exact ih h _ (Or.inr (Or.inl rfl))
      · obtain rfl := Option.some.inj hc
        exact flagActive_activateAll ns (by simp [flagActive_activate])

/-! ## Hot-plugging -/

/-- A loop over different cards whose body only changes the entry of the card. -/
lemma foldl_entry {g : State → Card → State} {R : Card → DevManager → DevManager → Prop}
    (hframe : ∀ s c c', c' ≠ c → (g s c).devManager c' = s.devManager c')
    (hR : ∀ s c, R c (s.devManager c) ((g s c).devManager c)) (cs : List Card) :
    cs.Nodup → ∀ s : State, (∀ c ∉ cs, (cs.foldl g s).devManager c = s.devManager c) ∧
      ∀ c ∈ cs, R c (s.devManager c) ((cs.foldl g s).devManager c) := by
  induction cs with
  | nil => exact fun _ s => ⟨fun _ _ => rfl, fun _ h => absurd h List.not_mem_nil⟩
  | cons a cs ih =>
    intro hnodup s
    obtain ⟨ha, hnodup⟩ := List.nodup_cons.mp hnodup
    obtain ⟨hother, hall⟩ := ih hnodup (g s a)
    constructor
    · intro c hc
      obtain ⟨hne, hc⟩ := not_or.mp (mt List.mem_cons.mpr hc)
      exact (hother c hc).trans (hframe s a c hne)
    · intro c hc
      rw [List.foldl_cons]
      rcases List.mem_cons.mp hc with rfl | hc
      · rw [hother c ha]
        exact hR s c
      · have hne : c ≠ a := fun h => ha (h ▸ hc)
        rw [← hframe s a c hne]
        exact hall c hc

/-- The card can be used in a direction. -/
def CardNode.has (n : CardNode) : Dir → Bool
  | .audioIn => n.capture
  | .audioOut => n.playback

/-- An entry before and after `do_init_audio_card`, for a card that is there. -/
structure Plugged (n : CardNode) (e e' : DevManager) : Prop where
  exist : e'.flagExist = true
  flag : ∀ d, e'.flag d = (n.has d || e.flag d)
  active : ∀ d, e'.flagActive d = (!n.has d && e.flagActive d)

lemma doInitAudioCard_entry (s : State) (node : Option CardNode) (c : Card) :
    (s.doInitAudioCard node c).devManager c = s.devManager c ∧
        (∀ n, node = some n → n.id = none) ∨
      ∃ n, node = some n ∧ n.id.isSome ∧
        Plugged n (s.devManager c) ((s.doInitAudioCard node c).devManager c) := by
  unfold State.doInitAudioCard
  cases node with
  | none => exact Or.inl ⟨rfl, nofun⟩
  | some n =>
    cases hid : n.id with
    | none => simp [hid]
    | some id =>
      refine Or.inr ⟨n, rfl, by rw [hid]; rfl, ?_⟩
      simp only [Function.update_self, hid]
      cases hp : n.playback <;> cases hc : n.capture <;>
        exact ⟨rfl, fun d => by cases d <;> simp [CardNode.has, DevManager.flag, hp, hc],
          fun d => by cases d <;> simp [CardNode.has, DevManager.flagActive, hp, hc]⟩

lemma doInitAudioCard_of_ne (s : State) (node : Option CardNode) (h : c' ≠ c) :
    (s.doInitAudioCard node c).devManager c' = s.devManager c' := by
  unfold State.doInitAudioCard
  split
  · rfl
  · split
    · rfl
    · exact Function.update_of_ne h ..

/-- An entry before and after `updata_audio_devices`. -/
def Updated (sys : Sys) (c : Card) (e e' : DevManager) : Prop :=
  match sys c with
  | none => e'.flagExist = false ∧ ∀ d, e'.flag d = (e.flag d && !e.flagExist)
  | some n => if e.flagExist = true ∨ n.id = none then e' = e else Plugged n e e'

lemma updataAudioDevices_entry (s : State) (sys : Sys) (c : Card) :
    Updated sys c (s.devManager c) ((s.updataAudioDevices sys).devManager c) := by
  refine (foldl_entry (R := Updated sys) (fun s c c' hne => ?_) (fun s c => ?_) cards
    (List.nodup_finRange _) s).2 c (List.mem_finRange c)
  · split_ifs
    · rfl
    · exact doInitAudioCard_of_ne s _ hne
    · exact Function.update_of_ne hne ..
    · rfl
  · unfold Updated
    cases hnode : sys c with
    | none =>
      cases hexist : (s.devManager c).flagExist with
      | false => simp [hexist]
      | true =>
        simp only [Option.isSome_none, Bool.false_eq_true, if_false, if_true,
          State.plugOut, Function.update_self]
        exact ⟨trivial, fun d => by cases d <;> simp [DevManager.flag]⟩
    | some n =>
      cases hexist : (s.devManager c).flagExist with
      | true => simp
      | false =>
        rcases doInitAudioCard_entry s (some n) c with ⟨hsame, hnone⟩ | ⟨n', hn', hid, hplugged⟩
        · simp [hsame, hnone n rfl]
        · obtain rfl := Option.some.inj hn'
          have hid : n.id ≠ none := Option.ne_none_iff_isSome.mpr hid
          simp [hid, hplugged]

/-- What the code keeps of the table: a card that can be used exists. -/
def Table.Sound (t : Table) : Prop :=
  ∀ c d, (t c).flag d = true → (t c).flagExist = true

lemma Table.Sound.sameBut (ht : t.Sound) (h : t.SameBut d t') : t'.Sound := by
  intro c d' hflag
  rw [h.flag] at hflag
  rw [h.flagExist]
  exact ht c d' hflag

lemma Table.Sound.updataAudioDevices (hs : s.devManager.Sound) (sys : Sys) :
    (s.updataAudioDevices sys).devManager.Sound := by
  intro c d hflag
  have hentry := updataAudioDevices_entry s sys c
  unfold Updated at hentry
  cases hnode : sys c with
  | none =>
    rw [hnode] at hentry
    rw [hentry.2, Bool.and_eq_true] at hflag
    have hexist := hs c d hflag.1
    simp [hexist] at hflag
  | some n =>
    rw [hnode] at hentry
    simp only at hentry
    split_ifs at hentry
    · rw [hentry] at hflag ⊢
      exact hs c d hflag
    · exact hentry.exist

/-- The table behind `init_audio_devices`. -/
structure Table.Built (t : Table) : Prop where
  sound : t.Sound
  inactive : ∀ c d, (t c).flagActive d = false

/-- What an entry becomes that was for no direction before. -/
def Initialised (_ : Card) (e e' : DevManager) : Prop :=
  (∀ d, e.flag d = false ∧ e.flagActive d = false) →
    (∀ d, e'.flag d = true → e'.flagExist = true) ∧ ∀ d, e'.flagActive d = false

lemma built_initAudioDevices (s : State) (sys : Sys) :
    (s.initAudioDevices sys).devManager.Built := by
  have hcard : ∀ (s : State) (c : Card),
      Initialised c (s.devManager c) ((s.doInitAudioCard (sys c) c).devManager c) := by
    intro s c hblank
    rcases doInitAudioCard_entry s (sys c) c with ⟨hsame, -⟩ | ⟨n, -, -, hplugged⟩
    · rw [hsame]
      exact ⟨fun d h => (nomatch (hblank d).1.symm.trans h), fun d => (hblank d).2⟩
    · refine ⟨fun d _ => hplugged.exist, fun d => ?_⟩
      rw [hplugged.active, (hblank d).2, Bool.and_false]
  have hblank : ∀ d, DevManager.blank.flag d = false ∧ DevManager.blank.flagActive d = false := by
    intro d
    cases d <;> exact ⟨rfl, rfl⟩
  have hfold := (foldl_entry (fun s c c' hne => doInitAudioCard_of_ne s (sys c) hne) hcard
    cards (List.nodup_finRange _) { s with devManager := fun _ => .blank }).2
  have hall := fun c => hfold c (List.mem_finRange c) hblank
  exact ⟨fun c => (hall c).1, fun c => (hall c).2⟩

end Softwinner.Audio.Devices
