import Mathlib.Data.Finset.Card
import Softwinner.Audio.Devices
import Softwinner.Framework.Runs

/-!
# The names of sound cards

`find_name_map` gives the names: the seven ids of the built-in table have fixed ones, and every
other id takes the next of the nine free places of the map, which is never given back.  When all
are taken, 0 is returned with an empty name.

The invariant `Inv` says that the map is the built-in table and the other ids that were looked up,
each once.  `names_iff` is the exact condition for the names of all cards, now and over time.
-/

namespace Softwinner.Audio.DeviceNames

open Framework Devices
open OutputStream (Card)

/-- What is in `/sys/class/sound`, where every id that can be read has at least one character. -/
abbrev NamedSys := { sys : Sys // ∀ c n id, sys c = some n → n.id = some id → id.1 ≠ [] }

inductive Act
  | initAudioDevices (sys : NamedSys)
  | updataAudioDevices (sys : NamedSys)

def step (s : State) : Act → Option State
  | .initAudioDevices sys => some (s.initAudioDevices sys.1)
  | .updataAudioDevices sys => some (s.updataAudioDevices sys.1)

def builtinIds : List CardId := builtin.map MapEntry.nameLinux

/-- What is expected of the names. -/
structure Named (s : State) : Prop where
  nonempty : ∀ c, (s.devManager c).flagExist = true →
    (s.devManager c).name.1 ≠ [] ∧ (s.devManager c).name.1.length ≤ 31
  same : ∀ p ∈ s.given, ∀ q ∈ s.given, p.1 = q.1 → p.2 = q.2
  different : ∀ p ∈ s.given, ∀ q ∈ s.given, p.1 ∉ builtinIds → q.1 ∉ builtinIds →
    p.1 ≠ q.1 → p.2 ≠ q.2

/-- How many different ids are not in the built-in table. -/
def others (ids : List CardId) : ℕ := (ids.toFinset \ builtinIds.toFinset).card

/-- The ids that were looked up. -/
def State.seen (s : State) : List CardId := s.given.map Prod.fst

/-- The ids of cards that are new in a table. -/
def plugged (sys : Sys) (t : Table) (cs : List Card) : List CardId :=
  cs.flatMap fun c => if (t c).flagExist then [] else ((sys c).bind CardNode.id).toList

/-- With the new cards there are at most nine ids besides the built-in ones. -/
def NamesOk (a : Act) (s : State) : Prop :=
  match a with
  | .initAudioDevices sys => others (State.seen s ++ plugged sys.1 (fun _ => .blank) cards) ≤ 9
  | .updataAudioDevices sys => others (State.seen s ++ plugged sys.1 s.devManager cards) ≤ 9

/-! ## The map -/

/-- The name for an id. -/
def nameFor (id : CardId) : Name :=
  match builtin.find? fun e => id = e.nameLinux with
  | some e => e.nameAndroid
  | none => usbName id

/-- The map with the ids that have been added, up to the free places. -/
def entries (ids : List CardId) : List MapEntry :=
  builtin ++ ids.map fun id => ⟨id, usbName id⟩

def mapOf (ids : List CardId) : List MapEntry :=
  entries ids ++ List.replicate (9 - ids.length) emptyEntry

variable {s s' : State} {id : CardId} {ids : List CardId} {c : Card}

lemma usbName_injective : Function.Injective usbName := by
  intro i j h
  exact Subtype.ext (List.append_cancel_left (congrArg Subtype.val h))

lemma nameFor_of_notMem (h : id ∉ builtinIds) : nameFor id = usbName id := by
  have hnone : builtin.find? (fun e => id = e.nameLinux) = none := by
    rw [List.find?_eq_none]
    intro e he heq
    exact h (List.mem_map.mpr ⟨e, he, (of_decide_eq_true heq).symm⟩)
  rw [nameFor, hnone]

lemma nameFor_ne_nil (id : CardId) : (nameFor id).1 ≠ [] := by
  have hbuiltin : ∀ e ∈ builtin, e.nameAndroid.1 ≠ [] := by decide
  rw [nameFor]
  cases hfind : builtin.find? fun e => id = e.nameLinux with
  | some e => exact hbuiltin e (List.mem_of_find?_eq_some hfind)
  | none => exact List.append_ne_nil_of_left_ne_nil (by decide) _

/-- The entries with an id are looked through. -/
lemma findNameMap_append (es rest : List MapEntry) (hes : ∀ e ∈ es, e.nameLinux.1 ≠ []) :
    findNameMap id (es ++ rest) =
      match es.find? fun e => id = e.nameLinux with
      | some e => (e.nameAndroid, es ++ rest)
      | none => ((findNameMap id rest).1, es ++ (findNameMap id rest).2) := by
  induction es with
  | nil => rfl
  | cons e es ih =>
    obtain ⟨he, hes⟩ := List.forall_mem_cons.mp hes
    rw [List.cons_append, findNameMap, if_neg he, List.find?_cons]
    by_cases hid : id = e.nameLinux
    · rw [if_pos hid, decide_eq_true hid]
    · rw [if_neg hid, decide_eq_false hid, ih hes]
      cases es.find? fun e => id = e.nameLinux <;> rfl

/-- The first free place is taken. -/
lemma findNameMap_replicate (n : ℕ) :
    findNameMap id (List.replicate n emptyEntry) =
      if n = 0 then (Name.empty, [])
      else (usbName id, ⟨id, usbName id⟩ :: List.replicate (n - 1) emptyEntry) := by
  cases n with
  | zero => rfl
  | succ n =>
    have hempty : emptyEntry.nameLinux.1 = [] := rfl
    rw [List.replicate_succ, findNameMap, if_pos hempty, if_neg (Nat.succ_ne_zero n),
      Nat.add_sub_cancel]

/-- What is found of an id. -/
lemma find?_entries : (entries ids).find? (fun e => id = e.nameLinux) =
    if id ∈ builtinIds ∨ id ∈ ids then some ⟨id, nameFor id⟩ else none := by
  rw [entries, List.find?_append]
  cases hfind : builtin.find? fun e => id = e.nameLinux with
  | some e =>
    have hfound := List.find?_some hfind
    have hid : id = e.nameLinux := of_decide_eq_true hfound
    have hmem : id ∈ builtinIds :=
      List.mem_map.mpr ⟨e, List.mem_of_find?_eq_some hfind, hid.symm⟩
    have hname : nameFor id = e.nameAndroid := by rw [nameFor, hfind]
    rw [if_pos (Or.inl hmem), hname, hid]
    rfl
  | none =>
    have hnot : id ∉ builtinIds := by
      intro hmem
      obtain ⟨e, he, heq⟩ := List.mem_map.mp hmem
      exact List.find?_eq_none.mp hfind e he (decide_eq_true heq.symm)
    rw [Option.none_or, List.find?_map, nameFor_of_notMem hnot]
    simp only [hnot, false_or, Function.comp_def]
    split_ifs with hmem
    · obtain ⟨i, hi⟩ := Option.isSome_iff_exists.mp
        ((List.find?_isSome (p := fun i => decide (id = i))).mpr ⟨id, hmem, decide_eq_true rfl⟩)
      have hfound := List.find?_some hi
      obtain rfl : id = i := of_decide_eq_true hfound
      rw [hi]
      rfl
    · have hnone : ids.find? (fun i => decide (id = i)) = none := by
        rw [List.find?_eq_none]
        intro i hi heq
        exact hmem ((of_decide_eq_true heq) ▸ hi)
      rw [hnone]
      rfl

/-- A lookup in the map. -/
lemma findNameMap_mapOf (hids : ∀ i ∈ ids, i.1 ≠ []) :
    findNameMap id (mapOf ids) =
      if id ∈ builtinIds ∨ id ∈ ids then (nameFor id, mapOf ids)
      else if ids.length < 9 then (nameFor id, mapOf (ids ++ [id]))
      else (Name.empty, mapOf ids) := by
  have hbuiltin : ∀ e ∈ builtin, e.nameLinux.1 ≠ [] := by decide
  have hes : ∀ e ∈ entries ids, e.nameLinux.1 ≠ [] := by
    intro e he
    rcases List.mem_append.mp he with he | he
    · exact hbuiltin e he
    · obtain ⟨i, hi, rfl⟩ := List.mem_map.mp he
      exact hids i hi
  rw [mapOf, findNameMap_append _ _ hes, find?_entries, findNameMap_replicate]
  by_cases hid : id ∈ builtinIds ∨ id ∈ ids
  · rw [if_pos hid, if_pos hid]
  · rw [if_neg hid, if_neg hid]
    by_cases hlen : ids.length < 9
    · have hlast : 9 - (ids ++ [id]).length = 9 - ids.length - 1 := by
        rw [List.length_append, List.length_singleton]
        omega
      rw [if_neg (by omega), if_pos hlen, nameFor_of_notMem (not_or.mp hid).1, mapOf, hlast,
        entries, entries, List.map_append]
      simp
    · have hzero : 9 - ids.length = 0 := by omega
      rw [if_pos hzero, if_neg hlen, hzero]
      rfl

/-! ## Counting -/

lemma mem_others (l : List CardId) (i : CardId) :
    i ∈ l.toFinset \ builtinIds.toFinset ↔ i ∈ l ∧ i ∉ builtinIds := by
  rw [Finset.mem_sdiff, List.mem_toFinset, List.mem_toFinset]

lemma others_le_append (l l' : List CardId) : others l ≤ others (l ++ l') := by
  refine Finset.card_le_card fun i hi => ?_
  rw [mem_others] at hi ⊢
  exact ⟨List.mem_append_left _ hi.1, hi.2⟩

lemma others_append_new {l : List CardId} (hbuiltin : id ∉ builtinIds) (hl : id ∉ l) :
    others (l ++ [id]) = others l + 1 := by
  have hinsert : (l ++ [id]).toFinset \ builtinIds.toFinset =
      insert id (l.toFinset \ builtinIds.toFinset) := by
    ext i
    rw [mem_others, Finset.mem_insert, mem_others, List.mem_append, List.mem_singleton]
    constructor
    · rintro ⟨hi | rfl, hnot⟩
      · exact Or.inr ⟨hi, hnot⟩
      · exact Or.inl rfl
    · rintro (rfl | ⟨hi, hnot⟩)
      · exact ⟨Or.inr rfl, hbuiltin⟩
      · exact ⟨Or.inl hi, hnot⟩
  rw [others, hinsert, Finset.card_insert_of_notMem, others]
  rw [mem_others]
  exact fun h => hl h.1

/-! ## The invariant -/

/-- The map has been filled with `ids`. -/
structure Knows (ids : List CardId) (s : State) : Prop where
  map : s.audioNameMap = mapOf ids
  nodup : ids.Nodup
  mem : ∀ i, i ∈ ids ↔ i ∈ State.seen s ∧ i ∉ builtinIds
  nonempty : ∀ i ∈ ids, i.1 ≠ []
  length : ids.length ≤ 9
  given : ∀ p ∈ s.given, p.2 = nameFor p.1
  exist : ∀ c, (s.devManager c).flagExist = true → (s.devManager c).name.1 ≠ []

def Inv (s : State) : Prop := ∃ ids, Knows ids s

/-- The card has no name, since there are too many ids. -/
def Unnamed (c : Card) (s : State) : Prop :=
  (s.devManager c).flagExist = true ∧ (s.devManager c).name.1 = []

lemma Knows.others (hs : Knows ids s) : others (State.seen s) = ids.length := by
  rw [← List.toFinset_card_of_nodup hs.nodup, DeviceNames.others]
  congr 1
  ext i
  rw [mem_others, List.mem_toFinset, hs.mem]

lemma Inv.others_le (hs : Inv s) : others (State.seen s) ≤ 9 := by
  obtain ⟨ids, hids⟩ := hs
  rw [hids.others]
  exact hids.length

lemma Inv.named (hs : Inv s) : Named s := by
  obtain ⟨ids, hids⟩ := hs
  refine ⟨fun c hc => ⟨hids.exist c hc, Nat.le_of_lt_succ (s.devManager c).name.2.1⟩,
    fun p hp q hq heq => ?_, fun p hp q hq hp' hq' hne heq => hne ?_⟩
  · rw [hids.given p hp, hids.given q hq, heq]
  · rw [hids.given p hp, hids.given q hq, nameFor_of_notMem hp', nameFor_of_notMem hq'] at heq
    exact usbName_injective heq

lemma inv_loaded : Inv loaded :=
  ⟨[], rfl, List.nodup_nil, fun _ => iff_of_false List.not_mem_nil fun h => (nomatch h.1),
    List.forall_mem_nil _, Nat.zero_le 9, List.forall_mem_nil _, nofun⟩

/-- A card that is there and whose id can be read. -/
lemma doInitAudioCard_some {node : Option CardNode} (hid : node.bind CardNode.id = some id)
    (s : State) (c : Card) :
    (s.doInitAudioCard node c).audioNameMap = (findNameMap id s.audioNameMap).2 ∧
    (s.doInitAudioCard node c).given = s.given ++ [(id, (findNameMap id s.audioNameMap).1)] ∧
    ((s.doInitAudioCard node c).devManager c).flagExist = true ∧
    ((s.doInitAudioCard node c).devManager c).name = (findNameMap id s.audioNameMap).1 := by
  obtain ⟨n, rfl, hn⟩ := Option.bind_eq_some_iff.mp hid
  unfold State.doInitAudioCard
  simp only [hn, Function.update_self, true_and]
  cases n.playback <;> cases n.capture <;> exact ⟨rfl, rfl⟩

lemma doInitAudioCard_none {node : Option CardNode} (hid : node.bind CardNode.id = none)
    (s : State) (c : Card) : s.doInitAudioCard node c = s := by
  cases node with
  | none => rfl
  | some n =>
    have hn : n.id = none := hid
    simp [State.doInitAudioCard, hn]

lemma seen_doInitAudioCard (s : State) (node : Option CardNode) (c : Card) :
    State.seen (s.doInitAudioCard node c) =
      State.seen s ++ (node.bind CardNode.id).toList := by
  cases hnode : node.bind CardNode.id with
  | none => rw [doInitAudioCard_none hnode, Option.toList_none, List.append_nil]
  | some id =>
    rw [State.seen, (doInitAudioCard_some hnode s c).2.1, List.map_append]
    rfl

/-- A card gets the name for its id, or there are too many ids. -/
lemma Inv.doInitAudioCard (hs : Inv s) {node : Option CardNode}
    (hid : ∀ id, node.bind CardNode.id = some id → id.1 ≠ []) (c : Card) :
    Inv (s.doInitAudioCard node c) ∨ Unnamed c (s.doInitAudioCard node c) ∧
      9 < DeviceNames.others (State.seen (s.doInitAudioCard node c)) := by
  cases hnode : node.bind CardNode.id with
  | none =>
    rw [doInitAudioCard_none hnode]
    exact Or.inl hs
  | some id =>
    obtain ⟨ids, hids⟩ := hs
    obtain ⟨hmap, hgiven, hexist, hname⟩ := doInitAudioCard_some hnode s c
    have hseen := seen_doInitAudioCard s node c
    rw [hnode, Option.toList_some] at hseen
    have hframe : ∀ c', c' ≠ c → (s.doInitAudioCard node c).devManager c' = s.devManager c' :=
      fun c' hne => doInitAudioCard_of_ne s node hne
    generalize s.doInitAudioCard node c = t at hmap hgiven hexist hname hseen hframe ⊢
    rw [hids.map, findNameMap_mapOf hids.nonempty] at hmap hgiven hname
    -- the name is the one for the id
    have hinv : ∀ ids', t.audioNameMap = mapOf ids' → ids'.Nodup →
        (∀ i, i ∈ ids' ↔ i ∈ State.seen t ∧ i ∉ builtinIds) → ids'.length ≤ 9 →
        (∀ i ∈ ids', i.1 ≠ []) → t.given = s.given ++ [(id, nameFor id)] →
        (t.devManager c).name = nameFor id → Inv t := by
      intro ids' hmap' hnodup hmem hlen hne hgiven' hname'
      refine ⟨ids', hmap', hnodup, hmem, hne, hlen, fun p hp => ?_, fun c' hc' => ?_⟩
      · rw [hgiven'] at hp
        rcases List.mem_append.mp hp with hp | hp
        · exact hids.given p hp
        · rw [List.mem_singleton.mp hp]
      · by_cases heq : c' = c
        · rw [heq, hname']
          exact nameFor_ne_nil id
        · rw [hframe c' heq] at hc' ⊢
          exact hids.exist c' hc'
    by_cases hknown : id ∈ builtinIds ∨ id ∈ ids
    · rw [if_pos hknown] at hmap hgiven hname
      refine Or.inl (hinv ids hmap hids.nodup (fun i => ?_) hids.length hids.nonempty hgiven hname)
      rw [hids.mem, hseen, List.mem_append, List.mem_singleton]
      refine and_congr_left fun hi => (or_iff_left_of_imp ?_).symm
      rintro rfl
      exact ((hids.mem i).mp (hknown.resolve_left hi)).1
    · rw [if_neg hknown] at hmap hgiven hname
      obtain ⟨hbuiltin, hnew⟩ := not_or.mp hknown
      have hnotSeen : id ∉ State.seen s := fun h => hnew ((hids.mem id).mpr ⟨h, hbuiltin⟩)
      by_cases hlen : ids.length < 9
      · rw [if_pos hlen] at hmap hgiven hname
        refine Or.inl (hinv (ids ++ [id]) hmap ?_ (fun i => ?_) ?_ ?_ hgiven hname)
        · exact List.nodup_append.mpr ⟨hids.nodup, List.nodup_singleton id,
            fun i hi j hj heq => hnew (List.mem_singleton.mp hj ▸ heq ▸ hi)⟩
        · rw [hseen, List.mem_append, List.mem_append, hids.mem, List.mem_singleton]
          constructor
          · rintro (⟨hi, hnot⟩ | rfl)
            · exact ⟨Or.inl hi, hnot⟩
            · exact ⟨Or.inr rfl, hbuiltin⟩
          · rintro ⟨hi | rfl, hnot⟩
            · exact Or.inl ⟨hi, hnot⟩
            · exact Or.inr rfl
        · rw [List.length_append, List.length_singleton]
          exact hlen
        · intro i hi
          rcases List.mem_append.mp hi with hi | hi
          · exact hids.nonempty i hi
          · rw [List.mem_singleton.mp hi]
            exact hid id hnode
      · rw [if_neg hlen] at hname
        refine Or.inr ⟨⟨hexist, by rw [hname]; rfl⟩, ?_⟩
        rw [hseen, others_append_new hbuiltin hnotSeen, hids.others]
        omega

/-! ## Updates -/

/-- One card of an update. -/
def updateCard (sys : Sys) (s : State) (c : Card) : State :=
  if (sys c).isSome then
    if (s.devManager c).flagExist then s else s.doInitAudioCard (sys c) c
  else if (s.devManager c).flagExist then s.plugOut c else s

lemma updateCard_of_ne (sys : Sys) (s : State) {c c' : Card} (hne : c' ≠ c) :
    (updateCard sys s c).devManager c' = s.devManager c' := by
  unfold updateCard
  split_ifs
  · rfl
  · exact doInitAudioCard_of_ne s _ hne
  · exact Function.update_of_ne hne ..
  · rfl

lemma seen_updateCard (sys : Sys) (s : State) (c : Card) :
    State.seen (updateCard sys s c) = State.seen s ++ plugged sys s.devManager [c] := by
  have hplugged : plugged sys s.devManager [c] =
      if (s.devManager c).flagExist then [] else ((sys c).bind CardNode.id).toList :=
    List.flatMap_singleton ..
  rw [hplugged, updateCard]
  cases hexist : (s.devManager c).flagExist with
  | true =>
    simp only [if_true, List.append_nil]
    split_ifs <;> rfl
  | false =>
    simp only [Bool.false_eq_true, if_false]
    split_ifs with hsome
    · exact seen_doInitAudioCard s _ c
    · rw [Option.not_isSome_iff_eq_none.mp hsome]
      exact (List.append_nil _).symm

lemma Inv.updateCard (hs : Inv s) (sys : NamedSys) (c : Card) :
    Inv (updateCard sys.1 s c) ∨ Unnamed c (updateCard sys.1 s c) ∧
      9 < DeviceNames.others (State.seen (updateCard sys.1 s c)) := by
  unfold DeviceNames.updateCard
  split_ifs
  · exact Or.inl hs
  · refine hs.doInitAudioCard (fun id hid => ?_) c
    obtain ⟨n, hn, hid⟩ := Option.bind_eq_some_iff.mp hid
    exact sys.2 c n id hn hid
  · obtain ⟨ids, hids⟩ := hs
    refine Or.inl ⟨ids, { hids with exist := fun c' hc' => ?_ }⟩
    have hentry : (s.plugOut c).devManager c' =
        if c' = c then
          { s.devManager c with flagExist := false, flagIn := false, flagOut := false }
        else s.devManager c' := Function.update_apply ..
    rw [hentry] at hc' ⊢
    split_ifs at hc' ⊢
    exact hids.exist c' hc'
  · exact Or.inl hs

lemma foldl_updateCard_of_notMem (sys : Sys) (cs : List Card) {c : Card} (hc : c ∉ cs) :
    ∀ s : State, (cs.foldl (updateCard sys) s).devManager c = s.devManager c := by
  induction cs with
  | nil => exact fun s => rfl
  | cons a cs ih =>
    intro s
    obtain ⟨hne, hc⟩ := not_or.mp (mt List.mem_cons.mpr hc)
    exact (ih hc _).trans (updateCard_of_ne sys s hne)

lemma seen_foldl_updateCard (sys : Sys) (cs : List Card) : cs.Nodup → ∀ s : State,
    State.seen (cs.foldl (updateCard sys) s) = State.seen s ++ plugged sys s.devManager cs := by
  induction cs with
  | nil => exact fun _ s => (List.append_nil _).symm
  | cons c cs ih =>
    intro hnodup s
    obtain ⟨hc, hnodup⟩ := List.nodup_cons.mp hnodup
    -- the cards behind `c` are still as before
    have hrest : plugged sys (updateCard sys s c).devManager cs = plugged sys s.devManager cs := by
      refine List.flatMap_congr fun c' hc' => ?_
      have hne : c' ≠ c := fun heq => hc (heq ▸ hc')
      rw [updateCard_of_ne sys s hne]
    rw [List.foldl_cons, ih hnodup, seen_updateCard, hrest, List.append_assoc]
    simp [plugged]

/-- The loop of an update: all names are given, or a card has none at its end. -/
lemma Inv.foldl_updateCard (sys : NamedSys) (cs : List Card) : cs.Nodup → ∀ {s : State}, Inv s →
    let t := cs.foldl (DeviceNames.updateCard sys.1) s
    Inv t ∨ (∃ c, Unnamed c t) ∧ 9 < DeviceNames.others (State.seen t) := by
  induction cs with
  | nil => exact fun _ s hs => Or.inl hs
  | cons c cs ih =>
    intro hnodup s hs t
    obtain ⟨hc, hnodup⟩ := List.nodup_cons.mp hnodup
    rcases hs.updateCard sys c with hone | ⟨hunnamed, hmany⟩
    · exact ih hnodup hone
    · refine Or.inr ⟨⟨c, ?_⟩, ?_⟩
      · have hframe : t.devManager c = (DeviceNames.updateCard sys.1 s c).devManager c :=
          foldl_updateCard_of_notMem sys.1 cs hc _
        rw [Unnamed, hframe]
        exact hunnamed
      · have hseen : State.seen t = _ := seen_foldl_updateCard sys.1 cs hnodup _
        rw [hseen]
        exact Nat.lt_of_lt_of_le hmany (others_le_append _ _)

/-- Over cards that are not there, an update initialises them. -/
lemma foldl_doInitAudioCard (sys : Sys) (cs : List Card) : cs.Nodup → ∀ s : State,
    (∀ c ∈ cs, (s.devManager c).flagExist = false) →
      cs.foldl (fun s c => s.doInitAudioCard (sys c) c) s = cs.foldl (updateCard sys) s := by
  induction cs with
  | nil => exact fun _ s _ => rfl
  | cons c cs ih =>
    intro hnodup s hblank
    obtain ⟨hc, hnodup⟩ := List.nodup_cons.mp hnodup
    obtain ⟨hexist, hblank⟩ := List.forall_mem_cons.mp hblank
    have hone : updateCard sys s c = s.doInitAudioCard (sys c) c := by
      rw [updateCard, hexist]
      cases sys c <;> rfl
    rw [List.foldl_cons, List.foldl_cons, hone]
    refine ih hnodup _ fun c' hc' => ?_
    have hne : c' ≠ c := fun heq => hc (heq ▸ hc')
    rw [doInitAudioCard_of_ne s _ hne]
    exact hblank c' hc'

/-- `init_audio_devices` is an update of an empty table. -/
lemma initAudioDevices_eq (s : State) (sys : Sys) :
    s.initAudioDevices sys =
      cards.foldl (updateCard sys) { s with devManager := fun _ => .blank } :=
  foldl_doInitAudioCard sys cards (List.nodup_finRange _) _ fun _ _ => rfl

/-- A step keeps the names if and only if there are not too many ids. -/
lemma Inv.step {a : Act} (hs : Inv s) (hstep : step s a = some s') :
    (NamesOk a s → Inv s') ∧ (Named s' → NamesOk a s) := by
  have hupdate : ∀ {s : State}, Inv s → ∀ sys : NamedSys,
      let t := cards.foldl (DeviceNames.updateCard sys.1) s
      (DeviceNames.others (State.seen s ++ plugged sys.1 s.devManager cards) ≤ 9 → Inv t) ∧
      (Named t → DeviceNames.others (State.seen s ++ plugged sys.1 s.devManager cards) ≤ 9) := by
    intro s hs sys t
    have hseen : State.seen t = _ := seen_foldl_updateCard sys.1 cards (List.nodup_finRange _) s
    rw [← hseen]
    rcases Inv.foldl_updateCard sys cards (List.nodup_finRange _) hs with
      hinv | ⟨⟨c, hexist, hname⟩, hmany⟩
    · exact ⟨fun _ => hinv, fun _ => hinv.others_le⟩
    · exact ⟨fun h => absurd hmany (Nat.not_lt.mpr h),
        fun h => absurd hname (h.nonempty c hexist).1⟩
  cases a with
  | initAudioDevices sys =>
    obtain rfl := Option.some.inj hstep
    obtain ⟨ids, hids⟩ := hs
    rw [initAudioDevices_eq]
    have hblank : Inv { s with devManager := fun _ => .blank } :=
      ⟨ids, hids.map, hids.nodup, hids.mem, hids.nonempty, hids.length, hids.given,
        fun _ h => (nomatch h)⟩
    exact hupdate hblank sys
  | updataAudioDevices sys =>
    obtain rfl := Option.some.inj hstep
    exact hupdate hs sys

/-- **The names of cards.**  Along any sequence of initialisations and updates, from the loading of
the program on, the names are as expected if and only if in every step there are at most nine
different ids, of all cards up to now, that are not in the built-in table. -/
theorem names_iff (acts : List Act) :
    Along step Named (fun _ _ _ => True) loaded acts ↔ Meets step NamesOk loaded acts := by
  refine along_iff_meets (fun hs : Inv _ => hs.named) ?_ ?_ acts inv_loaded
  · exact fun hs hok hstep => ⟨(hs.step hstep).1 hok, trivial⟩
  · exact fun hs hstep _ hnamed => (hs.step hstep).2 hnamed

/-! ### Ten USB cards -/

/-- Cards with the numbers 0 to 9, whose ids are different letters. -/
def tenCards : NamedSys :=
  ⟨fun c => if h : c.val < 10 then
      some ⟨some ⟨[Char.ofNat (97 + c.val)], Nat.le_of_ble_eq_true rfl, by
        revert c
        decide⟩, true, true⟩ else none,
    by
      intro c n id hn hid
      simp only at hn
      split_ifs at hn
      obtain rfl := Option.some.inj hn
      obtain rfl := Option.some.inj hid
      exact List.cons_ne_nil _ _⟩

/-- The tenth card has no name. -/
theorem tenth_card_unnamed :
    ¬ ∀ acts : List Act, Along step Named (fun _ _ _ => True) loaded acts := by
  intro hall
  have hnamed := ((hall [.updataAudioDevices tenCards]).2 _ rfl).2
  have hcard : ((loaded.updataAudioDevices tenCards.1).devManager ⟨9, by decide⟩).flagExist = true ∧
      ((loaded.updataAudioDevices tenCards.1).devManager ⟨9, by decide⟩).name.1 = [] := by
    decide +kernel
  exact (hnamed.nonempty _ hcard.1).1 hcard.2

end Softwinner.Audio.DeviceNames
