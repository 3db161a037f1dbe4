import Mathlib.Data.List.Nodup
import Softwinner.Framework.Runs
import Softwinner.Sensors.Detect

/-!
# Opening the sensors

`open_sensors` runs a detection and builds a `sensors_poll_context_t`: one driver for each kind that
the detection has found, at the next free index of `mSensors`.  `handleToDriver` maps the handles of
the sensor list to these indices, and `pollEvents` visits the indices below `sNumber`, or below
`sNumber - 1` in a build with `MAG_SENSOR_FXOS8700`, where one driver has two entries in the list.

The counter `sNumber` is not reset by an open, and it counts the orientation entries, which have no
driver.  `open_iff` is the exact condition for the list and the drivers to agree after each open:
the opens before have found nothing, and the devices make as many orientation entries as the build
expects.
-/

namespace Softwinner.Sensors

open Framework

/-! ## The poll context -/

/-- The classes of the objects in `mSensors`. -/
inductive Driver
  | accelSensor | magSensor | magnetoSensor | gyroSensor | lightSensor | proximitySensor
  | tempSensor
  deriving DecidableEq

/-- The types whose events a driver reports. -/
def Driver.serves : Driver → SensorType → Bool
  | .accelSensor, .accelerometer => true
  | .magSensor, .magneticField => true
  | .magSensor, .orientation => true
  | .magnetoSensor, .magneticField => true
  | .gyroSensor, .gyroscope => true
  | .lightSensor, .light => true
  | .proximitySensor, .proximity => true
  | .tempSensor, .ambientTemperature => true
  | _, _ => false

/-- `mSensors` has the objects that the constructor has built, in the order of their indices; the
other indices are uninitialised. -/
structure Context where
  accel : ℕ
  mag : ℕ
  gyro : ℕ
  light : ℕ
  proximity : ℕ
  orn : ℕ
  temperature : ℕ
  press : ℕ
  mSensors : List Driver

/-- One block of the constructor: the object goes to the next index, which `record` stores. -/
def Context.build (g : Globals) (id : SensorId) (d : Driver) (record : ℕ → Context → Context)
    (c : Context) : Context :=
  if (g.seStatus id).isUsed && (g.seStatus id).isFound then
    { record c.mSensors.length c with mSensors := c.mSensors ++ [d] }
  else c

def magDriver (fxos : Bool) : Driver := if fxos then .magSensor else .magnetoSensor

/-- The constructor `sensors_poll_context_t`; `fxos` is a build with `MAG_SENSOR_FXOS8700`. -/
def context (fxos : Bool) (g : Globals) : Context :=
  let c : Context := ⟨0, 0, 0, 0, 0, 0, 0, 0, []⟩
  let c := c.build g .A .accelSensor fun first c => { c with accel := first }
  let c := c.build g .M (magDriver fxos) fun first c => { c with mag := first }
  let c := c.build g .GY .gyroSensor fun first c => { c with gyro := first }
  let c := c.build g .L .lightSensor fun first c => { c with light := first }
  let c := c.build g .PX .proximitySensor fun first c => { c with proximity := first }
  c.build g .T .tempSensor fun first c => { c with temperature := first }

def EINVAL : ℤ := 22

def Context.handleToDriver (c : Context) (handle : ℕ) : ℤ :=
  match handle with
  | 0 => c.accel
  | 1 => c.mag
  | 5 => c.mag
  | 2 => c.gyro
  | 3 => c.light
  | 4 => c.proximity
  | 6 => c.temperature
  | 7 => c.press
  | _ => -EINVAL

/-- The `number` of `pollEvents`, which visits the indices below it. -/
def number (fxos : Bool) (g : Globals) : ℤ := if fxos then g.sNumber - 1 else g.sNumber

/-- The list of the sensors fits the drivers of a context. -/
structure Agrees (fxos : Bool) (g : Globals) (c : Context) : Prop where
  length_le : g.sNumber ≤ 10
  nodup : (g.sSensorList.map SensorT.handle).Nodup
  mapped : ∀ e ∈ g.sSensorList, ∃ (i : ℕ) (d : Driver), c.handleToDriver e.handle = i ∧
    c.mSensors[i]? = some d ∧ d.serves e.type = true
  visited : ∀ i : ℕ, (i : ℤ) < number fxos g ↔ i < c.mSensors.length

/-! ## The process -/

/-- A process that has the module loaded.  `opens` records the devices and the list of each open. -/
structure Process where
  globals : Globals
  ctx : Option Context
  opens : List (List Name × List SensorT)

def Process.initial : Process := ⟨Globals.initial, none, []⟩

inductive Call
  | open_sensors (dir : Option (List Dirent))
  | poll__close

def step (fxos : Bool) (p : Process) : Call → Option Process
  | .open_sensors dir =>
    match p.ctx with
    | some _ => none
    | none =>
      let g := (sensorsDetect dir p.globals).2
      some ⟨g, some (context fxos g), p.opens ++ [(detected dir, g.sSensorList)]⟩
  | .poll__close =>
    match p.ctx with
    | some _ => some { p with ctx := none }
    | none => none

/-- The list fits the context, and the same devices, in any order, have always given the same
list. -/
structure Correct (fxos : Bool) (p : Process) : Prop where
  agrees : ∀ c, p.ctx = some c → Agrees fxos p.globals c
  same : ∀ x ∈ p.opens, ∀ y ∈ p.opens, x.1.Perm y.1 → x.2 = y.2

/-! ## The condition -/

/-- The devices make as many orientation entries as `pollEvents` expects: none, or with
`MAG_SENSOR_FXOS8700` one, unless there is no sensor at all. -/
def NamesOk (fxos : Bool) (names : List Name) : Prop :=
  if fxos then
    (∀ n ∈ names, ∀ id, fits id n = false) ∨ bringsOrientation names ≠ leavesOrientation names
  else ∀ n ∈ rest names, fits .O n = false

def OpenOk (fxos : Bool) : Call → Process → Prop
  | .open_sensors dir, p => p.globals.sNumber = 0 ∧ NamesOk fxos (detected dir)
  | .poll__close, _ => True

/-! ## The drivers that are built -/

def drivers (fxos : Bool) : List (SensorId × Driver) :=
  [(.A, .accelSensor), (.M, magDriver fxos), (.GY, .gyroSensor), (.L, .lightSensor),
    (.PX, .proximitySensor), (.T, .tempSensor)]

section

variable {fxos : Bool} {g : Globals}

lemma build_eq (hused : ∀ id, (g.seStatus id).isUsed = true) (id : SensorId) (d : Driver)
    (record : ℕ → Context → Context) (c : Context) :
    c.build g id d record = if g.isFound id then
      { record c.mSensors.length c with mSensors := c.mSensors ++ [d] } else c := by
  rw [Context.build, hused id, Bool.true_and]
  rfl

/-- A block puts its object behind those that are there. -/
lemma build_mSensors (hused : ∀ id, (g.seStatus id).isUsed = true) (id : SensorId) (d : Driver)
    (record : ℕ → Context → Context) (c : Context) :
    (c.build g id d record).mSensors = c.mSensors ++ if g.isFound id then [d] else [] := by
  rw [build_eq hused]
  split_ifs
  · rfl
  · exact (List.append_nil _).symm

lemma context_mSensors (hused : ∀ id, (g.seStatus id).isUsed = true) :
    (context fxos g).mSensors = ((drivers fxos).filter fun p => g.isFound p.1).map Prod.snd := by
  have hcons : ∀ (q : SensorId × Driver) (ps : List (SensorId × Driver)),
      ((q :: ps).filter fun p => g.isFound p.1).map Prod.snd =
        (if g.isFound q.1 then [q.2] else []) ++
          (ps.filter fun p => g.isFound p.1).map Prod.snd := by
    intro q ps
    rw [List.filter_cons]
    split_ifs <;> rfl
  simp only [context, build_mSensors hused, drivers, hcons, List.append_assoc, List.nil_append,
    List.filter_nil, List.map_nil, List.append_nil]

variable {f : Context → ℕ} {id : SensorId} {d d' : Driver} {record : ℕ → Context → Context}
  {c : Context}

/-- The index that a block stores is that of its object. -/
lemma build_own (hused : ∀ id, (g.seStatus id).isUsed = true)
    (hf : ∀ n c ms, f { record n c with mSensors := ms } = n) (hfound : g.isFound id = true) :
    (c.build g id d record).mSensors[f (c.build g id d record)]? = some d := by
  rw [build_eq hused, if_pos hfound, hf]
  exact List.getElem?_concat_length

/-- The other blocks leave an index and its object as they are. -/
lemma build_keep (hused : ∀ id, (g.seStatus id).isUsed = true)
    (hf : ∀ n c ms, f { record n c with mSensors := ms } = f c)
    (h : c.mSensors[f c]? = some d') :
    (c.build g id d record).mSensors[f (c.build g id d record)]? = some d' := by
  rw [build_eq hused]
  split_ifs
  · rw [hf]
    have hlt : f c < c.mSensors.length := (List.getElem?_eq_some_iff.mp h).1
    exact (List.getElem?_append_left hlt).trans h
  · exact h

/-- The handle of a kind that is found is mapped to the index of its driver. -/
lemma context_mapped (hused : ∀ id, (g.seStatus id).isUsed = true) {p : SensorId × Driver}
    (hp : p ∈ drivers fxos) (hfound : g.isFound p.1 = true) :
    ∃ i : ℕ, (context fxos g).handleToDriver p.1.handle = i ∧
      (context fxos g).mSensors[i]? = some p.2 := by
  simp only [drivers, List.mem_cons, List.not_mem_nil, or_false] at hp
  rcases hp with rfl | rfl | rfl | rfl | rfl | rfl
  · refine ⟨(context fxos g).accel, rfl, ?_⟩
    iterate 5 refine build_keep (f := Context.accel) hused (fun _ _ _ => rfl) ?_
    exact build_own hused (fun _ _ _ => rfl) hfound
  · refine ⟨(context fxos g).mag, rfl, ?_⟩
    iterate 4 refine build_keep (f := Context.mag) hused (fun _ _ _ => rfl) ?_
    exact build_own hused (fun _ _ _ => rfl) hfound
  · refine ⟨(context fxos g).gyro, rfl, ?_⟩
    iterate 3 refine build_keep (f := Context.gyro) hused (fun _ _ _ => rfl) ?_
    exact build_own hused (fun _ _ _ => rfl) hfound
  · refine ⟨(context fxos g).light, rfl, ?_⟩
    iterate 2 refine build_keep (f := Context.light) hused (fun _ _ _ => rfl) ?_
    exact build_own hused (fun _ _ _ => rfl) hfound
  · refine ⟨(context fxos g).proximity, rfl, ?_⟩
    refine build_keep (f := Context.proximity) hused (fun _ _ _ => rfl) ?_
    exact build_own hused (fun _ _ _ => rfl) hfound
  · refine ⟨(context fxos g).temperature, rfl, ?_⟩
    exact build_own (f := Context.temperature) hused (fun _ _ _ => rfl) hfound

end

/-! ## The entries of one pass -/

lemma map_fst_drivers (fxos : Bool) : (drivers fxos).map Prod.fst = drivenIds := rfl

lemma exists_driver (fxos : Bool) {id : SensorId} (h : id ∈ drivenIds) :
    ∃ d, (id, d) ∈ drivers fxos := by
  rw [← map_fst_drivers fxos] at h
  obtain ⟨p, hp, rfl⟩ := List.mem_map.mp h
  exact ⟨p.2, hp⟩

lemma handle_injective {i j : SensorId} (h : i.handle = j.handle) : i = j := by
  revert h
  cases i <;> cases j <;> decide

/-- A driver serves the entries of its kind, and that of the orientation if it is the Freescale
magnetometer's. -/
lemma serves_iff {fxos : Bool} {p : SensorId × Driver} (hp : p ∈ drivers fxos) {id : SensorId}
    {x : SensorExtend} (hx : x ∈ sensorList id) :
    p.2.serves x.sList.type = true ↔ id = p.1 ∨ p.1 = .M ∧ id = .O ∧ fxos = true := by
  have hall : ∀ fxos, ∀ p ∈ drivers fxos, ∀ x ∈ sensorList id,
      (p.2.serves x.sList.type = true ↔ id = p.1 ∨ p.1 = .M ∧ id = .O ∧ fxos = true) := by
    cases id <;> decide
  exact hall fxos p hp x hx

section

variable {before : List SensorT} {names : List Name} {g : Globals}

lemma mem_handles {id : SensorId} : id.handle ∈ handles g names ↔
    (id ∈ drivenIds ∧ g.isFound id = true) ∨ (id = .O ∧ orientations names ≠ 0) := by
  rw [handles, List.mem_append, List.mem_map, List.mem_replicate]
  apply or_congr
  · constructor
    · rintro ⟨i, hi, heq⟩
      obtain rfl := handle_injective heq
      exact List.mem_filter.mp hi
    · intro h
      exact ⟨id, List.mem_filter.mpr h, rfl⟩
  · constructor
    · rintro ⟨hne, heq⟩
      exact ⟨handle_injective heq, hne⟩
    · rintro ⟨rfl, hne⟩
      exact ⟨hne, rfl⟩

lemma orientations_eq_zero : orientations names = 0 ↔
    bringsOrientation names = false ∧ leavesOrientation names = false := by
  rw [orientations]
  cases bringsOrientation names <;> cases leavesOrientation names <;> decide

lemma orientations_eq_one : orientations names = 1 ↔
    bringsOrientation names ≠ leavesOrientation names := by
  rw [orientations]
  cases bringsOrientation names <;> cases leavesOrientation names <;> decide

/-- An orientation entry comes with a magnetometer. -/
lemma Scanned.found_mag (h : Scanned before names g) (ho : orientations names ≠ 0) :
    g.isFound .M = true := by
  rw [h.mag]
  apply List.any_eq_true.mpr
  by_cases hb : bringsOrientation names = true
  · cases hfind : (rest names).find? (fits .M) with
    | none =>
      rw [bringsOrientation, hfind] at hb
      cases hb
    | some n => exact ⟨n, List.mem_of_find?_eq_some hfind, List.find?_some hfind⟩
  · have hleaves : leavesOrientation names = true := by
      by_contra hl
      exact ho (orientations_eq_zero.mpr ⟨Bool.eq_false_iff.mpr hb, Bool.eq_false_iff.mpr hl⟩)
    obtain ⟨n, hn, hO⟩ := List.any_eq_true.mp hleaves
    exact ⟨n, List.mem_of_mem_eraseP hn, fits_M_of_O hO⟩

/-- A pass that finds no driven kind has met no sensor. -/
lemma Scanned.none_known (h : Scanned before names g)
    (hnone : ∀ id ∈ drivenIds, g.isFound id = false) :
    ∀ n ∈ names, ∀ id, fits id n = false := by
  have hM : g.isFound .M = false := hnone .M (by decide)
  have hO : g.isFound .O = false := by
    rw [h.ori]
    by_contra hl
    have hfound := h.found_mag fun h0 => hl (orientations_eq_zero.mp h0).2
    rw [hM] at hfound
    cases hfound
  have hall : ∀ id, g.isFound id = false := by
    intro id
    cases id with
    | O => exact hO
    | P => exact h.press
    | A | M | GY | L | PX | T => exact hnone _ (by decide)
  intro n hn id
  apply Bool.eq_false_iff.mpr
  intro hfits
  obtain ⟨i, hi⟩ := h.known.mpr ⟨n, hn, id, hfits⟩
  rw [hall i] at hi
  cases hi

end

/-- The condition on the names, as the number of orientation entries. -/
lemma namesOk_iff {fxos : Bool} {names : List Name} : NamesOk fxos names ↔
    if fxos then (∀ n ∈ names, ∀ id, fits id n = false) ∨ orientations names = 1
    else orientations names = 0 := by
  cases fxos with
  | true => exact or_congr_right orientations_eq_one.symm
  | false =>
    refine Iff.trans ?_ orientations_eq_zero.symm
    constructor
    · intro h
      constructor
      · rw [bringsOrientation]
        cases hfind : (rest names).find? (fits .M) with
        | none => rfl
        | some n => exact h n (List.mem_of_find?_eq_some hfind)
      · apply List.any_eq_false.mpr
        intro n hn hO
        rw [h n (List.mem_of_mem_eraseP hn)] at hO
        cases hO
    · rintro ⟨hb, hl⟩ n hn
      apply Bool.eq_false_iff.mpr
      intro hO
      -- `n` is the first magnetometer or stays behind it
      obtain ⟨m, front, back, hfront, hm, hrest, herase⟩ :=
        List.exists_of_eraseP hn (fits_M_of_O hO)
      rw [leavesOrientation, herase] at hl
      have hleft : ∀ a ∈ front ++ back, ¬fits .O a = true := List.any_eq_false.mp hl
      rw [hrest] at hn
      rcases List.mem_append.mp hn with hn | hn
      · exact hleft n (List.mem_append_left _ hn) hO
      rcases List.mem_cons.mp hn with rfl | hn
      · rw [bringsOrientation, hrest, List.find?_append, List.find?_eq_none.mpr hfront,
          Option.none_or, List.find?_cons_of_pos hm, Option.any_some, hO] at hb
        cases hb
      · exact hleft n (List.mem_append_right _ hn) hO

/-! ## One open -/

section

variable {fxos : Bool} {before : List SensorT} {names : List Name} {g : Globals}

lemma Scanned.length (h : Scanned before names g) : g.sNumber = before.length +
    ((drivenIds.filter g.isFound).length + orientations names) := by
  obtain ⟨new, hlist, -, hperm⟩ := h.entries
  have hnew := hperm.length_eq
  rw [handles, List.length_map, List.length_append, List.length_map, List.length_replicate] at hnew
  rw [Globals.sNumber, hlist, List.length_append, hnew]

lemma Scanned.context_length (h : Scanned before names g) :
    (context fxos g).mSensors.length = (drivenIds.filter g.isFound).length := by
  rw [context_mSensors h.used, ← map_fst_drivers fxos, List.filter_map, List.length_map,
    List.length_map]
  rfl

/-- An entry whose driver is there belongs to a kind that this pass has found. -/
lemma Scanned.found_of_mapped (h : Scanned before names g) {id : SensorId} {x : SensorExtend}
    (hx : x ∈ sensorList id) (hid : id ≠ .O) {i : ℕ} {d : Driver}
    (hd : (context fxos g).mSensors[i]? = some d) (hserves : d.serves x.sList.type = true) :
    id ∈ drivenIds ∧ g.isFound id = true := by
  have hmem := List.mem_of_getElem? hd
  rw [context_mSensors h.used] at hmem
  obtain ⟨p, hp, rfl⟩ := List.mem_map.mp hmem
  obtain ⟨hp, hfound⟩ := List.mem_filter.mp hp
  rcases (serves_iff hp hx).mp hserves with rfl | ⟨-, hO, -⟩
  · rw [← map_fst_drivers fxos]
    exact ⟨List.mem_map_of_mem hp, hfound⟩
  · exact absurd hO hid

/-- No more orientation entries than `pollEvents` leaves out. -/
lemma Scanned.orientations_of_namesOk (h : Scanned before names g) (hok : NamesOk fxos names) :
    (fxos = false ∧ orientations names = 0) ∨ (fxos = true ∧ orientations names = 1) ∨
      (drivenIds.filter g.isFound = [] ∧ orientations names = 0) := by
  have hok := namesOk_iff.mp hok
  cases fxos with
  | false => exact Or.inl ⟨rfl, hok⟩
  | true =>
    refine Or.inr ?_
    rcases hok with hnone | hone
    · right
      have hall : ∀ id, ¬g.isFound id = true := by
        intro id hfound
        obtain ⟨n, hn, i, hfits⟩ := h.known.mp ⟨id, hfound⟩
        rw [hnone n hn i] at hfits
        cases hfits
      constructor
      · exact List.filter_eq_nil_iff.mpr fun id _ => hall id
      · by_contra ho
        exact hall .M (h.found_mag ho)
    · exact Or.inl ⟨rfl, hone⟩

lemma handles_nodup (ho : orientations names ≤ 1) : (handles g names).Nodup := by
  have hdriven : drivenIds.Nodup := by decide
  apply List.nodup_append.mpr
  refine ⟨List.Nodup.map (fun _ _ => handle_injective) (hdriven.filter _),
    List.nodup_replicate.mpr ho, ?_⟩
  intro a ha b hb
  obtain ⟨id, hid, rfl⟩ := List.mem_map.mp ha
  rw [(List.mem_replicate.mp hb).2]
  intro heq
  obtain rfl := handle_injective heq
  exact absurd (List.mem_filter.mp hid).1 (by decide)

/-- What an open that starts without sensors needs of the names. -/
lemma Scanned.agrees (h : Scanned [] names g) (hok : NamesOk fxos names) :
    Agrees fxos g (context fxos g) := by
  have hcount := h.orientations_of_namesOk hok
  have hlength := h.length
  have hbound : (drivenIds.filter g.isFound).length ≤ 6 := List.length_filter_le _ _
  have hone : orientations names ≤ 1 := by
    rcases hcount with ⟨-, ho⟩ | ⟨-, ho⟩ | ⟨-, ho⟩ <;> omega
  rw [List.length_nil] at hlength
  obtain ⟨new, hlist, hlisted, hperm⟩ := h.entries
  rw [List.nil_append] at hlist
  refine ⟨by omega, ?_, ?_, ?_⟩
  · rw [hlist]
    exact hperm.nodup_iff.mpr (handles_nodup hone)
  · intro e he
    rw [hlist] at he
    obtain ⟨id, x, hx, rfl⟩ := hlisted e he
    have hhandle : x.sList.handle = id.handle := handle_of_mem hx
    have hmem := hperm.mem_iff.mp (List.mem_map_of_mem he)
    rw [hhandle] at hmem ⊢
    rcases mem_handles.mp hmem with ⟨hid, hfound⟩ | ⟨rfl, ho⟩
    · obtain ⟨d, hd⟩ := exists_driver fxos hid
      obtain ⟨i, hi, hget⟩ := context_mapped h.used hd hfound
      exact ⟨i, d, hi, hget, (serves_iff hd hx).mpr (Or.inl rfl)⟩
    · have hd : (SensorId.M, magDriver fxos) ∈ drivers fxos :=
        List.mem_cons_of_mem _ List.mem_cons_self
      have hfxos : fxos = true := by
        rcases hcount with ⟨-, h0⟩ | ⟨hf, -⟩ | ⟨-, h0⟩
        · exact absurd h0 ho
        · exact hf
        · exact absurd h0 ho
      obtain ⟨i, hi, hget⟩ := context_mapped h.used hd (h.found_mag ho)
      exact ⟨i, _, hi, hget, (serves_iff hd hx).mpr (Or.inr ⟨rfl, rfl, hfxos⟩)⟩
  · intro i
    rw [h.context_length, number]
    rcases hcount with ⟨rfl, ho⟩ | ⟨rfl, ho⟩ | ⟨hnil, ho⟩
    · rw [if_neg Bool.false_ne_true]
      omega
    · rw [if_pos rfl]
      omega
    · rw [hnil, List.length_nil] at hlength ⊢
      split_ifs <;> omega

/-- An open whose list fits its drivers has started without sensors. -/
lemma Scanned.before_nil (h : Scanned before names g) (hlisted : ∀ e ∈ before, Listed e)
    (hmag : SensorId.O.handle ∈ before.map SensorT.handle →
      SensorId.M.handle ∈ before.map SensorT.handle)
    (hagrees : Agrees fxos g (context fxos g)) : before = [] := by
  by_contra hne
  obtain ⟨new, hlist, -, hperm⟩ := h.entries
  obtain ⟨e, he⟩ := List.exists_mem_of_ne_nil before hne
  -- an entry of another kind than the orientation: the driver that it needs is found again
  obtain ⟨e, he, id, x, hx, rfl, hid⟩ : ∃ e ∈ before, ∃ id, ∃ x ∈ sensorList id, x.sList = e ∧
      id ≠ .O := by
    obtain ⟨id, x, hx, rfl⟩ := hlisted e he
    by_cases hid : id = .O
    · subst hid
      obtain ⟨e, he, hhandle⟩ := List.mem_map.mp
        (hmag (List.mem_map.mpr ⟨_, he, handle_of_mem hx⟩))
      obtain ⟨id, y, hy, rfl⟩ := hlisted e he
      refine ⟨_, he, id, y, hy, rfl, ?_⟩
      rintro rfl
      rw [handle_of_mem hy] at hhandle
      exact absurd hhandle (by decide)
    · exact ⟨_, he, id, x, hx, rfl, hid⟩
  have hmem : x.sList ∈ g.sSensorList := hlist ▸ List.mem_append_left _ he
  obtain ⟨i, d, -, hd, hserves⟩ := hagrees.mapped _ hmem
  have hagain : id.handle ∈ new.map SensorT.handle :=
    hperm.mem_iff.mpr (mem_handles.mpr (Or.inl (h.found_of_mapped hx hid hd hserves)))
  have hnodup := hagrees.nodup
  rw [hlist, List.map_append] at hnodup
  have hdisjoint := (List.nodup_append.mp hnodup).2.2
  have hbefore : id.handle ∈ before.map SensorT.handle :=
    List.mem_map.mpr ⟨_, he, handle_of_mem hx⟩
  exact hdisjoint _ hbefore _ hagain rfl

/-- The indices that are visited give the condition on the names. -/
lemma Scanned.namesOk (h : Scanned [] names g) (hagrees : Agrees fxos g (context fxos g)) :
    NamesOk fxos names := by
  have hlength := h.length
  rw [List.length_nil, Nat.zero_add] at hlength
  have hvisited := hagrees.visited
  rw [h.context_length, number, hlength] at hvisited
  apply namesOk_iff.mpr
  cases fxos with
  | false =>
    have hnext := hvisited (drivenIds.filter g.isFound).length
    rw [if_neg Bool.false_ne_true] at hnext
    rw [if_neg Bool.false_ne_true]
    omega
  | true =>
    simp only [if_true] at hvisited ⊢
    have hnext := hvisited (drivenIds.filter g.isFound).length
    by_cases hnil : drivenIds.filter g.isFound = []
    · left
      apply h.none_known
      intro id hid
      exact Bool.eq_false_iff.mpr (List.filter_eq_nil_iff.mp hnil id hid)
    · right
      have hpos := List.length_pos_iff.mpr hnil
      have hlast := hvisited ((drivenIds.filter g.isFound).length - 1)
      omega

end

/-! ## The run -/

/-- What holds as long as every open has met its condition. -/
structure Inv (fxos : Bool) (p : Process) : Prop where
  others : p.globals.others.Inv
  listed : ∀ e ∈ p.globals.sSensorList, Listed e
  mag : SensorId.O.handle ∈ p.globals.sSensorList.map SensorT.handle →
    SensorId.M.handle ∈ p.globals.sSensorList.map SensorT.handle
  correct : Correct fxos p
  unknown : p.globals.sSensorList = [] →
    ∀ x ∈ p.opens, x.2 = [] ∧ ∀ n ∈ x.1, ∀ id, fits id n = false

lemma initial_inv (fxos : Bool) : Inv fxos Process.initial where
  others := Others.initial_inv
  listed := by simp [Process.initial, Globals.initial]
  mag := by simp [Process.initial, Globals.initial]
  correct := ⟨by simp [Process.initial], by simp [Process.initial]⟩
  unknown := by simp [Process.initial]

section

variable {fxos : Bool} {p p' : Process} {a : Call}

lemma step_cases (hstep : step fxos p a = some p') :
    (∃ dir, a = .open_sensors dir ∧ p' =
      ⟨(sensorsDetect dir p.globals).2, some (context fxos (sensorsDetect dir p.globals).2),
        p.opens ++ [(detected dir, (sensorsDetect dir p.globals).2.sSensorList)]⟩) ∨
      a = .poll__close ∧ p' = { p with ctx := none } := by
  unfold step at hstep
  cases a with
  | open_sensors dir =>
    cases hctx : p.ctx with
    | some c => rw [hctx] at hstep; cases hstep
    | none =>
      rw [hctx] at hstep
      exact Or.inl ⟨dir, rfl, (Option.some.inj hstep).symm⟩
  | poll__close =>
    cases hctx : p.ctx with
    | some c =>
      rw [hctx] at hstep
      exact Or.inr ⟨rfl, (Option.some.inj hstep).symm⟩
    | none => rw [hctx] at hstep; cases hstep

lemma Scanned.known_of_entries {names : List Name} {g : Globals} (h : Scanned [] names g)
    (hnil : g.sSensorList = []) : ∀ n ∈ names, ∀ id, fits id n = false := by
  apply h.none_known
  have hlength := h.length
  rw [Globals.sNumber, hnil, List.length_nil, Nat.zero_add] at hlength
  have hfilter : drivenIds.filter g.isFound = [] := List.length_eq_zero_iff.mp (by omega)
  intro id hid
  exact Bool.eq_false_iff.mpr (List.filter_eq_nil_iff.mp hfilter id hid)

/-- Names that no table knows leave the list as it is. -/
lemma Scanned.entries_of_unknown {names : List Name} {g : Globals} (h : Scanned [] names g)
    (hunknown : ∀ n ∈ names, ∀ id, fits id n = false) : g.sSensorList = [] := by
  have hnone : ∀ id, ¬g.isFound id = true := by
    intro id hfound
    obtain ⟨n, hn, i, hfits⟩ := h.known.mp ⟨id, hfound⟩
    rw [hunknown n hn i] at hfits
    cases hfits
  have hfilter : drivenIds.filter g.isFound = [] :=
    List.filter_eq_nil_iff.mpr fun id _ => hnone id
  have ho : orientations names = 0 := by
    by_contra ho
    exact hnone .M (h.found_mag ho)
  have hlength := h.length
  rw [hfilter, ho] at hlength
  exact List.length_eq_zero_iff.mp hlength

lemma open_inv {dir : Option (List Dirent)} (hinv : Inv fxos p)
    (hok : OpenOk fxos (.open_sensors dir) p) :
    Inv fxos ⟨(sensorsDetect dir p.globals).2,
      some (context fxos (sensorsDetect dir p.globals).2),
      p.opens ++ [(detected dir, (sensorsDetect dir p.globals).2.sSensorList)]⟩ := by
  have hnil : p.globals.sSensorList = [] := List.length_eq_zero_iff.mp hok.1
  have hscan := sensorsDetect_scanned dir hinv.others
  rw [hnil] at hscan
  obtain ⟨new, hlist, hlisted, hperm⟩ := hscan.entries
  rw [List.nil_append] at hlist
  have hunknown := hinv.unknown hnil
  generalize (sensorsDetect dir p.globals).2 = g at hscan hlist hperm ⊢
  subst hlist
  refine ⟨hscan.others, hlisted, ?_, ⟨?_, ?_⟩, ?_⟩
  · intro hO
    rcases mem_handles.mp (hperm.mem_iff.mp hO) with ⟨hmem, -⟩ | ⟨-, ho⟩
    · exact absurd hmem (by decide)
    · exact hperm.mem_iff.mpr (mem_handles.mpr (Or.inl ⟨by decide, hscan.found_mag ho⟩))
  · intro c hc
    obtain rfl := Option.some.inj hc
    exact hscan.agrees hok.2
  · -- an open that sees the devices of an earlier one finds nothing either
    have hnew : ∀ x ∈ p.opens, x.1.Perm (detected dir) → x.2 = g.sSensorList := by
      intro x hx hsame
      obtain ⟨hxnil, hxnames⟩ := hunknown x hx
      rw [hxnil]
      exact (hscan.entries_of_unknown fun n hn => hxnames n (hsame.mem_iff.mpr hn)).symm
    intro x hx y hy hsame
    rcases List.mem_append.mp hx with hx | hx <;> rcases List.mem_append.mp hy with hy | hy
    · exact hinv.correct.same x hx y hy hsame
    · obtain rfl := List.mem_singleton.mp hy
      exact hnew x hx hsame
    · obtain rfl := List.mem_singleton.mp hx
      exact (hnew y hy hsame.symm).symm
    · rw [List.mem_singleton.mp hx, List.mem_singleton.mp hy]
  · intro hgnil x hx
    rcases List.mem_append.mp hx with hx | hx
    · exact hunknown x hx
    · obtain rfl := List.mem_singleton.mp hx
      exact ⟨hgnil, hscan.known_of_entries hgnil⟩

/-- One call that meets the condition keeps the invariant. -/
lemma step_inv (hinv : Inv fxos p) (hok : OpenOk fxos a p) (hstep : step fxos p a = some p') :
    Inv fxos p' := by
  obtain ⟨dir, rfl, rfl⟩ | ⟨rfl, rfl⟩ := step_cases hstep
  · exact open_inv hinv hok
  · refine ⟨hinv.others, hinv.listed, hinv.mag, ⟨?_, hinv.correct.same⟩, hinv.unknown⟩
    intro c hc
    cases hc

/-- One call whose outcome is correct has met the condition. -/
lemma step_exact (hinv : Inv fxos p) (hstep : step fxos p a = some p')
    (hcorrect : Correct fxos p') : OpenOk fxos a p := by
  obtain ⟨dir, rfl, rfl⟩ | ⟨rfl, rfl⟩ := step_cases hstep
  · have hscan := sensorsDetect_scanned dir hinv.others
    have hagrees := hcorrect.agrees _ rfl
    have hnil := hscan.before_nil hinv.listed hinv.mag hagrees
    rw [hnil] at hscan
    exact ⟨List.length_eq_zero_iff.mpr hnil, hscan.namesOk hagrees⟩
  · trivial

end

/-- In every sequence of opens and closes, the sensor list fits the drivers and is the same for the
same devices after every call, exactly if each open starts with an empty list and finds as many
orientation entries as its build expects. -/
theorem open_iff (fxos : Bool) (calls : List Call) :
    Along (step fxos) (Correct fxos) (fun _ _ _ => True) Process.initial calls ↔
      Meets (step fxos) (OpenOk fxos) Process.initial calls :=
  along_iff_meets (fun hinv => hinv.correct)
    (fun hinv hok hstep => ⟨step_inv hinv hok hstep, trivial⟩)
    (fun hinv hstep _ hcorrect => step_exact hinv hstep hcorrect) calls (initial_inv fxos)

/-- A device with the name `name`. -/
def device (name : String) : Dirent := ⟨"input0".toList, some name.toList⟩

/-- One accelerometer, opened, closed and opened again: its handle is in the list twice, and index 1
is visited without a driver. -/
theorem open_twice_disagrees :
    ¬Along (step false) (Correct false) (fun _ _ _ => True) Process.initial
      [.open_sensors (some [device "bma250"]), .poll__close,
        .open_sensors (some [device "bma250"])] := by
  intro h
  obtain ⟨-, h⟩ := h
  obtain ⟨-, -, h⟩ := h _ rfl
  obtain ⟨-, -, h⟩ := h _ rfl
  obtain ⟨-, h⟩ := h _ rfl
  have hagrees := h.agrees _ rfl
  exact absurd hagrees.nodup (by decide)

end Softwinner.Sensors
