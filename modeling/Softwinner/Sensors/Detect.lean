import Mathlib.Algebra.Group.Int.Defs
import Mathlib.Algebra.Group.Nat.Defs
import Mathlib.Data.List.Infix
import Mathlib.Data.List.Perm.Basic
import Mathlib.Logic.Function.Basic
import Mathlib.Tactic.Common
import Mathlib.Tactic.SplitIfs

/-!
# Sensor detection

`sensorsDetect` reads the names of the input devices and looks each of them up in the tables of the
known sensors.  A name belongs to an entry when it is a prefix of the entry's name, so that one name
may fit several sensors; the first kind of `searchOrder` that has no device yet takes it.  A
magnetometer whose name fits the Freescale one brings an orientation entry with it, and a later
device of that name another.

`Scanned` says what one pass over a list of names leaves behind: which kinds are found, and which
handles have been appended to `sSensorList`.  Nothing of an earlier pass is taken out of the list.
-/

namespace Softwinner.Sensors

/-! ## The tables -/

/-- The `ID_` numbers of `sensors.h`. -/
inductive SensorId
  | A | M | GY | L | PX | O | T | P
  deriving DecidableEq

/-- The `SENSORS_..._HANDLE` of an id. -/
def SensorId.handle : SensorId → ℕ
  | A => 0 | M => 1 | GY => 2 | L => 3 | PX => 4 | O => 5 | T => 6 | P => 7

inductive SensorType
  | accelerometer | magneticField | orientation | gyroscope | light | proximity
  | ambientTemperature
  deriving DecidableEq

structure SensorT where
  name : String
  vendor : String
  version : ℕ
  handle : ℕ
  type : SensorType
  minDelay : ℕ
  deriving DecidableEq

/-- What a device's `name` file holds, without the line's end. -/
abbrev Name := List Char

structure SensorExtend where
  sensorName : Name
  sList : SensorT

def gsensor (sensorName name vendor : String) (minDelay : ℕ) : SensorExtend :=
  ⟨sensorName.toList, ⟨name, vendor, 1, 0, .accelerometer, minDelay⟩⟩

def gsensorList : List SensorExtend :=
  [gsensor "Virtual.Acc" "Virtual Accelerometer" "Virtual" 0,
   gsensor "bma250" "Bosch 3-axis Accelerometer" "Bosch" 0,
   gsensor "mma8452" "MMA8452 3-axis Accelerometer" "Freescale Semiconductor Inc." 20000,
   gsensor "mma7660" "MMA7660 3-axis Accelerometer" "Freescale Semiconductor Inc." 20000,
   gsensor "mma865x" "MMA865x 3-axis Accelerometer" "Freescale Semiconductor Inc." 20000,
   gsensor "stk8312" "stk8312 detect Accelerometer" "STK" 0,
   gsensor "afa750" "AFA750 3-axis Accelerometer" "AFA" 0,
   gsensor "stk8313" "stk8313 detect Accelerometer" "STK" 0,
   gsensor "lis3de_acc" "lis3de detect Accelerometer" "ST" 0,
   gsensor "lis3dh_acc" "lis3dh detect Accelerometer" "ST" 0,
   gsensor "lsm303d_acc" "lsm303d detect Accelerometer" "ST" 0,
   gsensor "FreescaleAccelerometer" "Freescale 3-axis Accelerometer" "Freescal" 20000,
   gsensor "kxtik" "Kionix 3-axis Accelerometer" "Kionix, Inc." 20000,
   gsensor "dmard10" "DMARD10 3-axis Accelerometer" "DMT" 0,
   gsensor "dmard06" "DMARD06 3-axis Accelerometer" "DMT" 0,
   gsensor "mxc622x" "mxc622x 2-axis Accelerometer" "MEMSIC" 0,
   gsensor "lis35de" "lis3dh detect Accelerometer" "ST" 0]

def freescaleMagnetometer : Name := "FreescaleMagnetometer".toList

def magSensorList : List SensorExtend :=
  [⟨"lsm303d_mag".toList,
     ⟨"ST 3-axis Magnetic field sensor", "STMicroelectronics", 1, 1, .magneticField, 16667⟩⟩,
   ⟨freescaleMagnetometer,
     ⟨"Freescale 3-axis Magnetic field sensor", "Freescale Semiconductor Inc.", 1, 1,
       .magneticField, 100000⟩⟩]

def gyrSensorList : List SensorExtend :=
  [⟨"l3gd20_gyr".toList,
     ⟨"ST 3-axis Gyroscope sensor", "STMicroelectronics", 1, 2, .gyroscope, 1190⟩⟩,
   ⟨"bmg160".toList,
     ⟨"ST 3-axis Gyroscope sensor", "STMicroelectronics", 1, 2, .gyroscope, 1190⟩⟩]

def ligSensorList : List SensorExtend :=
  [⟨"al3010".toList, ⟨"AL3010 Light sensor", "Intersil ", 1, 3, .light, 0⟩⟩,
   ⟨"jsa1212als".toList, ⟨"JSA1212 Light sensor", "SOLTEAM", 1, 3, .light, 0⟩⟩,
   ⟨"lightsensor".toList, ⟨"LTR-C216R-14 sensor LIGHT", "LTR ", 1, 3, .light, 0⟩⟩]

def proSensorList : List SensorExtend :=
  [⟨"jsa1212ps".toList, ⟨"JSA1212 Proximity sensor", "SOLTEAM", 1, 4, .proximity, 0⟩⟩,
   ⟨"proximity".toList, ⟨"LTR-C216R-14 sensor PROXIMITY", "LTR 2", 1, 4, .proximity, 0⟩⟩]

def freescaleOrientation : SensorT :=
  ⟨"Freescale Orientation sensor", "Freescale Semiconductor Inc.", 1, 5, .orientation, 100000⟩

def oriSensorList : List SensorExtend := [⟨freescaleMagnetometer, freescaleOrientation⟩]

def tempSensorList : List SensorExtend :=
  [⟨"sunxi-temp".toList, ⟨"Temperature sensor", "AW.", 1, 6, .ambientTemperature, 0⟩⟩]

def preSensorList : List SensorExtend := []

def sensorList : SensorId → List SensorExtend
  | .A => gsensorList
  | .M => magSensorList
  | .GY => gyrSensorList
  | .L => ligSensorList
  | .PX => proSensorList
  | .O => oriSensorList
  | .T => tempSensorList
  | .P => preSensorList

/-! ## The other devices -/

structure ODevice where
  isFind : Bool
  name : Name

/-- The devices that are not sensors, and what has been seen of them.  All of it outlives a pass. -/
structure Others where
  otherDevice : List ODevice
  ctpDevice : List ODevice
  flag0 : Bool
  flag1 : Bool
  found : ℕ

def otherNames : List Name := ["sw-".toList, "axp".toList]

def ctpNames : List Name := ["gt".toList, "gsl".toList, "ft5x".toList]

def Others.initial : Others :=
  ⟨otherNames.map (ODevice.mk false), ctpNames.map (ODevice.mk false), false, false, 0⟩

/-- `!strncmp(buf, name, strlen(name))`, for a device that has not been found before. -/
def ODevice.matches (buf : Name) (d : ODevice) : Bool := !d.isFind && d.name.isPrefixOf buf

def ODevice.mark (buf : Name) (d : ODevice) : ODevice :=
  if d.matches buf then { d with isFind := true } else d

def otherDeviceDetect (buf : Name) (o : Others) : ℕ × Others :=
  let found0 := !o.flag0 && o.otherDevice.any (·.matches buf)
  let found1 := !o.flag1 && o.ctpDevice.any (·.matches buf)
  let otherDevice := if o.flag0 then o.otherDevice else o.otherDevice.map (·.mark buf)
  let ctpDevice := if o.flag1 then o.ctpDevice else o.ctpDevice.map (·.mark buf)
  let flag0 := o.flag0 || otherDevice.all (·.isFind)
  let flag1 := o.flag1 || found1
  (if flag0 && flag1 then 2 else if found0 || found1 then 1 else 0,
    ⟨otherDevice, ctpDevice, flag0, flag1, o.found⟩)

/-! ## The search -/

structure Status where
  isUsed : Bool
  isFound : Bool

/-- The variables of `sensorDetect.cpp`.  `sSensorList` has the entries written so far: each is
written at `sNumber`, which is then incremented. -/
structure Globals where
  seStatus : SensorId → Status
  sSensorList : List SensorT
  others : Others

def Globals.initial : Globals := ⟨fun _ => ⟨false, false⟩, [], Others.initial⟩

def Globals.sNumber (g : Globals) : ℕ := g.sSensorList.length

def Globals.isFound (g : Globals) (id : SensorId) : Bool := (g.seStatus id).isFound

/-- The entry that `getDevice` copies into `sSensorList`.  `strncmp` compares as many characters
as `buf` has. -/
def getDevice (list : List SensorExtend) (buf : Name) : Option SensorT :=
  if buf = [] then none
  else (list.find? fun e => buf.isPrefixOf e.sensorName).map SensorExtend.sList

def statusInit (g : Globals) : Globals := { g with seStatus := fun _ => ⟨true, false⟩ }

def searchOrder : List SensorId := [.A, .M, .GY, .L, .PX, .O, .T, .P]

/-- The status that a branch of `searchDevice` sets; that of `ID_P` sets the temperature's. -/
def marks : SensorId → SensorId
  | .P => .T
  | id => id

/-- What a branch writes after its own entry. -/
def extra (id : SensorId) (buf : Name) : List SensorT :=
  if id = .M ∧ buf.isPrefixOf freescaleMagnetometer then [freescaleOrientation] else []

def tryDevice (g : Globals) (buf : Name) (id : SensorId) : Option (SensorId × SensorT) :=
  if (g.seStatus id).isUsed && !(g.seStatus id).isFound then
    (getDevice (sensorList id) buf).map (Prod.mk id)
  else none

/-- The branches of `searchDevice`, one for each id. -/
def searchLists (buf : Name) (g : Globals) : ℕ × Globals :=
  match searchOrder.findSome? (tryDevice g buf) with
  | none => (0, g)
  | some (id, e) =>
    (1, { g with
      seStatus :=
        Function.update g.seStatus (marks id) { g.seStatus (marks id) with isFound := true }
      sSensorList := g.sSensorList ++ e :: extra id buf })

def searchDevice (buf : Name) (g : Globals) : ℕ × Globals :=
  if g.others.found = 0 then
    match otherDeviceDetect buf g.others with
    | (1, o) => (1, { g with others := { o with found := 0 } })
    | (2, o) => (1, { g with others := { o with found := 2 } })
    | (found, o) => searchLists buf { g with others := { o with found := found } }
  else searchLists buf g

/-- An entry of `/sys/class/input`; `name` is `none` where its name file cannot be read. -/
structure Dirent where
  d_name : Name
  name : Option Name

/-- The names that the loop of `sensorsDetect` passes on. -/
def deviceNames (dir : List Dirent) : List Name :=
  dir.filterMap fun de => if "input".toList.isPrefixOf de.d_name then de.name else none

def scan (names : List Name) (g : Globals) : Globals :=
  names.foldl (fun g buf => (searchDevice buf g).2) g

/-- `dir` is `none` where `opendir` fails. -/
def sensorsDetect (dir : Option (List Dirent)) (g : Globals) : ℤ × Globals :=
  match dir with
  | none => (-1, statusInit g)
  | some dir => (0, scan (deviceNames dir) (statusInit g))

/-! ## Which names fit -/

/-- The device fits an entry of the table of `id`. -/
def fits (id : SensorId) (n : Name) : Bool := (getDevice (sensorList id) n).isSome

lemma fits_iff {id : SensorId} {n : Name} :
    fits id n = true ↔ n ≠ [] ∧ ∃ e ∈ sensorList id, n <+: e.sensorName := by
  unfold fits getDevice
  by_cases hn : n = []
  · simp [hn]
  · simp [hn]

lemma mem_of_getDevice {list : List SensorExtend} {n : Name} {e : SensorT}
    (h : getDevice list n = some e) : ∃ x ∈ list, x.sList = e := by
  unfold getDevice at h
  split_ifs at h
  obtain ⟨x, hx, he⟩ := Option.map_eq_some_iff.mp h
  exact ⟨x, List.mem_of_find?_eq_some hx, he⟩

/-- A name that fits begins like an entry of the table. -/
lemma head_of_fits {id : SensorId} {n : Name} (h : fits id n = true) :
    n.head? ∈ (sensorList id).map fun e => e.sensorName.head? := by
  obtain ⟨hne, e, he, t, ht⟩ := fits_iff.mp h
  obtain ⟨c, n, rfl⟩ := List.exists_cons_of_ne_nil hne
  apply List.mem_map.mpr
  exact ⟨e, he, by rw [← ht, List.cons_append, List.head?_cons, List.head?_cons]⟩

lemma fits_O_iff {n : Name} : fits .O n = true ↔ n ≠ [] ∧ n <+: freescaleMagnetometer := by
  simp [fits_iff, sensorList, oriSensorList]

lemma fits_M_of_O {n : Name} (h : fits .O n = true) : fits .M n = true := by
  obtain ⟨hne, hpre⟩ := fits_O_iff.mp h
  apply fits_iff.mpr
  exact ⟨hne, _, List.mem_cons_of_mem _ List.mem_cons_self, hpre⟩

lemma not_fits_O {id : SensorId} {n : Name} (hid : id ≠ .A ∧ id ≠ .M ∧ id ≠ .O)
    (h : fits id n = true) : fits .O n = false := by
  apply Bool.eq_false_iff.mpr
  intro hO
  have hF : n.head? = freescaleMagnetometer.head? := by
    simpa [sensorList, oriSensorList] using head_of_fits hO
  have hmem := head_of_fits h
  rw [hF] at hmem
  revert hmem
  cases id with
  | A => exact absurd rfl hid.1
  | M => exact absurd rfl hid.2.1
  | O => exact absurd rfl hid.2.2
  | GY | L | PX | T | P => decide

/-- A device that is not a sensor. -/
def Other (n : Name) : Prop := ∃ o ∈ otherNames ++ ctpNames, o <+: n

/-- Names of other devices are not prefixes of sensor names. -/
lemma Other.not_fits {n : Name} (h : Other n) (id : SensorId) : fits id n = false := by
  obtain ⟨o, ho, hpre⟩ := h
  apply Bool.eq_false_iff.mpr
  intro hfits
  obtain ⟨-, e, he, hn⟩ := fits_iff.mp hfits
  have hnone : ∀ e ∈ sensorList id, ∀ o ∈ otherNames ++ ctpNames, ¬ o <+: e.sensorName := by
    cases id <;> decide
  exact hnone e he o ho (hpre.trans hn)

/-! ## Detecting the other devices -/

structure Others.Inv (o : Others) : Prop where
  names : ∀ d ∈ o.otherDevice ++ o.ctpDevice, d.name ∈ otherNames ++ ctpNames
  flag0 : o.flag0 = o.otherDevice.all (·.isFind)
  found : o.found = 0 → (o.flag0 && o.flag1) = false

lemma Others.initial_inv : Others.initial.Inv where
  names := by decide
  flag0 := by decide
  found := by decide

lemma mark_name (buf : Name) (d : ODevice) : (d.mark buf).name = d.name := by
  unfold ODevice.mark
  split_ifs <;> rfl

lemma map_mark_of_not_matches {buf : Name} {ds : List ODevice}
    (h : ds.any (·.matches buf) = false) : ds.map (·.mark buf) = ds := by
  have hid : ∀ d ∈ ds, d.mark buf = d := fun d hd => if_neg (List.any_eq_false.mp h d hd)
  rw [List.map_congr_left hid, List.map_id']

lemma name_of_mem_map_mark {buf : Name} {ds : List ODevice} {ns : List Name}
    (h : ∀ d ∈ ds, d.name ∈ ns) : ∀ d ∈ ds.map (·.mark buf), d.name ∈ ns := by
  intro x hx
  obtain ⟨d, hd, rfl⟩ := List.mem_map.mp hx
  rw [mark_name]
  exact h d hd

lemma other_of_matches {buf : Name} {ds : List ODevice}
    (h : ∀ d ∈ ds, d.name ∈ otherNames ++ ctpNames) (hany : ds.any (·.matches buf) = true) :
    Other buf := by
  obtain ⟨d, hd, hmatch⟩ := List.any_eq_true.mp hany
  have hpre := (Bool.and_eq_true_iff.mp hmatch).2
  exact ⟨d.name, h d hd, List.isPrefixOf_iff_prefix.mp hpre⟩

/-- What the detection leaves of the tables and flags is consistent, whatever it finds. -/
lemma otherDeviceDetect_inv (buf : Name) (found : ℕ) {o : Others} (hinv : o.Inv)
    (hfound : found = 0 → (otherDeviceDetect buf o).1 ≠ 2) :
    { (otherDeviceDetect buf o).2 with found := found }.Inv where
  names := by
    intro d hd
    unfold otherDeviceDetect at hd
    rcases List.mem_append.mp hd with hd | hd
    · have hother : ∀ d ∈ o.otherDevice, d.name ∈ otherNames ++ ctpNames :=
        fun d hd => hinv.names d (List.mem_append_left _ hd)
      dsimp only at hd
      split_ifs at hd
      · exact hother d hd
      · exact name_of_mem_map_mark hother d hd
    · have hctp : ∀ d ∈ o.ctpDevice, d.name ∈ otherNames ++ ctpNames :=
        fun d hd => hinv.names d (List.mem_append_right _ hd)
      dsimp only at hd
      split_ifs at hd
      · exact hctp d hd
      · exact name_of_mem_map_mark hctp d hd
  flag0 := by
    unfold otherDeviceDetect
    cases hflag : o.flag0 with
    | false => simp
    | true => simpa [hflag] using hinv.flag0
  found := by
    intro h0
    have hne := hfound h0
    apply Bool.eq_false_iff.mpr
    intro hboth
    apply hne
    exact if_pos hboth

/-- A name is taken as another device's, or the detection changes nothing. -/
lemma otherDeviceDetect_cases (buf : Name) {o : Others} (hinv : o.Inv) (h0 : o.found = 0) :
    otherDeviceDetect buf o = (0, o) ∨
      Other buf ∧ ((otherDeviceDetect buf o).1 = 1 ∨ (otherDeviceDetect buf o).1 = 2) := by
  have hother : ∀ d ∈ o.otherDevice, d.name ∈ otherNames ++ ctpNames :=
    fun d hd => hinv.names d (List.mem_append_left _ hd)
  have hctp : ∀ d ∈ o.ctpDevice, d.name ∈ otherNames ++ ctpNames :=
    fun d hd => hinv.names d (List.mem_append_right _ hd)
  by_cases hnew : (!o.flag0 && o.otherDevice.any (·.matches buf)
      || !o.flag1 && o.ctpDevice.any (·.matches buf)) = true
  · refine Or.inr ⟨?_, ?_⟩
    · rcases Bool.or_eq_true_iff.mp hnew with h | h
      · exact other_of_matches hother (Bool.and_eq_true_iff.mp h).2
      · exact other_of_matches hctp (Bool.and_eq_true_iff.mp h).2
    · have hvalue : ∀ b c : Bool, c = true →
          (if b then 2 else if c then 1 else 0) = 1 ∨
            (if b then 2 else if c then 1 else 0) = 2 := by decide
      exact hvalue _ _ hnew
  obtain ⟨hfound0, hfound1⟩ := Bool.or_eq_false_iff.mp (Bool.eq_false_iff.mpr hnew)
  have hnot := hinv.found h0
  have hdevice0 : (if o.flag0 then o.otherDevice else o.otherDevice.map (·.mark buf))
      = o.otherDevice := by
    split_ifs with hflag
    · rfl
    · exact map_mark_of_not_matches (by simpa [hflag] using hfound0)
  have hdevice1 : (if o.flag1 then o.ctpDevice else o.ctpDevice.map (·.mark buf))
      = o.ctpDevice := by
    split_ifs with hflag
    · rfl
    · exact map_mark_of_not_matches (by simpa [hflag] using hfound1)
  left
  simp only [otherDeviceDetect, hdevice0, hdevice1, ← hinv.flag0, Bool.or_self,
    hfound0, hfound1, Bool.or_false, hnot]
  rfl

/-! ## One name -/

/-- The state after `id` has taken a device with the entry `e`. -/
def Globals.take (g : Globals) (buf : Name) (id : SensorId) (e : SensorT) : Globals :=
  { g with
    seStatus := Function.update g.seStatus id { g.seStatus id with isFound := true }
    sSensorList := g.sSensorList ++ e :: extra id buf }

lemma take_isFound (g : Globals) (buf : Name) (id : SensorId) (e : SensorT) (i : SensorId) :
    (g.take buf id e).isFound i = (decide (i = id) || g.isFound i) := by
  unfold Globals.take Globals.isFound
  by_cases hi : i = id
  · subst hi
    simp
  · simp [hi]

lemma take_isUsed (g : Globals) (buf : Name) (id : SensorId) (e : SensorT) (i : SensorId) :
    ((g.take buf id e).seStatus i).isUsed = (g.seStatus i).isUsed := by
  unfold Globals.take
  by_cases hi : i = id
  · subst hi
    simp
  · simp [hi]

/-- `id` takes `buf`: no device has been found for it, and none of those before it can. -/
structure Takes (g : Globals) (buf : Name) (id : SensorId) (e : SensorT) : Prop where
  free : g.isFound id = false
  device : getDevice (sensorList id) buf = some e
  ne_press : id ≠ .P
  acc : id ≠ .A → fits .A buf = true → g.isFound .A = true
  mag : id ≠ .A → id ≠ .M → fits .M buf = true → g.isFound .M = true

/-- Every kind that fits has its device. -/
def Ignored (g : Globals) (buf : Name) : Prop :=
  ∀ id, fits id buf = true → g.isFound id = true

section

variable {g : Globals} {buf : Name}

lemma tryDevice_eq (hused : ∀ id, (g.seStatus id).isUsed = true) (id : SensorId) :
    tryDevice g buf id = if g.isFound id then none
      else (getDevice (sensorList id) buf).map (Prod.mk id) := by
  unfold tryDevice Globals.isFound
  rw [hused id]
  cases (g.seStatus id).isFound <;> rfl

lemma tryDevice_eq_none (hused : ∀ id, (g.seStatus id).isUsed = true) {id : SensorId} :
    tryDevice g buf id = none ↔ (fits id buf = true → g.isFound id = true) := by
  rw [tryDevice_eq hused, fits]
  cases hfound : g.isFound id <;> cases hdev : getDevice (sensorList id) buf <;> simp

lemma tryDevice_eq_some (hused : ∀ id, (g.seStatus id).isUsed = true) {i id : SensorId}
    {e : SensorT} (h : tryDevice g buf i = some (id, e)) :
    i = id ∧ g.isFound id = false ∧ getDevice (sensorList id) buf = some e := by
  rw [tryDevice_eq hused] at h
  split_ifs at h with hfound
  obtain ⟨e', hdev, heq⟩ := Option.map_eq_some_iff.mp h
  obtain ⟨rfl, rfl⟩ := Prod.mk.inj heq
  exact ⟨rfl, Bool.eq_false_iff.mpr hfound, hdev⟩

lemma searchLists_cases (hused : ∀ id, (g.seStatus id).isUsed = true) :
    (Ignored g buf ∧ (searchLists buf g).2 = g) ∨
      ∃ id e, Takes g buf id e ∧ (searchLists buf g).2 = g.take buf id e := by
  unfold searchLists
  cases hsearch : searchOrder.findSome? (tryDevice g buf) with
  | none =>
    refine Or.inl ⟨fun id => ?_, rfl⟩
    apply (tryDevice_eq_none hused).mp
    apply List.findSome?_eq_none_iff.mp hsearch
    cases id <;> decide
  | some r =>
    obtain ⟨id, e⟩ := r
    right
    obtain ⟨i, hi, htry⟩ := List.exists_of_findSome?_eq_some hsearch
    obtain ⟨rfl, hfree, hdev⟩ := tryDevice_eq_some hused htry
    have hpress : i ≠ .P := by
      rintro rfl
      obtain ⟨x, hx, -⟩ := mem_of_getDevice hdev
      exact absurd hx List.not_mem_nil
    -- the first kind that finds something takes the name
    have hfirst : i ≠ .A → tryDevice g buf .A = none := by
      intro hA
      rw [Option.eq_none_iff_forall_ne_some]
      intro r hr
      rw [searchOrder, List.findSome?_cons, hr] at hsearch
      obtain rfl := Option.some.inj hsearch
      exact hA (tryDevice_eq_some hused hr).1.symm
    have hsecond : i ≠ .A → i ≠ .M → tryDevice g buf .M = none := by
      intro hA hM
      rw [Option.eq_none_iff_forall_ne_some]
      intro r hr
      rw [searchOrder, List.findSome?_cons, hfirst hA] at hsearch
      dsimp only at hsearch
      rw [List.findSome?_cons, hr] at hsearch
      obtain rfl := Option.some.inj hsearch
      exact hM (tryDevice_eq_some hused hr).1.symm
    refine ⟨i, e, ⟨hfree, hdev, hpress, ?_, ?_⟩, ?_⟩
    · exact fun hA => (tryDevice_eq_none hused).mp (hfirst hA)
    · exact fun hA hM => (tryDevice_eq_none hused).mp (hsecond hA hM)
    · have hmarks : marks i = i := by
        cases i <;> first | rfl | exact absurd rfl hpress
      simp only [Globals.take, hmarks]

lemma Other.ignored (h : Other buf) : Ignored g buf := by
  intro id hfits
  rw [h.not_fits id] at hfits
  cases hfits

/-- One device: it is ignored, or one kind takes it. -/
lemma searchDevice_cases (buf : Name) (hinv : g.others.Inv)
    (hused : ∀ id, (g.seStatus id).isUsed = true) :
    ∃ o : Others, o.Inv ∧
      (Ignored g buf ∧ (searchDevice buf g).2 = { g with others := o } ∨
        ∃ id e, Takes g buf id e ∧
          (searchDevice buf g).2 = { g.take buf id e with others := o }) := by
  by_cases h0 : g.others.found = 0
  · rcases otherDeviceDetect_cases buf hinv h0 with hdet | ⟨hother, h1 | h2⟩
    · have hlists : searchDevice buf g = searchLists buf g := by
        have hsame : { g.others with found := 0 } = g.others := by rw [← h0]
        rw [searchDevice, if_pos h0, hdet]
        exact congrArg (fun o => searchLists buf { g with others := o }) hsame
      rw [hlists]
      exact ⟨g.others, hinv, searchLists_cases hused⟩
    · have hkeep := otherDeviceDetect_inv buf 0 hinv (by simp [h1])
      rw [searchDevice, if_pos h0]
      generalize otherDeviceDetect buf g.others = r at h1 hkeep ⊢
      obtain ⟨r, o⟩ := r
      obtain rfl : r = 1 := h1
      exact ⟨_, hkeep, Or.inl ⟨hother.ignored, rfl⟩⟩
    · have hkeep := otherDeviceDetect_inv buf 2 hinv (by simp)
      rw [searchDevice, if_pos h0]
      generalize otherDeviceDetect buf g.others = r at h2 hkeep ⊢
      obtain ⟨r, o⟩ := r
      obtain rfl : r = 2 := h2
      exact ⟨_, hkeep, Or.inl ⟨hother.ignored, rfl⟩⟩
  · rw [searchDevice, if_neg h0]
    exact ⟨g.others, hinv, searchLists_cases hused⟩

end

/-! ## The rest of the names -/

/-- The names that are left when the accelerometer has its device. -/
def rest (names : List Name) : List Name := names.eraseP (fits .A)

/-- The magnetometer that is found brings an orientation entry. -/
def bringsOrientation (names : List Name) : Bool := ((rest names).find? (fits .M)).any (fits .O)

/-- A device is left that fits the orientation entry when the magnetometer has its own. -/
def leavesOrientation (names : List Name) : Bool := ((rest names).eraseP (fits .M)).any (fits .O)

section

variable {α : Type*} {p : α → Bool} {l : List α} {n : α}

lemma eraseP_snoc_of_pos (hl : l.any p = false) (hn : p n = true) : (l ++ [n]).eraseP p = l := by
  have hno : ∀ a ∈ l, ¬p a = true := List.any_eq_false.mp hl
  rw [List.eraseP_append_right _ hno, List.eraseP_cons_of_pos hn, List.append_nil]

lemma eraseP_snoc (h : p n = true → l.any p = true) :
    (l ++ [n]).eraseP p = l.eraseP p ++ [n] := by
  by_cases hl : l.any p = true
  · obtain ⟨a, ha, hpa⟩ := List.any_eq_true.mp hl
    exact List.eraseP_append_left hpa _ ha
  · have hn : ¬p n = true := fun hn => hl (h hn)
    have hno : ∀ a ∈ l, ¬p a = true := List.any_eq_false.mp (Bool.eq_false_iff.mpr hl)
    rw [List.eraseP_append_right _ hno, List.eraseP_cons_of_neg hn, List.eraseP_nil,
      List.eraseP_of_forall_not hno]

lemma find?_snoc (h : p n = true → l.any p = true) : (l ++ [n]).find? p = l.find? p := by
  rw [List.find?_append]
  by_cases hn : p n = true
  · obtain ⟨a, ha, hpa⟩ := List.any_eq_true.mp (h hn)
    have hsome : (l.find? p).isSome = true := List.find?_isSome.mpr ⟨a, ha, hpa⟩
    obtain ⟨b, hb⟩ := Option.isSome_iff_exists.mp hsome
    rw [hb, Option.some_or]
  · rw [List.find?_cons_of_neg hn, List.find?_nil, Option.or_none]

lemma any_snoc (h : p n = true → l.any p = true) : (l ++ [n]).any p = l.any p := by
  rw [List.any_append, List.any_cons, List.any_nil, Bool.or_false]
  cases hn : p n with
  | false => rw [Bool.or_false]
  | true => rw [h hn, Bool.true_or]

end

section

variable {names : List Name} {n : Name}

lemma rest_snoc (hA : fits .A n = true → names.any (fits .A) = true) :
    rest (names ++ [n]) = rest names ++ [n] :=
  eraseP_snoc hA

lemma rest_snoc_of_takes (hA : fits .A n = true) (hnone : names.any (fits .A) = false) :
    rest (names ++ [n]) = rest names := by
  have hno : ∀ a ∈ names, ¬fits .A a = true := List.any_eq_false.mp hnone
  rw [rest, rest, eraseP_snoc_of_pos hnone hA, List.eraseP_of_forall_not hno]

lemma bringsOrientation_snoc (hA : fits .A n = true → names.any (fits .A) = true)
    (hM : fits .M n = true → (rest names).any (fits .M) = true) :
    bringsOrientation (names ++ [n]) = bringsOrientation names := by
  rw [bringsOrientation, bringsOrientation, rest_snoc hA, find?_snoc hM]

lemma leavesOrientation_snoc (hA : fits .A n = true → names.any (fits .A) = true)
    (hM : fits .M n = true → (rest names).any (fits .M) = true) :
    leavesOrientation (names ++ [n]) = (leavesOrientation names || fits .O n) := by
  rw [leavesOrientation, leavesOrientation, rest_snoc hA, eraseP_snoc hM, List.any_append,
    List.any_cons, List.any_nil, Bool.or_false]

end

/-! ## A pass over the names -/

/-- The kinds that have a driver of their own. -/
def drivenIds : List SensorId := [.A, .M, .GY, .L, .PX, .T]

/-- How many orientation entries a pass records. -/
def orientations (names : List Name) : ℕ :=
  (bringsOrientation names).toNat + (leavesOrientation names).toNat

/-- The handles that a pass records. -/
def handles (g : Globals) (names : List Name) : List ℕ :=
  (drivenIds.filter g.isFound).map SensorId.handle ++
    List.replicate (orientations names) SensorId.O.handle

/-- An entry of one of the tables. -/
def Listed (e : SensorT) : Prop := ∃ id, ∃ x ∈ sensorList id, x.sList = e

/-- What a pass over `names` that starts with the list `before` leaves behind. -/
structure Scanned (before : List SensorT) (names : List Name) (g : Globals) : Prop where
  others : g.others.Inv
  used : ∀ id, (g.seStatus id).isUsed = true
  press : g.isFound .P = false
  acc : g.isFound .A = names.any (fits .A)
  mag : g.isFound .M = (rest names).any (fits .M)
  ori : g.isFound .O = leavesOrientation names
  known : (∃ id, g.isFound id = true) ↔ ∃ n ∈ names, ∃ id, fits id n = true
  entries : ∃ new, g.sSensorList = before ++ new ∧ (∀ e ∈ new, Listed e) ∧
    (new.map SensorT.handle).Perm (handles g names)

lemma Scanned.start {g : Globals} (hinv : g.others.Inv) :
    Scanned g.sSensorList [] (statusInit g) where
  others := hinv
  used _ := rfl
  press := rfl
  acc := rfl
  mag := rfl
  ori := rfl
  known := by simp [statusInit, Globals.isFound]
  entries := by
    have hnone : drivenIds.filter (statusInit g).isFound = [] := rfl
    refine ⟨[], (List.append_nil _).symm, by simp, ?_⟩
    rw [handles, hnone]
    exact List.Perm.refl _

lemma handle_of_mem {id : SensorId} {x : SensorExtend} (h : x ∈ sensorList id) :
    x.sList.handle = id.handle := by
  have hall : ∀ x ∈ sensorList id, x.sList.handle = id.handle := by cases id <;> decide
  exact hall x h

lemma filter_take_perm {g : Globals} {id : SensorId} (buf : Name) (e : SensorT)
    (hid : id ∈ drivenIds) (hfree : g.isFound id = false) :
    (drivenIds.filter (g.take buf id e).isFound).Perm (id :: drivenIds.filter g.isFound) := by
  have hnodup : drivenIds.Nodup := by decide
  apply (List.perm_ext_iff_of_nodup (hnodup.filter _) _).mpr
  · intro i
    simp only [List.mem_filter, take_isFound, List.mem_cons, Bool.or_eq_true, decide_eq_true_eq]
    constructor
    · rintro ⟨hi, rfl | hfound⟩
      · exact Or.inl rfl
      · exact Or.inr ⟨hi, hfound⟩
    · rintro (rfl | ⟨hi, hfound⟩)
      · exact ⟨hid, Or.inl rfl⟩
      · exact ⟨hi, Or.inr hfound⟩
  · apply List.nodup_cons.mpr
    refine ⟨fun hmem => ?_, hnodup.filter _⟩
    have hfound := (List.mem_filter.mp hmem).2
    rw [hfree] at hfound
    cases hfound

section

variable {before : List SensorT} {names : List Name} {g : Globals} {n : Name} {o : Others}
  {id : SensorId} {e : SensorT}

lemma Scanned.ignore (h : Scanned before names g) (hign : Ignored g n) (ho : o.Inv) :
    Scanned before (names ++ [n]) { g with others := o } := by
  have hA : fits .A n = true → names.any (fits .A) = true := fun hf => h.acc ▸ hign .A hf
  have hM : fits .M n = true → (rest names).any (fits .M) = true := fun hf => h.mag ▸ hign .M hf
  have hleaves : leavesOrientation (names ++ [n]) = leavesOrientation names := by
    rw [leavesOrientation_snoc hA hM]
    cases hO : fits .O n with
    | false => rw [Bool.or_false]
    | true => rw [← h.ori, hign .O hO, Bool.true_or]
  refine ⟨ho, h.used, h.press, h.acc.trans (any_snoc hA).symm, ?_, h.ori.trans hleaves.symm, ?_, ?_⟩
  · rw [rest_snoc hA, any_snoc hM]
    exact h.mag
  · constructor
    · intro hfound
      obtain ⟨m, hm, hfits⟩ := h.known.mp hfound
      exact ⟨m, List.mem_append_left _ hm, hfits⟩
    · rintro ⟨m, hm, i, hfits⟩
      rcases List.mem_append.mp hm with hm | hm
      · exact h.known.mpr ⟨m, hm, i, hfits⟩
      · obtain rfl := List.mem_singleton.mp hm
        exact ⟨i, hign i hfits⟩
  · have hhandles : handles { g with others := o } (names ++ [n]) = handles g names := by
      rw [handles, handles, orientations, orientations, bringsOrientation_snoc hA hM, hleaves]
      rfl
    rw [hhandles]
    exact h.entries

lemma Takes.fits (ht : Takes g n id e) : fits id n = true :=
  Option.isSome_iff_exists.mpr ⟨e, ht.device⟩

/-- A driven kind that takes a device adds its handle, and those of `k` orientation entries. -/
lemma handles_take_perm {names' : List Name} {k : ℕ} (hid : id ∈ drivenIds)
    (hfree : g.isFound id = false) (hcount : orientations names' = k + orientations names) :
    (handles (g.take n id e) names').Perm
      (id.handle :: (List.replicate k SensorId.O.handle ++ handles g names)) := by
  rw [handles, handles, hcount, List.replicate_add]
  have hdriven := (filter_take_perm n e hid hfree).map SensorId.handle
  exact (hdriven.append_right _).trans ((List.perm_append_comm_assoc _ _ _).cons _)

/-- What a device that is taken does to the part of the invariant about the names. -/
structure TakenNames (names : List Name) (n : Name) (g : Globals) (id : SensorId) (e : SensorT) :
    Prop where
  acc : (g.take n id e).isFound .A = (names ++ [n]).any (fits .A)
  mag : (g.take n id e).isFound .M = (rest (names ++ [n])).any (fits .M)
  ori : (g.take n id e).isFound .O = leavesOrientation (names ++ [n])
  handles : (handles (g.take n id e) (names ++ [n])).Perm
    (id.handle :: ((extra id n).map SensorT.handle ++ handles g names))

lemma takenNames_A (h : Scanned before names g) (ht : Takes g n .A e) :
    TakenNames names n g .A e := by
  have hnone : names.any (fits .A) = false := h.acc ▸ ht.free
  have hrest := rest_snoc_of_takes ht.fits hnone
  refine ⟨?_, ?_, ?_, ?_⟩
  · rw [take_isFound, List.any_append, List.any_cons, ht.fits]
    simp
  · rw [take_isFound, hrest, ← h.mag]
    rfl
  · rw [take_isFound, leavesOrientation, hrest, h.ori]
    rfl
  · have hcount : orientations (names ++ [n]) = 0 + orientations names := by
      rw [orientations, bringsOrientation, leavesOrientation, hrest, Nat.zero_add]
      rfl
    exact handles_take_perm (by decide) ht.free hcount

lemma takenNames_M (h : Scanned before names g) (ht : Takes g n .M e) :
    TakenNames names n g .M e := by
  have hA : fits .A n = true → names.any (fits .A) = true :=
    fun hf => h.acc ▸ ht.acc (by decide) hf
  have hnone : (rest names).any (fits .M) = false := h.mag ▸ ht.free
  have hno : ∀ a ∈ rest names, ¬fits .M a = true := List.any_eq_false.mp hnone
  have hrest := rest_snoc hA
  have hleaves : leavesOrientation (names ++ [n]) = leavesOrientation names := by
    rw [leavesOrientation, leavesOrientation, hrest, eraseP_snoc_of_pos hnone ht.fits,
      List.eraseP_of_forall_not hno]
  have hbefore : bringsOrientation names = false := by
    rw [bringsOrientation, List.find?_eq_none.mpr hno]
    rfl
  have hafter : bringsOrientation (names ++ [n]) = fits .O n := by
    rw [bringsOrientation, hrest, List.find?_append, List.find?_eq_none.mpr hno, Option.none_or,
      List.find?_cons_of_pos ht.fits]
    rfl
  have hextra : (extra .M n).map SensorT.handle =
      List.replicate (fits .O n).toNat SensorId.O.handle := by
    have hpre : fits .O n = n.isPrefixOf freescaleMagnetometer := by
      apply Bool.eq_iff_iff.mpr
      rw [fits_O_iff, List.isPrefixOf_iff_prefix]
      exact and_iff_right (fits_iff.mp ht.fits).1
    rw [extra, hpre]
    cases n.isPrefixOf freescaleMagnetometer <;> rfl
  refine ⟨?_, ?_, ?_, ?_⟩
  · rw [take_isFound, any_snoc hA, ← h.acc]
    rfl
  · rw [take_isFound, hrest, List.any_append, List.any_cons, ht.fits]
    simp
  · rw [take_isFound, hleaves, h.ori]
    rfl
  · have hcount : orientations (names ++ [n]) = (fits .O n).toNat + orientations names := by
      rw [orientations, orientations, hbefore, hafter, hleaves, Bool.toNat_false, Nat.zero_add]
    rw [hextra]
    exact handles_take_perm (by decide) ht.free hcount

lemma takenNames_of_ne (h : Scanned before names g) (ht : Takes g n id e) (hidA : id ≠ .A)
    (hidM : id ≠ .M) : TakenNames names n g id e := by
  have hA : fits .A n = true → names.any (fits .A) = true := fun hf => h.acc ▸ ht.acc hidA hf
  have hM : fits .M n = true → (rest names).any (fits .M) = true :=
    fun hf => h.mag ▸ ht.mag hidA hidM hf
  have hextra : extra id n = [] := if_neg fun hcond => hidM hcond.1
  refine ⟨?_, ?_, ?_, ?_⟩
  · rw [take_isFound, any_snoc hA, ← h.acc, decide_eq_false hidA.symm, Bool.false_or]
  · rw [take_isFound, rest_snoc hA, any_snoc hM, ← h.mag, decide_eq_false hidM.symm,
      Bool.false_or]
  · rw [take_isFound, leavesOrientation_snoc hA hM, h.ori]
    by_cases hO : id = .O
    · subst hO
      rw [ht.fits, Bool.or_true]
      rfl
    · rw [not_fits_O ⟨hidA, hidM, hO⟩ ht.fits, decide_eq_false (Ne.symm hO), Bool.false_or,
        Bool.or_false]
  · rw [hextra]
    by_cases hO : id = .O
    · subst hO
      have hcount : orientations (names ++ [n]) = orientations names + 1 := by
        rw [orientations, orientations, bringsOrientation_snoc hA hM, leavesOrientation_snoc hA hM,
          ht.fits, Bool.or_true, ← h.ori, ht.free]
        rfl
      have hdriven : drivenIds.filter (g.take n .O e).isFound = drivenIds.filter g.isFound := by
        apply List.filter_congr
        intro i hi
        have hne : i ≠ .O := by
          rintro rfl
          exact absurd hi (by decide)
        rw [take_isFound, decide_eq_false hne, Bool.false_or]
      rw [handles, handles, hcount, hdriven, List.replicate_succ]
      exact List.perm_middle
    · have hcount : orientations (names ++ [n]) = 0 + orientations names := by
        rw [orientations, orientations, bringsOrientation_snoc hA hM, leavesOrientation_snoc hA hM,
          not_fits_O ⟨hidA, hidM, hO⟩ ht.fits, Bool.or_false, Nat.zero_add]
      have hid : id ∈ drivenIds := by
        have hP := ht.ne_press
        cases id <;> simp_all [drivenIds]
      exact handles_take_perm hid ht.free hcount

lemma Scanned.take (h : Scanned before names g) (ht : Takes g n id e) (ho : o.Inv) :
    Scanned before (names ++ [n]) { g.take n id e with others := o } := by
  have htaken : TakenNames names n g id e := by
    by_cases hidA : id = .A
    · subst hidA
      exact takenNames_A h ht
    by_cases hidM : id = .M
    · subst hidM
      exact takenNames_M h ht
    exact takenNames_of_ne h ht hidA hidM
  refine ⟨ho, ?_, ?_, htaken.acc, htaken.mag, htaken.ori, ?_, ?_⟩
  · intro i
    exact (take_isUsed g n id e i).trans (h.used i)
  · have hP : decide (SensorId.P = id) = false := decide_eq_false ht.ne_press.symm
    exact (take_isFound g n id e .P).trans (by rw [hP, h.press, Bool.or_false])
  · have hfound : (g.take n id e).isFound id = true := by
      rw [take_isFound, decide_eq_true rfl, Bool.true_or]
    have hmem : n ∈ names ++ [n] := List.mem_append_right _ List.mem_cons_self
    exact ⟨fun _ => ⟨n, hmem, id, ht.fits⟩, fun _ => ⟨id, hfound⟩⟩
  · obtain ⟨new, hlist, hlisted, hperm⟩ := h.entries
    have hnew : (g.take n id e).sSensorList = before ++ (new ++ e :: extra id n) := by
      rw [Globals.take, hlist, List.append_assoc]
    refine ⟨_, hnew, ?_, ?_⟩
    · intro x hx
      rcases List.mem_append.mp hx with hx | hx
      · exact hlisted x hx
      rcases List.mem_cons.mp hx with rfl | hx
      · exact ⟨id, mem_of_getDevice ht.device⟩
      unfold extra at hx
      split_ifs at hx
      · obtain rfl := List.mem_singleton.mp hx
        exact ⟨.O, _, List.mem_cons_self, rfl⟩
      · exact absurd hx List.not_mem_nil
    · obtain ⟨x, hx, rfl⟩ := mem_of_getDevice ht.device
      rw [List.map_append, List.map_cons, handle_of_mem hx]
      refine (List.perm_append_comm.trans ?_).trans htaken.handles.symm
      exact (hperm.append_left _).cons _

end

/-- One name more. -/
lemma Scanned.snoc {before : List SensorT} {names : List Name} {g : Globals}
    (h : Scanned before names g) (n : Name) :
    Scanned before (names ++ [n]) (searchDevice n g).2 := by
  obtain ⟨o, ho, ⟨hign, hnext⟩ | ⟨id, e, ht, hnext⟩⟩ :=
    searchDevice_cases n h.others h.used
  · rw [hnext]
    exact h.ignore hign ho
  · rw [hnext]
    exact h.take ht ho

/-- A pass over the names of a directory. -/
lemma Scanned.scan {before : List SensorT} (todo : List Name) :
    ∀ {names : List Name} {g : Globals}, Scanned before names g →
      Scanned before (names ++ todo) (scan todo g) := by
  induction todo with
  | nil =>
    intro names g h
    rw [List.append_nil]
    exact h
  | cons n todo ih =>
    intro names g h
    have hnext := ih (h.snoc n)
    rw [List.append_assoc, List.singleton_append] at hnext
    exact hnext

/-- The names of the devices that an open finds. -/
def detected (dir : Option (List Dirent)) : List Name := (dir.map deviceNames).getD []

lemma sensorsDetect_scanned (dir : Option (List Dirent)) {g : Globals} (hinv : g.others.Inv) :
    Scanned g.sSensorList (detected dir) (sensorsDetect dir g).2 := by
  cases dir with
  | none => exact Scanned.start hinv
  | some dir => exact (Scanned.start hinv).scan (deviceNames dir)

end Softwinner.Sensors
