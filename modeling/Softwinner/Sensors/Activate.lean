import Softwinner.Sensors.Poll

/-!
# Activating the sensors

`activate` of `sensors.cpp` with `setEnable` of `AccelSensor.cpp` and `MagnetoSensor.cpp`, for the
handles of the accelerometer, the magnetic sensor and the orientation sensor.  The last two use the
accelerometer too, and both are served by the `MagnetoSensor`.

Each driver counts the calls.  `AccelSensor` has `mUser` for all three handles and `mEnabled` for
its own, and drops the result of its attribute write; `MagnetoSensor` keeps its count when the write
fails.  So the counts are those of the handles only in runs that switch a handle on when it is off
and off when it is on, and in which the magnetometer does not fail.  The message to the wake pipe is
left out.
-/

namespace Softwinner.Sensors

open Framework

/-! ## The drivers -/

/-- The handles that use the accelerometer. -/
inductive User
  | accelerometer
  | magnetic
  | orientation
  deriving DecidableEq

def User.handle : User → ℕ
  | .accelerometer => SensorId.A.handle
  | .magnetic => SensorId.M.handle
  | .orientation => SensorId.O.handle

def User.all : List User := [.accelerometer, .magnetic, .orientation]

/-- The users of the magnetometer. -/
def User.magnet : List User := [.magnetic, .orientation]

/-- The state of the two drivers; `accelOn` and `magOn` are what has been written to their
attributes. -/
structure Drivers where
  mUser : ℤ
  mEnabled : ℤ
  accelOn : Bool
  mEnCount : ℤ
  magOn : Bool
  deriving DecidableEq

/-- What a call finds in the system: whether the write to the attribute of the accelerometer
succeeds, whether the magnetometer has a path, and the result of the write to its attribute, zero
or an error. -/
structure Attributes where
  accelWrite : Bool
  magPath : Bool
  magWrite : ℤ

/-- A counter does not stay below zero. -/
def clamp (n : ℤ) : ℤ := if n < 0 then 0 else n

lemma clamp_of_nonneg {n : ℤ} (h : 0 ≤ n) : clamp n = n := if_neg (Int.not_lt.mpr h)

namespace AccelSensor

/-- `enable_sensor` and `disable_sensor`. -/
def writeEnable (isEnable : Bool) (e : Attributes) (s : Drivers) : ℤ × Drivers :=
  if e.accelWrite then (0, { s with accelOn := isEnable }) else (-1, s)

def setEnable (handle : ℕ) (en : Bool) (e : Attributes) (s : Drivers) : ℤ × Drivers :=
  if handle ≠ SensorId.A.handle ∧ handle ≠ SensorId.O.handle ∧ handle ≠ SensorId.M.handle then
    (-1, s)
  else
    let s := { s with mUser := if en then s.mUser + 1 else clamp (s.mUser - 1) }
    let s := (writeEnable (decide (0 < s.mUser)) e s).2
    if handle = SensorId.A.handle then
      (0, { s with mEnabled := clamp (if en then s.mEnabled + 1 else s.mEnabled - 1) })
    else (0, s)

end AccelSensor

namespace MagnetoSensor

def setEnable (en : Bool) (e : Attributes) (s : Drivers) : ℤ × Drivers :=
  let oldCount := s.mEnCount
  if !e.magPath then (-1, s)
  else
    let s := { s with mEnCount := clamp (if en then s.mEnCount + 1 else s.mEnCount - 1) }
    if (oldCount = 0 ∧ 0 < s.mEnCount) ∨ (0 < oldCount ∧ s.mEnCount = 0) then
      (e.magWrite, if e.magWrite = 0 then { s with magOn := decide (0 < s.mEnCount) } else s)
    else (0, s)

end MagnetoSensor

/-- `setEnable` of the object at an index of `mSensors`; the other classes are left out. -/
def Driver.setEnable (d : Option Driver) (handle : ℕ) (en : Bool) (e : Attributes) (s : Drivers) :
    Option (ℤ × Drivers) :=
  match d with
  | some .accelSensor => some (AccelSensor.setEnable handle en e s)
  | some .magnetoSensor => some (MagnetoSensor.setEnable en e s)
  | _ => none

def Context.activate (c : Context) (handle : ℕ) (enabled : Bool) (e : Attributes) (s : Drivers) :
    Option (ℤ × Drivers) :=
  let index := c.handleToDriver handle
  if index < 0 then some (index, s)
  else if handle = SensorId.O.handle ∨ handle = SensorId.M.handle then
    (Driver.setEnable c.mSensors[c.accel]? handle enabled e s).bind fun (x : ℤ × Drivers) =>
      if x.1 ≠ 0 then some x
      else Driver.setEnable c.mSensors[index.toNat]? handle enabled e x.2
  else Driver.setEnable c.mSensors[index.toNat]? handle enabled e s

/-! ## The calls -/

/-- The drivers, and to what each handle has been set by its last successful call; `returned` is the
result of the last call. -/
structure Activation where
  drivers : Drivers
  on : User → Bool
  returned : ℤ

structure ActivateCall where
  user : User
  enabled : Bool
  attributes : Attributes

namespace Activation

/-- The drivers start disabled. -/
def initial : Activation := ⟨⟨0, 0, false, 0, false⟩, fun _ => false, 0⟩

def step (c : Context) (s : Activation) (a : ActivateCall) : Option Activation :=
  (c.activate a.user.handle a.enabled a.attributes s.drivers).map fun (x : ℤ × Drivers) =>
    { drivers := x.2
      on := if x.1 = 0 then Function.update s.on a.user a.enabled else s.on
      returned := x.1 }

/-- The accelerometer is on for its users, and reports for its own handle. -/
structure Right (s : Activation) : Prop where
  enabled : s.drivers.accelOn = true ↔ ∃ u, s.on u = true
  reported : s.drivers.mEnabled ≠ 0 ↔ s.on .accelerometer = true

/-- No other handle of `us` is on. -/
def Alone (us : List User) (u : User) (s : Activation) : Prop :=
  ∀ v ∈ us, v ≠ u → s.on v = false

instance (us : List User) (u : User) (s : Activation) : Decidable (s.Alone us u) :=
  inferInstanceAs (Decidable (∀ v ∈ us, v ≠ u → s.on v = false))

/-- A handle is switched off while all are, or is not yet what it is set to; the attributes that
change then can be written, and the magnetometer has a path. -/
def Ok (a : ActivateCall) (s : Activation) : Prop :=
  (a.enabled = false ∧ ∀ u ∈ User.all, s.on u = false) ∨
    (s.on a.user ≠ a.enabled ∧
      (s.Alone User.all a.user → a.attributes.accelWrite = true) ∧
      (a.user ∈ User.magnet → a.attributes.magPath = true ∧
        (s.Alone User.magnet a.user → a.attributes.magWrite = 0)))

instance (a : ActivateCall) (s : Activation) : Decidable (Ok a s) :=
  inferInstanceAs (Decidable (_ ∨ _))

/-! ## The counts -/

/-- The number of the handles of `us` that are on. -/
def count (us : List User) (on : User → Bool) : ℤ := (us.countP on : ℕ)

variable {on : User → Bool} {us : List User} {u v : User} {b : Bool}

lemma count_pos : 0 < count us on ↔ ∃ u ∈ us, on u = true := by
  rw [count, Int.natCast_pos, List.countP_pos_iff]

lemma count_eq_zero : count us on = 0 ↔ ∀ u ∈ us, on u = false := by
  rw [count, Int.natCast_eq_zero, List.countP_eq_zero]
  exact forall₂_congr fun _ _ => Bool.not_eq_true _ ▸ Iff.rfl

lemma count_cons : count (v :: us) on = count us on + if on v then 1 else 0 := by
  simp only [count, List.countP_cons]
  split_ifs <;> rfl

lemma count_update_of_notMem (hu : u ∉ us) : count us (Function.update on u b) = count us on := by
  refine congrArg Nat.cast (List.countP_congr fun v hv => ?_)
  have hne : v ≠ u := fun h => hu (h ▸ hv)
  rw [Function.update_of_ne hne]

/-- A handle that is switched is counted, or no longer. -/
lemma count_update (hu : u ∈ us) (hnodup : us.Nodup) (hne : on u ≠ b) :
    count us (Function.update on u b) = if b then count us on + 1 else count us on - 1 := by
  induction us with
  | nil => cases hu
  | cons v us ih =>
    obtain ⟨hv, hnodup⟩ := List.nodup_cons.mp hnodup
    rw [count_cons, count_cons]
    by_cases heq : v = u
    · obtain rfl := heq
      rw [count_update_of_notMem hv, Function.update_self]
      cases b <;> simp_all
    · rw [Function.update_of_ne heq, ih ((List.mem_cons.mp hu).resolve_left (Ne.symm heq)) hnodup]
      split_ifs <;> omega

/-- The counters of the drivers follow a handle that is switched. -/
lemma count_switch (hu : u ∈ us) (hnodup : us.Nodup) (hne : on u ≠ b) :
    (if b then count us on + 1 else clamp (count us on - 1)) =
      count us (Function.update on u b) := by
  rw [count_update hu hnodup hne]
  cases b with
  | true => rfl
  | false =>
    have hpos : 0 < count us on := count_pos.mpr ⟨u, hu, (Bool.not_eq_false _).mp hne⟩
    exact clamp_of_nonneg (by omega)

/-- With another handle on, there are users before and after the call. -/
lemma pos_of_not_alone {s : Activation} (h : ¬ s.Alone us u) :
    0 < count us s.on ∧ 0 < count us (Function.update s.on u b) := by
  simp only [Alone, not_forall, Bool.not_eq_false] at h
  obtain ⟨v, hv, hne, hon⟩ := h
  exact ⟨count_pos.mpr ⟨v, hv, hon⟩,
    count_pos.mpr ⟨v, hv, (Function.update_of_ne hne _ _).trans hon⟩⟩

/-! ## The calls of the drivers -/

variable {en : Bool} {e : Attributes} {d : Drivers} {c : Context}

lemma accel_writeEnable_snd : (AccelSensor.writeEnable b e d).2 =
    { d with accelOn := if e.accelWrite then b else d.accelOn } := by
  unfold AccelSensor.writeEnable
  split_ifs <;> rfl

lemma accel_setEnable_eq (u : User) : AccelSensor.setEnable u.handle en e d =
    (0, { d with
      mUser := if en then d.mUser + 1 else clamp (d.mUser - 1)
      accelOn := if e.accelWrite then
        decide (0 < if en then d.mUser + 1 else clamp (d.mUser - 1)) else d.accelOn
      mEnabled := if u = .accelerometer then
        clamp (if en then d.mEnabled + 1 else d.mEnabled - 1) else d.mEnabled }) := by
  unfold AccelSensor.setEnable
  simp only [accel_writeEnable_snd]
  cases u with
  | accelerometer => rfl
  | magnetic => rfl
  | orientation => rfl

/-- A handle is switched off at an accelerometer that is off. -/
lemma accel_setEnable_idle {u : User} (huser : d.mUser = 0) (henabled : d.mEnabled = 0)
    (hoff : d.accelOn = false) : (AccelSensor.setEnable u.handle false e d).2 = d := by
  obtain ⟨mUser, mEnabled, accelOn, mEnCount, magOn⟩ := d
  obtain rfl : mUser = 0 := huser
  obtain rfl : mEnabled = 0 := henabled
  obtain rfl : accelOn = false := hoff
  rw [accel_setEnable_eq]
  cases u <;> cases e.accelWrite <;> rfl

lemma magneto_setEnable_idle (hcount : d.mEnCount = 0) :
    (MagnetoSensor.setEnable false e d).2 = d := by
  obtain ⟨mUser, mEnabled, accelOn, mEnCount, magOn⟩ := d
  obtain rfl : mEnCount = 0 := hcount
  unfold MagnetoSensor.setEnable
  cases e.magPath <;> rfl

/-- The magnetometer is counted if it has a path, and fails only with a write that it makes. -/
lemma magneto_setEnable_eq (hpath : e.magPath = true) (hcount : 0 ≤ d.mEnCount)
    (hwrite : (if en then d.mEnCount else d.mEnCount - 1) = 0 → e.magWrite = 0) :
    ∃ magOn, MagnetoSensor.setEnable en e d =
      (0, { d with
        mEnCount := clamp (if en then d.mEnCount + 1 else d.mEnCount - 1), magOn := magOn }) := by
  unfold MagnetoSensor.setEnable
  simp only [hpath, Bool.not_true, Bool.false_eq_true, if_false]
  by_cases hmove : (d.mEnCount = 0 ∧ 0 < clamp (if en then d.mEnCount + 1 else d.mEnCount - 1)) ∨
      (0 < d.mEnCount ∧ clamp (if en then d.mEnCount + 1 else d.mEnCount - 1) = 0)
  · have hzero : e.magWrite = 0 := hwrite (by
      unfold clamp at hmove
      split_ifs at hmove ⊢ <;> omega)
    rw [if_pos hmove, hzero]
    exact ⟨_, rfl⟩
  · rw [if_neg hmove]
    exact ⟨_, rfl⟩

/-- The calls for the magnetic handles go to both drivers. -/
lemma activate_eq (haccel : c.mSensors[c.accel]? = some .accelSensor)
    (hmag : c.mSensors[c.mag]? = some .magnetoSensor) (u : User) :
    c.activate u.handle en e d =
      let d' := (AccelSensor.setEnable u.handle en e d).2
      some (if u = .accelerometer then (0, d') else MagnetoSensor.setEnable en e d') := by
  have hindex : c.handleToDriver u.handle =
      ((if u = .accelerometer then c.accel else c.mag : ℕ) : ℤ) := by
    cases u <;> rfl
  have hnonneg : ¬ ((if u = .accelerometer then c.accel else c.mag : ℕ) : ℤ) < 0 :=
    Int.not_lt.mpr (Int.natCast_nonneg _)
  unfold Context.activate
  simp only [hindex, if_neg hnonneg, Int.toNat_natCast, haccel, Driver.setEnable,
    Option.bind_some]
  cases u with
  | accelerometer =>
    simp only [if_true, haccel]
    rw [if_neg (by decide), accel_setEnable_eq]
  | magnetic =>
    simp only [reduceCtorEq, if_false, hmag]
    rw [if_pos (by decide), accel_setEnable_eq, if_neg (not_not.mpr rfl)]
  | orientation =>
    simp only [reduceCtorEq, if_false, hmag]
    rw [if_pos (by decide), accel_setEnable_eq, if_neg (not_not.mpr rfl)]

/-! ## The invariant -/

/-- The counters are those of the handles. -/
structure Inv (s : Activation) : Prop where
  mUser : s.drivers.mUser = count User.all s.on
  accelOn : s.drivers.accelOn = decide (0 < s.drivers.mUser)
  mEnabled : s.drivers.mEnabled = if s.on .accelerometer then 1 else 0
  mEnCount : s.drivers.mEnCount = count User.magnet s.on

variable {s s' : Activation} {a : ActivateCall}

lemma inv_initial : Inv initial := ⟨rfl, rfl, rfl, rfl⟩

lemma User.mem_all (u : User) : u ∈ User.all := by cases u <;> decide

lemma Inv.right (hs : Inv s) : Right s where
  enabled := by
    rw [hs.accelOn, decide_eq_true_eq, hs.mUser, count_pos]
    exact exists_congr fun u => and_iff_right (User.mem_all u)
  reported := by
    rw [hs.mEnabled]
    split_ifs with hon <;> simp [hon]

lemma step_eq (haccel : c.mSensors[c.accel]? = some .accelSensor)
    (hmag : c.mSensors[c.mag]? = some .magnetoSensor) (hstep : step c s a = some s') :
    ∃ ret d, (let d' := (AccelSensor.setEnable a.user.handle a.enabled a.attributes s.drivers).2
      if a.user = .accelerometer then (0, d')
      else MagnetoSensor.setEnable a.enabled a.attributes d') = (ret, d) ∧
      s' = ⟨d, if ret = 0 then Function.update s.on a.user a.enabled else s.on, ret⟩ := by
  obtain ⟨⟨ret, d⟩, hcall, rfl⟩ := Option.map_eq_some_iff.mp hstep
  rw [activate_eq haccel hmag] at hcall
  exact ⟨ret, d, Option.some.inj hcall, rfl⟩

/-- A handle is switched off while all are: nothing changes, also where the magnetometer fails. -/
lemma Inv.idle (hs : Inv s) (haccel : c.mSensors[c.accel]? = some .accelSensor)
    (hmag : c.mSensors[c.mag]? = some .magnetoSensor) (hen : a.enabled = false)
    (hoff : ∀ u ∈ User.all, s.on u = false) (hstep : step c s a = some s') :
    s'.drivers = s.drivers ∧ s'.on = s.on := by
  obtain ⟨ret, d, hcall, rfl⟩ := step_eq haccel hmag hstep
  have huser : s.drivers.mUser = 0 := hs.mUser.trans (count_eq_zero.mpr hoff)
  have haccelOn : s.drivers.accelOn = false := by rw [hs.accelOn, huser]; rfl
  have henabled : s.drivers.mEnabled = 0 := by
    rw [hs.mEnabled, hoff _ (User.mem_all _)]
    rfl
  have hcount : s.drivers.mEnCount = 0 :=
    hs.mEnCount.trans (count_eq_zero.mpr fun u _ => hoff u (User.mem_all u))
  rw [hen, accel_setEnable_idle huser henabled haccelOn] at hcall
  have hd : d = s.drivers := by
    simp only at hcall
    split_ifs at hcall
    · exact (Prod.mk.inj hcall).2.symm
    · rw [← magneto_setEnable_idle hcount (e := a.attributes), hcall]
  refine ⟨hd, ?_⟩
  have hsame : Function.update s.on a.user false = s.on := by
    rw [← hoff a.user (User.mem_all _), Function.update_eq_self]
  simp only [hen, hsame, ite_self]

/-- A handle is switched to what it is not: the accelerometer follows. -/
lemma Inv.accel_switch (hs : Inv s) (hne : s.on u ≠ b)
    (hwrite : s.Alone User.all u → e.accelWrite = true) :
    let d := (AccelSensor.setEnable u.handle b e s.drivers).2
    let on := Function.update s.on u b
    d.mUser = count User.all on ∧ d.accelOn = decide (0 < d.mUser) ∧
      d.mEnabled = (if on .accelerometer then 1 else 0) ∧ d.mEnCount = s.drivers.mEnCount := by
  have hcount := count_switch (User.mem_all u) (by decide) hne
  rw [← hs.mUser] at hcount
  rw [accel_setEnable_eq]
  refine ⟨hcount, ?_, ?_, rfl⟩
  · simp only [hcount]
    split_ifs with hcan
    · rfl
    · obtain ⟨hbefore, hafter⟩ := pos_of_not_alone (b := b) fun h => hcan (hwrite h)
      rw [hs.accelOn, hs.mUser, decide_eq_true hbefore, decide_eq_true hafter]
  · simp only [hs.mEnabled]
    by_cases hu : u = .accelerometer
    · subst hu
      rw [if_pos rfl, Function.update_self]
      cases b with
      | true =>
        rw [if_neg hne]
        rfl
      | false =>
        rw [if_pos ((Bool.not_eq_false _).mp hne)]
        rfl
    · rw [if_neg hu, Function.update_of_ne (Ne.symm hu)]

/-- And the magnetometer, which does not fail. -/
lemma Inv.magneto_switch (hs : Inv s) (hu : u ∈ User.magnet) (hne : s.on u ≠ b)
    (hpath : e.magPath = true) (hwrite : s.Alone User.magnet u → e.magWrite = 0)
    (hcount : d.mEnCount = s.drivers.mEnCount) :
    ∃ magOn, MagnetoSensor.setEnable b e d = (0, { d with
      mEnCount := count User.magnet (Function.update s.on u b), magOn := magOn }) := by
  have hnonneg : 0 ≤ count User.magnet (Function.update s.on u b) := Int.natCast_nonneg _
  have hsum := count_update hu (by decide) hne
  rw [← hs.mEnCount, ← hcount] at hsum
  have hzero : (if b then d.mEnCount else d.mEnCount - 1) = 0 → e.magWrite = 0 := fun hedge => by
    by_contra hfail
    obtain ⟨hbefore, hafter⟩ := pos_of_not_alone (b := b) (mt hwrite hfail)
    rw [← hs.mEnCount, ← hcount] at hbefore
    split_ifs at hedge hsum <;> omega
  obtain ⟨magOn, hset⟩ :=
    magneto_setEnable_eq hpath (by rw [hcount, hs.mEnCount]; exact Int.natCast_nonneg _) hzero
  refine ⟨magOn, hset.trans ?_⟩
  rw [← hsum, clamp_of_nonneg hnonneg]

lemma Inv.switch (hs : Inv s) (haccel : c.mSensors[c.accel]? = some .accelSensor)
    (hmag : c.mSensors[c.mag]? = some .magnetoSensor) (hne : s.on a.user ≠ a.enabled)
    (hwrite : s.Alone User.all a.user → a.attributes.accelWrite = true)
    (hmagnet : a.user ∈ User.magnet → a.attributes.magPath = true ∧
      (s.Alone User.magnet a.user → a.attributes.magWrite = 0))
    (hstep : step c s a = some s') : Inv s' ∧ s'.returned = 0 := by
  obtain ⟨ret, d, hcall, rfl⟩ := step_eq haccel hmag hstep
  obtain ⟨huser, haccelOn, henabled, hcount⟩ := hs.accel_switch hne hwrite
  have hall := User.mem_all a.user
  simp only at hcall
  by_cases hu : a.user = .accelerometer
  · rw [if_pos hu] at hcall
    obtain ⟨rfl, rfl⟩ := Prod.mk.inj hcall
    refine ⟨⟨huser, haccelOn, henabled, hcount.trans (hs.mEnCount.trans ?_)⟩, rfl⟩
    exact (count_update_of_notMem (by rw [hu]; decide)).symm
  · rw [if_neg hu] at hcall
    have hmem : a.user ∈ User.magnet := (List.mem_cons.mp hall).resolve_left hu
    obtain ⟨hpath, hzero⟩ := hmagnet hmem
    obtain ⟨magOn, hset⟩ := hs.magneto_switch hmem hne hpath hzero hcount
    rw [hset] at hcall
    obtain ⟨rfl, rfl⟩ := Prod.mk.inj hcall
    exact ⟨⟨huser, haccelOn, henabled, rfl⟩, rfl⟩

lemma Inv.keep (hs : Inv s) (haccel : c.mSensors[c.accel]? = some .accelSensor)
    (hmag : c.mSensors[c.mag]? = some .magnetoSensor) (hok : Ok a s)
    (hstep : step c s a = some s') :
    Inv s' ∧ (s'.returned ≠ 0 → s'.drivers = s.drivers) := by
  rcases hok with ⟨hen, hoff⟩ | ⟨hne, hwrite, hmagnet⟩
  · obtain ⟨hdrivers, hon⟩ := hs.idle haccel hmag hen hoff hstep
    refine ⟨⟨?_, ?_, ?_, ?_⟩, fun _ => hdrivers⟩
    · rw [hdrivers, hon, hs.mUser]
    · rw [hdrivers, hs.accelOn]
    · rw [hdrivers, hon, hs.mEnabled]
    · rw [hdrivers, hon, hs.mEnCount]
  · obtain ⟨hs', hret⟩ := hs.switch haccel hmag hne hwrite hmagnet hstep
    exact ⟨hs', fun h => absurd hret h⟩

end Activation

/-- **When the accelerometer follows its users.**  With both sensors found, in every run of calls
that switch a handle to what it is not (or off while all are) and in which the attributes that
change can be written, the accelerometer is on exactly while one of the handles is, it reports
exactly while its own handle is on, and a call that fails leaves the drivers as they were. -/
theorem activate_of_run (g : Globals) (hused : ∀ id, (g.seStatus id).isUsed = true)
    (haccel : g.isFound .A = true) (hmag : g.isFound .M = true) (s : Activation)
    (hrun : Runs (Activation.step (context false g)) Activation.Ok .initial s) :
    s.Right ∧ ∀ a s', Activation.Ok a s → s.step (context false g) a = some s' →
      s'.returned ≠ 0 → s'.drivers = s.drivers := by
  obtain ⟨i, hi, hA⟩ : ∃ i : ℕ, (context false g).handleToDriver SensorId.A.handle = i ∧
      (context false g).mSensors[i]? = some .accelSensor :=
    context_mapped (p := (.A, .accelSensor)) hused List.mem_cons_self haccel
  obtain ⟨j, hj, hM⟩ : ∃ j : ℕ, (context false g).handleToDriver SensorId.M.handle = j ∧
      (context false g).mSensors[j]? = some .magnetoSensor :=
    context_mapped (p := (.M, .magnetoSensor)) hused
      (List.mem_cons_of_mem _ List.mem_cons_self) hmag
  obtain rfl : (context false g).accel = i := Int.ofNat_inj.mp hi
  obtain rfl : (context false g).mag = j := Int.ofNat_inj.mp hj
  have hs : s.Inv := Runs.invariant (fun hs hok hstep => (hs.keep hA hM hok hstep).1)
    Activation.inv_initial hrun
  exact ⟨hs.right, fun a s' hok hstep => (hs.keep hA hM hok hstep).2⟩

/-- The globals of a device with the two sensors. -/
def twoSensors : Globals :=
  ⟨fun id => ⟨true, decide (id = .A ∨ id = .M)⟩, [freescaleOrientation, freescaleOrientation],
    Others.initial⟩

/-- The magnetic and the accelerometer handle on, the magnetic one off: the accelerometer stays on,
and its last user switches it off. -/
theorem activate_of_run_two : ∃ s,
    Runs (Activation.step (context false twoSensors)) Activation.Ok .initial s ∧
      s.on .accelerometer = true ∧ s.on .magnetic = false ∧ s.Right := by
  obtain ⟨s, hrun, hA, hM⟩ := exists_runs (Activation.step (context false twoSensors))
    Activation.Ok (fun s => s.on .accelerometer = true ∧ s.on .magnetic = false)
    (s := Activation.initial)
    [⟨.magnetic, true, ⟨true, true, 0⟩⟩, ⟨.accelerometer, true, ⟨true, true, 0⟩⟩,
      ⟨.magnetic, false, ⟨true, true, 0⟩⟩] (by decide +kernel)
  exact ⟨s, hrun, hA, hM, (activate_of_run twoSensors (fun _ => rfl) rfl rfl s hrun).1⟩

/-- The accelerometer handle is on, and the magnetic handle, which is off, is switched off: so is
the accelerometer. -/
theorem activate_unbalanced : ∃ s,
    Runs (Activation.step (context false twoSensors)) (fun _ _ => True) .initial s ∧
      s.on .accelerometer = true ∧ s.drivers.accelOn = false ∧ ¬ s.Right := by
  obtain ⟨s, hrun, hA, hoff⟩ := exists_runs (Activation.step (context false twoSensors))
    (fun _ _ => True) (fun s => s.on .accelerometer = true ∧ s.drivers.accelOn = false)
    (s := Activation.initial)
    [⟨.accelerometer, true, ⟨true, true, 0⟩⟩, ⟨.magnetic, false, ⟨true, true, 0⟩⟩]
    (by decide +kernel)
  refine ⟨s, hrun, hA, hoff, fun hright => ?_⟩
  have hon := hright.enabled.mpr ⟨_, hA⟩
  rw [hoff] at hon
  cases hon

end Softwinner.Sensors
