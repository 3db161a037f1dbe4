import Softwinner.Framework.Loop
import Softwinner.Sensors.InputReader

/-!
# Reading events

`readEvents` of `AccelSensor.cpp` and `MagnetoSensor.cpp`.  A call fills the reader and goes over
the events in it: those of an axis change the pending sample, `EV_SYN` reports it, and the call ends
when the reader is empty or `count` samples have been reported.  What is pending stays so for the
next call.

The two loops differ in the events of other types: `AccelSensor` takes `EV_REL` and `EV_KEY` like
`EV_ABS` and steps over the rest, while `MagnetoSensor` writes a message and leaves the reader where
it is, so that it finds the same event again.

What `processEvent` makes of the values (floats, and for the magnetometer a binary library) is a
parameter of a call.
-/

namespace Softwinner.Sensors

open Framework

/-! ## The sensors -/

def EV_SYN : ℕ := 0
def EV_KEY : ℕ := 1
def EV_REL : ℕ := 2
def EV_ABS : ℕ := 3

def ABS_X : ℕ := 0
def ABS_Y : ℕ := 1
def ABS_Z : ℕ := 2

/-- An `input_event`; `time` is what `timevalToNano` makes of its time. -/
structure InputEvent where
  time : ℤ
  type : ℕ
  code : ℕ
  value : ℤ
  deriving DecidableEq

/-- The fields of the sensors that `readEvents` uses.  `mEnabled` is `mEnCount` in a
`MagnetoSensor`. -/
structure EventSensor (δ : Type) where
  mInputReader : InputReader InputEvent
  mPendingMask : Bool
  mPendingEvent : δ
  mEnabled : ℤ

/-- The variables of a call.  `passed` are the events that the loop has looked at. -/
structure Scan (δ : Type) where
  sensor : EventSensor δ
  count : ℤ
  numEventReceived : ℤ
  data : List (ℤ × δ)
  passed : List InputEvent

/-- What a call is given: its `count`, what the kernel has for it, and the effect of a value on the
pending sample. -/
structure ReadCall (δ : Type) where
  count : ℤ
  read : ReadResult InputEvent
  convert : ℕ → ℤ → δ → δ

variable {δ : Type}

def EventSensor.processEvent (convert : ℕ → ℤ → δ → δ) (s : EventSensor δ) (code : ℕ) (value : ℤ) :
    EventSensor δ :=
  { s with
    mPendingMask := s.mPendingMask || decide (code = ABS_X ∨ code = ABS_Y ∨ code = ABS_Z)
    mPendingEvent := convert code value s.mPendingEvent }

namespace Scan

def next (x : Scan δ) : Scan δ :=
  { x with sensor := { x.sensor with mInputReader := x.sensor.mInputReader.next } }

/-- The branch of `EV_SYN`. -/
def syn (x : Scan δ) (e : InputEvent) : Scan δ :=
  let x :=
    if x.sensor.mPendingMask then
      let x := { x with sensor := { x.sensor with mPendingMask := false } }
      if x.sensor.mEnabled ≠ 0 then
        { x with
          count := x.count - 1, numEventReceived := x.numEventReceived + 1,
          data := x.data ++ [(e.time, x.sensor.mPendingEvent)] }
      else x
    else x
  if !x.sensor.mPendingMask then x.next else x

/-- The test of the loop, and the event that it finds. -/
def peek (x : Scan δ) : Option InputEvent :=
  let (available, p) := x.sensor.mInputReader.readEvent
  if x.count ≠ 0 ∧ available ≠ 0 then some (x.sensor.mInputReader.mBuffer p) else none

def process (convert : ℕ → ℤ → δ → δ) (x : Scan δ) (e : InputEvent) : Scan δ :=
  { x with sensor := x.sensor.processEvent convert e.code e.value }

/-- A turn of the loop of `AccelSensor`. -/
def accelTurn (convert : ℕ → ℤ → δ → δ) (x : Scan δ) : Option (Scan δ) :=
  x.peek.map fun e =>
    let x := { x with passed := x.passed ++ [e] }
    if e.type = EV_ABS ∨ e.type = EV_REL ∨ e.type = EV_KEY then (x.process convert e).next
    else if e.type = EV_SYN then x.syn e
    else x.next

/-- A turn of the loop of `MagnetoSensor`. -/
def magnetoTurn (convert : ℕ → ℤ → δ → δ) (x : Scan δ) : Option (Scan δ) :=
  x.peek.map fun e =>
    let x := { x with passed := x.passed ++ [e] }
    if e.type = EV_ABS then (x.process convert e).next
    else if e.type = EV_SYN then x.syn e
    else x

end Scan

inductive Kind
  | accel
  | magneto
  deriving DecidableEq

def Kind.turn : Kind → (ℕ → ℤ → δ → δ) → Scan δ → Option (Scan δ)
  | .accel => Scan.accelTurn
  | .magneto => Scan.magnetoTurn

/-- The number of events in the reader. -/
def Kind.numEvents : Kind → ℕ
  | .accel => 16
  | .magneto => 4

/-- At the start of a call. -/
def EventSensor.scan (s : EventSensor δ) (count : ℤ) : Scan δ := ⟨s, count, 0, [], []⟩

/-- `readEvents`, with some fuel for its loop. -/
def readEvents (k : Kind) (fuel : ℕ) (a : ReadCall δ) (s : EventSensor δ) :
    Option (ℤ × Scan δ) :=
  if a.count < 1 then some (-EINVAL, s.scan a.count)
  else
    (s.mInputReader.fill a.read).bind fun (x : ℤ × InputReader InputEvent) =>
      let s := { s with mInputReader := x.2 }
      if x.1 < 0 then some (x.1, s.scan a.count)
      else (Loop.run (k.turn a.convert) fuel (s.scan a.count)).map fun x => (x.numEventReceived, x)

/-! ## What is to be reported -/

/-- The types whose events go to `processEvent`. -/
def Kind.takes : Kind → ℕ → Bool
  | .accel, type => decide (type = EV_ABS ∨ type = EV_REL ∨ type = EV_KEY)
  | .magneto, type => decide (type = EV_ABS)

/-- The events that `processEvent` takes for those of an axis. -/
def Kind.isAxis (k : Kind) (e : InputEvent) : Bool :=
  k.takes e.type && decide (e.code = ABS_X ∨ e.code = ABS_Y ∨ e.code = ABS_Z)

/-- Whether there was an event of an axis since the last `EV_SYN`. -/
def Kind.pending (k : Kind) (mask : Bool) (es : List InputEvent) : Bool :=
  es.foldl (fun mask e => if e.type = EV_SYN then false else mask || k.isAxis e) mask

/-- The times of the `EV_SYN` behind an event of an axis. -/
def Kind.reported (k : Kind) : Bool → List InputEvent → List ℤ
  | _, [] => []
  | mask, e :: es =>
    (if e.type = EV_SYN ∧ mask = true then [e.time] else []) ++ k.reported (k.pending mask [e]) es

/-- The samples of a sensor that has been enabled or not. -/
def Kind.samples (k : Kind) (mEnabled : ℤ) (mask : Bool) (es : List InputEvent) : List ℤ :=
  if mEnabled ≠ 0 then k.reported mask es else []

/-- The loop of `MagnetoSensor` does not get over an event of another type. -/
def Kind.stays (k : Kind) (e : InputEvent) : Prop :=
  k = .magneto ∧ e.type ≠ EV_ABS ∧ e.type ≠ EV_SYN

section Spec

variable {k : Kind} {mask : Bool} {mEnabled : ℤ} {e : InputEvent}

lemma reported_append (xs ys : List InputEvent) :
    ∀ mask, k.reported mask (xs ++ ys) =
      k.reported mask xs ++ k.reported (k.pending mask xs) ys := by
  induction xs with
  | nil => exact fun _ => rfl
  | cons x xs ih =>
    intro mask
    rw [List.cons_append, Kind.reported, Kind.reported, ih, List.append_assoc]
    rfl

lemma samples_append (xs ys : List InputEvent) :
    k.samples mEnabled mask (xs ++ ys) =
      k.samples mEnabled mask xs ++ k.samples mEnabled (k.pending mask xs) ys := by
  unfold Kind.samples
  split_ifs
  · exact reported_append xs ys mask
  · rfl

lemma pending_append (xs ys : List InputEvent) :
    k.pending mask (xs ++ ys) = k.pending (k.pending mask xs) ys := List.foldl_append ..

lemma samples_nil : k.samples mEnabled mask [] = [] := by
  unfold Kind.samples
  split_ifs <;> rfl

/-- An `EV_SYN` reports what is pending. -/
lemma samples_syn (he : e.type = EV_SYN) :
    k.samples mEnabled mask [e] = if mEnabled ≠ 0 ∧ mask = true then [e.time] else [] := by
  unfold Kind.samples Kind.reported Kind.reported
  by_cases hon : mEnabled = 0
  · rw [if_neg (not_not.mpr hon), if_neg fun h => h.1 hon]
  · simp only [he, true_and, List.append_nil, ne_eq, hon, not_false_eq_true, if_true]

lemma samples_other (he : e.type ≠ EV_SYN) : k.samples mEnabled mask [e] = [] := by
  unfold Kind.samples Kind.reported Kind.reported
  rw [if_neg fun h : e.type = EV_SYN ∧ mask = true => he h.1]
  split_ifs <;> rfl

lemma pending_syn (he : e.type = EV_SYN) : k.pending mask [e] = false := if_pos he

lemma pending_other (he : e.type ≠ EV_SYN) : k.pending mask [e] = (mask || k.isAxis e) :=
  if_neg he

end Spec

/-! ## The loop -/

/-- In the loop: `c` is consumed and `es` still in the reader. -/
structure Over (k : Kind) (mEnabled : ℤ) (mask : Bool) (n numEvents : ℤ) (x : Scan δ)
    (c es : List InputEvent) : Prop where
  holds : x.sensor.mInputReader.Holds es
  size : x.sensor.mInputReader.mBufferEnd = numEvents
  enabled : x.sensor.mEnabled = mEnabled
  pending : x.sensor.mPendingMask = k.pending mask c
  data : x.data.map Prod.fst = k.samples mEnabled mask c
  count : x.count = n - x.data.length
  nonneg : 0 ≤ x.count
  received : x.numEventReceived = x.data.length

section Loop

variable {k : Kind} {mask : Bool} {mEnabled n numEvents : ℤ} {x : Scan δ} {e : InputEvent}
  {c es : List InputEvent} {convert : ℕ → ℤ → δ → δ}

lemma Over.peek (hx : Over k mEnabled mask n numEvents x c (e :: es)) (hcount : x.count ≠ 0) :
    x.peek = some e := by
  unfold Scan.peek
  rw [hx.holds.readEvent.1, if_neg (List.cons_ne_nil e es)]
  simp only
  rw [if_pos ⟨hcount, Int.one_ne_zero⟩, hx.holds.readEvent.2 e rfl]

/-- An event that is not an `EV_SYN` changes what is pending. -/
lemma Over.other {y : Scan δ} (hx : Over k mEnabled mask n numEvents x c (e :: es))
    (hsyn : e.type ≠ EV_SYN)
    (hmask : y.sensor.mPendingMask = (x.sensor.mPendingMask || k.isAxis e))
    (hq : y.sensor.mInputReader = x.sensor.mInputReader)
    (henabled : y.sensor.mEnabled = x.sensor.mEnabled) (hdata : y.data = x.data)
    (hcount : y.count = x.count) (hrec : y.numEventReceived = x.numEventReceived) :
    Over k mEnabled mask n numEvents y.next (c ++ [e]) es where
  holds := by
    show y.sensor.mInputReader.next.Holds es
    rw [hq]
    exact hx.holds.next
  size := by
    show y.sensor.mInputReader.next.mBufferEnd = numEvents
    rw [InputReader.next_mBufferEnd, hq, hx.size]
  enabled := henabled.trans hx.enabled
  pending := by
    rw [pending_append, pending_other hsyn, ← hx.pending]
    exact hmask
  data := by
    rw [samples_append, samples_other hsyn, List.append_nil, ← hx.data]
    exact congrArg _ hdata
  count := by
    show y.count = n - y.data.length
    rw [hcount, hdata, hx.count]
  nonneg := hcount ▸ hx.nonneg
  received := by
    show y.numEventReceived = y.data.length
    rw [hrec, hdata, hx.received]

/-- An `EV_SYN` reports what is pending. -/
lemma Over.syn (hx : Over k mEnabled mask n numEvents x c (e :: es)) (hsyn : e.type = EV_SYN)
    (hcount : x.count ≠ 0) : Over k mEnabled mask n numEvents (x.syn e) (c ++ [e]) es := by
  have hholds := hx.holds.next
  have hsize := (InputReader.next_mBufferEnd x.sensor.mInputReader).trans hx.size
  have hmask : k.pending mask (c ++ [e]) = false := by rw [pending_append, pending_syn hsyn]
  have hsamples : k.samples mEnabled mask (c ++ [e]) = x.data.map Prod.fst ++
      if mEnabled ≠ 0 ∧ x.sensor.mPendingMask = true then [e.time] else [] := by
    rw [samples_append, samples_syn hsyn, hx.data, hx.pending]
  have hlen := hx.count
  have hnonneg := hx.nonneg
  have hreceived := hx.received
  unfold Scan.syn
  by_cases hpend : x.sensor.mPendingMask = true
  · by_cases hon : mEnabled = 0
    · rw [if_neg fun h => h.1 hon, List.append_nil] at hsamples
      have hoff : ¬ x.sensor.mEnabled ≠ 0 := not_not.mpr (hx.enabled.trans hon)
      simp only [hpend, if_true, if_neg hoff]
      exact ⟨hholds, hsize, hx.enabled, hmask.symm, hsamples.symm, hlen, hnonneg, hreceived⟩
    · rw [if_pos ⟨hon, hpend⟩] at hsamples
      have hon' : x.sensor.mEnabled ≠ 0 := fun h => hon (hx.enabled.symm.trans h)
      simp only [hpend, if_true, if_pos hon']
      refine ⟨hholds, hsize, hx.enabled, hmask.symm, ?_, ?_, ?_, ?_⟩
      · rw [hsamples]
        exact List.map_append
      · simp only [Scan.next, Bool.not_false, if_true, List.length_append, List.length_singleton]
        omega
      · simp only [Scan.next, Bool.not_false, if_true]
        omega
      · simp only [Scan.next, Bool.not_false, if_true, List.length_append, List.length_singleton]
        omega
  · rw [if_neg fun h => hpend h.2, List.append_nil] at hsamples
    rw [Bool.not_eq_true] at hpend
    simp only [hpend, Bool.false_eq_true, if_false, Bool.not_false, if_true]
    exact ⟨hholds, hsize, hx.enabled, hpend.trans hmask.symm, hsamples.symm, hlen, hnonneg,
      hreceived⟩

/-- What a turn does with an event. -/
def Kind.afterEvent (k : Kind) (convert : ℕ → ℤ → δ → δ) (x : Scan δ) (e : InputEvent) : Scan δ :=
  if k.takes e.type then (x.process convert e).next
  else if e.type = EV_SYN then x.syn e
  else if k = .magneto then x
  else x.next

lemma turn_eq (hpeek : x.peek = some e) :
    k.turn convert x = some (k.afterEvent convert { x with passed := x.passed ++ [e] } e) := by
  unfold Kind.turn Kind.afterEvent
  cases k with
  | accel => simp only [Scan.accelTurn, hpeek, Option.map_some, Kind.takes, decide_eq_true_eq,
      reduceCtorEq, if_false]
  | magneto => simp only [Scan.magnetoTurn, hpeek, Option.map_some, Kind.takes, decide_eq_true_eq,
      if_true]

lemma not_takes_syn (h : k.takes e.type = true) : e.type ≠ EV_SYN := by
  intro hsyn
  rw [hsyn] at h
  cases k <;> exact absurd h (by decide)

lemma afterEvent_passed : (k.afterEvent convert x e).passed = x.passed := by
  have hsyn : (x.syn e).passed = x.passed := by
    simp only [Scan.syn]
    split_ifs <;> rfl
  unfold Kind.afterEvent
  split_ifs
  · rfl
  · exact hsyn
  · rfl
  · rfl

/-- One turn: the event in front is consumed, unless the loop stays at it. -/
lemma Over.turn (convert : ℕ → ℤ → δ → δ)
    (hx : Over k mEnabled mask n numEvents x c (e :: es)) (hcount : x.count ≠ 0) :
    ∃ y, k.turn convert x = some y ∧ y.passed = x.passed ++ [e] ∧
      (k.stays e → Over k mEnabled mask n numEvents y c (e :: es)) ∧
      (¬ k.stays e → Over k mEnabled mask n numEvents y (c ++ [e]) es) := by
  refine ⟨_, turn_eq (hx.peek hcount), afterEvent_passed, ?_⟩
  set x' : Scan δ := { x with passed := x.passed ++ [e] } with hx'
  have hover : Over k mEnabled mask n numEvents x' c (e :: es) :=
    ⟨hx.holds, hx.size, hx.enabled, hx.pending, hx.data, hx.count, hx.nonneg, hx.received⟩
  unfold Kind.afterEvent
  by_cases htakes : k.takes e.type = true
  · rw [if_pos htakes]
    have hsyn := not_takes_syn htakes
    have hgo : ¬ k.stays e := by
      rintro ⟨rfl, habs, -⟩
      exact habs (of_decide_eq_true htakes)
    refine ⟨fun h => absurd h hgo, fun _ => hover.other hsyn ?_ rfl rfl rfl rfl rfl⟩
    rw [Kind.isAxis, htakes, Bool.true_and]
    rfl
  rw [if_neg htakes]
  by_cases hsyn : e.type = EV_SYN
  · rw [if_pos hsyn]
    exact ⟨fun h => absurd hsyn h.2.2, fun _ => hover.syn hsyn hcount⟩
  rw [if_neg hsyn]
  by_cases hk : k = .magneto
  · rw [if_pos hk]
    refine ⟨fun _ => hover, fun h => absurd ⟨hk, fun habs => htakes ?_, hsyn⟩ h⟩
    rw [hk]
    exact decide_eq_true habs
  · rw [if_neg hk]
    refine ⟨fun h => absurd h.1 hk, fun _ => hover.other hsyn ?_ rfl rfl rfl rfl rfl⟩
    rw [Kind.isAxis, Bool.eq_false_iff.mpr htakes, Bool.false_and, Bool.or_false]

lemma Over.turn_some {y : Scan δ} (hx : Over k mEnabled mask n numEvents x c es)
    (hsome : k.turn convert x = some y) : x.count ≠ 0 ∧ es ≠ [] := by
  obtain ⟨e, hpeek⟩ : ∃ e, x.peek = some e := by
    cases k with
    | accel => exact (Option.map_eq_some_iff.mp hsome).imp fun _ h => h.1
    | magneto => exact (Option.map_eq_some_iff.mp hsome).imp fun _ h => h.1
  unfold Scan.peek at hpeek
  rw [hx.holds.readEvent.1] at hpeek
  simp only [Option.ite_none_right_eq_some] at hpeek
  exact ⟨hpeek.1.1, fun hnil => hpeek.1.2 (if_pos hnil)⟩

/-- The number of events in the reader. -/
def Scan.available (x : Scan δ) : ℕ :=
  (x.sensor.mInputReader.mBufferEnd - x.sensor.mInputReader.mFreeSpace).toNat

lemma Over.available_eq (hx : Over k mEnabled mask n numEvents x c es) :
    x.available = es.length := by
  rw [Scan.available, ← hx.holds.length, Int.toNat_natCast]

/-- In the loop of a call that has found `content`, and consumed all that it has passed. -/
def Passing (k : Kind) (mEnabled : ℤ) (mask : Bool) (n numEvents : ℤ) (content : List InputEvent)
    (x : Scan δ) : Prop :=
  ∃ es, Over k mEnabled mask n numEvents x x.passed es ∧ x.passed ++ es = content

/-- `count` samples come before each event that the loop would stay at. -/
def Reaches (k : Kind) (mEnabled : ℤ) (mask : Bool) (n : ℤ) (content : List InputEvent) : Prop :=
  ∀ pre e post, content = pre ++ e :: post → k.stays e → n ≤ (k.samples mEnabled mask pre).length

variable {content : List InputEvent}

/-- A turn of such a loop consumes an event. -/
lemma Passing.turn {y : Scan δ} (hok : Reaches k mEnabled mask n content)
    (hx : Passing k mEnabled mask n numEvents content x) (hnext : k.turn convert x = some y) :
    Passing k mEnabled mask n numEvents content y ∧ y.available < x.available := by
  obtain ⟨es, hx, hsplit⟩ := hx
  obtain ⟨hcount, hne⟩ := hx.turn_some hnext
  obtain ⟨e, es, rfl⟩ := List.exists_cons_of_ne_nil hne
  obtain ⟨y', hy', hpassed, -, hgo⟩ := hx.turn convert hcount
  obtain rfl : y' = y := Option.some.inj (hy'.symm.trans hnext)
  have hmoves : ¬ k.stays e := by
    intro hstays
    have hmany := hok _ e es hsplit.symm hstays
    have hlen := congrArg List.length hx.data
    rw [List.length_map] at hlen
    have := hx.count
    have := hx.nonneg
    omega
  have hy := hgo hmoves
  rw [← hpassed] at hy
  refine ⟨⟨es, hy, ?_⟩, ?_⟩
  · rw [hpassed, ← hsplit, List.append_assoc, List.singleton_append]
  · rw [hy.available_eq, hx.available_eq]
    exact Nat.lt_succ_self _

/-- With `count` samples before each event that it would stay at, the loop ends. -/
lemma Passing.ends {fuel : ℕ} (convert : ℕ → ℤ → δ → δ)
    (hok : Reaches k mEnabled mask n content)
    (hx : Passing k mEnabled mask n numEvents content x) (hfuel : content.length < fuel) :
    ∃ y, Loop.run (k.turn convert) fuel x = some y ∧
      Passing k mEnabled mask n numEvents content y := by
  have hless : x.available < fuel := by
    obtain ⟨es, hx, rfl⟩ := hx
    rw [List.length_append] at hfuel
    rw [hx.available_eq]
    omega
  obtain ⟨y, hloop, hy, -⟩ := Loop.run_ends
    (fun _ _ hx (hnext : k.turn convert _ = some _) => hx.turn hok hnext) hx hless
  exact ⟨y, hloop, hy⟩

/-- Before an event that it stays at, with too few samples before it, the loop does not end. -/
lemma Over.endless {pre post : List InputEvent}
    (convert : ℕ → ℤ → δ → δ) (hx : Over k mEnabled mask n numEvents x c es)
    (hsplit : ∃ mid, es = mid ++ e :: post ∧ c ++ mid = pre) (hstays : k.stays e)
    (hfew : (k.samples mEnabled mask pre).length < n) (fuel : ℕ) :
    Loop.run (k.turn convert) fuel x = none := by
  refine Loop.run_endless (P := fun y => ∃ c es, Over k mEnabled mask n numEvents y c es ∧
    ∃ mid, es = mid ++ e :: post ∧ c ++ mid = pre) ?_ fuel ⟨c, es, hx, hsplit⟩
  rintro y ⟨c, es, hy, mid, rfl, rfl⟩
  have hcount : y.count ≠ 0 := by
    have hlen := congrArg List.length hy.data
    rw [samples_append, List.length_append] at hfew
    rw [List.length_map] at hlen
    have := hy.count
    omega
  cases mid with
  | nil =>
    obtain ⟨z, hnext, -, hstay, -⟩ := hy.turn convert hcount
    exact ⟨z, hnext, c, _, hstay hstays, [], rfl, rfl⟩
  | cons f mid =>
    obtain ⟨z, hnext, -, hstay, hgo⟩ := hy.turn convert hcount
    by_cases hf : k.stays f
    · exact ⟨z, hnext, c, _, hstay hf, f :: mid, rfl, rfl⟩
    · refine ⟨z, hnext, c ++ [f], _, hgo hf, mid, rfl, ?_⟩
      rw [List.append_assoc, List.singleton_append]

end Loop

/-! ## The calls -/

/-- The read does not succeed. -/
def ReadResult.fails : ReadResult InputEvent → Bool
  | .events _ => false
  | .error errno => decide (errno ≠ 0)
  | .torn _ => true

/-- A sensor, what the successful reads have brought, what the loops have passed, and what has been
reported; `returned` is the result of the last call. -/
structure Reads (δ : Type) where
  sensor : EventSensor δ
  filled : List InputEvent
  passed : List InputEvent
  samples : List (ℤ × δ)
  returned : ℤ

/-- Behind the constructor, and with the sensor enabled or not; `m` is what is in the buffer. -/
def Reads.initial (k : Kind) (mEnabled : ℤ) (m : ℤ → InputEvent) (data : δ) : Reads δ :=
  ⟨⟨.create k.numEvents m, false, data, mEnabled⟩, [], [], [], 0⟩

/-- The events that a call takes over from the kernel. -/
def Reads.accepted (s : Reads δ) (a : ReadCall δ) : List InputEvent :=
  if a.count < 1 then [] else s.sensor.mInputReader.accepted a.read

def Reads.after (s : Reads δ) (a : ReadCall δ) (returned : ℤ) (x : Scan δ) : Reads δ where
  sensor := x.sensor
  filled := s.filled ++ s.accepted a
  passed := s.passed ++ x.passed
  samples := s.samples ++ x.data
  returned := returned

/-- A call in which the kernel writes what it may.  One that does not return leaves its caller where
it is. -/
def Reads.step (k : Kind) (s : Reads δ) (a : ReadCall δ) : Option (Reads δ) :=
  if s.sensor.mInputReader.Permits a.read then
    some (match readEvents k (k.numEvents + 1) a s.sensor with
      | none => s
      | some (returned, x) => s.after a returned x)
  else none

/-- What has been passed is consumed, and has been reported. -/
structure Reads.Reported (k : Kind) (mEnabled : ℤ) (s : Reads δ) : Prop where
  consumed : s.passed ++ s.sensor.mInputReader.unread = s.filled
  samples : s.samples.map Prod.fst = k.samples mEnabled false s.passed

/-- A call returns, with at most `count` samples. -/
structure Reads.Returns (k : Kind) (a : ReadCall δ) (s s' : Reads δ) : Prop where
  ends : ∃ fuel, (readEvents k fuel a s.sensor).isSome = true
  le_count : 1 ≤ a.count → s'.returned ≤ a.count
  samples : s'.samples.length = s.samples.length + s'.returned.toNat

/-- Nothing is read at all, or each event that the loop would stay at is behind the sample with
which `count` is reached. -/
def Reads.Ok (k : Kind) (a : ReadCall δ) (s : Reads δ) : Prop :=
  a.count < 1 ∨ (s.sensor.mInputReader.mFreeSpace ≠ 0 ∧ a.read.fails = true) ∨
    Reaches k s.sensor.mEnabled s.sensor.mPendingMask a.count
      (s.sensor.mInputReader.unread ++ s.sensor.mInputReader.accepted a.read)

section Calls

variable {k : Kind} {mEnabled : ℤ} {s s' : Reads δ} {a : ReadCall δ} {xs : List InputEvent}
  {q : InputReader InputEvent} {r : ReadResult InputEvent} {ret : ℤ}

lemma fill_neg {q' : InputReader InputEvent} (h : q.fill r = some (ret, q')) :
    ret < 0 ↔ q.mFreeSpace ≠ 0 ∧ r.fails = true := by
  unfold InputReader.fill at h
  by_cases hfull : q.mFreeSpace = 0
  · rw [if_pos hfull] at h
    obtain ⟨rfl, -⟩ := Prod.mk.inj (Option.some.inj h)
    exact ⟨fun h => absurd h (Int.lt_irrefl 0), fun h => absurd hfull h.1⟩
  rw [if_neg hfull] at h
  split_ifs at h with hinside
  refine Iff.trans ?_ (and_iff_right hfull).symm
  cases r with
  | error errno =>
    obtain ⟨rfl, -⟩ := Prod.mk.inj (Option.some.inj h)
    simp only [ReadResult.fails, decide_eq_true_eq]
    omega
  | torn ys =>
    obtain ⟨rfl, -⟩ := Prod.mk.inj (Option.some.inj h)
    exact ⟨fun _ => rfl, fun _ => by decide⟩
  | events ys =>
    refine ⟨fun hneg => ?_, nofun⟩
    simp only at h
    split_ifs at h with hnone
    · obtain ⟨rfl, -⟩ := Prod.mk.inj (Option.some.inj h)
      exact absurd hneg (Int.lt_irrefl 0)
    · obtain ⟨q'', -, heq⟩ := Option.map_eq_some_iff.mp h
      obtain ⟨rfl, -⟩ := Prod.mk.inj heq
      omega

/-- Between two calls, `xs` are in the reader. -/
structure Reads.Inv (k : Kind) (mEnabled : ℤ) (s : Reads δ) (xs : List InputEvent) : Prop where
  holds : s.sensor.mInputReader.Holds xs
  size : s.sensor.mInputReader.mBufferEnd = k.numEvents
  enabled : s.sensor.mEnabled = mEnabled
  pending : s.sensor.mPendingMask = k.pending false s.passed
  consumed : s.passed ++ xs = s.filled
  samples : s.samples.map Prod.fst = k.samples mEnabled false s.passed

/-- Between two calls. -/
def Reads.Ready (k : Kind) (mEnabled : ℤ) (s : Reads δ) : Prop := ∃ xs, Reads.Inv k mEnabled s xs

lemma Reads.inv_initial (m : ℤ → InputEvent) (data : δ) :
    Reads.Inv k mEnabled (initial k mEnabled m data) [] where
  holds := InputReader.holds_create (by cases k <;> decide) m
  size := rfl
  enabled := rfl
  pending := rfl
  consumed := rfl
  samples := samples_nil.symm

lemma Reads.ready_initial (m : ℤ → InputEvent) (data : δ) :
    Reads.Ready k mEnabled (initial k mEnabled m data) :=
  ⟨[], Reads.inv_initial m data⟩

/-- What a call does before its loop. -/
lemma Reads.Inv.readEvents (hs : Reads.Inv k mEnabled s xs)
    (hpermits : s.sensor.mInputReader.Permits a.read) :
    (a.count < 1 ∧ ∀ fuel, readEvents k fuel a s.sensor = some (-EINVAL, s.sensor.scan a.count)) ∨
    1 ≤ a.count ∧ ∃ q : InputReader InputEvent, q.mBufferEnd = k.numEvents ∧
      q.Holds (xs ++ s.sensor.mInputReader.accepted a.read) ∧
      let sensor := { s.sensor with mInputReader := q }
      ((s.sensor.mInputReader.mFreeSpace ≠ 0 ∧ a.read.fails = true) ∧
        s.sensor.mInputReader.accepted a.read = [] ∧ ∃ ret < 0,
        ∀ fuel, Sensors.readEvents k fuel a s.sensor = some (ret, sensor.scan a.count)) ∨
      (¬ (s.sensor.mInputReader.mFreeSpace ≠ 0 ∧ a.read.fails = true) ∧
        ∀ fuel, Sensors.readEvents k fuel a s.sensor =
          (Loop.run (k.turn a.convert) fuel (sensor.scan a.count)).map fun x =>
            (x.numEventReceived, x)) := by
  unfold Sensors.readEvents
  by_cases hcount : a.count < 1
  · exact Or.inl ⟨hcount, fun _ => if_pos hcount⟩
  obtain ⟨ret, q, hfill, hend, -, hq, hnone⟩ := hs.holds.fill hpermits
  refine Or.inr ⟨by omega, q, hend.trans hs.size, hq, ?_⟩
  simp only [if_neg hcount, hfill, Option.bind_some]
  by_cases hneg : ret < 0
  · exact Or.inl ⟨(fill_neg hfill).mp hneg, hnone hneg, ret, hneg, fun _ => if_pos hneg⟩
  · exact Or.inr ⟨fun h => hneg ((fill_neg hfill).mpr h), fun _ => if_neg hneg⟩

/-- The loop starts with nothing consumed. -/
lemma Reads.Inv.over (hs : Reads.Inv k mEnabled s xs) {es : List InputEvent}
    (hend : q.mBufferEnd = k.numEvents) (hq : q.Holds es) (hcount : 1 ≤ a.count) :
    Over k mEnabled s.sensor.mPendingMask a.count k.numEvents
      (EventSensor.scan { s.sensor with mInputReader := q } a.count) [] es where
  holds := hq
  size := hend
  enabled := hs.enabled
  pending := rfl
  data := samples_nil.symm
  count := (Int.sub_zero _).symm
  nonneg := Int.le_of_lt hcount
  received := rfl

lemma Reads.Inv.passing (hs : Reads.Inv k mEnabled s xs) {es : List InputEvent}
    (hend : q.mBufferEnd = k.numEvents) (hq : q.Holds es) (hcount : 1 ≤ a.count) :
    Passing k mEnabled s.sensor.mPendingMask a.count k.numEvents es
      (EventSensor.scan { s.sensor with mInputReader := q } a.count) :=
  ⟨es, hs.over hend hq hcount, rfl⟩

lemma Reads.Inv.after (hs : Reads.Inv k mEnabled s xs) {x : Scan δ} {es : List InputEvent}
    (hq : x.sensor.mInputReader.Holds es) (hsize : x.sensor.mInputReader.mBufferEnd = k.numEvents)
    (henabled : x.sensor.mEnabled = mEnabled)
    (hpending : x.sensor.mPendingMask = k.pending s.sensor.mPendingMask x.passed)
    (hdata : x.data.map Prod.fst = k.samples mEnabled s.sensor.mPendingMask x.passed)
    (hsplit : x.passed ++ es = xs ++ s.accepted a) :
    Reads.Inv k mEnabled (s.after a ret x) es where
  holds := hq
  size := hsize
  enabled := henabled
  pending := by
    show x.sensor.mPendingMask = k.pending false (s.passed ++ x.passed)
    rw [pending_append, ← hs.pending, hpending]
  consumed := by
    show s.passed ++ x.passed ++ es = s.filled ++ s.accepted a
    rw [List.append_assoc, hsplit, ← List.append_assoc, hs.consumed]
  samples := by
    show (s.samples ++ x.data).map Prod.fst = k.samples mEnabled false (s.passed ++ x.passed)
    rw [List.map_append, samples_append, hs.samples, hdata, ← hs.pending]

/-- A call that returns before its loop. -/
lemma Reads.Inv.early (hs : Reads.Inv k mEnabled s xs) (hend : q.mBufferEnd = k.numEvents)
    (hq : q.Holds xs) (hnone : s.accepted a = []) (hret : ret < 0) {fuel : ℕ}
    (hread : Sensors.readEvents k fuel a s.sensor =
      some (ret, EventSensor.scan { s.sensor with mInputReader := q } a.count)) :
    let s' := s.after a ret (EventSensor.scan { s.sensor with mInputReader := q } a.count)
    Reads.Inv k mEnabled s' xs ∧ Reads.Returns k a s s' := by
  refine ⟨hs.after hq hend hs.enabled rfl samples_nil.symm ?_, ⟨fuel, by rw [hread]; rfl⟩, ?_, ?_⟩
  · rw [hnone, List.append_nil]
    rfl
  · exact fun hcount => Int.le_trans (Int.le_of_lt hret) (Int.le_of_lt hcount)
  · show (s.samples ++ []).length = s.samples.length + ret.toNat
    rw [List.append_nil, Int.toNat_of_nonpos (Int.le_of_lt hret), Nat.add_zero]

/-- A call that meets the condition keeps the invariant and returns. -/
lemma Reads.Inv.keep (hs : Reads.Inv k mEnabled s xs) (hok : Reads.Ok k a s)
    (hstep : s.step k a = some s') : Reads.Ready k mEnabled s' ∧ Reads.Returns k a s s' := by
  unfold Reads.step at hstep
  split_ifs at hstep with hpermits
  obtain rfl := Option.some.inj hstep
  rcases hs.readEvents hpermits with ⟨hcount, hread⟩ | ⟨hcount, q, hend, hq, hread⟩
  · rw [hread]
    obtain ⟨hs', hret⟩ := hs.early hs.size hs.holds (if_pos hcount) (by decide) (hread 0)
    exact ⟨⟨xs, hs'⟩, hret⟩
  have haccepted : s.accepted a = s.sensor.mInputReader.accepted a.read :=
    if_neg (Int.not_lt.mpr hcount)
  rcases hread with ⟨hfails, hnone, ret, hneg, hread⟩ | ⟨hfails, hread⟩
  · rw [hread]
    rw [hnone, List.append_nil] at hq
    obtain ⟨hs', hret⟩ := hs.early hend hq (haccepted.trans hnone) hneg (hread 0)
    exact ⟨⟨xs, hs'⟩, hret⟩
  -- The loop ends with the fuel that there is, since the reader holds no more events.
  have hreaches := (hok.resolve_left (Int.not_lt.mpr hcount)).resolve_left hfails
  rw [hs.holds.unread_eq, hs.enabled] at hreaches
  have hfuel : (xs ++ s.sensor.mInputReader.accepted a.read).length < k.numEvents + 1 := by
    have := hq.length
    have := hq.free
    omega
  obtain ⟨x, hloop, es, hx, hsplit⟩ :=
    (hs.passing hend hq hcount).ends a.convert hreaches hfuel
  have hret := (hread (k.numEvents + 1)).trans (congrArg _ hloop)
  rw [hret]
  refine ⟨⟨es, hs.after hx.holds hx.size hx.enabled hx.pending hx.data ?_⟩,
    ⟨k.numEvents + 1, by rw [hret]; rfl⟩, fun _ => ?_, ?_⟩
  · rw [hsplit, haccepted]
  · show x.numEventReceived ≤ a.count
    have := hx.count
    have := hx.nonneg
    have := hx.received
    omega
  · show (s.samples ++ x.data).length = s.samples.length + x.numEventReceived.toNat
    rw [List.length_append, hx.received, Int.toNat_natCast]

/-- A call that does not meet the condition does not return. -/
lemma Reads.Inv.endless (hs : Reads.Inv k mEnabled s xs)
    (hpermits : s.sensor.mInputReader.Permits a.read) (hnot : ¬ Reads.Ok k a s) (fuel : ℕ) :
    Sensors.readEvents k fuel a s.sensor = none := by
  obtain ⟨hcount, hfails, hreaches⟩ := not_or.mp hnot |>.imp id not_or.mp
  rcases hs.readEvents hpermits with ⟨hzero, -⟩ | ⟨hpos, q, hend, hq, hread⟩
  · exact absurd hzero hcount
  rcases hread with ⟨hfails', -⟩ | ⟨-, hread⟩
  · exact absurd hfails' hfails
  simp only [Reaches, not_forall, Int.not_le] at hreaches
  obtain ⟨pre, e, post, hsplit, hstays, hfew⟩ := hreaches
  rw [hs.holds.unread_eq] at hsplit
  rw [hsplit] at hq
  rw [hs.enabled] at hfew
  rw [hread, (hs.over hend hq hpos).endless a.convert ⟨pre, rfl, rfl⟩ hstays hfew]
  rfl

/-- A call that returns meets the condition. -/
lemma Reads.Inv.exact (hs : Reads.Inv k mEnabled s xs) (hstep : s.step k a = some s')
    (hret : Reads.Returns k a s s') : Reads.Ok k a s := by
  unfold Reads.step at hstep
  split_ifs at hstep with hpermits
  by_contra hnot
  obtain ⟨fuel, hsome⟩ := hret.ends
  rw [hs.endless hpermits hnot fuel] at hsome
  cases hsome

end Calls

/-- **When the sensors read their events.**  Along a sequence of calls every call returns with at
most `count` samples, the events that it passes are consumed, and the samples are one for each
`EV_SYN` behind an event of an axis (none while the sensor is disabled), if and only if each call
meets the condition; for an `AccelSensor` there is none. -/
theorem reads_iff (k : Kind) (mEnabled : ℤ) (m : ℤ → InputEvent) (data : δ)
    (calls : List (ReadCall δ)) :
    (Along (Reads.step k) (Reads.Reported k mEnabled) (Reads.Returns k)
        (.initial k mEnabled m data) calls ↔
      Meets (Reads.step k) (Reads.Ok k) (.initial k mEnabled m data) calls) ∧
    ∀ a (s : Reads δ), Reads.Ok .accel a s := by
  refine ⟨?_, fun a s => Or.inr (Or.inr fun _ _ _ _ h => absurd h.1 (by decide))⟩
  refine along_iff_meets ?_ ?_ ?_ calls (Reads.ready_initial m data)
  · rintro s ⟨xs, hs⟩
    refine ⟨?_, hs.samples⟩
    rw [hs.holds.unread_eq]
    exact hs.consumed
  · rintro a s s' ⟨xs, hs⟩ hok hstep
    exact hs.keep hok hstep
  · rintro a s s' ⟨xs, hs⟩ hstep hret -
    exact hs.exact hstep hret

/-- One event of the type `EV_MSC` is enough: the first call does not return. -/
theorem magneto_hangs : ∃ (s : Reads ℤ) (a : ReadCall ℤ),
    s = .initial .magneto 1 (fun _ => ⟨0, 0, 0, 0⟩) 0 ∧ 1 ≤ a.count ∧
      s.sensor.mInputReader.Permits a.read ∧
      ∀ fuel, readEvents .magneto fuel a s.sensor = none := by
  refine ⟨_, ⟨1, .events [⟨5, 4, 3, 7⟩], fun _ _ data => data⟩, rfl, by decide, by decide, ?_⟩
  refine (Reads.inv_initial _ _).endless (by decide) ?_
  rintro (hcount | hfails | hreaches)
  · exact absurd hcount (by decide)
  · exact absurd hfails.2 (by decide)
  · exact absurd (hreaches [] ⟨5, 4, 3, 7⟩ [] (by decide) ⟨rfl, by decide, by decide⟩) (by decide)

end Softwinner.Sensors
