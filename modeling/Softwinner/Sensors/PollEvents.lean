import Mathlib.Algebra.Ring.Int.Defs
import Softwinner.Sensors.ReadEvents

/-!
# Polling the sensors

`pollEvents` of `sensors.cpp`.  It goes over the sensors below `number` whose descriptors `poll` has
marked, and lets each of them write its events behind those that are there; then it polls again,
until there is no room or nothing to read.

The result of `readEvents` is subtracted from `count` and added to `nbEvents` and `data` also where
it is an error.  `polls_iff` is the exact condition for the events to be right in spite of that: no
sensor may deliver while the results add up to less than zero, and there must have been no error at
all if the call returns the number of its events.

The integers do not overflow here.  The wake pipe is not among the descriptors that are polled, and
it is left out.
-/

namespace Softwinner.Sensors

open Framework

/-! ## The call -/

/-- What `readEvents` gives: its result, and the events that it has written at `data`. -/
structure Reply (ε : Type) where
  nb : ℤ
  events : List ε

/-- At most `count` events, or an error. -/
def Reply.Permitted {ε : Type} (r : Reply ε) (count : ℤ) : Prop :=
  (r.nb = r.events.length ∧ r.nb ≤ count) ∨ (r.nb < 0 ∧ r.events.length = 0)

instance {ε : Type} (r : Reply ε) (count : ℤ) : Decidable (r.Permitted count) :=
  inferInstanceAs (Decidable (_ ∨ _))

/-- What happens next in a call. -/
inductive PollStep (ε : Type)
  /-- The loop goes over a sensor that is not marked. -/
  | skip
  | readEvents (r : Reply ε)
  /-- `poll` has marked `n` descriptors, those of `revents`. -/
  | poll (n : ℕ) (revents : ℕ → Bool)
  | pollError (errno : ℕ)

/-- A call of `pollEvents`.  `data` is an index into `mem`, where the caller's array starts at zero;
`i` is the counter of the inner loop.  The last fields record at which places events have been
written, what the sensors have delivered, and their results. -/
structure Polling (ε : Type) where
  revents : ℕ → Bool
  mem : ℤ → ε
  count : ℤ
  nbEvents : ℤ
  data : ℤ
  i : ℕ
  returned : Option ℤ
  written : List ℤ
  delivered : List ε
  results : List ℤ

namespace Polling

def EINTR : ℕ := 4

variable {ε : Type}

/-- At its start; `revents` is left from the last call. -/
def initial (count : ℤ) (revents : ℕ → Bool) (mem : ℤ → ε) : Polling ε :=
  ⟨revents, mem, count, 0, 0, 0, none, [], [], []⟩

variable (s : Polling ε)

/-- No class overrides it. -/
def hasPendingEvents : Bool := false

/-- `readEvents(data, count)` and what follows it. -/
def visit (r : Reply ε) : Polling ε :=
  { s with
    mem := Ring.store s.mem s.data r.events
    written := s.written ++ (List.range r.events.length).map fun k : ℕ => s.data + k
    delivered := s.delivered ++ r.events
    results := s.results ++ [r.nb]
    revents := if r.nb < s.count then Function.update s.revents s.i false else s.revents
    count := s.count - r.nb
    nbEvents := s.nbEvents + r.nb
    data := s.data + r.nb
    i := s.i + 1 }

/-- Behind the inner loop without room. -/
def leave : Polling ε := if s.count = 0 then { s with returned := some s.nbEvents } else s

/-- The inner loop goes on. -/
def Looping (number : ℤ) : Prop := s.returned = none ∧ s.count ≠ 0 ∧ (s.i : ℤ) < number

/-- The inner loop is through, with some room. -/
def Waiting (number : ℤ) : Prop := s.returned = none ∧ s.count ≠ 0 ∧ ¬ (s.i : ℤ) < number

instance (number : ℤ) : Decidable (s.Looping number) := inferInstanceAs (Decidable (_ ∧ _))

instance (number : ℤ) : Decidable (s.Waiting number) := inferInstanceAs (Decidable (_ ∧ _))

def marked : Bool := s.revents s.i || hasPendingEvents

def step (number : ℤ) (s : Polling ε) : PollStep ε → Option (Polling ε)
  | .skip =>
    if s.Looping number ∧ s.marked = false then some { s with i := s.i + 1 } else none
  | .readEvents r =>
    if s.Looping number ∧ s.marked = true ∧ r.Permitted s.count then some (s.visit r).leave
    else none
  | .poll n revents =>
    if s.Waiting number then
      if n = 0 then some { s with revents := revents, returned := some s.nbEvents }
      else some { s with revents := revents, i := 0 }
    else none
  | .pollError errno =>
    if s.Waiting number ∧ errno ≠ 0 then
      if errno = EINTR then some s else some { s with returned := some (-errno) }
    else none

/-! ## What is right -/

/-- The events are in the array, and a call that returns their number has put them in front, in
their order. -/
structure Right (count : ℤ) (s : Polling ε) : Prop where
  inside : ∀ p ∈ s.written, 0 ≤ p ∧ p < count
  delivered : ∀ k, s.returned = some k → 0 ≤ k → Ring.load s.mem 0 k = s.delivered

/-- No sensor has failed in this call. -/
def Smooth (s : Polling ε) : Prop := ∀ x ∈ s.results, 0 ≤ x

instance (s : Polling ε) : Decidable s.Smooth :=
  inferInstanceAs (Decidable (∀ x ∈ s.results, 0 ≤ x))

/-- No sensor delivers while the results add up to less than zero, and none has failed where the
call returns with the array full, or with what there is. -/
def Ok (count : ℤ) : PollStep ε → Polling ε → Prop
  | .readEvents r, s =>
    (r.events ≠ [] → 0 ≤ s.results.sum) ∧ (s.results.sum + r.nb = count → s.Smooth)
  | .poll n _, s => n = 0 → s.results.sum < 0 ∨ s.Smooth
  | .skip, _ => True
  | .pollError _, _ => True

/-! ## The invariant -/

/-- What the steps keep as long as they meet the condition. -/
structure Inv (count : ℤ) (s : Polling ε) : Prop where
  data : s.data = s.results.sum
  nbEvents : s.nbEvents = s.results.sum
  room : s.count = count - s.results.sum
  nonneg : 0 ≤ s.count
  /-- Each error makes the sum smaller than the number of the events. -/
  sum_le : s.results.sum ≤ s.delivered.length
  sum_lt : s.results.sum < s.delivered.length ∨ s.Smooth
  smooth : s.Smooth → s.results.sum = s.delivered.length ∧
    Ring.load s.mem 0 s.delivered.length = s.delivered
  inside : ∀ p ∈ s.written, 0 ≤ p ∧ p < count
  returned : ∀ k, s.returned = some k → 0 ≤ k → k = s.results.sum ∧ s.Smooth

variable {count number : ℤ} {s} {s' : Polling ε} {a : PollStep ε} {r : Reply ε}

lemma inv_initial (hcount : 1 ≤ count) (revents : ℕ → Bool) (mem : ℤ → ε) :
    Inv count (initial count revents mem) where
  data := rfl
  nbEvents := rfl
  room := (Int.sub_zero count).symm
  nonneg := Int.le_of_lt hcount
  sum_le := Int.le_refl 0
  sum_lt := Or.inr nofun
  smooth := fun _ => ⟨rfl, rfl⟩
  inside := nofun
  returned := nofun

lemma Inv.right (hs : Inv count s) : Right count s where
  inside := hs.inside
  delivered k hk hnonneg := by
    obtain ⟨rfl, hsmooth⟩ := hs.returned k hk hnonneg
    obtain ⟨hsum, hload⟩ := hs.smooth hsmooth
    rw [hsum]
    exact hload

lemma smooth_visit : (s.visit r).Smooth ↔ s.Smooth ∧ 0 ≤ r.nb := by
  simp only [Smooth, visit, List.mem_append, List.mem_singleton, or_imp, forall_and,
    forall_eq]

lemma sum_visit : (s.visit r).results.sum = s.results.sum + r.nb := by
  simp only [visit, List.sum_append, List.sum_singleton]

lemma length_visit : (s.visit r).delivered.length = s.delivered.length + r.events.length :=
  List.length_append

/-- The events of a sensor go behind those that are there. -/
lemma Inv.visit (hs : Inv count s) (hret : s.returned = none) (hr : r.Permitted s.count)
    (hok : r.events ≠ [] → 0 ≤ s.results.sum) : Inv count (s.visit r) where
  data := by
    rw [sum_visit, ← hs.data]
    rfl
  nbEvents := by
    rw [sum_visit, ← hs.nbEvents]
    rfl
  room := by
    have := hs.room
    rw [sum_visit]
    show s.count - r.nb = _
    omega
  nonneg := by
    have := hs.nonneg
    show 0 ≤ s.count - r.nb
    rcases hr with ⟨-, hle⟩ | ⟨hneg, -⟩ <;> omega
  sum_le := by
    have := hs.sum_le
    rw [sum_visit, length_visit]
    rcases hr with ⟨heq, -⟩ | ⟨hneg, hnone⟩ <;> omega
  sum_lt := by
    rw [sum_visit, length_visit, smooth_visit]
    rcases hr with ⟨heq, -⟩ | ⟨hneg, hnone⟩
    · rcases hs.sum_lt with hlt | hsmooth
      · left
        omega
      · exact Or.inr ⟨hsmooth, by omega⟩
    · left
      have := hs.sum_le
      omega
  smooth := by
    rw [sum_visit, length_visit, smooth_visit]
    rintro ⟨hsmooth, hnonneg⟩
    obtain ⟨hsum, hload⟩ := hs.smooth hsmooth
    have hnb : r.nb = r.events.length := by
      rcases hr with ⟨heq, -⟩ | ⟨hneg, -⟩
      · exact heq
      · omega
    refine ⟨by omega, ?_⟩
    show Ring.load (Ring.store s.mem s.data r.events) 0 _ = s.delivered ++ r.events
    rw [hs.data, hsum, Int.natCast_add, Ring.load_store_behind, hload]
  inside := by
    intro p hp
    rcases List.mem_append.mp hp with hp | hp
    · exact hs.inside p hp
    obtain ⟨k, hk, rfl⟩ := List.mem_map.mp hp
    rw [List.mem_range] at hk
    have hne : r.events ≠ [] := fun h => absurd hk (by simp [h])
    have := hok hne
    have := hs.data
    have := hs.room
    rcases hr with ⟨heq, hle⟩ | ⟨-, hnone⟩ <;> omega
  returned := by
    intro k hk
    rw [show (s.visit r).returned = none from hret] at hk
    cases hk

/-- Where there is no room left, the call returns `count`. -/
lemma Inv.leave (hs : Inv count s) (hok : s.results.sum = count → s.Smooth) :
    Inv count s.leave := by
  unfold Polling.leave
  split_ifs with hfull
  · refine { hs with returned := fun k hk hnonneg => ?_ }
    obtain rfl : s.nbEvents = k := Option.some.inj hk
    have := hs.room
    exact ⟨hs.nbEvents, hok (by omega)⟩
  · exact hs

lemma Inv.keep (hs : Inv count s) (hok : Ok count a s) (hstep : s.step number a = some s') :
    Inv count s' := by
  cases a with
  | skip =>
    simp only [step] at hstep
    split_ifs at hstep
    obtain rfl := Option.some.inj hstep
    exact { hs with }
  | readEvents r =>
    simp only [step] at hstep
    split_ifs at hstep with hcan
    obtain rfl := Option.some.inj hstep
    obtain ⟨hloop, -, hr⟩ := hcan
    refine (hs.visit hloop.1 hr hok.1).leave fun hfull => ?_
    rw [sum_visit] at hfull
    refine smooth_visit.mpr ⟨hok.2 hfull, ?_⟩
    have := hs.room
    have := hs.nonneg
    omega
  | poll n revents =>
    simp only [step] at hstep
    split_ifs at hstep with hcan hnone
    · obtain rfl := Option.some.inj hstep
      refine { hs with returned := fun k hk hnonneg => ?_ }
      obtain rfl : s.nbEvents = k := Option.some.inj hk
      have hsum := hs.nbEvents
      exact ⟨hsum, (hok hnone).resolve_left (by omega)⟩
    · obtain rfl := Option.some.inj hstep
      exact { hs with }
  | pollError errno =>
    simp only [step] at hstep
    split_ifs at hstep with hcan hintr
    · obtain rfl := Option.some.inj hstep
      exact hs
    · obtain rfl := Option.some.inj hstep
      refine { hs with returned := fun k hk hnonneg => ?_ }
      obtain rfl := Option.some.inj hk
      have := hcan.2
      omega

/-! ## The condition is exact -/

/-- If the events that have been delivered are as many as the results say, there was no error. -/
lemma Inv.smooth_of_length (hs : Inv count s) (hlen : s.results.sum = s.delivered.length) :
    s.Smooth :=
  hs.sum_lt.resolve_left (Int.not_lt.mpr (Int.le_of_eq hlen.symm))

lemma leave_written (s : Polling ε) : s.leave.written = s.written := by
  unfold leave
  split_ifs <;> rfl

/-- An event is written at the place that the results add up to. -/
lemma Inv.sum_mem_written (hs : Inv count s) (hne : r.events ≠ []) :
    s.results.sum ∈ (s.visit r).leave.written := by
  rw [leave_written, ← hs.data]
  refine List.mem_append_right _ (List.mem_map.mpr ⟨0, ?_, Int.add_zero _⟩)
  exact List.mem_range.mpr (List.length_pos_iff.mpr hne)

lemma Inv.exact (hcount : 1 ≤ count) (hs : Inv count s) (hstep : s.step number a = some s')
    (hright : Right count s') : Ok count a s := by
  cases a with
  | skip => trivial
  | readEvents r =>
    simp only [step] at hstep
    split_ifs at hstep with hcan
    obtain rfl := Option.some.inj hstep
    obtain ⟨hloop, -, hr⟩ := hcan
    refine ⟨fun hne => (hright.inside _ (hs.sum_mem_written hne)).1, fun hfull => ?_⟩
    have hroom := hs.room
    have hnonneg := hs.nonneg
    have hnb : r.nb = r.events.length := by
      rcases hr with ⟨heq, -⟩ | ⟨hneg, -⟩
      · exact heq
      · omega
    have hleave : (s.visit r).leave = { s.visit r with returned := some (s.visit r).nbEvents } :=
      if_pos (show s.count - r.nb = 0 by omega)
    have hret : (s.visit r).nbEvents = count := by
      have := hs.nbEvents
      show s.nbEvents + r.nb = count
      omega
    rw [hleave, hret] at hright
    have hlen := congrArg List.length (hright.delivered count rfl (by omega))
    rw [Ring.length_load, length_visit] at hlen
    exact hs.smooth_of_length (by omega)
  | poll n revents =>
    intro hnone
    simp only [step] at hstep
    split_ifs at hstep with hcan
    obtain rfl := Option.some.inj hstep
    by_cases hneg : s.results.sum < 0
    · exact Or.inl hneg
    have hsum := hs.nbEvents
    have hload : Ring.load s.mem 0 s.nbEvents = s.delivered :=
      hright.delivered s.nbEvents rfl (by omega)
    have hlen := congrArg List.length hload
    rw [Ring.length_load] at hlen
    exact Or.inr (hs.smooth_of_length (by omega))
  | pollError errno => trivial

end Polling

/-- What `readEvents` of the sensors gives is permitted. -/
lemma Reads.Returns.permitted {δ : Type} {k : Kind} {a : ReadCall δ} {s : Reads δ} {ret : ℤ}
    {x : Scan δ} (hcount : 1 ≤ a.count) (h : Reads.Returns k a s (s.after a ret x)) :
    Reply.Permitted ⟨ret, x.data⟩ a.count := by
  have hlen : (s.samples ++ x.data).length = s.samples.length + ret.toNat := h.samples
  rw [List.length_append] at hlen
  by_cases hneg : ret < 0
  · exact Or.inr ⟨hneg, show x.data.length = 0 by omega⟩
  · exact Or.inl ⟨show ret = x.data.length by omega, h.le_count hcount⟩

/-- **When polling is right.**  In a call with `count`, whatever the sensors and `poll` answer, the
events stay in the array and are returned as they were delivered, as long as and only as long as
every answer meets the condition.  Answers as `readEvents` should give them are permitted. -/
theorem polls_iff {ε : Type} (fxos : Bool) (g : Globals) (count : ℤ) (hcount : 1 ≤ count)
    (revents : ℕ → Bool) (mem : ℤ → ε) (as : List (PollStep ε)) :
    (Along (Polling.step (number fxos g)) (Polling.Right count) (fun _ _ _ => True)
        (.initial count revents mem) as ↔
      Meets (Polling.step (number fxos g)) (Polling.Ok count) (.initial count revents mem) as) ∧
    ∀ {δ : Type} (k : Kind) (a : ReadCall δ) (s : Reads δ) (ret : ℤ) (x : Scan δ), 1 ≤ a.count →
      Reads.Returns k a s (s.after a ret x) → Reply.Permitted ⟨ret, x.data⟩ a.count := by
  refine ⟨?_, fun k a s ret x hcount h => h.permitted hcount⟩
  refine along_iff_meets (fun hs => hs.right) ?_ ?_ as (Polling.inv_initial hcount revents mem)
  · exact fun hs hok hstep => ⟨hs.keep hok hstep, trivial⟩
  · exact fun hs hstep _ hright => hs.exact hcount hstep hright

/-- Room for two events: one sensor brings one and another is not there, and the second comes with
the next poll. -/
theorem polls_iff_two : ∃ g : Globals, number false g = 2 ∧
    Along (Polling.step (number false g)) (Polling.Right 2) (fun _ _ _ => True)
      (.initial 2 (fun i => i == 0) fun _ => 0)
      [.readEvents ⟨1, [7]⟩, .skip, .poll 1 fun i => i == 1, .skip, .readEvents ⟨1, [8]⟩] := by
  refine ⟨⟨fun _ => ⟨true, true⟩, [freescaleOrientation, freescaleOrientation], Others.initial⟩,
    rfl, (polls_iff false _ 2 (by decide) _ _ _).1.mpr ?_⟩
  refine ⟨trivial, fun s hs => ⟨⟨fun _ => Int.le_refl 0, fun h => (nomatch h)⟩, ?_⟩⟩
  obtain rfl := Option.some.inj hs
  refine ⟨trivial, fun s hs => ⟨trivial, ?_⟩⟩
  obtain rfl := Option.some.inj hs
  refine ⟨trivial, fun s hs => ⟨fun h => (nomatch h), ?_⟩⟩
  obtain rfl := Option.some.inj hs
  refine ⟨trivial, fun s hs => ⟨trivial, ?_⟩⟩
  obtain rfl := Option.some.inj hs
  exact ⟨trivial, fun s hs => ⟨⟨fun _ => by decide, fun _ => by decide⟩, trivial⟩⟩

/-- The first sensor fails with `ENODEV`, and the event of the second goes in front of the array. -/
theorem polls_before_start : ∃ s : Polling ℕ,
    Runs (Polling.step 2) (fun _ _ => True) (.initial 1 (fun _ => true) fun _ => 0) s ∧
      s.written = [-19] ∧ ¬ Polling.Right 1 s := by
  obtain ⟨s, hrun, hwritten⟩ := exists_runs (Polling.step 2) (fun _ _ => True)
    (fun s => s.written = [-19]) (s := Polling.initial 1 (fun _ => true) fun _ => 0)
    [.readEvents ⟨-19, []⟩, .readEvents ⟨1, [7]⟩] (by decide +kernel)
  refine ⟨s, hrun, hwritten, fun hright => ?_⟩
  have hinside := hright.inside (-19) (by rw [hwritten]; exact List.mem_singleton_self _)
  exact absurd hinside.1 (by decide)

end Softwinner.Sensors
