import Mathlib.Data.Int.Notation
import Mathlib.Data.Nat.ModEq
import Mathlib.Tactic.Common

/-!
# The queues of the camera

`OSAL_Queue.c`.  A queue is a circular list of elements that is allocated once; an element
without data is free.  `OSAL_QueueCreate` makes one element less than its argument says, so the
queue of `n` holds `n - 1` entries.

`OsalQueue.Holds` relates the circular list to the sequence it stands for, and the three
operations are shown to be those of a bounded sequence: `push`, `pushNew` and `List.head?` with
`List.tail`.  The models of the camera's threads work on the sequence.
-/

namespace Softwinner.Camera

variable {α : Type}

/-! ## The circular list -/

/-- `OSAL_QUEUE`.  `slots` are the elements in the order of `qNext`, `first` and `last` the
positions the two pointers point to. -/
structure OsalQueue (α : Type) where
  slots : List (Option α)
  first : ℕ
  last : ℕ
  numElem : ℤ
  maxElem : ℕ

namespace OsalQueue

/-- `OSAL_QueueCreate`: the first element, and `maxElem - 2` more. -/
def create (α : Type) (maxQueueElem : ℕ) : OsalQueue α :=
  ⟨List.replicate (1 + (maxQueueElem - 2)) none, 0, 0, 0, maxQueueElem⟩

variable (q : OsalQueue α)

/-- The position `qNext` leads to. -/
def qNext (i : ℕ) : ℕ := (i + 1) % q.slots.length

/-- The test of both insertions. -/
def Full : Prop := q.slots[q.last]?.join.isSome ∨ (q.maxElem : ℤ) ≤ q.numElem

instance : Decidable q.Full := inferInstanceAs (Decidable (_ ∨ _))

/-- The common end of both insertions. -/
def insert (data : α) : OsalQueue α :=
  { q with
    slots := q.slots.set q.last (some data), last := q.qNext q.last, numElem := q.numElem + 1 }

/-- `OSAL_Queue`. -/
def queue (data : α) : ℤ × OsalQueue α := if q.Full then (-1, q) else (0, q.insert data)

/-- `OSAL_Dequeue`; `none` is a null pointer. -/
def dequeue : Option α × OsalQueue α :=
  match q.slots[q.first]?.join with
  | none => (none, q)
  | some data =>
    if q.numElem ≤ 0 then (none, q)
    else (some data, { q with
      slots := q.slots.set q.first none, first := q.qNext q.first, numElem := q.numElem - 1 })

/-- `OSAL_QueueSetElem`.  The loop over the elements does not move, so it looks at the first and
at the last element only. -/
def queueSetElem [DecidableEq α] (data : α) : ℤ × OsalQueue α :=
  if q.Full then (-1, q)
  else if 0 < q.numElem ∧
      (q.slots[q.first]?.join = some data ∨ q.slots[q.last]?.join = some data) then (0, q)
  else (0, q.insert data)

/-! ## The sequence it stands for -/

/-- The queue holds `xs`, the entry to be taken next in front. -/
structure Holds (q : OsalQueue α) (xs : List α) : Prop where
  room : q.slots.length ≤ q.maxElem
  fits : xs.length ≤ q.slots.length
  first_lt : q.first < q.slots.length
  last_eq : q.last = (q.first + xs.length) % q.slots.length
  numElem_eq : q.numElem = xs.length
  cells : ∀ j < q.slots.length, q.slots[(q.first + j) % q.slots.length]? = some xs[j]?

variable {q} {xs : List α} {a : α}

lemma holds_create {n : ℕ} (hn : 1 ≤ n) : (create α n).Holds [] := by
  refine ⟨?_, by simp, ?_, by simp [create], rfl, fun j hj => ?_⟩
  · simp only [create, List.length_replicate]
    omega
  · simp only [create, List.length_replicate]
    omega
  · simp only [create, List.length_replicate] at hj ⊢
    rw [List.getElem?_replicate, if_pos (Nat.mod_lt _ (by omega))]
    rfl

/-- Different offsets lead to different elements. -/
lemma offset_inj {n f i j : ℕ} (hi : i < n) (hj : j < n) (h : (f + i) % n = (f + j) % n) :
    i = j :=
  Nat.ModEq.eq_of_lt_of_lt (Nat.ModEq.add_left_cancel' f h) hi hj

/-- The last element is free as long as not all are taken. -/
lemma Holds.full_iff (hq : q.Holds xs) : q.Full ↔ xs.length = q.slots.length := by
  have hroom := hq.room
  have hfits := hq.fits
  have hnum := hq.numElem_eq
  have hfirst := hq.first_lt
  unfold Full
  constructor
  · rintro (hlast | hmax)
    · by_contra hne
      rw [hq.last_eq, hq.cells xs.length (by omega)] at hlast
      simp at hlast
    · omega
  · intro hall
    left
    -- all elements are taken, so `last` has come round to `first`
    have hcell := hq.cells 0 (by omega)
    rw [Nat.add_zero] at hcell
    rw [hq.last_eq, hall, Nat.add_mod_right, hcell]
    have hpos : 0 < xs.length := by omega
    simp [hpos]

lemma Holds.insert (hq : q.Holds xs) (hlt : xs.length < q.slots.length) :
    (q.insert a).Holds (xs ++ [a]) := by
  have hnum := hq.numElem_eq
  refine ⟨by simpa [OsalQueue.insert] using hq.room, ?_,
    by simpa [OsalQueue.insert] using hq.first_lt, ?_, ?_, fun j hj => ?_⟩
  · simp only [OsalQueue.insert, List.length_set, List.length_append, List.length_singleton]
    omega
  · simp only [OsalQueue.insert, qNext, List.length_set, hq.last_eq, List.length_append,
      List.length_singleton, Nat.mod_add_mod, Nat.add_assoc]
  · simp only [OsalQueue.insert, List.length_append, List.length_singleton]
    omega
  · simp only [OsalQueue.insert, List.length_set] at hj ⊢
    by_cases hjx : j = xs.length
    · subst hjx
      rw [hq.last_eq, List.getElem?_set_self (Nat.mod_lt _ (by omega))]
      simp
    · have hne : q.last ≠ (q.first + j) % q.slots.length := by
        rw [hq.last_eq]
        exact fun heq => hjx (offset_inj hlt hj heq).symm
      rw [List.getElem?_set_ne hne, hq.cells j hj]
      by_cases hjlt : j < xs.length
      · rw [List.getElem?_append_left hjlt]
      · rw [List.getElem?_eq_none (by omega), List.getElem?_eq_none (by simp; omega)]

end OsalQueue

/-! ## Bounded sequences -/

/-- `OSAL_Queue` on a sequence with room for `cap` entries. -/
def push (cap : ℕ) (xs : List α) (a : α) : Option (List α) :=
  if xs.length < cap then some (xs ++ [a]) else none

lemma push_eq_some {cap : ℕ} {xs ys : List α} {a : α} :
    push cap xs a = some ys ↔ xs.length < cap ∧ xs ++ [a] = ys := by
  unfold push
  split_ifs with hlt
  · simp [hlt]
  · simp [hlt]

/-- `OSAL_QueueSetElem` on a sequence: nothing is added if the entry is the next one already. -/
def pushNew [DecidableEq α] (cap : ℕ) (xs : List α) (a : α) : Option (List α) :=
  if xs.length < cap then some (if xs.head? = some a then xs else xs ++ [a]) else none

namespace OsalQueue

variable {q : OsalQueue α} {xs : List α} {a : α}

/-- `OSAL_Queue` adds at the end, or refuses a full queue. -/
theorem queue_holds (hq : q.Holds xs) (a : α) :
    match push q.slots.length xs a with
    | some ys => (q.queue a).1 = 0 ∧ (q.queue a).2.Holds ys
    | none => q.queue a = (-1, q) := by
  have hfits := hq.fits
  unfold push queue
  by_cases hlt : xs.length < q.slots.length
  · rw [if_pos hlt, if_neg (by rw [hq.full_iff]; omega)]
    exact ⟨rfl, hq.insert hlt⟩
  · rw [if_neg hlt, if_pos (by rw [hq.full_iff]; omega)]

/-- `OSAL_Dequeue` takes the first entry. -/
theorem dequeue_holds (hq : q.Holds xs) :
    q.dequeue.1 = xs.head? ∧ q.dequeue.2.Holds xs.tail := by
  have hfirst := hq.first_lt
  have hnum := hq.numElem_eq
  have hcell : q.slots[q.first]? = some xs[0]? := by
    have hcell := hq.cells 0 (by omega)
    rwa [Nat.add_zero, Nat.mod_eq_of_lt hfirst] at hcell
  unfold dequeue
  rw [hcell]
  cases xs with
  | nil => exact ⟨rfl, hq⟩
  | cons x xs =>
    simp only [List.length_cons] at hnum
    simp only [List.getElem?_cons_zero, Option.join_some, List.head?_cons, List.tail_cons]
    rw [if_neg (by omega)]
    have hfits := hq.fits
    simp only [List.length_cons] at hfits
    refine ⟨rfl, by simpa using hq.room, by simp; omega, ?_, ?_, ?_, ?_⟩
    · simp only [qNext, List.length_set]
      exact Nat.mod_lt _ (by omega)
    · simp only [qNext, List.length_set, Nat.mod_add_mod, hq.last_eq, List.length_cons]
      congr 1
      omega
    · simp only
      omega
    · intro j hj
      simp only [qNext, List.length_set, Nat.mod_add_mod] at hj ⊢
      have hshift : q.first + 1 + j = q.first + (j + 1) := by omega
      rw [hshift]
      by_cases hjn : j + 1 < q.slots.length
      · have hne : q.first ≠ (q.first + (j + 1)) % q.slots.length := by
          intro heq
          have hzero : (q.first + 0) % q.slots.length = (q.first + (j + 1)) % q.slots.length := by
            rwa [Nat.add_zero, Nat.mod_eq_of_lt hfirst]
          exact absurd (offset_inj (by omega) hjn hzero) (by omega)
        rw [List.getElem?_set_ne hne, hq.cells (j + 1) hjn, List.getElem?_cons_succ]
      · -- the element that has just been freed
        have hlast : j + 1 = q.slots.length := by omega
        rw [hlast, Nat.add_mod_right, Nat.mod_eq_of_lt hfirst, List.getElem?_set_self hfirst,
          List.getElem?_eq_none (by omega)]

/-- `OSAL_QueueSetElem` adds an entry unless it is the next one to be taken. -/
theorem queueSetElem_holds [DecidableEq α] (hq : q.Holds xs) (a : α) :
    match pushNew q.slots.length xs a with
    | some ys => (q.queueSetElem a).1 = 0 ∧ (q.queueSetElem a).2.Holds ys
    | none => q.queueSetElem a = (-1, q) := by
  have hfits := hq.fits
  have hfirst := hq.first_lt
  have hnum := hq.numElem_eq
  unfold pushNew queueSetElem
  by_cases hlt : xs.length < q.slots.length
  swap
  · rw [if_neg hlt, if_pos (by rw [hq.full_iff]; omega)]
  have hroom : ¬ q.Full := by
    rw [hq.full_iff]
    omega
  rw [if_pos hlt]
  simp only [if_neg hroom]
  have hcell : q.slots[q.first]? = some xs[0]? := by
    have hcell := hq.cells 0 (by omega)
    rwa [Nat.add_zero, Nat.mod_eq_of_lt hfirst] at hcell
  have hlast : q.slots[q.last]?.join = none := by
    rw [hq.last_eq, hq.cells xs.length hlt]
    simp
  have hsame : (0 < q.numElem ∧
      (q.slots[q.first]?.join = some a ∨ q.slots[q.last]?.join = some a)) ↔
      xs.head? = some a := by
    rw [hcell, hlast, hnum, List.head?_eq_getElem?]
    cases xs with
    | nil => simp
    | cons x xs =>
      simp only [List.length_cons, List.getElem?_cons_zero, Option.join_some]
      constructor
      · rintro ⟨-, hx | hx⟩
        · exact hx
        · cases hx
      · intro hx
        exact ⟨by omega, Or.inl hx⟩
  simp only [hsame]
  by_cases hhead : xs.head? = some a
  · simp only [if_pos hhead]
    exact ⟨trivial, hq⟩
  · simp only [if_neg hhead]
    exact ⟨trivial, hq.insert hlt⟩

end OsalQueue

end Softwinner.Camera
