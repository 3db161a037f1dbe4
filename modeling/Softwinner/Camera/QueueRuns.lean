import Mathlib.Data.List.Nodup
import Mathlib.Data.List.Perm.Subperm
import Softwinner.Camera.OsalQueue
import Softwinner.Framework.Runs

/-!
# The queues of the camera over whole runs

What any sequence of calls makes of a queue of `OSAL_Queue.c` (`queue_fifo`), how
`OSAL_QueueTerminate` takes it apart, and when `OSAL_QueueSetElem` keeps its entries different
(`queueSetElem_iff`).
-/

namespace Softwinner.Camera

open Framework

variable {α : Type}

namespace OsalQueue

/-- The loop of `OSAL_QueueTerminate` with `n` turns left, and the `free` behind it: the positions
that are freed, in their order.  Each `qNext` is read before its element is freed. -/
def freeFrom (q : OsalQueue α) : ℕ → ℕ → List ℕ
  | 0, first => [first]
  | n + 1, first => first :: q.freeFrom n (q.qNext first)

def queueTerminate (q : OsalQueue α) : List ℕ := q.freeFrom (q.maxElem - 2) q.first

/-- The entries from `first` on. -/
def contents (q : OsalQueue α) : List α :=
  (List.range q.numElem.toNat).filterMap fun j =>
    q.slots[(q.first + j) % q.slots.length]?.join

variable {q q' : OsalQueue α} {xs : List α}

lemma Holds.contents_eq (hq : q.Holds xs) : q.contents = xs := by
  have htake : ∀ m ≤ xs.length, ((List.range m).filterMap fun j =>
      q.slots[(q.first + j) % q.slots.length]?.join) = xs.take m := fun m hm => by
    induction m with
    | zero => rfl
    | succ m ih =>
      have hcell := hq.cells m (Nat.lt_of_lt_of_le hm hq.fits)
      rw [List.range_succ, List.filterMap_append, ih (Nat.le_of_succ_le hm), List.take_add_one,
        List.filterMap_cons, hcell, Option.join_some]
      cases xs[m]? <;> rfl
  rw [contents, hq.numElem_eq, Int.toNat_natCast, htake _ (Nat.le_refl _), List.take_length]

lemma freeFrom_eq {i : ℕ} (n : ℕ) (hi : i < q.slots.length) :
    q.freeFrom n i = (List.range (n + 1)).map fun j => (i + j) % q.slots.length := by
  induction n generalizing i with
  | zero => simp [freeFrom, Nat.mod_eq_of_lt hi]
  | succ n ih =>
    have hpos : 0 < q.slots.length := Nat.lt_of_le_of_lt (Nat.zero_le i) hi
    have hnext : q.qNext i < q.slots.length := Nat.mod_lt _ hpos
    rw [freeFrom, ih hnext, List.range_succ_eq_map (n := n + 1), List.map_cons, List.map_map]
    refine congrArg₂ _ (Nat.mod_eq_of_lt hi).symm (List.map_congr_left fun j _ => ?_)
    show (q.qNext i + j) % q.slots.length = (i + (j + 1)) % q.slots.length
    rw [qNext, Nat.mod_add_mod, Nat.add_assoc, Nat.add_comm 1 j]

/-- The ring is taken apart once around. -/
lemma Holds.queueTerminate_perm (hq : q.Holds xs) (hlen : q.slots.length = q.maxElem - 2 + 1) :
    q.queueTerminate.Perm (List.range q.slots.length) := by
  rw [queueTerminate, freeFrom_eq _ hq.first_lt, ← hlen]
  have hnodup : ((List.range q.slots.length).map fun j =>
      (q.first + j) % q.slots.length).Nodup := by
    refine List.Nodup.map_on (fun i hi j hj h => ?_) List.nodup_range
    exact offset_inj (List.mem_range.mp hi) (List.mem_range.mp hj) h
  have hsub : ((List.range q.slots.length).map fun j => (q.first + j) % q.slots.length) ⊆
      List.range q.slots.length := by
    intro i hi
    obtain ⟨j, -, rfl⟩ := List.mem_map.mp hi
    exact List.mem_range.mpr (Nat.mod_lt _ (Nat.lt_of_le_of_lt (Nat.zero_le _) hq.first_lt))
  exact (List.subperm_of_subset hnodup hsub).perm_of_length_le (by simp)

/-- No call changes the elements that there are. -/
def SameSize (q q' : OsalQueue α) : Prop :=
  q'.slots.length = q.slots.length ∧ q'.maxElem = q.maxElem

lemma sameSize_queue (data : α) : q.SameSize (q.queue data).2 := by
  unfold queue
  split_ifs
  · exact ⟨rfl, rfl⟩
  · exact ⟨List.length_set, rfl⟩

lemma sameSize_dequeue : q.SameSize q.dequeue.2 := by
  unfold dequeue
  cases q.slots[q.first]?.join with
  | none => exact ⟨rfl, rfl⟩
  | some data =>
    simp only
    split_ifs
    · exact ⟨rfl, rfl⟩
    · exact ⟨List.length_set, rfl⟩

lemma dequeue_none : q.dequeue.1 = none → q.dequeue.2 = q := by
  unfold dequeue
  cases q.slots[q.first]?.join with
  | none => exact fun _ => rfl
  | some data =>
    simp only
    split_ifs
    · exact fun _ => rfl
    · exact fun h => nomatch h

lemma sameSize_queueSetElem [DecidableEq α] (data : α) : q.SameSize (q.queueSetElem data).2 := by
  unfold queueSetElem
  split_ifs
  · exact ⟨rfl, rfl⟩
  · exact ⟨rfl, rfl⟩
  · exact ⟨List.length_set, rfl⟩

/-- With room, an entry that is the next one already changes nothing, and another one is added. -/
lemma Holds.queueSetElem_eq [DecidableEq α] (hq : q.Holds xs) (hroom : ¬ q.Full) (data : α) :
    (xs.head? = some data → (q.queueSetElem data).2 = q) ∧
      (xs.head? ≠ some data → (q.queueSetElem data).2.Holds (xs ++ [data])) := by
  have hlt : xs.length < q.slots.length :=
    Nat.lt_of_le_of_ne hq.fits fun h => hroom (hq.full_iff.mpr h)
  have hset := queueSetElem_holds hq data
  unfold pushNew at hset
  rw [if_pos hlt] at hset
  refine ⟨fun hhead => ?_, fun hne => ?_⟩
  · rw [if_pos hhead] at hset
    obtain ⟨-, hsame⟩ := hset
    unfold queueSetElem at hsame ⊢
    rw [if_neg hroom] at hsame ⊢
    split_ifs at hsame ⊢
    · rfl
    · -- the sequence would be longer
      have hlen := hsame.numElem_eq
      rw [(hq.insert (a := data) hlt).numElem_eq, List.length_append, List.length_singleton] at hlen
      omega
  · rw [if_neg hne] at hset
    exact hset.2

end OsalQueue

/-! ## Runs -/

inductive QueueCall (α : Type)
  | queue (data : α)
  | dequeue
  | queueSetElem (data : α)

/-- A queue, the entries that it has taken, and those that it has given. -/
structure QueueRun (α : Type) where
  queue : OsalQueue α
  accepted : List α
  delivered : List α

namespace QueueRun

def initial (α : Type) (maxQueueElem : ℕ) : QueueRun α := ⟨.create α maxQueueElem, [], []⟩

/-- A call.  `OSAL_QueueSetElem` has taken its entry if there is one more behind it. -/
def step [DecidableEq α] (s : QueueRun α) : QueueCall α → Option (QueueRun α)
  | .queue data =>
    let r := s.queue.queue data
    some ⟨r.2, if r.1 = 0 then s.accepted ++ [data] else s.accepted, s.delivered⟩
  | .dequeue =>
    let r := s.queue.dequeue
    some ⟨r.2, s.accepted, s.delivered ++ r.1.toList⟩
  | .queueSetElem data =>
    let q := (s.queue.queueSetElem data).2
    some ⟨q, if s.queue.numElem < q.numElem then s.accepted ++ [data] else s.accepted, s.delivered⟩

/-- What the calls keep. -/
structure Inv (maxQueueElem : ℕ) (s : QueueRun α) (xs : List α) : Prop where
  holds : s.queue.Holds xs
  length : s.queue.slots.length = 1 + (maxQueueElem - 2)
  maxElem : s.queue.maxElem = maxQueueElem
  fifo : s.accepted = s.delivered ++ xs

variable {maxQueueElem : ℕ} {s s' : QueueRun α} {a : QueueCall α} {xs : List α}

lemma inv_initial (hn : 1 ≤ maxQueueElem) : Inv maxQueueElem (initial α maxQueueElem) [] :=
  ⟨OsalQueue.holds_create hn, List.length_replicate, rfl, rfl⟩

lemma Inv.after {q : OsalQueue α} {ys accepted delivered : List α} (hs : Inv maxQueueElem s xs)
    (hsize : s.queue.SameSize q) (hq : q.Holds ys) (hfifo : accepted = delivered ++ ys) :
    Inv maxQueueElem ⟨q, accepted, delivered⟩ ys :=
  ⟨hq, hsize.1.trans hs.length, hsize.2.trans hs.maxElem, hfifo⟩

/-- One call; the entry of an insertion that is refused is not taken. -/
lemma Inv.step [DecidableEq α] (hs : Inv maxQueueElem s xs) (hstep : s.step a = some s') :
    ∃ ys, Inv maxQueueElem s' ys := by
  cases a with
  | queue data =>
    simp only [QueueRun.step, Option.some.injEq] at hstep
    subst hstep
    have hsize := OsalQueue.sameSize_queue (q := s.queue) data
    have hqueue := OsalQueue.queue_holds hs.holds data
    unfold push at hqueue
    split_ifs at hqueue with hroom
    · refine ⟨xs ++ [data], hs.after hsize hqueue.2 ?_⟩
      rw [if_pos hqueue.1, hs.fifo, List.append_assoc]
    · simp only at hqueue
      rw [hqueue]
      exact ⟨xs, hs.after ⟨rfl, rfl⟩ hs.holds hs.fifo⟩
  | dequeue =>
    simp only [QueueRun.step, Option.some.injEq] at hstep
    subst hstep
    obtain ⟨hdata, hq⟩ := OsalQueue.dequeue_holds hs.holds
    refine ⟨xs.tail, hs.after OsalQueue.sameSize_dequeue hq ?_⟩
    rw [hdata, hs.fifo, List.append_assoc]
    cases xs <;> rfl
  | queueSetElem data =>
    simp only [QueueRun.step, Option.some.injEq] at hstep
    subst hstep
    have hsize := OsalQueue.sameSize_queueSetElem (q := s.queue) data
    have hset := OsalQueue.queueSetElem_holds hs.holds data
    unfold pushNew at hset
    split_ifs at hset with hroom hhead
    · refine ⟨xs, hs.after hsize hset.2 ?_⟩
      rw [if_neg (by rw [hset.2.numElem_eq, hs.holds.numElem_eq]; exact Int.lt_irrefl _)]
      exact hs.fifo
    · refine ⟨xs ++ [data], hs.after hsize hset.2 ?_⟩
      rw [if_pos, hs.fifo, List.append_assoc]
      rw [hset.2.numElem_eq, hs.holds.numElem_eq, List.length_append, List.length_singleton]
      omega
    · simp only at hset
      rw [hset]
      refine ⟨xs, hs.after ⟨rfl, rfl⟩ hs.holds ?_⟩
      rw [if_neg (Int.lt_irrefl _)]
      exact hs.fifo

lemma exists_inv [DecidableEq α] (hn : 1 ≤ maxQueueElem)
    (hrun : Runs QueueRun.step (fun _ _ => True) (initial α maxQueueElem) s) :
    ∃ xs, Inv maxQueueElem s xs := by
  refine Runs.invariant (P := fun s => ∃ xs, Inv maxQueueElem s xs) ?_ ⟨[], inv_initial hn⟩ hrun
  intro s s' a hs _ hstep
  obtain ⟨xs, hs⟩ := hs
  exact hs.step hstep

end QueueRun

/-- **A queue is first in, first out.**  After any calls on a queue for `maxQueueElem`, what it has
given and what is in it are what it has taken, in that order; `numElem` is the number of its
entries; `OSAL_Queue` refuses exactly when there are as many as it has elements, changes nothing
then, and otherwise takes its entry as the last one; `OSAL_Dequeue` gives the first entry, and
nothing exactly when there is none, and changes nothing then; and `OSAL_QueueTerminate` frees each
element once. -/
theorem queue_fifo [DecidableEq α] (maxQueueElem : ℕ) (hn : 1 ≤ maxQueueElem) (s : QueueRun α)
    (hrun : Runs QueueRun.step (fun _ _ => True) (.initial α maxQueueElem) s) :
    s.accepted = s.delivered ++ s.queue.contents ∧
    s.queue.numElem = s.queue.contents.length ∧
    (∀ data, ((s.queue.queue data).1 = -1 ↔
        s.queue.contents.length = Nat.max 1 (maxQueueElem - 1)) ∧
      ((s.queue.queue data).1 = -1 → (s.queue.queue data).2 = s.queue) ∧
      (s.queue.contents.length < Nat.max 1 (maxQueueElem - 1) → (s.queue.queue data).1 = 0 ∧
        (s.queue.queue data).2.contents = s.queue.contents ++ [data])) ∧
    (s.queue.dequeue.1 = none ↔ s.queue.contents = []) ∧
    (s.queue.dequeue.1 = none → s.queue.dequeue.2 = s.queue) ∧
    (s.queue.dequeue.1 = s.queue.contents.head? ∧
      s.queue.dequeue.2.contents = s.queue.contents.tail) ∧
    s.queue.queueTerminate.Perm (List.range s.queue.slots.length) := by
  obtain ⟨xs, hs⟩ := QueueRun.exists_inv hn hrun
  have hmax : s.queue.slots.length = Nat.max 1 (maxQueueElem - 1) := by
    rw [hs.length]
    by_cases hone : 1 ≤ maxQueueElem - 1
    · exact (show 1 + (maxQueueElem - 2) = maxQueueElem - 1 by omega).trans
        (Nat.max_eq_right hone).symm
    · exact (show 1 + (maxQueueElem - 2) = 1 by omega).trans
        (Nat.max_eq_left (by omega)).symm
  rw [hs.holds.contents_eq]
  refine ⟨hs.fifo, hs.holds.numElem_eq, fun data => ⟨?_, ?_, fun hroom => ?_⟩, ?_, ?_, ?_, ?_⟩
  · rw [← hmax, ← hs.holds.full_iff, OsalQueue.queue]
    split_ifs with hfull <;> simp [hfull]
  · rw [OsalQueue.queue]
    split_ifs
    · exact fun _ => rfl
    · exact fun h => absurd h (by decide)
  · have hqueue := OsalQueue.queue_holds hs.holds data
    rw [push, if_pos (hmax ▸ hroom)] at hqueue
    exact ⟨hqueue.1, hqueue.2.contents_eq⟩
  · rw [(OsalQueue.dequeue_holds hs.holds).1, List.head?_eq_none_iff]
  · exact OsalQueue.dequeue_none
  · obtain ⟨hhead, htail⟩ := OsalQueue.dequeue_holds hs.holds
    exact ⟨hhead, htail.contents_eq⟩
  · exact hs.holds.queueTerminate_perm (by rw [hs.length, hs.maxElem, Nat.add_comm])

/-- A queue for three, which has two elements: the third entry is refused, and behind the first
`OSAL_Dequeue` there is room again. -/
theorem queue_fifo_three : ∃ s : QueueRun ℕ,
    Runs QueueRun.step (fun _ _ => True) (.initial ℕ 3) s ∧ s.delivered = [7] ∧
      s.accepted = [7, 8, 10] ∧ s.queue.queueTerminate.Perm [0, 1] ∧
      s.accepted = s.delivered ++ s.queue.contents := by
  obtain ⟨s, hrun, hdelivered, haccepted, hlen⟩ := exists_runs QueueRun.step (fun _ _ => True)
    (fun s => s.delivered = [7] ∧ s.accepted = [7, 8, 10] ∧ s.queue.slots.length = 2)
    (s := QueueRun.initial ℕ 3)
    [.queue 7, .queue 8, .queue 9, .dequeue, .queue 10] (by decide +kernel)
  obtain ⟨hfifo, -, -, -, -, -, hperm⟩ := queue_fifo 3 (by decide) s hrun
  rw [hlen] at hperm
  exact ⟨s, hrun, hdelivered, haccepted, hperm, hfifo⟩

/-- **When `OSAL_QueueSetElem` does not duplicate.**  After any calls, with room for one more entry,
it leaves the queue as it is if the entry is in it and appends it otherwise, if and only if the
entry is not in the queue or is the next one to be taken. -/
theorem queueSetElem_iff [DecidableEq α] (maxQueueElem : ℕ) (hn : 1 ≤ maxQueueElem)
    (s : QueueRun α)
    (hrun : Runs QueueRun.step (fun _ _ => True) (.initial α maxQueueElem) s)
    (hroom : ¬ s.queue.Full) (x : α) :
    (x ∈ s.queue.contents → (s.queue.queueSetElem x).2 = s.queue) ∧
        (x ∉ s.queue.contents →
          (s.queue.queueSetElem x).2.contents = s.queue.contents ++ [x]) ↔
      (x ∈ s.queue.contents → s.queue.contents.head? = some x) := by
  obtain ⟨xs, hs⟩ := QueueRun.exists_inv hn hrun
  obtain ⟨hsame, hadd⟩ := hs.holds.queueSetElem_eq hroom x
  rw [hs.holds.contents_eq]
  constructor
  · rintro ⟨hkeep, -⟩ hx
    by_contra hne
    have hlen := (hadd hne).numElem_eq
    rw [hkeep hx, hs.holds.numElem_eq, List.length_append, List.length_singleton] at hlen
    omega
  · refine fun hhead => ⟨fun hx => hsame (hhead hx), fun hx => (hadd fun h => hx ?_).contents_eq⟩
    exact List.mem_of_mem_head? h

/-- The first of two entries is not added again. -/
theorem queueSetElem_iff_two : ∃ s : QueueRun ℕ,
    Runs QueueRun.step (fun _ _ => True) (.initial ℕ 4) s ∧ s.queue.contents = [7, 8] ∧
      (s.queue.queueSetElem 7).2 = s.queue := by
  obtain ⟨s, hrun, hcontents, hroom⟩ := exists_runs QueueRun.step (fun _ _ => True)
    (fun s => s.queue.contents = [7, 8] ∧ ¬ s.queue.Full)
    (s := QueueRun.initial ℕ 4) [.queue 7, .queueSetElem 8] (by decide +kernel)
  have hset := (queueSetElem_iff 4 (by decide) s hrun hroom 7).mpr fun _ => by rw [hcontents]; rfl
  exact ⟨s, hrun, hcontents, hset.1 (by rw [hcontents]; decide)⟩

/-- The second of two entries is added once more. -/
theorem queueSetElem_duplicates : ∃ s : QueueRun ℕ,
    Runs QueueRun.step (fun _ _ => True) (.initial ℕ 4) s ∧ s.queue.contents = [7, 8] ∧
      ¬ s.queue.Full ∧ (s.queue.queueSetElem 8).2.contents = [7, 8, 8] := by
  obtain ⟨s, hrun, hcontents, hroom, hset⟩ := exists_runs QueueRun.step (fun _ _ => True)
    (fun s => s.queue.contents = [7, 8] ∧ ¬ s.queue.Full ∧
      (s.queue.queueSetElem 8).2.contents = [7, 8, 8])
    (s := QueueRun.initial ℕ 4) [.queue 7, .queue 8] (by decide +kernel)
  exact ⟨s, hrun, hcontents, hroom, hset⟩

end Softwinner.Camera
