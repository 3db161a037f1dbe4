import Mathlib.Data.Set.Basic
import Mathlib.Logic.Function.Basic
import Mathlib.Logic.Relation
import Mathlib.Order.WellFounded
import Mathlib.Order.RelClasses

/-!
# Mutexes that are taken in order

What a call does to mutexes is a list of operations.  `Ordered` calls take a mutex only above all
that they hold, and release only what they hold.  Any number of threads makes such calls, one after
the other.  If all calls are ordered and end with nothing held, no set of threads can wait for each
other (`not_deadlock_of_reach`), and as long as one thread is in a call, some thread can go on
(`exists_step_of_reach`).
-/

namespace Framework

/-- An operation on a mutex. -/
inductive LockOp (M : Type)
  | lock (m : M)
  | unlock (m : M)
  deriving DecidableEq

namespace LockOp

variable {M : Type} [DecidableEq M]

/-- The mutexes that are held after some operations. -/
def held (h : List M) : List (LockOp M) → List M
  | [] => h
  | .lock m :: ops => held (m :: h) ops
  | .unlock m :: ops => held (h.erase m) ops

/-- A mutex is taken only above all that are held, and only those are released. -/
def Ordered [LT M] (h : List M) : List (LockOp M) → Prop
  | [] => True
  | .lock m :: ops => (∀ k ∈ h, k < m) ∧ Ordered (m :: h) ops
  | .unlock m :: ops => m ∈ h ∧ Ordered (h.erase m) ops

/-- The operations are ordered and leave what is held as it is. -/
structure Neutral [LT M] (h : List M) (ops : List (LockOp M)) : Prop where
  ordered : Ordered h ops
  held : held h ops = h

variable {h : List M} {ops ops' : List (LockOp M)} {m : M}

@[simp] lemma held_append : held h (ops ++ ops') = held (held h ops) ops' := by
  induction ops generalizing h with
  | nil => rfl
  | cons op ops ih =>
    cases op with
    | lock m => exact ih
    | unlock m => exact ih

section Preorder

variable [Preorder M]

@[simp] lemma ordered_append :
    Ordered h (ops ++ ops') ↔ Ordered h ops ∧ Ordered (held h ops) ops' := by
  induction ops generalizing h with
  | nil => exact ⟨fun h => ⟨trivial, h⟩, fun h => h.2⟩
  | cons op ops ih =>
    cases op with
    | lock m =>
      simp only [List.cons_append, Ordered, held, ih]
      exact and_assoc.symm
    | unlock m =>
      simp only [List.cons_append, Ordered, held, ih]
      exact and_assoc.symm

lemma Neutral.nil : Neutral h [] := ⟨trivial, rfl⟩

lemma Neutral.append (hops : Neutral h ops) (hops' : Neutral h ops') : Neutral h (ops ++ ops') := by
  refine ⟨ordered_append.mpr ⟨hops.ordered, ?_⟩, ?_⟩
  · rw [hops.held]
    exact hops'.ordered
  · rw [held_append, hops.held, hops'.held]

lemma Neutral.ite {p : Prop} [Decidable p] (hops : p → Neutral h ops)
    (hops' : ¬ p → Neutral h ops') : Neutral h (if p then ops else ops') := by
  split
  · exact hops ‹_›
  · exact hops' ‹_›

/-- A mutex around what is neutral. -/
lemma Neutral.locked (hm : ∀ k ∈ h, k < m) (hops : Neutral (m :: h) ops) :
    Neutral h (.lock m :: (ops ++ [.unlock m])) := by
  have hheld := hops.held
  refine ⟨⟨hm, ordered_append.mpr ⟨hops.ordered, ?_⟩⟩, ?_⟩
  · rw [hheld]
    exact ⟨List.mem_cons_self .., trivial⟩
  · show LockOp.held (m :: h) (ops ++ [.unlock m]) = h
    rw [held_append, hheld]
    exact List.erase_cons_head ..

lemma Neutral.lockUnlock (hm : ∀ k ∈ h, k < m) : Neutral h [.lock m, .unlock m] :=
  Neutral.locked hm Neutral.nil

/-- Two mutexes of which the first is released before the second. -/
lemma Neutral.handOver {a b : M} (hab : a < b) (hops : Neutral [b, a] ops)
    (hops' : Neutral [b] ops') :
    Neutral [] (.lock a :: .lock b :: (ops ++ .unlock a :: (ops' ++ [.unlock b]))) := by
  have herase : [b, a].erase a = [b] := by
    rw [List.erase_cons_tail (by simpa using hab.ne'), List.erase_cons_head]
  have hheld := hops.held
  have hheld' := hops'.held
  refine ⟨⟨nofun, by simpa using hab, ordered_append.mpr ⟨hops.ordered, ?_⟩⟩, ?_⟩
  · rw [hheld]
    refine ⟨by simp, ?_⟩
    rw [herase, ordered_append, hheld']
    exact ⟨hops'.ordered, List.mem_cons_self .., trivial⟩
  · show LockOp.held [b, a] (ops ++ .unlock a :: (ops' ++ [.unlock b])) = []
    rw [held_append, hheld]
    show LockOp.held ([b, a].erase a) (ops' ++ [.unlock b]) = []
    rw [herase, held_append, hheld']
    exact List.erase_cons_head ..

/-- The operations written out: every operation is one behind some others. -/
structure Disciplined (ops : List (LockOp M)) : Prop where
  order : ∀ pre m post, ops = pre ++ .lock m :: post → ∀ k ∈ LockOp.held [] pre, k < m
  notHeld : ∀ pre m post, ops = pre ++ .lock m :: post → m ∉ LockOp.held [] pre
  owned : ∀ pre m post, ops = pre ++ .unlock m :: post → m ∈ LockOp.held [] pre
  balanced : LockOp.held [] ops = []

lemma Neutral.disciplined (hops : Neutral [] ops) : Disciplined ops := by
  have hlock : ∀ pre m post, ops = pre ++ .lock m :: post → ∀ k ∈ LockOp.held [] pre, k < m := by
    rintro pre m post rfl
    exact (ordered_append.mp hops.ordered).2.1
  refine ⟨hlock, fun pre m post heq hmem => ?_, ?_, hops.held⟩
  · exact lt_irrefl m (hlock pre m post heq m hmem)
  · rintro pre m post rfl
    exact (ordered_append.mp hops.ordered).2.1

end Preorder

end LockOp

open LockOp

/-- Threads with what they still have to do, and the owners of the mutexes. -/
structure Threads (ι M : Type) where
  todo : ι → List (LockOp M)
  owner : M → Option ι

namespace Threads

variable {ι M : Type} [DecidableEq ι] [DecidableEq M]

/-- Nobody is in a call. -/
def idle : Threads ι M := ⟨fun _ => [], fun _ => none⟩

/-- One step of a thread.  A mutex can be taken when it is free; a release is possible for every
thread. -/
inductive Step (Calls : List (LockOp M) → Prop) (i : ι) (w : Threads ι M) : Threads ι M → Prop
  | call {ops : List (LockOp M)} (hidle : w.todo i = []) (hcall : Calls ops) :
      Step Calls i w ⟨Function.update w.todo i ops, w.owner⟩
  | lock {m : M} {ops : List (LockOp M)} (hnext : w.todo i = .lock m :: ops)
      (hfree : w.owner m = none) :
      Step Calls i w ⟨Function.update w.todo i ops, Function.update w.owner m (some i)⟩
  | unlock {m : M} {ops : List (LockOp M)} (hnext : w.todo i = .unlock m :: ops) :
      Step Calls i w ⟨Function.update w.todo i ops, Function.update w.owner m none⟩

/-- Runs from the idle threads. -/
abbrev Reach (Calls : List (LockOp M) → Prop) (w : Threads ι M) : Prop :=
  Relation.ReflTransGen (fun w w' => ∃ i, Step Calls i w w') idle w

/-- The thread wants a mutex that the other one has. -/
def Waits (w : Threads ι M) (i j : ι) : Prop :=
  ∃ m ops, w.todo i = .lock m :: ops ∧ w.owner m = some j

/-- Some threads all wait for each other. -/
def Deadlock (w : Threads ι M) : Prop :=
  ∃ T : Set ι, T.Nonempty ∧ ∀ i ∈ T, ∃ j ∈ T, w.Waits i j

/-- What a thread holds, it holds in order, and it will release all of it. -/
def Inv [LT M] (w : Threads ι M) : Prop :=
  ∀ i, ∃ h : List M, h.Nodup ∧ (∀ m, m ∈ h ↔ w.owner m = some i) ∧ Ordered h (w.todo i) ∧
    held h (w.todo i) = []

section Preorder

variable [Preorder M] {Calls : List (LockOp M) → Prop} {w w' : Threads ι M} {i : ι}

omit [DecidableEq ι] in
lemma inv_idle : (idle : Threads ι M).Inv :=
  fun _ => ⟨[], List.nodup_nil, fun _ => ⟨nofun, nofun⟩, trivial, rfl⟩

/-- Every step keeps the order. -/
lemma Inv.step (hcalls : ∀ ops, Calls ops → Neutral [] ops) (hw : w.Inv)
    (hstep : Step Calls i w w') : w'.Inv := by
  intro j
  obtain ⟨h, hnodup, howner, hordered, hheld⟩ := hw j
  cases hstep with
  | call hidle hcall =>
    rcases eq_or_ne j i with rfl | hne
    · rw [hidle] at hheld
      obtain rfl : h = [] := hheld
      refine ⟨[], hnodup, howner, ?_, ?_⟩
      · simp only [Function.update_self]
        exact (hcalls _ hcall).ordered
      · simp only [Function.update_self]
        exact (hcalls _ hcall).held
    · refine ⟨h, hnodup, howner, ?_, ?_⟩
      · simpa only [Function.update_of_ne hne] using hordered
      · simpa only [Function.update_of_ne hne] using hheld
  | @lock m ops hnext hfree =>
    rcases eq_or_ne j i with rfl | hne
    · rw [hnext] at hordered hheld
      have hm : m ∉ h := fun hmem => nomatch hfree.symm.trans ((howner m).mp hmem)
      refine ⟨m :: h, List.nodup_cons.mpr ⟨hm, hnodup⟩, fun k => ?_, ?_, ?_⟩
      · rcases eq_or_ne k m with rfl | hk
        · simp
        · simp [hk, howner k]
      · simpa only [Function.update_self] using hordered.2
      · simp only [Function.update_self]
        exact hheld
    · refine ⟨h, hnodup, fun k => ?_, ?_, ?_⟩
      · rcases eq_or_ne k m with rfl | hk
        · simp [howner k, hfree, hne.symm]
        · simp [hk, howner k]
      · simpa only [Function.update_of_ne hne] using hordered
      · simpa only [Function.update_of_ne hne] using hheld
  | @unlock m ops hnext =>
    -- the mutex is one that the thread holds
    obtain ⟨hi, -, howneri, horderedi, -⟩ := hw i
    rw [hnext] at horderedi
    have hm : w.owner m = some i := (howneri m).mp horderedi.1
    rcases eq_or_ne j i with rfl | hne
    · rw [hnext] at hordered hheld
      refine ⟨h.erase m, hnodup.erase m, fun k => ?_, ?_, ?_⟩
      · rw [hnodup.mem_erase_iff]
        rcases eq_or_ne k m with rfl | hk
        · simp
        · simp [hk, howner k]
      · simpa only [Function.update_self] using hordered.2
      · simp only [Function.update_self]
        exact hheld
    · refine ⟨h, hnodup, fun k => ?_, ?_, ?_⟩
      · rcases eq_or_ne k m with rfl | hk
        · simp [howner k, hm, hne.symm]
        · simp [hk, howner k]
      · simpa only [Function.update_of_ne hne] using hordered
      · simpa only [Function.update_of_ne hne] using hheld

lemma Inv.of_reach (hcalls : ∀ ops, Calls ops → Neutral [] ops) (hw : Reach Calls w) : w.Inv := by
  induction hw with
  | refl => exact inv_idle
  | tail _ hlast ih =>
    obtain ⟨i, hstep⟩ := hlast
    exact ih.step hcalls hstep

omit [DecidableEq ι] in
/-- Threads that hold mutexes in order do not wait for each other: one that waits for the highest
mutex waits for a thread that holds it and wants a higher one. -/
lemma Inv.not_deadlock [WellFoundedGT M] (hw : w.Inv) : ¬ w.Deadlock := by
  rintro ⟨T, ⟨i, hi⟩, hT⟩
  have hwanted : {m | ∃ i ∈ T, ∃ ops, w.todo i = .lock m :: ops}.Nonempty := by
    obtain ⟨-, -, m, ops, hnext, -⟩ := hT i hi
    exact ⟨m, i, hi, ops, hnext⟩
  obtain ⟨m, ⟨i, hi, ops, hnext⟩, hmax⟩ :=
    (wellFounded_gt (α := M)).has_min _ hwanted
  obtain ⟨j, hj, m', ops', hnext', howner⟩ := hT i hi
  rw [hnext] at hnext'
  obtain ⟨rfl, rfl⟩ : m = m' ∧ ops = ops' := by simpa using hnext'
  obtain ⟨-, -, k, ops'', hnextj, -⟩ := hT j hj
  obtain ⟨h, -, hheld, hordered, -⟩ := hw j
  rw [hnextj] at hordered
  have hlt : m < k := hordered.1 m ((hheld m).mpr howner)
  exact hmax k ⟨j, hj, ops'', hnextj⟩ hlt

/-- As long as a thread is in a call, some thread in a call can go on. -/
lemma Inv.exists_step [WellFoundedGT M] (hw : w.Inv) (hi : w.todo i ≠ []) :
    ∃ j w', w.todo j ≠ [] ∧ Step Calls j w w' := by
  by_contra hstuck
  refine hw.not_deadlock ⟨{j | w.todo j ≠ []}, ⟨i, hi⟩, fun j hj => ?_⟩
  have hnone (w' : Threads ι M) : ¬ Step Calls j w w' := fun hstep => hstuck ⟨j, w', hj, hstep⟩
  rcases hnext : w.todo j with _ | ⟨op, ops⟩
  · exact absurd hnext hj
  cases op with
  | unlock m => exact absurd (Step.unlock hnext) (hnone _)
  | lock m =>
    rcases howner : w.owner m with _ | k
    · exact absurd (Step.lock hnext howner) (hnone _)
    refine ⟨k, fun hidle => ?_, m, ops, hnext, howner⟩
    -- who has returned holds nothing
    obtain ⟨h, -, hheld, -, hempty⟩ := hw k
    rw [hidle] at hempty
    obtain rfl : h = [] := hempty
    exact absurd ((hheld m).mpr howner) List.not_mem_nil

/-- Threads whose calls all keep the order never deadlock. -/
lemma not_deadlock_of_reach [WellFoundedGT M] (hcalls : ∀ ops, Calls ops → Neutral [] ops)
    (hw : Reach Calls w) : ¬ w.Deadlock :=
  (Inv.of_reach hcalls hw).not_deadlock

lemma exists_step_of_reach [WellFoundedGT M] (hcalls : ∀ ops, Calls ops → Neutral [] ops)
    (hw : Reach Calls w) (hi : w.todo i ≠ []) : ∃ j w', w.todo j ≠ [] ∧ Step Calls j w w' :=
  (Inv.of_reach hcalls hw).exists_step hi

end Preorder

end Threads

end Framework
