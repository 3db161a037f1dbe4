import Mathlib.Logic.Basic
import Mathlib.Tactic.SplitIfs

/-!
# Two places for what was computed

A routine keeps what it computed for two keys, and computes what it needs only when neither place
has it.  `right_fetchTwo` says that two things needed at once are right, and that neither takes the
place of the other.
-/

namespace Framework

/-- Two places, each with its key. -/
structure Slots (κ β : Type) where
  key : Bool → κ
  val : Bool → β

namespace Slots

variable {κ β : Type} {c : Slots κ β} {fill : κ → β → β} {k l : κ} {i : Bool}

/-- The place is filled anew, over what was there. -/
def put (c : Slots κ β) (fill : κ → β → β) (k : κ) (i : Bool) : Slots κ β where
  key := fun j => if j = i then k else c.key j
  val := fun j => if j = i then fill k (c.val i) else c.val j

/-- What is kept under a valid key is right for it. -/
def Right (Valid : κ → Prop) (R : κ → β → Prop) (c : Slots κ β) : Prop :=
  ∀ i, Valid (c.key i) → R (c.key i) (c.val i)

section Right

variable {Valid : κ → Prop} {R : κ → β → Prop}

lemma Right.at (h : Right Valid R c) (hkey : c.key i = k) (hk : Valid k) : R k (c.val i) := by
  subst hkey
  exact h i hk

lemma Right.put (h : Right Valid R c) (hfill : ∀ v, R k (fill k v)) :
    Right Valid R (c.put fill k i) := by
  intro j hvalid
  by_cases hj : j = i
  · simp only [Slots.put, hj, if_true]
    exact hfill _
  · simp only [Slots.put, hj, if_false] at hvalid ⊢
    exact h j hvalid

end Right

section Fetch

variable [DecidableEq κ] {Valid : κ → Prop} {R : κ → β → Prop}

/-- The place that has `k`, or the place `i` filled with it. -/
def fetch (c : Slots κ β) (fill : κ → β → β) (k : κ) (i : Bool) : Slots κ β × Bool :=
  if k = c.key false then (c, false)
  else if k = c.key true then (c, true)
  else (c.put fill k i, i)

/-- Two at once: the second one spares the first place when this has the first one. -/
def fetchTwo (c : Slots κ β) (fill : κ → β → β) (k l : κ) : Slots κ β × Bool × Bool :=
  let (c, i) := c.fetch fill k false
  let (c, j) := c.fetch fill l (decide (k = c.key false))
  (c, i, j)

lemma Right.fetch (h : Right Valid R c) (hfill : ∀ v, R k (fill k v)) :
    Right Valid R (c.fetch fill k i).1 := by
  unfold Slots.fetch
  split_ifs
  · exact h
  · exact h
  · exact h.put hfill

/-- The place that is returned has the key. -/
lemma key_fetch : (c.fetch fill k i).1.key (c.fetch fill k i).2 = k := by
  unfold fetch
  split_ifs with hfirst hsecond
  · exact hfirst.symm
  · exact hsecond.symm
  · exact if_pos rfl

/-- The other place is not touched. -/
lemma key_fetch_of_ne {j : Bool} (hne : j ≠ i) : (c.fetch fill k i).1.key j = c.key j := by
  unfold fetch
  split_ifs
  · rfl
  · rfl
  · exact if_neg hne

/-- The first place is taken for a key whenever it has it. -/
lemma fetch_false_snd :
    (c.fetch fill k false).2 = !decide (k = (c.fetch fill k false).1.key false) := by
  unfold fetch
  split_ifs with hfirst hsecond
  · simp [hfirst.symm]
  · simp [hfirst]
  · simp [put]

theorem right_fetchTwo (fill : κ → β → β) (h : Right Valid R c)
    (hfill : ∀ m v, Valid m → R m (fill m v)) (hk : Valid k) (hl : Valid l) :
    Right Valid R (c.fetchTwo fill k l).1 ∧
      R k ((c.fetchTwo fill k l).1.val (c.fetchTwo fill k l).2.1) ∧
      R l ((c.fetchTwo fill k l).1.val (c.fetchTwo fill k l).2.2) := by
  have hfirst : Right Valid R (c.fetch fill k false).1 := h.fetch fun v => hfill k v hk
  have hkey : (c.fetch fill k false).1.key (c.fetch fill k false).2 = k := key_fetch
  have hplace : (c.fetch fill k false).2 = !decide (k = (c.fetch fill k false).1.key false) :=
    fetch_false_snd
  unfold fetchTwo
  generalize c.fetch fill k false = r at *
  obtain ⟨c', i⟩ := r
  dsimp only at *
  have hboth : Right Valid R (c'.fetch fill l (decide (k = c'.key false))).1 :=
    hfirst.fetch fun v => hfill l v hl
  have hspared : i ≠ decide (k = c'.key false) := by
    rw [hplace]
    exact (Bool.not_eq_self _).mp
  exact ⟨hboth, hboth.at ((key_fetch_of_ne hspared).trans hkey) hk, hboth.at key_fetch hl⟩

end Fetch

end Slots

end Framework
