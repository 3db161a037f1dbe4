import Mathlib.Data.Nat.Notation
import Mathlib.Logic.Function.Basic
import Mathlib.Tactic.SplitIfs

/-!
# Allocation and release

A ledger of what a program obtains and gives back, as buffers or handles.  They are numbered as they
are allocated; for each one it is counted how often it has been released, and it is noted whether
one has been used behind its release.

`Balanced l Owned` is the invariant of a program that owns what satisfies `Owned`: everything else
has been released exactly once, and nothing has been used behind its release.
-/

namespace Framework

structure Ledger where
  next : ℕ
  released : ℕ → ℕ
  misused : Bool

namespace Ledger

variable (l : Ledger)

def empty : Ledger := ⟨0, fun _ => 0, false⟩

/-- The new one has the number `l.next`. -/
def alloc : Ledger := { l with next := l.next + 1 }

def release (h : ℕ) : Ledger :=
  { l with released := Function.update l.released h (l.released h + 1) }

def use (h : ℕ) : Ledger := { l with misused := l.misused || decide (l.released h ≠ 0) }

/-- The release of a pointer that may be null. -/
def releaseIf : Option ℕ → Ledger
  | none => l
  | some h => l.release h

@[inherit_doc releaseIf]
def useIf : Option ℕ → Ledger
  | none => l
  | some h => l.use h

/-- Allocated, and not released. -/
def Live (h : ℕ) : Prop := h < l.next ∧ l.released h = 0

instance (h : ℕ) : Decidable (l.Live h) := inferInstanceAs (Decidable (_ ∧ _))

/-- Nothing has been released twice, or used behind its release. -/
structure Sound : Prop where
  released_le : ∀ h, l.released h ≤ 1
  used : l.misused = false

/-- What is owned has not been released, and everything else exactly once. -/
structure Balanced (Owned : ℕ → Prop) : Prop where
  owned_lt : ∀ h, Owned h → h < l.next
  owned : ∀ h, Owned h → l.released h = 0
  others : ∀ h, h < l.next → ¬ Owned h → l.released h = 1
  beyond : ∀ h, l.next ≤ h → l.released h = 0
  used : l.misused = false

variable {l} {Owned Owned' : ℕ → Prop} {h : ℕ}

lemma Balanced.sound (hl : l.Balanced Owned) : l.Sound := by
  refine ⟨fun h => ?_, hl.used⟩
  by_cases hlt : h < l.next
  · by_cases howned : Owned h
    · rw [hl.owned h howned]
      exact Nat.zero_le 1
    · exact Nat.le_of_eq (hl.others h hlt howned)
  · rw [hl.beyond h (Nat.le_of_not_lt hlt)]
    exact Nat.zero_le 1

lemma balanced_empty (hnone : ∀ h, ¬ Owned h) : empty.Balanced Owned :=
  ⟨fun h ho => absurd ho (hnone h), fun _ _ => rfl, fun _ hlt => absurd hlt (Nat.not_lt_zero _),
    fun _ _ => rfl, rfl⟩

lemma Balanced.congr (hl : l.Balanced Owned) (hiff : ∀ h, Owned' h ↔ Owned h) :
    l.Balanced Owned' := by
  obtain rfl : Owned' = Owned := funext fun h => propext (hiff h)
  exact hl

/-- What has just been allocated is owned. -/
lemma Balanced.alloc (hl : l.Balanced Owned) (hiff : ∀ h, Owned' h ↔ h = l.next ∨ Owned h) :
    l.alloc.Balanced Owned' where
  owned_lt h ho := by
    rcases (hiff h).mp ho with rfl | ho
    · exact Nat.lt_succ_self _
    · exact Nat.lt_succ_of_lt (hl.owned_lt h ho)
  owned h ho := by
    rcases (hiff h).mp ho with rfl | ho
    · exact hl.beyond _ (Nat.le_refl _)
    · exact hl.owned h ho
  others h hlt ho := by
    obtain ⟨hne, ho⟩ := not_or.mp (mt (hiff h).mpr ho)
    exact hl.others h (Nat.lt_of_le_of_ne (Nat.le_of_lt_succ hlt) hne) ho
  beyond h hle := hl.beyond h (Nat.le_of_succ_le hle)
  used := hl.used

/-- What is owned is released. -/
lemma Balanced.release (hl : l.Balanced Owned) (ho : Owned h)
    (hiff : ∀ h', Owned' h' ↔ h' ≠ h ∧ Owned h') : (l.release h).Balanced Owned' where
  owned_lt h' ho' := hl.owned_lt h' ((hiff h').mp ho').2
  owned h' ho' := by
    obtain ⟨hne, ho'⟩ := (hiff h').mp ho'
    exact (Function.update_of_ne hne ..).trans (hl.owned h' ho')
  others h' hlt ho' := by
    by_cases heq : h' = h
    · rw [heq]
      refine (Function.update_self ..).trans ?_
      rw [hl.owned h ho]
    · exact (Function.update_of_ne heq ..).trans
        (hl.others h' hlt fun ho => ho' ((hiff h').mpr ⟨heq, ho⟩))
  beyond h' hle := by
    have hne : h' ≠ h := fun heq => absurd (hl.owned_lt h ho) (Nat.not_lt.mpr (heq ▸ hle))
    exact (Function.update_of_ne hne ..).trans (hl.beyond h' hle)
  used := hl.used

/-- What is owned is used. -/
lemma Balanced.use (hl : l.Balanced Owned) (ho : Owned h) : (l.use h).Balanced Owned := by
  refine ⟨hl.owned_lt, hl.owned, hl.others, hl.beyond, ?_⟩
  show (l.misused || decide (l.released h ≠ 0)) = false
  rw [hl.used, hl.owned h ho]
  rfl

lemma Balanced.releaseIf {o : Option ℕ} (hl : l.Balanced Owned) (ho : ∀ h ∈ o, Owned h)
    (hiff : ∀ h, Owned' h ↔ h ∉ o ∧ Owned h) : (l.releaseIf o).Balanced Owned' := by
  cases o with
  | none => exact hl.congr fun h => (hiff h).trans (and_iff_right nofun)
  | some h =>
    refine hl.release (ho h rfl) fun h' => (hiff h').trans (and_congr_left' (not_congr ?_))
    exact ⟨fun heq => (Option.some.inj heq).symm, fun heq => congrArg some heq.symm⟩

lemma Balanced.useIf {o : Option ℕ} (hl : l.Balanced Owned) (ho : ∀ h ∈ o, Owned h) :
    (l.useIf o).Balanced Owned := by
  cases o with
  | none => exact hl
  | some h => exact hl.use (ho h rfl)

lemma releaseIf_next (o : Option ℕ) : (l.releaseIf o).next = l.next := by
  cases o <;> rfl

lemma releaseIf_misused (o : Option ℕ) : (l.releaseIf o).misused = l.misused := by
  cases o <;> rfl

lemma releaseIf_released (o : Option ℕ) (h : ℕ) :
    (l.releaseIf o).released h = if o = some h then l.released h + 1 else l.released h := by
  cases o with
  | none => exact (if_neg nofun).symm
  | some h' =>
    show Function.update l.released h' (l.released h' + 1) h = _
    by_cases heq : h' = h
    · rw [heq, Function.update_self, if_pos rfl]
    · rw [Function.update_of_ne (Ne.symm heq), if_neg fun h => heq (Option.some.inj h)]

/-- A use is noted, and changes nothing else. -/
lemma useIf_released (o : Option ℕ) : (l.useIf o).released = l.released ∧
    (l.useIf o).next = l.next := by
  cases o <;> exact ⟨rfl, rfl⟩

lemma useIf_misused {o : Option ℕ} (hused : l.misused = false)
    (hlive : ∀ h ∈ o, l.released h = 0) : (l.useIf o).misused = false := by
  cases o with
  | none => exact hused
  | some h =>
    show (l.misused || decide (l.released h ≠ 0)) = false
    rw [hused, hlive h rfl]
    rfl

/-! ## What is live -/

lemma use_of_live (h' : l.Live h) : l.use h = l := by
  unfold use
  rw [h'.2, decide_eq_false (not_not_intro rfl), Bool.or_false]

lemma Balanced.live (hl : l.Balanced Owned) (ho : Owned h) : l.Live h :=
  ⟨hl.owned_lt h ho, hl.owned h ho⟩

/-- What is owned is what is live. -/
lemma balanced_live_alloc (hl : l.Balanced l.Live) : l.alloc.Balanced l.alloc.Live := by
  refine hl.alloc fun k => ⟨fun hk => ?_, fun hk => ?_⟩
  · rcases Nat.lt_succ_iff_lt_or_eq.mp hk.1 with hlt | heq
    · exact .inr ⟨hlt, hk.2⟩
    · exact .inl heq
  · rcases hk with rfl | hk
    · exact ⟨Nat.lt_succ_self _, hl.beyond _ (Nat.le_refl _)⟩
    · exact ⟨Nat.lt_succ_of_lt hk.1, hk.2⟩

lemma live_release_iff {k : ℕ} : (l.release h).Live k ↔ k ≠ h ∧ l.Live k := by
  by_cases heq : k = h
  · refine iff_of_false (fun hk => ?_) fun hk => hk.1 heq
    have hzero : Function.update l.released h (l.released h + 1) k = 0 := hk.2
    rw [heq, Function.update_self] at hzero
    exact Nat.succ_ne_zero _ hzero
  · have hsame : (l.release h).released k = l.released k := Function.update_of_ne heq ..
    exact ⟨fun hk => ⟨heq, hk.1, hsame.symm.trans hk.2⟩, fun hk => ⟨hk.2.1, hsame.trans hk.2.2⟩⟩

lemma balanced_live_release (hl : l.Balanced l.Live) (hlive : l.Live h) :
    (l.release h).Balanced (l.release h).Live :=
  hl.release hlive fun _ => live_release_iff

end Ledger

end Framework
