import Mathlib.Data.Option.Basic
import Mathlib.Logic.Function.Basic
import Softwinner.Framework.Ledger

/-!
# Pointers that survive a release

A heap is a ledger with pointers into it, one in each slot.  A release leaves the pointer where it
is, so that it may be released or used again; an allocation or a clearing overwrites it, so that
what it points to may be lost.  `Kept` says that neither has happened.

For a slot it is enough to know whether its pointer is null, live or dangling: a sequence of
operations keeps the heap if and only if it goes through on every slot, `Heap.kept_run_iff`.
-/

namespace Framework

inductive OpKind
  | alloc | release | use | clear
  deriving DecidableEq

structure HeapOp (κ : Type) where
  kind : OpKind
  slot : κ

structure Heap (κ : Type) where
  ledger : Ledger
  ptr : κ → Option ℕ

/-! ## Slots -/

inductive Status
  | null | live | dangling
  deriving DecidableEq

/-- What an operation makes of a pointer, unless it goes wrong. -/
def OpKind.next : OpKind → Status → Option Status
  | .alloc, .live => none
  | .alloc, _ => some .live
  | .release, .null => some .null
  | .release, .live => some .dangling
  | .release, .dangling => none
  | .use, .dangling => none
  | .use, st => some st
  | .clear, .live => none
  | .clear, _ => some .null

lemma OpKind.next_alloc {st : Status} (hst : st ≠ .live) : OpKind.next .alloc st = some .live := by
  cases st with
  | null | dangling => rfl
  | live => exact absurd rfl hst

lemma OpKind.next_clear {st : Status} (hst : st ≠ .live) : OpKind.next .clear st = some .null := by
  cases st with
  | null | dangling => rfl
  | live => exact absurd rfl hst

/-- Behind a release that does not go wrong. -/
def Status.released : Status → Status
  | .live => .dangling
  | st => st

lemma Status.released_ne_live {st : Status} : st.released ≠ .live := by
  cases st <;> exact nofun

lemma OpKind.next_release {st : Status} (hst : st ≠ .dangling) :
    OpKind.next .release st = some st.released := by
  cases st with
  | null | live => rfl
  | dangling => exact absurd rfl hst

lemma OpKind.next_use {st : Status} (hst : st ≠ .dangling) : OpKind.next .use st = some st := by
  cases st with
  | null | live => rfl
  | dangling => exact absurd rfl hst

variable {κ : Type} [DecidableEq κ]

/-- What a sequence of operations makes of the pointer in one slot. -/
def slotRun (k : κ) : List (HeapOp κ) → Status → Option Status
  | [], st => some st
  | op :: ops, st =>
    if op.slot = k then (op.kind.next st).bind (slotRun k ops) else slotRun k ops st

lemma slotRun_append {k : κ} {ops ops' : List (HeapOp κ)} {st : Status} :
    slotRun k (ops ++ ops') st = (slotRun k ops st).bind (slotRun k ops') := by
  induction ops generalizing st with
  | nil => rfl
  | cons op ops ih =>
    simp only [List.cons_append, slotRun]
    split_ifs
    · rw [Option.bind_assoc]
      exact congrArg _ (funext fun _ => ih)
    · exact ih

lemma slotRun_of_forall_ne {k : κ} {ops : List (HeapOp κ)} {st : Status}
    (hne : ∀ op ∈ ops, op.slot ≠ k) : slotRun k ops st = some st := by
  induction ops with
  | nil => rfl
  | cons op ops ih =>
    rw [slotRun, if_neg (hne op List.mem_cons_self)]
    exact ih fun op hop => hne op (List.mem_cons_of_mem _ hop)

/-- A sequence of operations goes through on every slot, and makes `st'` of `st`. -/
def Sees (ops : List (HeapOp κ)) (st st' : κ → Status) : Prop :=
  ∀ k, slotRun k ops (st k) = some (st' k)

section Sees

variable {ops ops' : List (HeapOp κ)} {st st' st'' : κ → Status}

lemma Sees.nil : Sees [] st st := fun _ => rfl

lemma Sees.append (h : Sees ops st st') (h' : Sees ops' st' st'') : Sees (ops ++ ops') st st'' := by
  intro k
  rw [slotRun_append, h k]
  exact h' k

lemma Sees.eq (h : Sees ops st st') (h' : Sees ops st st'') : st'' = st' :=
  funext fun k => Option.some.inj ((h' k).symm.trans (h k))

/-- Pointers that do not dangle are used. -/
lemma Sees.use (huse : ∀ op ∈ ops, op.kind = .use ∧ st op.slot ≠ .dangling) : Sees ops st st := by
  intro k
  induction ops with
  | nil => rfl
  | cons op ops ih =>
    obtain ⟨hkind, hst⟩ := huse op List.mem_cons_self
    have hrest := ih fun op hop => huse op (List.mem_cons_of_mem _ hop)
    rw [slotRun]
    split_ifs with hslot
    · rw [hkind, ← hslot, OpKind.next_use hst, Option.bind_some, hslot]
      exact hrest
    · exact hrest

end Sees

/-! ## Heaps -/

namespace Heap

variable {p : Heap κ} {op : HeapOp κ} {k : κ} {h : ℕ}

def apply (p : Heap κ) (op : HeapOp κ) : Heap κ :=
  match op.kind with
  | .alloc => ⟨p.ledger.alloc, Function.update p.ptr op.slot (some p.ledger.next)⟩
  | .release => { p with ledger := p.ledger.releaseIf (p.ptr op.slot) }
  | .use => { p with ledger := p.ledger.useIf (p.ptr op.slot) }
  | .clear => { p with ptr := Function.update p.ptr op.slot none }

def run (p : Heap κ) (ops : List (HeapOp κ)) : Heap κ := ops.foldl apply p

/-- No pointer has been copied, and all point to what has been allocated. -/
structure WellFormed (p : Heap κ) : Prop where
  lt : ∀ k h, p.ptr k = some h → h < p.ledger.next
  inj : ∀ k k' h, p.ptr k = some h → p.ptr k' = some h → k = k'
  beyond : ∀ h, p.ledger.next ≤ h → p.ledger.released h = 0

/-- Everything has been released exactly once, or not yet and there is a pointer to it; and nothing
has been used behind its release. -/
structure Kept (p : Heap κ) : Prop where
  released : ∀ h, h < p.ledger.next →
    p.ledger.released h = 1 ∨ p.ledger.released h = 0 ∧ ∃ k, p.ptr k = some h
  used : p.ledger.misused = false

def status (p : Heap κ) (k : κ) : Status :=
  match p.ptr k with
  | none => .null
  | some h => if p.ledger.released h = 0 then .live else .dangling

omit [DecidableEq κ] in
lemma status_eq_null : p.status k = .null ↔ p.ptr k = none := by
  unfold status
  cases p.ptr k with
  | none => exact iff_of_true rfl rfl
  | some h =>
    refine iff_of_false ?_ nofun
    dsimp only
    split_ifs <;> exact nofun

omit [DecidableEq κ] in
lemma status_eq_live : p.status k = .live ↔ ∃ h, p.ptr k = some h ∧ p.ledger.released h = 0 := by
  unfold status
  cases p.ptr k with
  | none => exact iff_of_false nofun fun ⟨_, h, _⟩ => nomatch h
  | some h =>
    dsimp only
    split_ifs with hzero
    · exact iff_of_true rfl ⟨h, rfl, hzero⟩
    · refine iff_of_false nofun ?_
      rintro ⟨h', heq, hzero'⟩
      obtain rfl := Option.some.inj heq
      exact hzero hzero'

omit [DecidableEq κ] in
lemma status_eq_dangling :
    p.status k = .dangling ↔ ∃ h, p.ptr k = some h ∧ p.ledger.released h ≠ 0 := by
  unfold status
  cases p.ptr k with
  | none => exact iff_of_false nofun fun ⟨_, h, _⟩ => nomatch h
  | some h =>
    dsimp only
    split_ifs with hzero
    · refine iff_of_false nofun ?_
      rintro ⟨h', heq, hzero'⟩
      obtain rfl := Option.some.inj heq
      exact hzero' hzero
    · exact iff_of_true rfl ⟨h, rfl, hzero⟩

/-! ## One operation -/

lemma ptr_alloc_self : (p.apply ⟨.alloc, k⟩).ptr k = some p.ledger.next :=
  Function.update_self ..

lemma ptr_clear_self : (p.apply ⟨.clear, k⟩).ptr k = none :=
  Function.update_self ..

/-- The other slots keep their pointer. -/
lemma ptr_apply_of_ne (hne : op.slot ≠ k) : (p.apply op).ptr k = p.ptr k := by
  obtain ⟨kind, k'⟩ := op
  cases kind with
  | alloc | clear => exact Function.update_of_ne (Ne.symm hne) ..
  | release | use => rfl

lemma WellFormed.alloc (hp : p.WellFormed) (k : κ) : (p.apply ⟨.alloc, k⟩).WellFormed := by
  have hptr : ∀ k' h, (p.apply ⟨.alloc, k⟩).ptr k' = some h →
      k' = k ∧ h = p.ledger.next ∨ p.ptr k' = some h := fun k' h hptr => by
    by_cases heq : k = k'
    · rw [← heq, ptr_alloc_self] at hptr
      exact .inl ⟨heq.symm, (Option.some.inj hptr).symm⟩
    · rw [ptr_apply_of_ne heq] at hptr
      exact .inr hptr
  refine ⟨fun k' h h' => ?_, fun k₁ k₂ h h₁ h₂ => ?_, fun h hle => ?_⟩
  · rcases hptr k' h h' with ⟨-, rfl⟩ | hold
    · exact Nat.lt_succ_self _
    · exact Nat.lt_succ_of_lt (hp.lt k' h hold)
  · rcases hptr k₁ h h₁ with ⟨heq₁, hh₁⟩ | hold₁ <;> rcases hptr k₂ h h₂ with ⟨heq₂, hh₂⟩ | hold₂
    · exact heq₁.trans heq₂.symm
    · exact absurd (hp.lt k₂ h hold₂) (Nat.not_lt.mpr (Nat.le_of_eq hh₁.symm))
    · exact absurd (hp.lt k₁ h hold₁) (Nat.not_lt.mpr (Nat.le_of_eq hh₂.symm))
    · exact hp.inj k₁ k₂ h hold₁ hold₂
  · exact hp.beyond h (Nat.le_of_succ_le hle)

lemma WellFormed.apply (hp : p.WellFormed) (op : HeapOp κ) : (p.apply op).WellFormed := by
  obtain ⟨kind, k⟩ := op
  cases kind with
  | alloc => exact hp.alloc k
  | release =>
    have hnext : (p.apply ⟨.release, k⟩).ledger.next = p.ledger.next := Ledger.releaseIf_next _
    refine ⟨fun k' h h' => ?_, hp.inj, fun h hle => ?_⟩
    · rw [hnext]
      exact hp.lt k' h h'
    · rw [hnext] at hle
      refine (Ledger.releaseIf_released ..).trans ?_
      rw [if_neg fun hptr => absurd (hp.lt k h hptr) (Nat.not_lt.mpr hle)]
      exact hp.beyond h hle
  | use =>
    have hnext : (p.apply ⟨.use, k⟩).ledger.next = p.ledger.next := (Ledger.useIf_released _).2
    refine ⟨fun k' h h' => ?_, hp.inj, fun h hle => ?_⟩
    · rw [hnext]
      exact hp.lt k' h h'
    · rw [hnext] at hle
      exact (congrFun (Ledger.useIf_released _).1 h).trans (hp.beyond h hle)
  | clear =>
    have hptr : ∀ k' h, (p.apply ⟨.clear, k⟩).ptr k' = some h → p.ptr k' = some h :=
      fun k' h hptr => by
        by_cases heq : k = k'
        · rw [← heq, ptr_clear_self] at hptr
          cases hptr
        · rwa [ptr_apply_of_ne heq] at hptr
    exact ⟨fun k' h h' => hp.lt k' h (hptr k' h h'),
      fun k₁ k₂ h h₁ h₂ => hp.inj k₁ k₂ h (hptr k₁ h h₁) (hptr k₂ h h₂), hp.beyond⟩

omit [DecidableEq κ] in
lemma status_congr {q : Heap κ} {k' : κ} (hptr : q.ptr k = p.ptr k')
    (hreleased : ∀ h, p.ptr k' = some h → q.ledger.released h = p.ledger.released h) :
    q.status k = p.status k' := by
  unfold status
  rw [hptr]
  cases hk : p.ptr k' with
  | none => rfl
  | some h =>
    dsimp only
    rw [hreleased h hk]

/-- The other slots keep their status. -/
lemma status_apply_of_ne (hp : p.WellFormed) (hne : op.slot ≠ k) :
    (p.apply op).status k = p.status k := by
  refine status_congr (ptr_apply_of_ne hne) fun h hptr => ?_
  obtain ⟨kind, k'⟩ := op
  cases kind with
  | alloc | clear => rfl
  | release =>
    exact (Ledger.releaseIf_released ..).trans
      (if_neg fun hptr' => hne (hp.inj k' k h hptr' hptr))
  | use => exact congrFun (Ledger.useIf_released _).1 h

/-- What the operation does when it does not go wrong. -/
def Spec (p : Heap κ) (op : HeapOp κ) : Option Status → Prop
  | none => ¬ (p.apply op).Kept
  | some st => (p.apply op).Kept ∧ (p.apply op).status op.slot = st

omit [DecidableEq κ] in
/-- What a live pointer points to is lost when no slot points to it. -/
lemma not_kept_of_lost {q : Heap κ} (hlt : h < q.ledger.next) (hzero : q.ledger.released h = 0)
    (hlost : ∀ k, q.ptr k ≠ some h) : ¬ q.Kept := by
  intro hq
  rcases hq.released h hlt with hone | ⟨-, k, hk⟩
  · rw [hzero] at hone
    cases hone
  · exact hlost k hk

lemma spec_alloc (hp : p.WellFormed) (hkept : p.Kept) :
    p.Spec ⟨.alloc, k⟩ (OpKind.next .alloc (p.status k)) := by
  by_cases hst : p.status k = .live
  · rw [hst]
    obtain ⟨h, hptr, hzero⟩ := status_eq_live.mp hst
    have hlt := hp.lt k h hptr
    refine not_kept_of_lost (Nat.lt_succ_of_lt hlt) hzero fun k' hk' => ?_
    by_cases heq : k = k'
    · rw [← heq, ptr_alloc_self] at hk'
      exact absurd hlt (Nat.not_lt.mpr (Nat.le_of_eq (Option.some.inj hk')))
    · rw [ptr_apply_of_ne heq] at hk'
      exact heq (hp.inj k k' h hptr hk')
  · rw [OpKind.next_alloc hst]
    have hzero := hp.beyond _ (Nat.le_refl _)
    refine ⟨⟨fun h hlt => ?_, hkept.used⟩, status_eq_live.mpr ⟨_, ptr_alloc_self, hzero⟩⟩
    rcases Nat.lt_succ_iff_lt_or_eq.mp hlt with hlt | rfl
    · refine (hkept.released h hlt).imp id fun ⟨hzero, k', hk'⟩ => ⟨hzero, k', ?_⟩
      have hne : k ≠ k' := by
        rintro rfl
        exact hst (status_eq_live.mpr ⟨h, hk', hzero⟩)
      exact (ptr_apply_of_ne hne).trans hk'
    · exact .inr ⟨hzero, k, ptr_alloc_self⟩

lemma spec_clear (hp : p.WellFormed) (hkept : p.Kept) :
    p.Spec ⟨.clear, k⟩ (OpKind.next .clear (p.status k)) := by
  by_cases hst : p.status k = .live
  · rw [hst]
    obtain ⟨h, hptr, hzero⟩ := status_eq_live.mp hst
    refine not_kept_of_lost (hp.lt k h hptr) hzero fun k' hk' => ?_
    by_cases heq : k = k'
    · rw [← heq, ptr_clear_self] at hk'
      cases hk'
    · rw [ptr_apply_of_ne heq] at hk'
      exact heq (hp.inj k k' h hptr hk')
  · rw [OpKind.next_clear hst]
    refine ⟨⟨fun h hlt => ?_, hkept.used⟩, status_eq_null.mpr ptr_clear_self⟩
    refine (hkept.released h hlt).imp id fun ⟨hzero, k', hk'⟩ => ⟨hzero, k', ?_⟩
    have hne : k ≠ k' := by
      rintro rfl
      exact hst (status_eq_live.mpr ⟨h, hk', hzero⟩)
    exact (ptr_apply_of_ne hne).trans hk'

lemma spec_release (hp : p.WellFormed) (hkept : p.Kept) :
    p.Spec ⟨.release, k⟩ (OpKind.next .release (p.status k)) := by
  have hnext : (p.apply ⟨.release, k⟩).ledger.next = p.ledger.next := Ledger.releaseIf_next _
  cases hst : p.status k with
  | null =>
    have happly : p.apply ⟨.release, k⟩ = p := by
      simp only [apply, status_eq_null.mp hst]
      rfl
    exact ⟨happly.symm ▸ hkept, happly.symm ▸ hst⟩
  | live =>
    obtain ⟨h, hptr, hzero⟩ := status_eq_live.mp hst
    have hself : (p.apply ⟨.release, k⟩).ledger.released h = 1 := by
      refine (Ledger.releaseIf_released ..).trans ?_
      rw [if_pos hptr, hzero]
    refine ⟨⟨fun h' hlt => ?_, ?_⟩, status_eq_dangling.mpr ⟨h, hptr, ?_⟩⟩
    · by_cases heq : h' = h
      · exact .inl (heq ▸ hself)
      · have hne : p.ptr k ≠ some h' := fun hptr' =>
          heq (Option.some.inj (hptr'.symm.trans hptr))
        have hold : (p.apply ⟨.release, k⟩).ledger.released h' = p.ledger.released h' :=
          (Ledger.releaseIf_released ..).trans (if_neg hne)
        rw [hold]
        exact hkept.released h' (hnext ▸ hlt)
    · exact (Ledger.releaseIf_misused _).trans hkept.used
    · rw [hself]
      exact Nat.one_ne_zero
  | dangling =>
    obtain ⟨h, hptr, hne⟩ := status_eq_dangling.mp hst
    intro hkept'
    have hlt := hp.lt k h hptr
    have hone := (hkept.released h hlt).resolve_right fun hzero => hne hzero.1
    have htwo : (p.apply ⟨.release, k⟩).ledger.released h = 2 := by
      refine (Ledger.releaseIf_released ..).trans ?_
      rw [if_pos hptr, hone]
    rcases hkept'.released h (hnext ▸ hlt) with h' | ⟨h', -⟩
    · rw [htwo] at h'
      cases h'
    · rw [htwo] at h'
      cases h'

lemma spec_use (hkept : p.Kept) : p.Spec ⟨.use, k⟩ (OpKind.next .use (p.status k)) := by
  obtain ⟨hreleased, hnext⟩ := Ledger.useIf_released (l := p.ledger) (p.ptr k)
  have hkeeps : (∀ h ∈ p.ptr k, p.ledger.released h = 0) →
      (p.apply ⟨.use, k⟩).Kept := fun hlive => by
    refine ⟨fun h hlt => ?_, Ledger.useIf_misused hkept.used hlive⟩
    have hold : (p.apply ⟨.use, k⟩).ledger.released h = p.ledger.released h :=
      congrFun hreleased h
    rw [hold]
    exact hkept.released h (hnext ▸ hlt)
  have hstatus : (p.apply ⟨.use, k⟩).status k = p.status k :=
    status_congr rfl fun h _ => congrFun hreleased h
  cases hst : p.status k with
  | null =>
    refine ⟨hkeeps ?_, hstatus.trans hst⟩
    rw [status_eq_null.mp hst]
    exact nofun
  | live =>
    obtain ⟨h, hptr, hzero⟩ := status_eq_live.mp hst
    refine ⟨hkeeps ?_, hstatus.trans hst⟩
    rw [hptr]
    rintro h' ⟨⟩
    exact hzero
  | dangling =>
    obtain ⟨h, hptr, hne⟩ := status_eq_dangling.mp hst
    intro hkept'
    have hmisused : (p.apply ⟨.use, k⟩).ledger.misused = true := by
      simp only [apply, hptr]
      show (p.ledger.misused || decide (p.ledger.released h ≠ 0)) = true
      rw [decide_eq_true hne, Bool.or_true]
    exact nomatch hmisused.symm.trans hkept'.used

/-- An operation on a heap that is kept. -/
lemma apply_spec (hp : p.WellFormed) (hkept : p.Kept) (op : HeapOp κ) :
    p.Spec op (op.kind.next (p.status op.slot)) := by
  obtain ⟨kind, k⟩ := op
  cases kind with
  | alloc => exact spec_alloc hp hkept
  | release => exact spec_release hp hkept
  | use => exact spec_use hkept
  | clear => exact spec_clear hp hkept

/-- What has gone wrong stays wrong. -/
lemma Kept.of_apply (hkept : (p.apply op).Kept) : p.Kept := by
  obtain ⟨kind, k⟩ := op
  cases kind with
  | alloc =>
    refine ⟨fun h hlt => ?_, hkept.used⟩
    refine (hkept.released h (Nat.lt_succ_of_lt hlt)).imp id fun ⟨hzero, k', hk'⟩ => ⟨hzero, k', ?_⟩
    have hne : k ≠ k' := by
      rintro rfl
      rw [ptr_alloc_self] at hk'
      exact absurd hlt (Nat.not_lt.mpr (Nat.le_of_eq (Option.some.inj hk')))
    rwa [ptr_apply_of_ne hne] at hk'
  | release =>
    have hnext : (p.apply ⟨.release, k⟩).ledger.next = p.ledger.next := Ledger.releaseIf_next _
    have hused : (p.apply ⟨.release, k⟩).ledger.misused = p.ledger.misused :=
      Ledger.releaseIf_misused _
    refine ⟨fun h hlt => ?_, hused ▸ hkept.used⟩
    have hreleased : (p.apply ⟨.release, k⟩).ledger.released h = _ :=
      Ledger.releaseIf_released (p.ptr k) h
    have hkept' := hkept.released h (hnext.symm ▸ hlt)
    rw [hreleased] at hkept'
    split_ifs at hkept' with hptr
    · rcases hkept' with hone | ⟨hzero, -⟩
      · exact .inr ⟨Nat.succ.inj hone, k, hptr⟩
      · cases hzero
    · exact hkept'
  | use =>
    obtain ⟨hreleased, hnext⟩ := Ledger.useIf_released (l := p.ledger) (p.ptr k)
    refine ⟨fun h hlt => ?_, ?_⟩
    · have hkept' := hkept.released h (hnext.symm ▸ hlt)
      rwa [show (p.apply ⟨.use, k⟩).ledger.released = p.ledger.released from hreleased] at hkept'
    · have hused := hkept.used
      simp only [apply] at hused
      cases hptr : p.ptr k with
      | none =>
        rw [hptr] at hused
        exact hused
      | some h =>
        rw [hptr] at hused
        exact (Bool.or_eq_false_iff.mp hused).1
  | clear =>
    refine ⟨fun h hlt => ?_, hkept.used⟩
    refine (hkept.released h hlt).imp id fun ⟨hzero, k', hk'⟩ => ⟨hzero, k', ?_⟩
    have hne : k ≠ k' := by
      rintro rfl
      rw [ptr_clear_self] at hk'
      cases hk'
    rwa [ptr_apply_of_ne hne] at hk'

/-! ## Sequences -/

lemma WellFormed.run (ops : List (HeapOp κ)) :
    ∀ {p : Heap κ}, p.WellFormed → (p.run ops).WellFormed := by
  induction ops with
  | nil => exact id
  | cons op ops ih => exact fun hp => ih (hp.apply op)

lemma Kept.of_run (ops : List (HeapOp κ)) : ∀ {p : Heap κ}, (p.run ops).Kept → p.Kept := by
  induction ops with
  | nil => exact id
  | cons op ops ih => exact fun hkept => .of_apply (ih hkept)

/-- A slot sees an operation that goes through as a change of its status. -/
lemma slotRun_cons (hp : p.WellFormed) {st : Status}
    (hnext : op.kind.next (p.status op.slot) = some st) (hst : (p.apply op).status op.slot = st)
    (ops : List (HeapOp κ)) (k : κ) :
    slotRun k (op :: ops) (p.status k) = slotRun k ops ((p.apply op).status k) := by
  rw [slotRun]
  split_ifs with hslot
  · rw [← hslot, hnext, hst]
    rfl
  · rw [status_apply_of_ne hp hslot]

/-- A sequence that keeps the heap goes through on every slot, and leaves the status that it
computes. -/
lemma Kept.sees (ops : List (HeapOp κ)) : ∀ {p : Heap κ}, p.WellFormed → (p.run ops).Kept →
    Sees ops p.status (p.run ops).status := by
  induction ops with
  | nil => exact fun _ _ => Sees.nil
  | cons op ops ih =>
    intro p hp hrun k
    have hkept' : (p.apply op).Kept := .of_run ops hrun
    have hspec := apply_spec hp (.of_apply hkept') op
    cases hnext : op.kind.next (p.status op.slot) with
    | none =>
      rw [hnext] at hspec
      exact absurd hkept' hspec
    | some st =>
      rw [hnext] at hspec
      rw [slotRun_cons hp hnext hspec.2]
      exact ih (hp.apply op) hrun k

/-- A sequence that goes through on every slot keeps the heap. -/
lemma kept_of_sees (ops : List (HeapOp κ)) : ∀ {p : Heap κ} {st' : κ → Status}, p.WellFormed →
    p.Kept → Sees ops p.status st' → (p.run ops).Kept := by
  induction ops with
  | nil => exact fun _ hkept _ => hkept
  | cons op ops ih =>
    intro p st' hp hkept hsees
    have hspec := apply_spec hp hkept op
    cases hnext : op.kind.next (p.status op.slot) with
    | none =>
      have hnone := hsees op.slot
      rw [slotRun, if_pos rfl, hnext] at hnone
      cases hnone
    | some st =>
      rw [hnext] at hspec
      refine @ih _ st' (hp.apply op) hspec.1 fun k => ?_
      rw [← slotRun_cons hp hnext hspec.2]
      exact hsees k

/-- **Heaps, slot by slot.**  A sequence of operations keeps a heap if and only if it goes through
on every slot; and then it leaves there what it computes. -/
theorem kept_run_iff {p : Heap κ} (hp : p.WellFormed) (hkept : p.Kept) (ops : List (HeapOp κ)) :
    (p.run ops).Kept ↔ ∃ st', Sees ops p.status st' :=
  ⟨fun hrun => ⟨_, hrun.sees ops hp⟩, fun ⟨_, hsees⟩ => kept_of_sees ops hp hkept hsees⟩

lemma status_run {p : Heap κ} (hp : p.WellFormed) (hkept : p.Kept) {ops : List (HeapOp κ)}
    {st' : κ → Status} (hsees : Sees ops p.status st') : (p.run ops).status = st' :=
  hsees.eq ((kept_of_sees ops hp hkept hsees).sees ops hp)

end Heap

end Framework
