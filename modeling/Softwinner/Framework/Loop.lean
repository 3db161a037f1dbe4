import Mathlib.Data.Nat.Notation
import Mathlib.Tactic.Common

/-!
# Loops

A `while` loop is given by its turn, which is `none` where the test of the loop fails; `run` runs
it with some fuel.  The loop keeps what its turn keeps (`run_keeps`).  A turn that lowers a measure
makes it end, with every invariant of the turn (`run_ends`); a turn that keeps to a set of states in
which it goes on makes it endless (`run_endless`).
-/

namespace Framework.Loop

variable {σ : Type} {turn : σ → Option σ} {P : σ → Prop} {s t : σ} {fuel : ℕ}

/-- The state behind a loop, if the fuel is enough for it. -/
def run (turn : σ → Option σ) : ℕ → σ → Option σ
  | 0, _ => none
  | fuel + 1, s =>
    match turn s with
    | none => some s
    | some s' => run turn fuel s'

lemma run_done (h : turn s = none) : run turn (fuel + 1) s = some s := by
  simp only [run, h]

lemma run_turn (h : turn s = some t) : run turn (fuel + 1) s = run turn fuel t := by
  simp only [run, h]

/-- What every turn keeps, the loop keeps. -/
lemma run_keeps (hturn : ∀ s t, P s → turn s = some t → P t) :
    ∀ {s}, P s → run turn fuel s = some t → P t := by
  induction fuel with
  | zero => exact fun _ h => absurd h nofun
  | succ fuel ih =>
    intro s hs hrun
    cases hnext : turn s with
    | none =>
      rw [run_done hnext] at hrun
      exact Option.some.inj hrun ▸ hs
    | some u =>
      rw [run_turn hnext] at hrun
      exact ih (hturn s u hs hnext) hrun

/-- Behind a loop its test fails. -/
lemma run_stops : ∀ {s}, run turn fuel s = some t → turn t = none := by
  induction fuel with
  | zero => exact fun h => by cases h
  | succ fuel ih =>
    intro s hrun
    cases hnext : turn s with
    | none =>
      rw [run_done hnext] at hrun
      exact Option.some.inj hrun ▸ hnext
    | some u =>
      rw [run_turn hnext] at hrun
      exact ih hrun

/-- A loop whose turns keep an invariant and lower a measure ends with the invariant. -/
lemma run_ends {μ : σ → ℕ} (hturn : ∀ s t, P s → turn s = some t → P t ∧ μ t < μ s) :
    ∀ {s}, P s → μ s < fuel → ∃ t, run turn fuel s = some t ∧ P t ∧ turn t = none := by
  induction fuel with
  | zero => exact fun _ hlt => absurd hlt (Nat.not_lt_zero _)
  | succ fuel ih =>
    intro s hs hlt
    cases hnext : turn s with
    | none => exact ⟨s, run_done hnext, hs, hnext⟩
    | some t =>
      obtain ⟨ht, hless⟩ := hturn s t hs hnext
      rw [run_turn hnext]
      exact ih ht (Nat.lt_of_lt_of_le hless (Nat.le_of_lt_succ hlt))

/-- A loop that can always go on does not end. -/
lemma run_endless (hturn : ∀ s, P s → ∃ t, turn s = some t ∧ P t) (fuel : ℕ) :
    ∀ {s}, P s → run turn fuel s = none := by
  induction fuel with
  | zero => exact fun _ => rfl
  | succ fuel ih =>
    intro s hs
    obtain ⟨t, hnext, ht⟩ := hturn s hs
    rw [run_turn hnext]
    exact ih ht

end Framework.Loop
