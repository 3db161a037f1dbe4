import Mathlib.Logic.Relation
import Mathlib.Tactic.SplitIfs

/-!
# Runs of a step function

A system is given by a partial step function on its states.  `Runs` are the runs whose steps all
satisfy a condition on the action and the state before it; `Runs.invariant` is the one induction
over them.  `along_iff_meets` is for properties of a sequence of actions that are equivalent to a
condition on its steps, and `alongAll_iff_meetsAll` where every step is also to return;
`meets_or_not_meets` and `holds_iff_meets` are for one of the state
behind the sequence, and `exists_foldlM` for steps that always return.  A run on fixed actions can
be evaluated: `exec`, `exists_runs`.
-/

namespace Framework

variable {σ α : Type} {step : σ → α → Option σ} {Ok : α → σ → Prop} {s t : σ}

/-- Runs whose actions all satisfy `Ok`. -/
abbrev Runs (step : σ → α → Option σ) (Ok : α → σ → Prop) : σ → σ → Prop :=
  Relation.ReflTransGen fun s s' => ∃ a, Ok a s ∧ step s a = some s'

/-- What every step keeps, every run keeps. -/
lemma Runs.invariant {P : σ → Prop}
    (hstep : ∀ {s s' : σ} {a : α}, P s → Ok a s → step s a = some s' → P s')
    (hs : P s) (hrun : Runs step Ok s t) : P t := by
  induction hrun with
  | refl => exact hs
  | tail _ hlast ih =>
    obtain ⟨a, hok, hnext⟩ := hlast
    exact hstep ih hok hnext

/-! ## Along a sequence of actions -/

/-- `P` holds of every state and `K` of every step along a sequence of actions, as far as it can be
executed. -/
def Along (step : σ → α → Option σ) (P : σ → Prop) (K : α → σ → σ → Prop) : σ → List α → Prop
  | s, [] => P s
  | s, a :: as => P s ∧ ∀ s', step s a = some s' → K a s s' ∧ Along step P K s' as

/-- `Ok` holds of every step along a sequence of actions. -/
abbrev Meets (step : σ → α → Option σ) (Ok : α → σ → Prop) : σ → List α → Prop :=
  Along step (fun _ => True) fun a s _ => Ok a s

lemma Along.head {P : σ → Prop} {K : α → σ → σ → Prop} {as : List α}
    (h : Along step P K s as) : P s := by
  cases as with
  | nil => exact h
  | cons a as => exact h.1

lemma Meets.and {Ok' : α → σ → Prop} (as : List α) : ∀ {s}, Meets step Ok s as →
    Meets step Ok' s as → Meets step (fun a s => Ok a s ∧ Ok' a s) s as := by
  induction as with
  | nil => exact fun _ _ => trivial
  | cons a as ih =>
    intro s h h'
    refine ⟨trivial, fun t hstep => ?_⟩
    obtain ⟨hok, hrest⟩ := h.2 t hstep
    obtain ⟨hok', hrest'⟩ := h'.2 t hstep
    exact ⟨⟨hok, hok'⟩, ih hrest hrest'⟩

/-- A condition that keeps an invariant, and that a good step meets, is the exact condition for a
sequence to be good. -/
lemma along_iff_meets {Inv P : σ → Prop} {K : α → σ → σ → Prop} (hgood : ∀ {s}, Inv s → P s)
    (hkeep : ∀ {a s s'}, Inv s → Ok a s → step s a = some s' → Inv s' ∧ K a s s')
    (hexact : ∀ {a s s'}, Inv s → step s a = some s' → K a s s' → P s' → Ok a s)
    (as : List α) : ∀ {s : σ}, Inv s → (Along step P K s as ↔ Meets step Ok s as) := by
  induction as with
  | nil => exact fun hs => ⟨fun _ => trivial, fun _ => hgood hs⟩
  | cons a as ih =>
    intro s hs
    constructor
    · rintro ⟨-, hall⟩
      refine ⟨trivial, fun s' hstep => ?_⟩
      obtain ⟨hK, hrest⟩ := hall s' hstep
      have hok := hexact hs hstep hK hrest.head
      exact ⟨hok, (ih (hkeep hs hok hstep).1).mp hrest⟩
    · rintro ⟨-, hall⟩
      refine ⟨hgood hs, fun s' hstep => ?_⟩
      obtain ⟨hok, hrest⟩ := hall s' hstep
      obtain ⟨hs', hK⟩ := hkeep hs hok hstep
      exact ⟨hK, (ih hs').mpr hrest⟩

/-- As `Along`, and every step of the sequence returns. -/
def AlongAll (step : σ → α → Option σ) (P : σ → Prop) (K : α → σ → σ → Prop) : σ → List α → Prop
  | s, [] => P s
  | s, a :: as => P s ∧ ∃ s', step s a = some s' ∧ K a s s' ∧ AlongAll step P K s' as

/-- `Ok` holds of every step along a sequence of actions, also of one that does not return. -/
def MeetsAll (step : σ → α → Option σ) (Ok : α → σ → Prop) : σ → List α → Prop
  | _, [] => True
  | s, a :: as => Ok a s ∧ ∀ s', step s a = some s' → MeetsAll step Ok s' as

lemma AlongAll.head {P : σ → Prop} {K : α → σ → σ → Prop} {as : List α}
    (h : AlongAll step P K s as) : P s := by
  cases as with
  | nil => exact h
  | cons a as => exact h.1

/-- A condition under which a step returns and keeps an invariant, and that a good step meets, is
the exact condition for all steps of a sequence to return and be good. -/
lemma alongAll_iff_meetsAll {Inv P : σ → Prop} {K : α → σ → σ → Prop} (hgood : ∀ {s}, Inv s → P s)
    (hkeep : ∀ {a s}, Inv s → Ok a s → ∃ s', step s a = some s' ∧ Inv s' ∧ K a s s')
    (hexact : ∀ {a s s'}, Inv s → step s a = some s' → K a s s' → P s' → Ok a s)
    (as : List α) : ∀ {s : σ}, Inv s → (AlongAll step P K s as ↔ MeetsAll step Ok s as) := by
  induction as with
  | nil => exact fun hs => ⟨fun _ => trivial, fun _ => hgood hs⟩
  | cons a as ih =>
    intro s hs
    constructor
    · rintro ⟨-, s', hstep, hK, hrest⟩
      have hok := hexact hs hstep hK hrest.head
      obtain ⟨t, hstep', ht, -⟩ := hkeep hs hok
      obtain rfl := Option.some.inj (hstep.symm.trans hstep')
      refine ⟨hok, fun u hu => ?_⟩
      obtain rfl := Option.some.inj (hstep.symm.trans hu)
      exact (ih ht).mp hrest
    · rintro ⟨hok, hall⟩
      obtain ⟨s', hstep, hs', hK⟩ := hkeep hs hok
      exact ⟨hgood hs, s', hstep, hK, (ih hs').mpr (hall s' hstep)⟩

/-! ## Runs as sequences of actions -/

/-- A run as a list of actions. -/
def exec (step : σ → α → Option σ) (Ok : α → σ → Prop) [∀ a s, Decidable (Ok a s)] (s : σ)
    (as : List α) : Option σ :=
  as.foldlM (fun s a => if Ok a s then step s a else none) s

lemma runs_of_exec [∀ a s, Decidable (Ok a s)] (as : List α) :
    ∀ {s t : σ}, exec step Ok s as = some t → Runs step Ok s t := by
  induction as with
  | nil =>
    intro s t hrun
    obtain rfl := Option.some.inj hrun
    exact Relation.ReflTransGen.refl
  | cons a as ih =>
    intro s t hrun
    obtain ⟨u, hstep, hrest⟩ := Option.bind_eq_some_iff.mp hrun
    simp only at hstep
    split_ifs at hstep with hok
    exact Relation.ReflTransGen.head ⟨a, hok, hstep⟩ (ih hrest)

lemma meets_of_exec [∀ a s, Decidable (Ok a s)] (as : List α) :
    ∀ {s}, (exec step Ok s as).isSome → Meets step Ok s as := by
  induction as with
  | nil => exact fun _ => trivial
  | cons a as ih =>
    intro s hrun
    obtain ⟨t, hrun⟩ := Option.isSome_iff_exists.mp hrun
    obtain ⟨u, hstep, hrest⟩ := Option.bind_eq_some_iff.mp hrun
    simp only at hstep
    split_ifs at hstep with hok
    refine ⟨trivial, fun u' hstep' => ⟨hok, ih ?_⟩⟩
    obtain rfl := Option.some.inj (hstep.symm.trans hstep')
    exact Option.isSome_iff_exists.mpr ⟨t, hrest⟩

/-- A sequence of actions that can be executed is a run. -/
lemma runs_of_foldlM (as : List α) (hrun : as.foldlM step s = some t) :
    Runs step (fun _ _ => True) s t :=
  runs_of_exec as (by simpa only [exec, if_true] using hrun)

/-- A sequence of actions that meets a condition is a run with it. -/
lemma runs_of_meets (as : List α) : ∀ {s}, Meets step Ok s as → as.foldlM step s = some t →
    Runs step Ok s t := by
  induction as with
  | nil =>
    intro s _ hrun
    obtain rfl := Option.some.inj hrun
    exact Relation.ReflTransGen.refl
  | cons a as ih =>
    intro s hall hrun
    rw [List.foldlM_cons] at hrun
    obtain ⟨u, hstep, hrest⟩ := Option.bind_eq_some_iff.mp hrun
    obtain ⟨hok, hall⟩ := hall.2 u hstep
    exact Relation.ReflTransGen.head ⟨a, hok, hstep⟩ (ih hall hrest)

/-- Where the steps that fail a condition lead from `Good` to `Bad`, and nothing leads back, the
sequences that end in `Good` are those whose steps all meet the condition. -/
lemma meets_or_not_meets {Good Bad : σ → Prop}
    (hgood : ∀ {a s s'}, Good s → Ok a s → step s a = some s' → Good s')
    (hfail : ∀ {a s s'}, Good s → ¬ Ok a s → step s a = some s' → Bad s')
    (hbad : ∀ {a s s'}, Bad s → step s a = some s' → Bad s') (as : List α) :
    ∀ {s}, Good s → as.foldlM step s = some t →
      Meets step Ok s as ∧ Good t ∨ ¬ Meets step Ok s as ∧ Bad t := by
  induction as with
  | nil =>
    intro s hs hrun
    obtain rfl := Option.some.inj hrun
    exact .inl ⟨trivial, hs⟩
  | cons a as ih =>
    intro s hs hrun
    rw [List.foldlM_cons] at hrun
    obtain ⟨u, hstep, hrest⟩ := Option.bind_eq_some_iff.mp hrun
    have hmeets : Meets step Ok s (a :: as) ↔ Ok a s ∧ Meets step Ok u as := by
      constructor
      · exact fun h => h.2 u hstep
      · refine fun h => ⟨trivial, fun u' hstep' => ?_⟩
        obtain rfl := Option.some.inj (hstep.symm.trans hstep')
        exact h
    by_cases hok : Ok a s
    · rcases ih (hgood hs hok hstep) hrest with ⟨hall, ht⟩ | ⟨hnot, ht⟩
      · exact .inl ⟨hmeets.mpr ⟨hok, hall⟩, ht⟩
      · exact .inr ⟨fun h => hnot (hmeets.mp h).2, ht⟩
    · refine .inr ⟨fun h => hok (hmeets.mp h).1, ?_⟩
      exact Runs.invariant (fun hu _ hnext => hbad hu hnext) (hfail hs hok hstep)
        (runs_of_foldlM as hrest)

/-- A property that a step keeps exactly if it meets the condition: it holds behind a sequence of
actions exactly if all steps meet the condition. -/
lemma holds_iff_meets {Inv P : σ → Prop}
    (hkeep : ∀ {a s s'}, Inv s → step s a = some s' → Inv s' ∧ (P s' ↔ P s ∧ Ok a s))
    (as : List α) (hs : Inv s) (hP : P s) (hrun : as.foldlM step s = some t) :
    P t ↔ Meets step Ok s as := by
  have hgood : ∀ {a s s'}, Inv s ∧ P s → Ok a s → step s a = some s' → Inv s' ∧ P s' := by
    rintro a s s' ⟨hs, hP⟩ hok hstep
    obtain ⟨hs', hiff⟩ := hkeep hs hstep
    exact ⟨hs', hiff.mpr ⟨hP, hok⟩⟩
  have hfail : ∀ {a s s'}, Inv s ∧ P s → ¬ Ok a s → step s a = some s' → Inv s' ∧ ¬ P s' := by
    rintro a s s' ⟨hs, -⟩ hnot hstep
    obtain ⟨hs', hiff⟩ := hkeep hs hstep
    exact ⟨hs', fun hP => hnot (hiff.mp hP).2⟩
  have hbad : ∀ {a s s'}, Inv s ∧ ¬ P s → step s a = some s' → Inv s' ∧ ¬ P s' := by
    rintro a s s' ⟨hs, hnot⟩ hstep
    obtain ⟨hs', hiff⟩ := hkeep hs hstep
    exact ⟨hs', fun hP => hnot (hiff.mp hP).1⟩
  rcases meets_or_not_meets hgood hfail hbad as ⟨hs, hP⟩ hrun with ⟨hall, -, ht⟩ | ⟨hnot, -, ht⟩
  · exact iff_of_true ht hall
  · exact iff_of_false ht hnot

/-- A run to a state with a property that can be evaluated. -/
lemma exists_runs (step : σ → α → Option σ) (Ok : α → σ → Prop) [∀ a s, Decidable (Ok a s)]
    (P : σ → Prop) [DecidablePred P] {s : σ} (as : List α)
    (hrun : (exec step Ok s as).any (fun t => decide (P t)) = true) :
    ∃ t, Runs step Ok s t ∧ P t := by
  obtain ⟨t, ht, hP⟩ := (Option.any_eq_true _ _).mp hrun
  exact ⟨t, runs_of_exec as ht, of_decide_eq_true hP⟩

/-! ## Steps that always return -/

/-- A step that returns, and what comes behind it. -/
lemma exists_bind {α β : Type} {P : α → Prop} {Q : β → Prop} {step : Option α}
    {next : α → Option β} (hstep : ∃ a, step = some a ∧ P a)
    (hnext : ∀ a, P a → ∃ b, next a = some b ∧ Q b) : ∃ b, step >>= next = some b ∧ Q b := by
  obtain ⟨a, rfl, ha⟩ := hstep
  exact hnext a ha

lemma exists_foldlM {σ α : Type} {P : σ → Prop} {step : σ → α → Option σ} (as : List α)
    (hstep : ∀ {s : σ} (a : α), P s → ∃ t, step s a = some t ∧ P t) :
    ∀ {s : σ}, P s → ∃ t, as.foldlM step s = some t ∧ P t := by
  induction as with
  | nil => exact fun {s} hs => ⟨s, rfl, hs⟩
  | cons a as ih =>
    intro s hs
    rw [List.foldlM_cons]
    exact exists_bind (hstep a hs) fun t ht => ih ht

end Framework
