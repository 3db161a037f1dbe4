import Mathlib.Data.Nat.Notation
import Mathlib.Tactic.Common

/-!
# Imperative programs over one mutex

A program is a tree of operations: `call op k` performs `op` and goes on with its result,
`lock` and `unlock` act on the one mutex the program knows.  What an operation does is not
part of the program; it is given by a `Perform` function, which also takes a *choice*: the
part of the outcome that the environment decides (a system call fails, a write stops half
way, uninitialised memory holds some value).  One definition of the program therefore serves
every semantics put on it here and in `Framework/Mutex.lean`.

* `Prog.run` executes a program against a stream of choices.  It halts abnormally at a
  deadlock, at an unlock of a free mutex, and at an operation that is undefined.
* `Prog.cutoff` executes it for some number of operations and stops there: the power fails.
* `Prog.wp` is the weakest precondition for every choice an `Ok` predicate admits, with its
  composition rules; `wp_run` and `wp_of_run` connect it with `run`.
* `Prog.liftLeft` and `Prog.liftRight` embed the programs of two parts of a system into the
  programs of the whole.

Nothing here mentions a particular program.
-/

namespace Framework

/-- Programs over the operations `Op`, each with its type of results, and one mutex. -/
inductive Prog (Op : Type) (Res : Op → Type) (α : Type) : Type
  /-- Return a value. -/
  | ret (a : α)
  /-- Acquire the mutex. -/
  | lock (k : Prog Op Res α)
  /-- Release the mutex. -/
  | unlock (k : Prog Op Res α)
  /-- Perform an operation and go on with its result. -/
  | call (op : Op) (k : Res op → Prog Op Res α)

/-- What operations do: from a choice of the environment and a state to a result and a new
state, or `none` where the behaviour is undefined. -/
abbrev Perform (Op : Type) (Res : Op → Type) (χ σ : Type) :=
  (op : Op) → χ → σ → Option (Res op × σ)

namespace Prog

variable {Op Op' : Type} {Res : Op → Type} {Res' : Op' → Type} {α β χ σ : Type}

/-- Sequential composition. -/
def bind : Prog Op Res α → (α → Prog Op Res β) → Prog Op Res β
  | .ret a, f => f a
  | .lock k, f => .lock (k.bind f)
  | .unlock k, f => .unlock (k.bind f)
  | .call op k, f => .call op fun r => (k r).bind f

instance : Monad (Prog Op Res) where
  pure := .ret
  bind := bind

lemma bind_pure (p : Prog Op Res α) : p >>= pure = p := by
  change p.bind .ret = p
  induction p with
  | ret a => rfl
  | lock k ih => rw [bind, ih]
  | unlock k ih => rw [bind, ih]
  | call op k ih =>
    rw [bind]
    congr 1
    funext r
    exact ih r

lemma bind_assoc {γ : Type} (p : Prog Op Res α) (f : α → Prog Op Res β) (g : β → Prog Op Res γ) :
    p >>= f >>= g = p >>= fun a => f a >>= g := by
  change (p.bind f).bind g = p.bind fun a => (f a).bind g
  induction p with
  | ret a => rfl
  | lock k ih => rw [bind, bind, bind, ih]
  | unlock k ih => rw [bind, bind, bind, ih]
  | call op k ih =>
    rw [bind, bind, bind]
    congr 1
    funext r
    exact ih r

/-- One operation. -/
def perform (op : Op) : Prog Op Res (Res op) := .call op .ret

/-- Acquire the mutex. -/
def acquire : Prog Op Res Unit := .lock (.ret ())

/-- Release the mutex. -/
def release : Prog Op Res Unit := .unlock (.ret ())

/-! ## Execution -/

/-- Why a run stops without returning. -/
inductive Halt
  /-- The mutex is already held by the running thread. -/
  | deadlock
  /-- A free mutex is released. -/
  | badUnlock
  /-- An operation with undefined behaviour. -/
  | undefined
  deriving DecidableEq, Repr

/-- A single-threaded configuration: whether the mutex is held, the choices still to come,
and the state. -/
structure Conf (χ σ : Type) where
  held : Bool
  env : ℕ → χ
  st : σ

/-- Execute a program. -/
def run (P : Perform Op Res χ σ) :
    Prog Op Res α → Conf χ σ → Except Halt (α × Conf χ σ)
  | .ret a, c => .ok (a, c)
  | .lock k, c => if c.held then .error .deadlock else k.run P { c with held := true }
  | .unlock k, c => if c.held then k.run P { c with held := false } else .error .badUnlock
  | .call op k, c =>
    match P op (c.env 0) c.st with
    | none => .error .undefined
    | some (r, s) => (k r).run P { c with env := fun n => c.env (n + 1), st := s }

/-- Execute at most `n` operations and stop: the state an interrupted program leaves.  What
the last operation did is up to its choice, so an interruption in the middle of an operation
is one whose last choice is a failure with a partial effect. -/
def cutoff (P : Perform Op Res χ σ) : Prog Op Res α → ℕ → Conf χ σ → Option σ
  | _, 0, c => some c.st
  | .ret _, _ + 1, c => some c.st
  | .lock k, n + 1, c => k.cutoff P (n + 1) c
  | .unlock k, n + 1, c => k.cutoff P (n + 1) c
  | .call op k, n + 1, c =>
    match P op (c.env 0) c.st with
    | none => none
    | some (r, s) => (k r).cutoff P n { c with env := fun n => c.env (n + 1), st := s }

/-! ## Weakest preconditions -/

section Wp

variable (P : Perform Op Res χ σ) (Ok : (op : Op) → χ → σ → Prop)

/-- From `(h, s)`, and for every choice `Ok` admits, the program neither deadlocks nor
misuses the mutex nor meets undefined behaviour, and it returns in a state with `Q`. -/
def wp : Prog Op Res α → (α → Bool → σ → Prop) → Bool → σ → Prop
  | .ret a, Q, h, s => Q a h s
  | .lock k, Q, h, s => h = false ∧ k.wp Q true s
  | .unlock k, Q, h, s => h = true ∧ k.wp Q false s
  | .call op k, Q, h, s =>
    ∀ c, Ok op c s → ∃ r s', P op c s = some (r, s') ∧ (k r).wp Q h s'

variable {P Ok}

@[simp] lemma wp_pure (a : α) (Q : α → Bool → σ → Prop) (h : Bool) (s : σ) :
    wp P Ok (pure a : Prog Op Res α) Q h s ↔ Q a h s := Iff.rfl

lemma wp_bind (p : Prog Op Res α) (f : α → Prog Op Res β) (Q : β → Bool → σ → Prop)
    (h : Bool) (s : σ) :
    wp P Ok (p >>= f) Q h s ↔ wp P Ok p (fun a h' s' => wp P Ok (f a) Q h' s') h s := by
  change wp P Ok (p.bind f) Q h s ↔ _
  induction p generalizing h s with
  | ret a => exact Iff.rfl
  | lock k ih => simp only [bind, wp, ih]
  | unlock k ih => simp only [bind, wp, ih]
  | call op k ih => simp only [bind, wp, ih]

lemma wp_mono {p : Prog Op Res α} {Q Q' : α → Bool → σ → Prop} {h : Bool} {s : σ}
    (hp : wp P Ok p Q h s) (hQ : ∀ a h' s', Q a h' s' → Q' a h' s') :
    wp P Ok p Q' h s := by
  induction p generalizing h s with
  | ret a => exact hQ a h s hp
  | lock k ih => exact ⟨hp.1, ih hp.2⟩
  | unlock k ih => exact ⟨hp.1, ih hp.2⟩
  | call op k ih =>
    intro c hc
    obtain ⟨r, s', hr, hk⟩ := hp c hc
    exact ⟨r, s', hr, ih r hk⟩

/-- The rule for one operation. -/
lemma wp_step {op : Op} {f : Res op → Prog Op Res β} {Q : β → Bool → σ → Prop} {h : Bool}
    {s : σ}
    (hf : ∀ c, Ok op c s → ∃ r s', P op c s = some (r, s') ∧ wp P Ok (f r) Q h s') :
    wp P Ok (perform op >>= f) Q h s := hf

/-- The rule for a call whose specification is known. -/
lemma wp_bind_of {p : Prog Op Res α} {f : α → Prog Op Res β} {R : α → Bool → σ → Prop}
    {Q : β → Bool → σ → Prop} {h : Bool} {s : σ} (hp : wp P Ok p R h s)
    (hf : ∀ a h' s', R a h' s' → wp P Ok (f a) Q h' s') : wp P Ok (p >>= f) Q h s :=
  (wp_bind p f Q h s).mpr (wp_mono hp hf)

/-- Fewer choices, weaker obligation. -/
lemma wp_restrict {Ok' : (op : Op) → χ → σ → Prop} {p : Prog Op Res α}
    {Q : α → Bool → σ → Prop} {h : Bool} {s : σ} (hOk : ∀ op c s, Ok' op c s → Ok op c s)
    (hp : wp P Ok p Q h s) : wp P Ok' p Q h s := by
  induction p generalizing h s with
  | ret a => exact hp
  | lock k ih => exact ⟨hp.1, ih hp.2⟩
  | unlock k ih => exact ⟨hp.1, ih hp.2⟩
  | call op k ih =>
    intro c hc
    obtain ⟨r, s', hr, hk⟩ := hp c (hOk op c s hc)
    exact ⟨r, s', hr, ih r hk⟩

end Wp

lemma run_call {P : Perform Op Res χ σ} {op : Op} {k : Res op → Prog Op Res α} {c : Conf χ σ}
    {r : Res op} {s : σ} (hr : P op (c.env 0) c.st = some (r, s)) :
    (Prog.call op k).run P c = (k r).run P { c with env := fun n => c.env (n + 1), st := s } := by
  rw [run, hr]

/-- The choices from the `k`th operation on. -/
abbrev later (env : ℕ → χ) (k : ℕ) : ℕ → χ := fun n => env (n + k)

/-- Soundness: under choices that are all admitted, a program with a precondition returns,
in a state with its postcondition. -/
lemma wp_run {P : Perform Op Res χ σ} {G : χ → Prop} {p : Prog Op Res α}
    {Q : α → Bool → σ → Prop} {c : Conf χ σ}
    (hp : wp P (fun _ x _ => G x) p Q c.held c.st) (henv : ∀ n, G (c.env n)) :
    ∃ a c', p.run P c = .ok (a, c') ∧ Q a c'.held c'.st := by
  induction p generalizing c with
  | ret a => exact ⟨a, c, rfl, hp⟩
  | lock k ih =>
    obtain ⟨hfree, hk⟩ := hp
    have hrun : run P (.lock k) c = k.run P { c with held := true } := by
      rw [run, hfree]
      rfl
    rw [hrun]
    exact ih (c := { c with held := true }) hk henv
  | unlock k ih =>
    obtain ⟨hheld, hk⟩ := hp
    have hrun : run P (.unlock k) c = k.run P { c with held := false } := by
      rw [run, hheld]
      rfl
    rw [hrun]
    exact ih (c := { c with held := false }) hk henv
  | call op k ih =>
    obtain ⟨r, s', hr, hk⟩ := hp (c.env 0) (henv 0)
    rw [run_call hr]
    exact ih r (c := { c with env := fun n => c.env (n + 1), st := s' }) hk
      fun n => henv (n + 1)

/-- The result of a run that is known to return satisfies every postcondition. -/
lemma wp_of_run {P : Perform Op Res χ σ} {G : χ → Prop} {p : Prog Op Res α}
    {Q : α → Bool → σ → Prop} {c c' : Conf χ σ} {a : α}
    (hp : wp P (fun _ x _ => G x) p Q c.held c.st) (henv : ∀ n, G (c.env n))
    (hrun : p.run P c = .ok (a, c')) : Q a c'.held c'.st := by
  obtain ⟨a', c'', hrun', hQ⟩ := wp_run hp henv
  rw [hrun] at hrun'
  injection hrun' with h
  injection h with ha hc
  subst ha hc
  exact hQ

/-- The choices behind a run are among those in front of it. -/
lemma env_of_run {P : Perform Op Res χ σ} {G : χ → Prop} {p : Prog Op Res α} {c c' : Conf χ σ}
    {a : α} (henv : ∀ n, G (c.env n)) (hrun : p.run P c = .ok (a, c')) : ∀ n, G (c'.env n) := by
  induction p generalizing c with
  | ret b =>
    obtain ⟨-, rfl⟩ := Prod.mk.inj (Except.ok.inj hrun)
    exact henv
  | lock k ih =>
    rw [run] at hrun
    split_ifs at hrun
    exact ih (c := { c with held := true }) henv hrun
  | unlock k ih =>
    rw [run] at hrun
    split_ifs at hrun
    exact ih (c := { c with held := false }) henv hrun
  | call op k ih =>
    rw [run] at hrun
    cases hr : P op (c.env 0) c.st with
    | none =>
      rw [hr] at hrun
      cases hrun
    | some x =>
      rw [hr] at hrun
      exact ih x.1 (c := { c with env := fun n => c.env (n + 1), st := x.2 })
        (fun n => henv (n + 1)) hrun

/-- Every operation that the run performs is admitted by `Ok`. -/
def Admits (P : Perform Op Res χ σ) (Ok : (op : Op) → χ → σ → Prop) :
    Prog Op Res α → Conf χ σ → Prop
  | .ret _, _ => True
  | .lock k, c => k.Admits P Ok { c with held := true }
  | .unlock k, c => k.Admits P Ok { c with held := false }
  | .call op k, c =>
    Ok op (c.env 0) c.st ∧
      match P op (c.env 0) c.st with
      | none => True
      | some (r, s) => (k r).Admits P Ok { c with env := fun n => c.env (n + 1), st := s }

lemma admits_call {P : Perform Op Res χ σ} {Ok : (op : Op) → χ → σ → Prop} {op : Op}
    {k : Res op → Prog Op Res α} {c : Conf χ σ} {r : Res op} {s : σ}
    (hr : P op (c.env 0) c.st = some (r, s)) :
    (Prog.call op k).Admits P Ok c ↔ Ok op (c.env 0) c.st ∧
      (k r).Admits P Ok { c with env := fun n => c.env (n + 1), st := s } := by
  rw [Admits, hr]

/-- A run whose operations are all admitted ends with every postcondition. -/
lemma wp_of_admits {P : Perform Op Res χ σ} {Ok : (op : Op) → χ → σ → Prop}
    {p : Prog Op Res α} {Q : α → Bool → σ → Prop} {c c' : Conf χ σ} {a : α}
    (hp : wp P Ok p Q c.held c.st) (hadm : p.Admits P Ok c) (hrun : p.run P c = .ok (a, c')) :
    Q a c'.held c'.st := by
  induction p generalizing c with
  | ret b =>
    injection hrun with hrun
    injection hrun with hb hc
    subst hb hc
    exact hp
  | lock k ih =>
    obtain ⟨hfree, hk⟩ := hp
    have hstep : run P (.lock k) c = k.run P { c with held := true } := by
      rw [run, hfree]
      rfl
    rw [hstep] at hrun
    exact ih (c := { c with held := true }) hk hadm hrun
  | unlock k ih =>
    obtain ⟨hheld, hk⟩ := hp
    have hstep : run P (.unlock k) c = k.run P { c with held := false } := by
      rw [run, hheld]
      rfl
    rw [hstep] at hrun
    exact ih (c := { c with held := false }) hk hadm hrun
  | call op k ih =>
    have hok : Ok op (c.env 0) c.st := by
      rw [Admits] at hadm
      exact hadm.1
    obtain ⟨r, s', hr, hk⟩ := hp (c.env 0) hok
    rw [run_call hr] at hrun
    obtain ⟨-, hrest⟩ := (admits_call hr).mp hadm
    exact ih r (c := { c with env := fun n => c.env (n + 1), st := s' }) hk hrest hrun

/-- A program with a precondition has a run whose operations are all admitted, if no operation
excludes every choice. -/
lemma exists_run_of_wp {P : Perform Op Res χ σ} {Ok : (op : Op) → χ → σ → Prop} [Nonempty χ]
    {p : Prog Op Res α} {Q : α → Bool → σ → Prop} {h : Bool} {s : σ} (hp : wp P Ok p Q h s)
    (hOk : ∀ op s, ∃ x, Ok op x s) :
    ∃ env a c', p.run P ⟨h, env, s⟩ = .ok (a, c') ∧ p.Admits P Ok ⟨h, env, s⟩ ∧
      Q a c'.held c'.st := by
  induction p generalizing h s with
  | ret a => exact ⟨fun _ => Classical.arbitrary χ, a, _, rfl, trivial, hp⟩
  | lock k ih =>
    obtain ⟨rfl, hk⟩ := hp
    exact ih hk
  | unlock k ih =>
    obtain ⟨rfl, hk⟩ := hp
    exact ih hk
  | call op k ih =>
    obtain ⟨x, hx⟩ := hOk op s
    obtain ⟨r, s', hr, hk⟩ := hp x hx
    obtain ⟨env, a, c', hrun, hadm, hQ⟩ := ih r hk
    let env' : ℕ → χ := fun n => if n = 0 then x else env (n - 1)
    have hr' : P op (env' 0) s = some (r, s') := hr
    refine ⟨env', a, c', ?_, ?_, hQ⟩
    · exact (run_call (c := ⟨h, env', s⟩) hr').trans hrun
    · exact (admits_call (c := ⟨h, env', s⟩) hr').mpr ⟨hx, hadm⟩

/-- In a run that returns every operation was defined, so it is admitted when all defined
operations are. -/
lemma admits_of_returned {P : Perform Op Res χ σ} {Ok : (op : Op) → χ → σ → Prop}
    {p : Prog Op Res α} {c c' : Conf χ σ} {a : α}
    (hOk : ∀ n op s r, P op (c.env n) s = some r → Ok op (c.env n) s)
    (hrun : p.run P c = .ok (a, c')) : p.Admits P Ok c := by
  induction p generalizing c with
  | ret b => trivial
  | lock k ih =>
    refine ih (c := { c with held := true }) hOk ?_
    rw [run] at hrun
    split_ifs at hrun
    exact hrun
  | unlock k ih =>
    refine ih (c := { c with held := false }) hOk ?_
    rw [run] at hrun
    split_ifs at hrun
    exact hrun
  | call op k ih =>
    rw [run] at hrun
    cases hr : P op (c.env 0) c.st with
    | none =>
      rw [hr] at hrun
      cases hrun
    | some x =>
      rw [hr] at hrun
      rw [Admits]
      refine ⟨hOk 0 op c.st x hr, ?_⟩
      rw [hr]
      exact ih x.1 (c := { c with env := fun n => c.env (n + 1), st := x.2 })
        (fun n => hOk (n + 1)) hrun

/-- In a run that returns the admitted operations were also defined. -/
lemma Admits.defined {P : Perform Op Res χ σ} {Ok : (op : Op) → χ → σ → Prop}
    {p : Prog Op Res α} {c c' : Conf χ σ} {a : α} (hadm : p.Admits P Ok c)
    (hrun : p.run P c = .ok (a, c')) :
    p.Admits P (fun op x s => Ok op x s ∧ P op x s ≠ none) c := by
  induction p generalizing c with
  | ret b => trivial
  | lock k ih =>
    rw [run] at hrun
    split_ifs at hrun
    exact ih (c := { c with held := true }) hadm hrun
  | unlock k ih =>
    rw [run] at hrun
    split_ifs at hrun
    exact ih (c := { c with held := false }) hadm hrun
  | call op k ih =>
    rw [run] at hrun
    cases hr : P op (c.env 0) c.st with
    | none =>
      rw [hr] at hrun
      cases hrun
    | some x =>
      rw [hr] at hrun
      have hr' : P op (c.env 0) c.st = some (x.1, x.2) := hr
      obtain ⟨hok, hrest⟩ := (admits_call hr').mp hadm
      refine (admits_call hr').mpr ⟨⟨hok, ?_⟩, ih x.1 hrest hrun⟩
      rw [hr]
      exact Option.some_ne_none _

/-- Partial correctness: a precondition that only speaks of defined operations is enough for a
run that returns. -/
lemma wp_of_returned {P : Perform Op Res χ σ} {Ok : (op : Op) → χ → σ → Prop}
    {p : Prog Op Res α} {Q : α → Bool → σ → Prop} {c c' : Conf χ σ} {a : α}
    (hp : wp P Ok p Q c.held c.st)
    (hOk : ∀ n op s r, P op (c.env n) s = some r → Ok op (c.env n) s)
    (hrun : p.run P c = .ok (a, c')) : Q a c'.held c'.st :=
  wp_of_admits hp (admits_of_returned hOk hrun) hrun

/-- A composition runs its parts one after the other. -/
lemma run_bind (P : Perform Op Res χ σ) (p : Prog Op Res α) (f : α → Prog Op Res β)
    (c : Conf χ σ) : (p >>= f).run P c =
      match p.run P c with
      | .ok (a, c') => (f a).run P c'
      | .error e => .error e := by
  change (p.bind f).run P c = _
  induction p generalizing c with
  | ret a => rfl
  | lock k ih =>
    by_cases hheld : c.held
    · simp only [bind, run, hheld, if_true]
    · simp only [bind, run, hheld, ih]
      rfl
  | unlock k ih =>
    by_cases hheld : c.held
    · simp only [bind, run, hheld, if_true, ih]
    · simp only [bind, run, hheld]
      rfl
  | call op k ih =>
    simp only [bind, run]
    cases P op (c.env 0) c.st with
    | none => rfl
    | some x => exact ih x.1 _

/-! ## One environment

`Yields` is the precondition for a single environment: what the run from a configuration does
is then determined by the choices it consults. -/

/-- The run from `c` returns, with `Q`. -/
def Yields (P : Perform Op Res χ σ) (p : Prog Op Res α) (c : Conf χ σ)
    (Q : α → Conf χ σ → Prop) : Prop :=
  ∃ a c', p.run P c = .ok (a, c') ∧ Q a c'

section Yields

variable {P : Perform Op Res χ σ} {p : Prog Op Res α} {f : α → Prog Op Res β} {c : Conf χ σ}
  {h : Bool} {env : ℕ → χ} {s s' : σ}

lemma yields_pure {a : α} {Q : α → Conf χ σ → Prop} (hQ : Q a c) :
    Yields P (pure a) c Q := ⟨a, c, rfl, hQ⟩

lemma yields_step {op : Op} {r : Res op} {f : Res op → Prog Op Res β}
    {Q : β → Conf χ σ → Prop} (hr : P op (env 0) s = some (r, s'))
    (hf : Yields P (f r) ⟨h, later env 1, s'⟩ Q) :
    Yields P (perform op >>= f) ⟨h, env, s⟩ Q := by
  obtain ⟨b, c', hrun, hQ⟩ := hf
  exact ⟨b, c', (run_call (c := ⟨h, env, s⟩) hr).trans hrun, hQ⟩

lemma yields_bind {R : α → Conf χ σ → Prop} {Q : β → Conf χ σ → Prop} (hp : Yields P p c R)
    (hf : ∀ a c', R a c' → Yields P (f a) c' Q) : Yields P (p >>= f) c Q := by
  obtain ⟨a, c', hrun, hR⟩ := hp
  obtain ⟨b, c'', hrun', hQ⟩ := hf a c' hR
  refine ⟨b, c'', ?_, hQ⟩
  rw [run_bind, hrun]
  exact hrun'

lemma yields_acquire {f : Unit → Prog Op Res β} {Q : β → Conf χ σ → Prop}
    (hf : Yields P (f ()) ⟨true, env, s⟩ Q) : Yields P (acquire >>= f) ⟨false, env, s⟩ Q := hf

lemma yields_release {f : Unit → Prog Op Res β} {Q : β → Conf χ σ → Prop}
    (hf : Yields P (f ()) ⟨false, env, s⟩ Q) : Yields P (release >>= f) ⟨true, env, s⟩ Q := hf

/-- A run returns once. -/
lemma Yields.of_run {Q : α → Conf χ σ → Prop} {a : α} {c' : Conf χ σ} (hp : Yields P p c Q)
    (hrun : p.run P c = .ok (a, c')) : Q a c' := by
  obtain ⟨a', c'', hrun', hQ⟩ := hp
  rw [hrun] at hrun'
  obtain ⟨rfl, rfl⟩ := Prod.mk.inj (Except.ok.inj hrun')
  exact hQ

/-- A run consults finitely many choices, so any others may follow them. -/
lemma exists_run_splice {p : Prog Op Res α} {a : α} {c' : Conf χ σ}
    (hrun : p.run P ⟨h, env, s⟩ = .ok (a, c')) (tail : ℕ → χ) :
    ∃ env', p.run P ⟨h, env', s⟩ = .ok (a, ⟨c'.held, tail, c'.st⟩) := by
  induction p generalizing h env s with
  | ret b =>
    obtain ⟨rfl, rfl⟩ := Prod.mk.inj (Except.ok.inj hrun)
    exact ⟨tail, rfl⟩
  | lock k ih =>
    rw [run] at hrun
    split_ifs at hrun with hheld
    obtain ⟨env', hk⟩ := ih hrun
    refine ⟨env', ?_⟩
    rw [run, if_neg hheld]
    exact hk
  | unlock k ih =>
    rw [run] at hrun
    split_ifs at hrun with hheld
    obtain ⟨env', hk⟩ := ih hrun
    refine ⟨env', ?_⟩
    rw [run, if_pos hheld]
    exact hk
  | call op k ih =>
    rw [run] at hrun
    cases hr : P op (env 0) s with
    | none =>
      rw [hr] at hrun
      cases hrun
    | some x =>
      rw [hr] at hrun
      obtain ⟨env', hk⟩ := ih x.1 hrun
      let env'' : ℕ → χ := fun n => if n = 0 then env 0 else env' (n - 1)
      have hr' : P op (env'' 0) s = some (x.1, x.2) := hr
      exact ⟨env'', (run_call (c := ⟨h, env'', s⟩) hr').trans hk⟩

/-- Choices that no operation can tell apart lead to the same end. -/
lemma Yields.of_map {f : χ → χ} (hf : ∀ op x s, P op (f x) s = P op x s)
    (hp : Yields P p ⟨h, fun n => f (env n), s⟩ fun _ _ => True) :
    Yields P p ⟨h, env, s⟩ fun _ _ => True := by
  induction p generalizing h env s with
  | ret b => exact ⟨b, _, rfl, trivial⟩
  | lock k ih =>
    obtain ⟨a, c', hrun, -⟩ := hp
    rw [run] at hrun
    split_ifs at hrun with hheld
    obtain ⟨a', c'', hrun', -⟩ := ih ⟨a, c', hrun, trivial⟩
    refine ⟨a', c'', ?_, trivial⟩
    rw [run, if_neg hheld]
    exact hrun'
  | unlock k ih =>
    obtain ⟨a, c', hrun, -⟩ := hp
    rw [run] at hrun
    split_ifs at hrun with hheld
    obtain ⟨a', c'', hrun', -⟩ := ih ⟨a, c', hrun, trivial⟩
    refine ⟨a', c'', ?_, trivial⟩
    rw [run, if_pos hheld]
    exact hrun'
  | call op k ih =>
    obtain ⟨a, c', hrun, -⟩ := hp
    rw [run] at hrun
    simp only [hf] at hrun
    cases hr : P op (env 0) s with
    | none =>
      rw [hr] at hrun
      cases hrun
    | some x =>
      rw [hr] at hrun
      obtain ⟨a', c'', hrun', -⟩ := ih x.1 ⟨a, c', hrun, trivial⟩
      exact ⟨a', c'', (run_call (c := ⟨h, env, s⟩) hr).trans hrun', trivial⟩

/-- The first part of a composition that returns has returned. -/
lemma Yields.left {Q : β → Conf χ σ → Prop} (hp : Yields P (p >>= f) c Q) :
    Yields P p c fun _ _ => True := by
  obtain ⟨b, c', hrun, -⟩ := hp
  rw [run_bind] at hrun
  cases hrun' : p.run P c with
  | error e =>
    rw [hrun'] at hrun
    cases hrun
  | ok x => exact ⟨x.1, x.2, hrun', trivial⟩

/-- A composition that always returns has a second part that always returns, from wherever the
first part can lead. -/
lemma Yields.of_bind {p : Prog Op Res α} {Q : β → Conf χ σ → Prop} {a : α} {c₁ : Conf χ σ}
    (hall : ∀ env, Yields P (p >>= f) ⟨h, env, s⟩ Q)
    (hp : p.run P ⟨h, env, s⟩ = .ok (a, c₁)) (tail : ℕ → χ) :
    Yields P (f a) ⟨c₁.held, tail, c₁.st⟩ Q := by
  obtain ⟨env', hrun⟩ := exists_run_splice hp tail
  obtain ⟨b, c₂, hrun', hQ⟩ := hall env'
  rw [run_bind, hrun] at hrun'
  exact ⟨b, c₂, hrun', hQ⟩

section Admitted

variable {Ok : (op : Op) → χ → σ → Prop} {G : χ → Prop}

/-- There are choices in `G` that are admitted all along the run they give. -/
lemma exists_admits (hG : ∃ x, G x) (hOk : ∀ op s, ∃ x, G x ∧ Ok op x s) (p : Prog Op Res α)
    (h : Bool) (s : σ) : ∃ env, (∀ n, G (env n)) ∧ p.Admits P Ok ⟨h, env, s⟩ := by
  induction p generalizing h s with
  | ret a =>
    obtain ⟨x, hx⟩ := hG
    exact ⟨fun _ => x, fun _ => hx, trivial⟩
  | lock k ih => exact ih true s
  | unlock k ih => exact ih false s
  | call op k ih =>
    obtain ⟨x, hGx, hx⟩ := hOk op s
    cases hr : P op x s with
    | none =>
      refine ⟨fun _ => x, fun _ => hGx, ?_⟩
      rw [Admits]
      refine ⟨hx, ?_⟩
      rw [hr]
      trivial
    | some r =>
      obtain ⟨env, hGenv, hadm⟩ := ih r.1 h r.2
      let env' : ℕ → χ := fun n => if n = 0 then x else env (n - 1)
      have hr' : P op (env' 0) s = some (r.1, r.2) := hr
      refine ⟨env', fun n => ?_, (admits_call (c := ⟨h, env', s⟩) hr').mpr ⟨hx, hadm⟩⟩
      by_cases hn : n = 0
      · simpa only [env', if_pos hn] using hGx
      · simpa only [env', if_neg hn] using hGenv (n - 1)

/-- A program that returns for all choices in `G` has a run whose operations are all admitted,
and partial correctness is enough for that run. -/
lemma exists_return {R : α → Conf χ σ → Prop} {Q : α → Bool → σ → Prop} (hG : ∃ x, G x)
    (hOk : ∀ op s, ∃ x, G x ∧ Ok op x s)
    (hall : ∀ env, (∀ n, G (env n)) → Yields P p ⟨h, env, s⟩ R)
    (hp : wp P (fun op x s => Ok op x s ∧ P op x s ≠ none) p Q h s) :
    ∃ a c', R a c' ∧ Q a c'.held c'.st := by
  obtain ⟨env, hGenv, hadm⟩ := exists_admits (P := P) hG hOk p h s
  obtain ⟨a, c', hrun, hR⟩ := hall env hGenv
  exact ⟨a, c', hR, wp_of_admits hp (hadm.defined hrun) hrun⟩

end Admitted

end Yields

/-! ## Programs over two sets of operations

Two parts of a system, each with its own operations and its own state, run in one program
over the sum of the operations and the product of the states. -/

/-- A program of the first part, as a program of the whole. -/
def liftLeft (Res' : Op' → Type) : Prog Op Res α → Prog (Op ⊕ Op') (Sum.elim Res Res') α
  | .ret a => .ret a
  | .lock k => .lock (k.liftLeft Res')
  | .unlock k => .unlock (k.liftLeft Res')
  | .call op k => .call (.inl op) fun r => (k r).liftLeft Res'

/-- A program of the second part, as a program of the whole. -/
def liftRight (Res : Op → Type) : Prog Op' Res' α → Prog (Op ⊕ Op') (Sum.elim Res Res') α
  | .ret a => .ret a
  | .lock k => .lock (k.liftRight Res)
  | .unlock k => .unlock (k.liftRight Res)
  | .call op k => .call (.inr op) fun r => (k r).liftRight Res

/-- Each operation acts on the state of its own part. -/
def sum {τ : Type} (P : Perform Op Res χ σ) (P' : Perform Op' Res' χ τ) :
    Perform (Op ⊕ Op') (Sum.elim Res Res') χ (σ × τ)
  | .inl op, c, s => (P op c s.1).map fun x => (x.1, x.2, s.2)
  | .inr op, c, s => (P' op c s.2).map fun x => (x.1, s.1, x.2)

section Lift

variable {τ : Type} {P : Perform Op Res χ σ} {P' : Perform Op' Res' χ τ}
  {Ok : (op : Op ⊕ Op') → χ → σ × τ → Prop} {h : Bool} {s : σ} {t : τ}

/-- A program of the first part runs in the whole as it does by itself. -/
lemma run_liftLeft (p : Prog Op Res α) (h : Bool) (env : ℕ → χ) (s : σ) (t : τ) :
    (p.liftLeft Res').run (sum P P') ⟨h, env, s, t⟩ =
      (p.run P ⟨h, env, s⟩).map fun r => (r.1, ⟨r.2.held, r.2.env, r.2.st, t⟩) := by
  induction p generalizing h env s with
  | ret a => rfl
  | lock k ih =>
    simp only [liftLeft, run]
    split_ifs
    · rfl
    · exact ih true env s
  | unlock k ih =>
    simp only [liftLeft, run]
    split_ifs
    · exact ih false env s
    · rfl
  | call op k ih =>
    simp only [liftLeft, run, sum]
    cases P op (env 0) s with
    | none => rfl
    | some x => exact ih x.1 h _ x.2

lemma yields_liftLeft {p : Prog Op Res α} {env : ℕ → χ} {Q : α → Conf χ σ → Prop}
    (hp : Yields P p ⟨h, env, s⟩ Q) :
    Yields (sum P P') (p.liftLeft Res') ⟨h, env, s, t⟩ fun a c =>
      Q a ⟨c.held, c.env, c.st.1⟩ ∧ c.st.2 = t := by
  obtain ⟨a, c, hrun, hQ⟩ := hp
  refine ⟨a, ⟨c.held, c.env, c.st, t⟩, ?_, hQ, rfl⟩
  rw [run_liftLeft, hrun]
  rfl

lemma Yields.of_liftLeft {p : Prog Op Res α} {env : ℕ → χ} {Q : α → Conf χ (σ × τ) → Prop}
    (hp : Yields (sum P P') (p.liftLeft Res') ⟨h, env, s, t⟩ Q) :
    Yields P p ⟨h, env, s⟩ fun _ _ => True := by
  obtain ⟨a, c, hrun, -⟩ := hp
  rw [run_liftLeft] at hrun
  cases hrun' : p.run P ⟨h, env, s⟩ with
  | error e =>
    rw [hrun'] at hrun
    cases hrun
  | ok x => exact ⟨x.1, x.2, hrun', trivial⟩

lemma wp_liftLeft {p : Prog Op Res α} {Q : α → Bool → σ × τ → Prop}
    (hp : wp P (fun op c s => Ok (.inl op) c (s, t)) p (fun a h' s' => Q a h' (s', t)) h s) :
    wp (sum P P') Ok (p.liftLeft Res') Q h (s, t) := by
  induction p generalizing h s with
  | ret a => exact hp
  | lock k ih => exact ⟨hp.1, ih hp.2⟩
  | unlock k ih => exact ⟨hp.1, ih hp.2⟩
  | call op k ih =>
    intro c hc
    obtain ⟨r, s', hr, hk⟩ := hp c hc
    exact ⟨r, (s', t), by simp [sum, hr], ih r hk⟩

lemma wp_liftRight {p : Prog Op' Res' α} {Q : α → Bool → σ × τ → Prop}
    (hp : wp P' (fun op c t => Ok (.inr op) c (s, t)) p (fun a h' t' => Q a h' (s, t')) h t) :
    wp (sum P P') Ok (p.liftRight Res) Q h (s, t) := by
  induction p generalizing h t with
  | ret a => exact hp
  | lock k ih => exact ⟨hp.1, ih hp.2⟩
  | unlock k ih => exact ⟨hp.1, ih hp.2⟩
  | call op k ih =>
    intro c hc
    obtain ⟨r, t', hr, hk⟩ := hp c hc
    exact ⟨r, (s, t'), by simp [sum, hr], ih r hk⟩

end Lift

end Prog

end Framework
