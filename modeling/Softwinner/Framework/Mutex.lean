import Mathlib.Logic.Function.Basic
import Mathlib.Logic.Relation
import Softwinner.Framework.Prog

/-!
# Threads over one mutex

The programs of `Framework/Prog.lean`, run by any number of threads.  A pool has one program
for each thread, the thread that owns the mutex, and the shared state; a step is one node of one
thread's program.  An idle thread, one whose program has returned, may start a new call.

The mutex protects a part of the state.  `Prog.cwp` is the weakest precondition of a program
that runs among others: when it takes the mutex it knows the invariant and nothing else, when
it releases it the invariant has to hold, and what it does in between cannot be disturbed.
Operations outside the mutex must be `Free`: they leave the protected part alone.

`Pool.Inv.step` is the one induction step over a pool.  Two lemmas bring in what is known about
a program on its own: `cwp_of_wp` for a section that ends with the release, and
`cwp_of_mutexFree` for programs of the unprotected part.
-/

namespace Framework

/-- Threads that share a state and a mutex; `rest i` is what thread `i` still has to do. -/
structure Pool (ι Op : Type) (Res : Op → Type) (α σ : Type) where
  rest : ι → Prog Op Res α
  owner : Option ι
  st : σ

namespace Pool

variable {ι Op : Type} {Res : Op → Type} {α χ σ : Type} [DecidableEq ι]

/-- One step of thread `i`, when `Calls` are the programs that threads call.  A release is
possible for every thread: that only the owner does it is a property, not a rule. -/
inductive Step (P : Perform Op Res χ σ) (Ok : (op : Op) → χ → σ → Prop)
    (Calls : Prog Op Res α → Prop) (i : ι) (w : Pool ι Op Res α σ) : Pool ι Op Res α σ → Prop
  | start {a : α} {p : Prog Op Res α} (hidle : w.rest i = .ret a) (hp : Calls p) :
      Step P Ok Calls i w ⟨Function.update w.rest i p, w.owner, w.st⟩
  | lock {k : Prog Op Res α} (hnext : w.rest i = .lock k) (hfree : w.owner = none) :
      Step P Ok Calls i w ⟨Function.update w.rest i k, some i, w.st⟩
  | unlock {k : Prog Op Res α} (hnext : w.rest i = .unlock k) :
      Step P Ok Calls i w ⟨Function.update w.rest i k, none, w.st⟩
  | call {op : Op} {k : Res op → Prog Op Res α} {c : χ} {r : Res op} {s : σ}
      (hnext : w.rest i = .call op k) (hOk : Ok op c w.st) (hr : P op c w.st = some (r, s)) :
      Step P Ok Calls i w ⟨Function.update w.rest i (k r), w.owner, s⟩

/-- A run: steps of threads in any order. -/
abbrev Reach (P : Perform Op Res χ σ) (Ok : (op : Op) → χ → σ → Prop)
    (Calls : Prog Op Res α → Prop) : Pool ι Op Res α σ → Pool ι Op Res α σ → Prop :=
  Relation.ReflTransGen fun w w' => ∃ i, Step P Ok Calls i w w'

/-- What a thread does on its own, it can do in a pool. -/
lemma reach_of_run {P : Perform Op Res χ σ} {Ok : (op : Op) → χ → σ → Prop}
    {Calls : Prog Op Res α → Prop} {i : ι} {p : Prog Op Res α} {c c' : Prog.Conf χ σ} {a : α}
    {w : Pool ι Op Res α σ} (hrest : w.rest i = p)
    (howner : w.owner = if c.held then some i else none) (hst : w.st = c.st)
    (hadm : p.Admits P Ok c) (hrun : p.run P c = .ok (a, c')) :
    Reach P Ok Calls w
      ⟨Function.update w.rest i (.ret a), if c'.held then some i else none, c'.st⟩ := by
  obtain ⟨rest, owner, st⟩ := w
  simp only at hrest howner hst
  subst howner hst
  induction p generalizing c rest with
  | ret b =>
    injection hrun with hrun
    injection hrun with hb hc
    subst hb hc
    simp only
    rw [← hrest, Function.update_eq_self]
  | lock k ih =>
    rw [Prog.run] at hrun
    split_ifs at hrun with hheld
    have hnext := ih (c := { c with held := true }) hadm hrun (Function.update rest i k)
      (Function.update_self ..)
    simp only [Function.update_idem, if_true] at hnext
    refine (Relation.ReflTransGen.single ⟨i, Step.lock hrest ?_⟩).trans hnext
    simp [hheld]
  | unlock k ih =>
    rw [Prog.run] at hrun
    split_ifs at hrun with hheld
    have hnext := ih (c := { c with held := false }) hadm hrun (Function.update rest i k)
      (Function.update_self ..)
    simp only [Function.update_idem] at hnext
    exact (Relation.ReflTransGen.single ⟨i, Step.unlock hrest⟩).trans hnext
  | call op k ih =>
    rw [Prog.run] at hrun
    cases hr : P op (c.env 0) c.st with
    | none =>
      rw [hr] at hrun
      cases hrun
    | some x =>
      rw [hr] at hrun
      obtain ⟨hok, hrest'⟩ := (Prog.admits_call hr).mp hadm
      have hnext := ih x.1 (c := { c with env := fun n => c.env (n + 1), st := x.2 }) hrest' hrun
        (Function.update rest i (k x.1)) (Function.update_self ..)
      simp only [Function.update_idem] at hnext
      exact (Relation.ReflTransGen.single ⟨i, Step.call hrest hok hr⟩).trans hnext

end Pool

namespace Prog

variable {Op Op' : Type} {Res : Op → Type} {Res' : Op' → Type} {α β χ σ τ ρ : Type}

/-! ## Programs among others -/

section Cwp

variable (P : Perform Op Res χ σ) (Ok : (op : Op) → χ → σ → Prop) (part : σ → ρ)
  (Free : Op → Prop) (I : ρ → Prop)

/-- Whenever the mutex is free, the protected part of the state is one with `I`.  From a thread
that holds the mutex, `h`, while the protected part is `s`, or that does not hold it and saw `s`
at its last step, the program uses mutex and operations as it may, and returns with `Q`. -/
def cwp : Prog Op Res α → (α → Bool → ρ → Prop) → Bool → ρ → Prop
  | .ret a, Q, h, s => Q a h s
  | .lock k, Q, h, _ => h = false ∧ ∀ s, I s → k.cwp Q true s
  | .unlock k, Q, h, s => h = true ∧ I s ∧ k.cwp Q false s
  | .call op k, Q, h, s =>
    (h = false → Free op) ∧ ∀ c x r x', (h = true → part x = s) → Ok op c x →
      P op c x = some (r, x') → (k r).cwp Q h (part x')

variable {P Ok part Free I}

@[simp] lemma cwp_pure (a : α) (Q : α → Bool → ρ → Prop) (h : Bool) (s : ρ) :
    cwp P Ok part Free I (pure a : Prog Op Res α) Q h s ↔ Q a h s := Iff.rfl

lemma cwp_bind (p : Prog Op Res α) (f : α → Prog Op Res β) (Q : β → Bool → ρ → Prop) (h : Bool)
    (s : ρ) : cwp P Ok part Free I (p >>= f) Q h s ↔
      cwp P Ok part Free I p (fun a h' s' => cwp P Ok part Free I (f a) Q h' s') h s := by
  change cwp P Ok part Free I (p.bind f) Q h s ↔ _
  induction p generalizing h s with
  | ret a => exact Iff.rfl
  | lock k ih => simp only [bind, cwp, ih]
  | unlock k ih => simp only [bind, cwp, ih]
  | call op k ih => simp only [bind, cwp, ih]

lemma cwp_mono {p : Prog Op Res α} {Q Q' : α → Bool → ρ → Prop} {h : Bool} {s : ρ}
    (hp : cwp P Ok part Free I p Q h s) (hQ : ∀ a h' s', Q a h' s' → Q' a h' s') :
    cwp P Ok part Free I p Q' h s := by
  induction p generalizing h s with
  | ret a => exact hQ a h s hp
  | lock k ih => exact ⟨hp.1, fun s' hs' => ih (hp.2 s' hs')⟩
  | unlock k ih => exact ⟨hp.1, hp.2.1, ih hp.2.2⟩
  | call op k ih =>
    exact ⟨hp.1, fun c x r x' hx hc hr => ih r (hp.2 c x r x' hx hc hr)⟩

/-- The rule for a call whose specification is known. -/
lemma cwp_bind_of {p : Prog Op Res α} {f : α → Prog Op Res β} {R : α → Bool → ρ → Prop}
    {Q : β → Bool → ρ → Prop} {h : Bool} {s : ρ} (hp : cwp P Ok part Free I p R h s)
    (hf : ∀ a h' s', R a h' s' → cwp P Ok part Free I (f a) Q h' s') :
    cwp P Ok part Free I (p >>= f) Q h s :=
  (cwp_bind p f Q h s).mpr (cwp_mono hp hf)

end Cwp

/-! ## Sections that end with the release -/

section Tidy

variable (P : Perform Op Res χ σ) (Ok : (op : Op) → χ → σ → Prop)

/-- From `s`, with the mutex held, the program returns at once when it has released it. -/
def Tidy : Prog Op Res α → σ → Prop
  | .ret _, _ => True
  | .lock _, _ => True
  | .unlock k, _ => ∃ a, k = .ret a
  | .call op k, s => ∀ c r s', Ok op c s → P op c s = some (r, s') → (k r).Tidy s'

variable {P Ok}

/-- A program that runs with and without the mutex does not touch it. -/
lemma tidy_bind {p : Prog Op Res α} {f : α → Prog Op Res β} {R R' : α → Bool → σ → Prop} {s : σ}
    (hheld : wp P Ok p R true s) (hfree : wp P Ok p R' false s)
    (hf : ∀ a s', (f a).Tidy P Ok s') : (p >>= f).Tidy P Ok s := by
  change (p.bind f).Tidy P Ok s
  induction p generalizing s with
  | ret a => exact hf a s
  | lock k ih => exact absurd hheld.1 (by decide)
  | unlock k ih => exact absurd hfree.1 (by decide)
  | call op k ih =>
    intro c r s' hc hr
    obtain ⟨r₁, s₁, hr₁, hk₁⟩ := hheld c hc
    obtain ⟨r₂, s₂, hr₂, hk₂⟩ := hfree c hc
    obtain ⟨rfl, rfl⟩ := Prod.mk.inj (Option.some.inj (hr.symm.trans hr₁))
    obtain ⟨rfl, rfl⟩ := Prod.mk.inj (Option.some.inj (hr.symm.trans hr₂))
    exact ih r hk₁ hk₂

/-- In particular it is tidy itself. -/
lemma tidy_of_wp {p : Prog Op Res α} {R R' : α → Bool → σ → Prop} {s : σ}
    (hheld : wp P Ok p R true s) (hfree : wp P Ok p R' false s) : p.Tidy P Ok s := by
  have hp : (p >>= pure).Tidy P Ok s := tidy_bind hheld hfree fun _ _ => trivial
  rwa [bind_pure] at hp

lemma tidy_step {op : Op} {f : Res op → Prog Op Res β} {s : σ}
    (hf : ∀ r s', (f r).Tidy P Ok s') : (perform op >>= f).Tidy P Ok s :=
  fun _ r s' _ _ => hf r s'

lemma tidy_release {a : α} {s : σ} : (release >>= fun _ => pure a : Prog Op Res α).Tidy P Ok s :=
  ⟨a, rfl⟩

end Tidy

/-! ## Two parts of a system

The first part is protected, the second is not. -/

section Parts

variable {P : Perform Op Res χ σ} {P' : Perform Op' Res' χ τ}
  {Ok : (op : Op ⊕ Op') → χ → σ × τ → Prop} {Free : Op ⊕ Op' → Prop} {I : σ → Prop}

/-- A section of the first part, from what is known about it on its own. -/
lemma cwp_of_wp {Ok' : (op : Op) → χ → σ → Prop}
    (hOk : ∀ op c s t r, Ok (.inl op) c (s, t) → P op c s = some r → Ok' op c s)
    {p : Prog Op Res α} {Q : α → Bool → σ → Prop} {s : σ} (hp : wp P Ok' p Q true s)
    (htidy : p.Tidy P Ok' s) (hI : ∀ a s', Q a false s' → I s') :
    cwp (sum P P') Ok Prod.fst Free I (p.liftLeft Res') Q true s := by
  induction p generalizing s with
  | ret a => exact hp
  | lock k ih => exact absurd hp.1 (by decide)
  | unlock k ih =>
    obtain ⟨a, rfl⟩ := htidy
    exact ⟨rfl, hI a s hp.2, hp.2⟩
  | call op k ih =>
    refine ⟨fun hfree => absurd hfree (by decide), ?_⟩
    rintro c ⟨s₁, t⟩ r ⟨s', t'⟩ hx hc hr
    obtain rfl : s₁ = s := hx rfl
    simp only [sum, Option.map_eq_some_iff] at hr
    obtain ⟨⟨r', s''⟩, hr', rfl, rfl, rfl⟩ := hr
    have hc' : Ok' op c s₁ := hOk op c s₁ t _ hc hr'
    obtain ⟨r₁, s₂, hr₁, hk⟩ := hp c hc'
    obtain ⟨rfl, rfl⟩ := Prod.mk.inj (Option.some.inj (hr'.symm.trans hr₁))
    exact ih r' hk (htidy c r' s'' hc' hr')

/-- A section that starts with taking the mutex. -/
lemma cwp_of_wp_lock {Ok' : (op : Op) → χ → σ → Prop}
    (hOk : ∀ op c s t r, Ok (.inl op) c (s, t) → P op c s = some r → Ok' op c s)
    {p : Prog Op Res α} {Q : α → Bool → σ → Prop} {s : σ}
    (hp : ∀ s, I s → wp P Ok' (.lock p) Q false s ∧ p.Tidy P Ok' s)
    (hI : ∀ a s', Q a false s' → I s') :
    cwp (sum P P') Ok Prod.fst Free I ((Prog.lock p).liftLeft Res') Q false s := by
  refine ⟨rfl, fun s' hs' => ?_⟩
  obtain ⟨⟨-, hwp⟩, htidy⟩ := hp s' hs'
  exact cwp_of_wp hOk hwp htidy hI

/-- The program has no use of the mutex in it. -/
def MutexFree : Prog Op Res α → Prop
  | .ret _ => True
  | .lock _ => False
  | .unlock _ => False
  | .call _ k => ∀ r, (k r).MutexFree

lemma mutexFree_bind {p : Prog Op Res α} {f : α → Prog Op Res β} (hp : p.MutexFree)
    (hf : ∀ a, (f a).MutexFree) : (p >>= f).MutexFree := by
  change (p.bind f).MutexFree
  induction p with
  | ret a => exact hf a
  | lock k ih => exact hp.elim
  | unlock k ih => exact hp.elim
  | call op k ih => exact fun r => ih r (hp r)

lemma mutexFree_step {op : Op} {f : Res op → Prog Op Res β} (hf : ∀ r, (f r).MutexFree) :
    (perform op >>= f).MutexFree := hf

/-- A program of the second part. -/
lemma cwp_of_mutexFree {p : Prog Op' Res' α} (hp : p.MutexFree) (hfree : ∀ op, Free (.inr op))
    {Q : α → Bool → σ → Prop} {s : σ} (hQ : ∀ a s', Q a false s') :
    cwp (sum P P') Ok Prod.fst Free I (p.liftRight Res) Q false s := by
  induction p generalizing s with
  | ret a => exact hQ a s
  | lock k ih => exact hp.elim
  | unlock k ih => exact hp.elim
  | call op k ih => exact ⟨fun _ => hfree op, fun _ _ r _ _ _ _ => ih r (hp r)⟩

lemma liftLeft_bind (p : Prog Op Res α) (f : α → Prog Op Res β) :
    (p >>= f).liftLeft Res' = p.liftLeft Res' >>= fun a => (f a).liftLeft Res' := by
  change (p.bind f).liftLeft Res' = (p.liftLeft Res').bind fun a => (f a).liftLeft Res'
  induction p with
  | ret a => rfl
  | lock k ih => simp only [bind, liftLeft, ih]
  | unlock k ih => simp only [bind, liftLeft, ih]
  | call op k ih =>
    simp only [bind, liftLeft]
    congr 1
    funext r
    exact ih r

end Parts

end Prog

/-! ## Pools of programs with a precondition -/

namespace Pool

variable {ι Op : Type} {Res : Op → Type} {α χ σ ρ : Type} {P : Perform Op Res χ σ}
  {Ok : (op : Op) → χ → σ → Prop} {part : σ → ρ} {Free : Op → Prop}
  {R : α → ρ → Prop} {Calls : Prog Op Res α → Prop} {w w' : Pool ι Op Res α σ} {i : ι}

/-- Every thread's program has its precondition, for what the thread knows of the state. -/
structure Inv (P : Perform Op Res χ σ) (Ok : (op : Op) → χ → σ → Prop) (part : σ → ρ)
    (Free : Op → Prop) (I : ρ → Prop) (R : α → ρ → Prop) (w : Pool ι Op Res α σ) : Prop where
  free : w.owner = none → I (part w.st)
  held : ∀ i, w.owner = some i →
    (w.rest i).cwp P Ok part Free I (fun a h s => h = false ∧ R a s) true (part w.st)
  others : ∀ i, w.owner ≠ some i →
    ∃ s, (w.rest i).cwp P Ok part Free I (fun a h s => h = false ∧ R a s) false s

/-- Only the owner releases the mutex. -/
lemma Inv.unlock_owner (hw : Inv P Ok part Free I R w) {k : Prog Op Res α}
    (hnext : w.rest i = .unlock k) : w.owner = some i := by
  by_contra hne
  obtain ⟨s, hs⟩ := hw.others i hne
  rw [hnext] at hs
  exact absurd hs.1 (by decide)

/-- A thread that has returned does not own the mutex. -/
lemma Inv.ret_owner (hw : Inv P Ok part Free I R w) {a : α} (hret : w.rest i = .ret a) :
    w.owner ≠ some i := by
  intro hown
  have hs := hw.held i hown
  rw [hret] at hs
  exact absurd hs.1 (by decide)

/-- Whoever is about to perform an operation on the protected part owns the mutex. -/
lemma Inv.call_owner (hw : Inv P Ok part Free I R w) {op : Op} {k : Res op → Prog Op Res α}
    (hnext : w.rest i = .call op k) (hop : ¬ Free op) : w.owner = some i := by
  by_contra hne
  obtain ⟨s, hs⟩ := hw.others i hne
  rw [hnext] at hs
  exact hop (hs.1 rfl)

variable [DecidableEq ι]

/-- Thread `i` goes on with `q`; the other threads neither gain nor lose the mutex, and the
protected part does not change under its owner. -/
lemma Inv.update (hw : Inv P Ok part Free I R w) {q : Prog Op Res α} {o : Option ι} {x : σ}
    (hI : o = none → I (part x))
    (hq : q.cwp P Ok part Free I (fun a h s => h = false ∧ R a s) (decide (o = some i)) (part x))
    (howner : ∀ j, j ≠ i → (o = some j ↔ w.owner = some j))
    (hpart : ∀ j, j ≠ i → w.owner = some j → part x = part w.st) :
    Inv P Ok part Free I R ⟨Function.update w.rest i q, o, x⟩ ∧ ∀ a, q = .ret a → R a (part x) := by
  refine ⟨⟨hI, fun j hj => ?_, fun j hj => ?_⟩, fun a ha => ?_⟩
  · simp only at hj
    by_cases hji : j = i
    · subst hji
      simpa [hj] using hq
    · have hj' := (howner j hji).mp hj
      simp only [Function.update_of_ne hji, hpart j hji hj']
      exact hw.held j hj'
  · simp only at hj
    by_cases hji : j = i
    · subst hji
      exact ⟨part x, by simpa [hj] using hq⟩
    · simp only [Function.update_of_ne hji]
      exact hw.others j fun hj' => hj ((howner j hji).mpr hj')
  · subst ha
    exact hq.2

/-- The step lemma.  A thread that has returned by its step has done so in a state with `R`. -/
lemma Inv.step (hw : Inv P Ok part Free I R w)
    (hfree : ∀ op c x r x', Free op → P op c x = some (r, x') → part x' = part x)
    (hcalls : ∀ p, Calls p → ∀ s,
      p.cwp P Ok part Free I (fun a h s => h = false ∧ R a s) false s)
    (hstep : Step P Ok Calls i w w') :
    Inv P Ok part Free I R w' ∧ ∀ a, w'.rest i = .ret a → R a (part w'.st) := by
  suffices hgo : ∀ q o x, w' = ⟨Function.update w.rest i q, o, x⟩ →
      (Inv P Ok part Free I R ⟨Function.update w.rest i q, o, x⟩ ∧
        ∀ a, q = .ret a → R a (part x)) →
      Inv P Ok part Free I R w' ∧ ∀ a, w'.rest i = .ret a → R a (part w'.st) by
    cases hstep with
    | @start a p hidle hp =>
      refine hgo p w.owner w.st rfl (hw.update hw.free ?_ (fun _ _ => Iff.rfl) fun _ _ _ => rfl)
      simpa [hw.ret_owner hidle] using hcalls p hp (part w.st)
    | @lock k hnext hnone =>
      obtain ⟨s, hs⟩ := hw.others i (by simp [hnone])
      rw [hnext] at hs
      refine hgo k (some i) w.st rfl
        (hw.update (fun h => nomatch h) ?_ (fun j hj => ?_) fun _ _ _ => rfl)
      · simpa using hs.2 _ (hw.free hnone)
      · simp [hnone, Ne.symm hj]
    | @unlock k hnext =>
      have hown := hw.unlock_owner hnext
      have hs := hw.held i hown
      rw [hnext] at hs
      refine hgo k none w.st rfl
        (hw.update (fun _ => hs.2.1) ?_ (fun j hj => ?_) fun _ _ _ => rfl)
      · simpa using hs.2.2
      · simp [hown, Ne.symm hj]
    | @call op k c r x hnext hOk hr =>
      by_cases hown : w.owner = some i
      · have hs := hw.held i hown
        rw [hnext] at hs
        refine hgo (k r) w.owner x rfl
          (hw.update (fun h => ?_) ?_ (fun _ _ => Iff.rfl) fun j hj hj' => ?_)
        · exact nomatch hown.symm.trans h
        · simpa [hown] using hs.2 c w.st r x (fun _ => rfl) hOk hr
        · exact absurd (Option.some.inj (hj'.symm.trans hown)) hj
      · obtain ⟨s₀, hs⟩ := hw.others i hown
        rw [hnext] at hs
        have hsame : part x = part w.st := hfree op c w.st r x (hs.1 rfl) hr
        refine hgo (k r) w.owner x rfl
          (hw.update (fun h => ?_) ?_ (fun _ _ => Iff.rfl) fun _ _ _ => hsame)
        · rw [hsame]
          exact hw.free h
        · simpa [hown] using hs.2 c w.st r x (fun h => nomatch h) hOk hr
  rintro q o x rfl ⟨hinv, hret⟩
  refine ⟨hinv, fun a ha => hret a ?_⟩
  simpa using ha

/-- The run lemma. -/
lemma Inv.reach (hw : Inv P Ok part Free I R w)
    (hfree : ∀ op c x r x', Free op → P op c x = some (r, x') → part x' = part x)
    (hcalls : ∀ p, Calls p → ∀ s,
      p.cwp P Ok part Free I (fun a h s => h = false ∧ R a s) false s)
    (hreach : Reach P Ok Calls w w') : Inv P Ok part Free I R w' := by
  induction hreach with
  | refl => exact hw
  | tail _ hlast ih =>
    obtain ⟨j, hstep⟩ := hlast
    exact (ih.step hfree hcalls hstep).1

end Pool

end Framework
