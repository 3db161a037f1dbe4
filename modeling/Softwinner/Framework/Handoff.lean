import Mathlib.Data.List.Basic
import Softwinner.Framework.Runs

/-!
# A queue with a condition variable

One producer and one consumer.  A call of the producer is a list of operations, which depends on
its input: it adds elements to the queue, and signals the condition.  The consumer tests the queue,
and waits for the condition when it was empty.  The producer takes no mutex of the consumer, so its
operations fall anywhere between the test and the wait.

A signal that is given there is lost.  `not_stranded_of_run` says that this, and a call that
adds without a signal behind it, are the only ways to an element that stays behind with the
consumer asleep.
-/

namespace Framework.Handoff

variable {ι α : Type}

/-- An operation of the producer; `accepts` says whether the queue takes the element. -/
inductive Op (α : Type)
  | add (a : α) (accepts : List α → Bool)
  | signal

/-- What is in the queue behind an operation. -/
def Op.apply : Op α → List α → List α
  | .add a accepts, xs => if accepts xs then xs ++ [a] else xs
  | .signal, xs => xs

@[simp] lemma Op.apply_signal (xs : List α) : (Op.signal : Op α).apply xs = xs := rfl

inductive Consumer
  | running
  /-- The test has found an element. -/
  | found
  | busy
  /-- The test has found none. -/
  | empty
  | waiting
  | exited
  deriving DecidableEq

/-- Queue entries carry the number of the call that added them. -/
structure State (α : Type) where
  queue : List (α × ℕ)
  consumer : Consumer
  /-- What is left of the call. -/
  producer : Option (List (Op α))
  /-- The number of calls that have returned. -/
  finished : ℕ

inductive Act (ι : Type)
  | call (input : ι)
  | operate
  | finishCall
  /-- The test and the removal in one. -/
  | dequeue
  | test
  | pop
  | wait
  /-- A wait may return without a signal. -/
  | wake
  | loop
  | exit

namespace State

variable (calls : ι → List (Op α)) (s : State α)

/-- The effect of an operation. -/
def perform : Op α → State α
  | .add a accepts =>
    if accepts (s.queue.map Prod.fst) then { s with queue := s.queue ++ [(a, s.finished)] } else s
  | .signal =>
    { s with
      consumer := match s.consumer with | .waiting => .running | c => c }

/-- One step, when a call with input `i` consists of `calls i`. -/
def step : Act ι → Option (State α)
  | .call i =>
    match s.producer with
    | none => some { s with producer := some (calls i) }
    | some _ => none
  | .operate =>
    match s.producer with
    | some (op :: ops) => some { s.perform op with producer := some ops }
    | _ => none
  | .finishCall =>
    match s.producer with
    | some [] => some { s with producer := none, finished := s.finished + 1 }
    | _ => none
  | .dequeue =>
    match s.consumer, s.queue with
    | .running, [] => some { s with consumer := .empty }
    | .running, _ :: q => some { s with queue := q, consumer := .busy }
    | _, _ => none
  | .test =>
    match s.consumer, s.queue with
    | .running, [] => some { s with consumer := .empty }
    | .running, _ :: _ => some { s with consumer := .found }
    | _, _ => none
  | .pop =>
    match s.consumer with
    | .found => some { s with queue := s.queue.tail, consumer := .busy }
    | _ => none
  | .wait =>
    match s.consumer with
    | .empty => some { s with consumer := .waiting }
    | _ => none
  | .wake =>
    match s.consumer with
    | .waiting => some { s with consumer := .running }
    | _ => none
  | .loop =>
    match s.consumer with
    | .busy => some { s with consumer := .running }
    | _ => none
  | .exit =>
    match s.consumer with
    | .running | .empty => some { s with consumer := .exited }
    | _ => none

/-- The consumer sleeps on an element whose call has returned. -/
def Stranded : Prop := s.consumer = .waiting ∧ ∃ x ∈ s.queue, x.2 < s.finished

instance : Decidable s.Stranded := inferInstanceAs (Decidable (_ ∧ _))

end State

/-- Both sides before their first step. -/
def State.start : State α := ⟨[], .running, none, 0⟩

/-! ## Calls that signal, and signals that arrive -/

/-- Behind every element that a call adds there is a signal. -/
def Signals : List (Op α) → Prop
  | [] => True
  | .add _ _ :: ops => .signal ∈ ops ∧ Signals ops
  | .signal :: ops => Signals ops

lemma signals_of_last (ops : List (Op α)) : Signals (ops ++ [.signal]) := by
  induction ops with
  | nil => exact trivial
  | cons op ops ih =>
    cases op with
    | add a accepts => exact ⟨by simp, ih⟩
    | signal => exact ih

/-- A signal is the next operation. -/
def State.Signalling (s : State α) : Prop := ∃ ops, s.producer = some (.signal :: ops)

/-- Calls have a `Good` input, and no signal is given between the test and the wait for an element
that has come in meanwhile. -/
def TimelyOk (Good : ι → Prop) (a : Act ι) (s : State α) : Prop :=
  match a with
  | .call i => Good i
  | .operate => s.Signalling → s.consumer = .empty → s.queue = []
  | _ => True

variable {calls : ι → List (Op α)} {Good : ι → Prop} {s s' t : State α} {a : Act ι}

/-- The consumer has found nothing and has not been woken since. -/
def Consumer.Asleep (c : Consumer) : Prop := c = .empty ∨ c = .waiting

/-- What timely runs keep: behind the back of the sleeping consumer there are only elements of a
call whose signal is still to come. -/
structure Inv (s : State α) : Prop where
  asleep : s.consumer.Asleep → s.queue ≠ [] →
    ∃ ops, s.producer = some ops ∧ .signal ∈ ops ∧ ∀ x ∈ s.queue, x.2 = s.finished
  signals : ∀ ops, s.producer = some ops → Signals ops

lemma inv_start : Inv (State.start : State α) :=
  ⟨fun _ hne => absurd rfl hne, fun _ h => nomatch h⟩

lemma Inv.operate {op : Op α} {ops : List (Op α)} (hs : Inv s) (hp : s.producer = some (op :: ops))
    (hok : op = .signal → s.consumer = .empty → s.queue = []) :
    Inv { s.perform op with producer := some ops } := by
  have hsig := hs.signals _ hp
  cases op with
  | add a accepts =>
    refine ⟨fun hasleep hne => ⟨ops, rfl, hsig.1, fun x hx => ?_⟩, fun l hl => ?_⟩
    · simp only [State.perform] at hasleep hne hx ⊢
      have hold : s.consumer.Asleep → ∀ x ∈ s.queue, x.2 = s.finished := by
        intro hasleep x hx
        obtain ⟨-, -, -, hall⟩ := hs.asleep hasleep (List.ne_nil_of_mem hx)
        exact hall x hx
      split_ifs at hasleep hx ⊢
      · rcases List.mem_append.mp hx with hx | hx
        · exact hold hasleep x hx
        · rw [List.mem_singleton.mp hx]
      · exact hold hasleep x hx
    · obtain rfl := Option.some.inj hl
      exact hsig.2
  | signal =>
    refine ⟨fun hasleep hne => ?_, fun l hl => ?_⟩
    · -- a waiting consumer is woken, one in front of its wait has an empty queue
      cases hc : s.consumer with
      | empty => exact absurd (hok rfl hc) hne
      | running | found | busy | waiting | exited =>
        simp [State.perform, hc, Consumer.Asleep] at hasleep
    · obtain rfl := Option.some.inj hl
      exact hsig

lemma Inv.step (hgood : ∀ i, Good i → Signals (calls i)) (hs : Inv s) (hok : TimelyOk Good a s)
    (hstep : s.step calls a = some s') : Inv s' := by
  cases a with
  | call i =>
    simp only [State.step] at hstep
    split at hstep
    swap
    · cases hstep
    rename_i hp
    obtain rfl := Option.some.inj hstep
    refine ⟨fun hasleep hne => ?_, fun l hl => ?_⟩
    · obtain ⟨l, hl, -⟩ := hs.asleep hasleep hne
      rw [hp] at hl
      cases hl
    · obtain rfl := Option.some.inj hl
      exact hgood i hok
  | operate =>
    simp only [State.step] at hstep
    split at hstep
    swap
    · cases hstep
    rename_i op ops hp
    obtain rfl := Option.some.inj hstep
    refine hs.operate hp fun hop => ?_
    subst hop
    exact hok ⟨ops, hp⟩
  | finishCall =>
    simp only [State.step] at hstep
    split at hstep
    swap
    · cases hstep
    rename_i hp
    obtain rfl := Option.some.inj hstep
    refine ⟨fun hasleep hne => ?_, fun _ h => nomatch h⟩
    obtain ⟨l, hl, hsig, -⟩ := hs.asleep hasleep hne
    rw [hp] at hl
    obtain rfl := Option.some.inj hl
    exact absurd hsig List.not_mem_nil
  | dequeue =>
    simp only [State.step] at hstep
    split at hstep
    · rename_i hc hq
      obtain rfl := Option.some.inj hstep
      exact ⟨fun _ hne => absurd hq hne, hs.signals⟩
    · obtain rfl := Option.some.inj hstep
      exact ⟨fun hasleep => by simp [Consumer.Asleep] at hasleep, hs.signals⟩
    · cases hstep
  | test =>
    simp only [State.step] at hstep
    split at hstep
    · rename_i hc hq
      obtain rfl := Option.some.inj hstep
      exact ⟨fun _ hne => absurd hq hne, hs.signals⟩
    · obtain rfl := Option.some.inj hstep
      exact ⟨fun hasleep => by simp [Consumer.Asleep] at hasleep, hs.signals⟩
    · cases hstep
  | wait =>
    simp only [State.step] at hstep
    split at hstep
    swap
    · cases hstep
    rename_i hc
    obtain rfl := Option.some.inj hstep
    exact ⟨fun _ => hs.asleep (Or.inl hc), hs.signals⟩
  | pop | wake | loop =>
    simp only [State.step] at hstep
    split at hstep
    swap
    · cases hstep
    obtain rfl := Option.some.inj hstep
    exact ⟨fun hasleep => by simp [Consumer.Asleep] at hasleep, hs.signals⟩
  | exit =>
    simp only [State.step] at hstep
    split at hstep
    · obtain rfl := Option.some.inj hstep
      exact ⟨fun hasleep => by simp [Consumer.Asleep] at hasleep, hs.signals⟩
    · obtain rfl := Option.some.inj hstep
      exact ⟨fun hasleep => by simp [Consumer.Asleep] at hasleep, hs.signals⟩
    · cases hstep

lemma Inv.awake (hs : Inv s) : ¬ s.Stranded := by
  rintro ⟨hwait, x, hx, hlt⟩
  obtain ⟨-, -, -, hall⟩ := hs.asleep (Or.inr hwait) (List.ne_nil_of_mem hx)
  have heq := hall x hx
  omega

/-- In timely runs nothing is left behind. -/
theorem not_stranded_of_run (hgood : ∀ i, Good i → Signals (calls i))
    {Ok : Act ι → State α → Prop} (hok : ∀ a s, Ok a s → TimelyOk Good a s)
    (hrun : Runs (State.step calls) Ok State.start t) : ¬ t.Stranded :=
  (Runs.invariant (fun hs h hstep => hs.step hgood (hok _ _ h) hstep) inv_start hrun).awake

end Framework.Handoff
