import Softwinner.Bluetooth.Session

/-!
# The buffers of the stack

What becomes of the buffers that the library takes from the stack, and of the events it is given.
-/

namespace Softwinner.Bluetooth

open Framework Vendor

/-- The stack takes the command that is asked for in this step; `hw_config_cback` looks at what
`xmit_cb` returns, so that this is about the other commands. -/
def Takes : Env × Act → Vendor → Prop
  | (env, .fwCfg), _ => env.alloc = true → env.xmit = true
  | (env, .reply e), v =>
    (v.pending = some (.rtkGetLmp, e.opcode) → env.xmit = true) ∧
      (v.pending = some (.rtkGetLmpCback, e.opcode) → e.status = 0 → e.lmp ≠ romLmp8723a →
        env.xmit = true)
  | (_, .alarm), _ => True

def isReply : Act → Bool
  | .reply _ => true
  | _ => false

/-- An answer to the first command. -/
def isFirst : Act → Bool
  | .reply e => decide (e.opcode = hciVscH5Init)
  | _ => false

/-- The buffers that these effects leave: `lost` are neither with the stack nor given back. -/
structure Accounts (effects : List Effect) (lost events : ℕ) : Prop where
  buffers : effects.count .alloc =
    (commandCodes effects).length + effects.count .deallocCommand + lost
  events : effects.count .deallocEvent = events

section Buffers

variable {v w : Vendor} {env : Env} {mem : Option Event}

lemma accounts_asks (c : Command) : Accounts (asks env c) (if env.xmit then 0 else 1) 0 := by
  unfold asks
  cases env.xmit <;> exact ⟨rfl, rfl⟩

lemma Accounts.append {effects effects' : List Effect} {lost lost' events events' : ℕ}
    (h : Accounts effects lost events) (h' : Accounts effects' lost' events') :
    Accounts (effects ++ effects') (lost + lost') (events + events') := by
  constructor
  · rw [List.count_append, List.count_append, commandCodes_append, List.length_append, h.buffers,
      h'.buffers]
    omega
  · rw [List.count_append, h.events, h'.events]

lemma accounts_lpm (status : ℕ) : Accounts [.lpm status, .deallocEvent] 0 1 := ⟨rfl, rfl⟩

lemma accounts_commanded (c : Command) :
    Accounts (.alloc :: .xmit c :: eventBack mem) 0 (eventBack mem).length := by
  cases mem <;> exact ⟨rfl, rfl⟩

lemma Call.accounts (h : Call v w env mem) : ∃ effects,
    requests w.log = requests v.log ++ effects ∧ Accounts effects 0 (eventBack mem).length := by
  cases h with
  | commanded c log opcode pending state need alarm started =>
    exact ⟨_, log, accounts_commanded c⟩
  | ended effects log closing pending state need alarm =>
    refine ⟨effects, log, ?_, closing.events⟩
    rw [closing.buffers, closing.codes]
    exact (Nat.zero_add _).symm

lemma lost_iff {p : Prop} (h : p ↔ env.xmit = true) : (if env.xmit then 0 else 1) = 0 ↔ p := by
  rw [h]
  cases env.xmit <;> decide

lemma accounts_step (hv : Reached v) {a : Env × Act} (h : step v a = some w) :
    ∃ effects lost events, requests w.log = requests v.log ++ effects ∧
      Accounts effects lost events ∧ (lost = 0 ↔ Takes a v) ∧
      events + (isFirst a.2).toNat = (isReply a.2).toNat := by
  -- the opcode tells which callback an answer belongs to
  have hfirst : ∀ {callback e}, v.pending = some (callback, e.opcode) →
      isFirst (.reply e) = decide (callback = .rtkGetLmp) := by
    intro callback e hp
    exact decide_eq_decide.mpr (hv.opcode _ _ hp)
  cases step_cases h with
  | started env alloc log pending state need alarm =>
    refine ⟨_, _, _, log, accounts_asks _, lost_iff ?_, rfl⟩
    exact ⟨fun htakes => htakes alloc, fun hx _ => hx⟩
  | notStarted env alloc log pending state need alarm =>
    refine ⟨_, 0, 0, log, ⟨rfl, rfl⟩, iff_of_true rfl fun htrue => ?_, rfl⟩
    rw [alloc] at htrue
    cases htrue
  | asked env e answered log pending state need alarm =>
    refine ⟨_, _, _, log, accounts_asks _, lost_iff ?_, ?_⟩
    · refine ⟨fun htakes => htakes.1 answered, fun hx => ⟨fun _ => hx, fun _ _ _ => hx⟩⟩
    · rw [hfirst answered]
      rfl
  | failed env e answered status log pending state need alarm =>
    refine ⟨_, _, _, log, accounts_lpm _, iff_of_true rfl ⟨fun h => ?_, fun _ h => ?_⟩, ?_⟩
    · rw [answered] at h
      cases h
    · exact absurd h status
    · rw [hfirst answered]
      rfl
  | versioned env e answered status several log pending state need alarm version =>
    refine ⟨_, _, _, log, (accounts_asks _).append (accounts_lpm _), lost_iff ?_, ?_⟩
    · exact ⟨fun htakes => htakes.2 answered status several,
        fun hx => ⟨fun _ => hx, fun _ _ _ => hx⟩⟩
    · rw [hfirst answered]
      rfl
  | called env e u answered status single call last =>
    subst last
    obtain ⟨effects, hlog, haccounts⟩ := call.accounts
    refine ⟨_, _, _, ?_, haccounts.append (accounts_lpm e.status),
      iff_of_true rfl ⟨fun h => ?_, fun _ _ h => absurd single h⟩, ?_⟩
    · show requests (u.log ++ _) = _
      rw [requests_append, hlog, List.append_assoc]
      rfl
    · rw [answered] at h
      cases h
    · rw [hfirst answered]
      rfl
  | configured env e answered call =>
    obtain ⟨effects, hlog, haccounts⟩ := call.accounts
    refine ⟨effects, 0, _, hlog, haccounts, iff_of_true rfl ⟨fun h => ?_, fun h => ?_⟩, ?_⟩
    · rw [answered] at h
      cases h
    · rw [answered] at h
      cases h
    · rw [hfirst answered]
      rfl
  | timedOut env armed last =>
    subst last
    exact ⟨_, 0, 0, requests_append .., ⟨rfl, rfl⟩, iff_of_true rfl trivial, rfl⟩

end Buffers

/-- Every buffer is with the stack or given back. -/
def Settled (v : Vendor) : Prop :=
  v.log.count .alloc = (commandCodes v.log).length + v.log.count .deallocCommand

/-- No buffer is with the stack or given back without having been taken. -/
structure Solvent (v : Vendor) : Prop where
  reached : Reached v
  covered : (commandCodes v.log).length + v.log.count .deallocCommand ≤ v.log.count .alloc

section BufferRuns

variable {v w t : Vendor}

lemma settled_step (hv : Solvent v) {a : Env × Act} (h : step v a = some w) :
    Solvent w ∧ (Settled w ↔ Settled v ∧ Takes a v) := by
  obtain ⟨effects, lost, events, hlog, haccounts, hlost, -⟩ := accounts_step hv.reached h
  have halloc := count_of_requests .alloc rfl hlog
  have hdealloc := count_of_requests .deallocCommand rfl hlog
  have hcodes := congrArg List.length (commandCodes_of_requests hlog)
  rw [List.length_append] at hcodes
  have hbuffers := haccounts.buffers
  have hle := hv.covered
  refine ⟨⟨reached_step hv.reached h, by omega⟩, ?_⟩
  rw [← hlost, Settled, Settled]
  omega

lemma events_run (as : List (Env × Act)) : ∀ {v : Vendor}, Reached v →
    as.foldlM step v = some t →
      t.log.count .deallocEvent + as.countP (fun a => isFirst a.2) =
        v.log.count .deallocEvent + as.countP (fun a => isReply a.2) := by
  induction as with
  | nil =>
    intro v _ hrun
    obtain rfl := Option.some.inj hrun
    rfl
  | cons a as ih =>
    intro v hv hrun
    rw [List.foldlM_cons] at hrun
    obtain ⟨u, hstep, hrest⟩ := Option.bind_eq_some_iff.mp hrun
    obtain ⟨effects, lost, events, hlog, haccounts, -, hevents⟩ := accounts_step hv hstep
    have hdealloc := count_of_requests .deallocEvent rfl hlog
    rw [haccounts.events] at hdealloc
    have hrun := ih (reached_step hv hstep) hrest
    rw [List.countP_cons, List.countP_cons]
    cases hf : isFirst a.2 <;> cases hr : isReply a.2 <;> rw [hf, hr] at hevents <;>
      simp only [Bool.toNat_true, Bool.toNat_false] at hevents <;>
      simp only [if_true, Bool.false_eq_true, if_false] <;> omega

end BufferRuns

/-- The buffers of a run: none is lost exactly if the stack takes every command of the prologue,
because what `xmit_cb` returns is not looked at there; and the events that are not given back are
the answers to the first command. -/
theorem buffers_iff {t : Vendor} (as : List (Env × Act))
    (hrun : as.foldlM step Vendor.initial = some t) :
    (t.log.count .alloc = (commandCodes t.log).length + t.log.count .deallocCommand ↔
      Meets step Takes Vendor.initial as) ∧
    t.log.count .deallocEvent + as.countP (fun a => isFirst a.2) =
      as.countP fun a => isReply a.2 := by
  constructor
  · have hfirst : Solvent Vendor.initial := ⟨reached_initial, Nat.le_refl _⟩
    have hiff : Settled t ↔ Meets step Takes Vendor.initial as :=
      holds_iff_meets (fun hv hstep => settled_step hv hstep) as hfirst rfl hrun
    exact hiff
  · exact (events_run as reached_initial hrun).trans (Nat.zero_add _)

/-- A configuration whose second command is not taken. -/
theorem buffers_iff_refused : ∃ t : Vendor,
    [(smallEnv, .fwCfg), ({ smallEnv with xmit := false }, .reply smallOpening.h5)].foldlM step
      Vendor.initial = some t ∧
    t.log.count .alloc ≠ (commandCodes t.log).length + t.log.count .deallocCommand := by
  obtain ⟨t, hrun⟩ : ∃ t : Vendor, [(smallEnv, .fwCfg),
      ({ smallEnv with xmit := false }, .reply smallOpening.h5)].foldlM step Vendor.initial =
      some t := ⟨_, rfl⟩
  refine ⟨t, hrun, fun hsettled => ?_⟩
  have hmeets := (buffers_iff _ hrun).1.mp hsettled
  have htakes := ((hmeets.2 _ rfl).2.2 _ rfl).1
  exact Bool.false_ne_true (htakes.1 rfl)

end Softwinner.Bluetooth
