import Softwinner.Bluetooth.Delivery
import Softwinner.Bluetooth.StepCases

/-!
# All runs of the library

The library over any sequence of configurations, answers and timeouts.  `Reached` holds in every
state; with it, a download that is given up is given up for good (`never_downloads`), and the
results that the stack is told of one configuration can be counted (`results_of_configuration`).
-/

namespace Softwinner.Bluetooth

open Framework Vendor

/-! ## What holds in every run -/

/-- What the variables have to do with each other in a state of the library. -/
structure Reached (v : Vendor) : Prop where
  idle : v.state = .idle → v.pending = none
  prologue : ∀ callback opcode, v.pending = some (callback, opcode) →
    callback ≠ .hwConfigCback → v.state = .start
  several : ∀ opcode, v.state = .start → v.pending = some (.hwConfigCback, opcode) →
    v.lmpVersion ≠ romLmp8723a
  download : v.state ≠ .idle → v.state ≠ .start → v.needDownloadFw = true ∧ v.alarm = false
  opcode : ∀ callback opcode, v.pending = some (callback, opcode) →
    (opcode = hciVscH5Init ↔ callback = .rtkGetLmp)

lemma reached_initial : Reached Vendor.initial where
  idle _ := rfl
  prologue _ _ h := by cases h
  several _ h := by cases h
  download h := absurd rfl h
  opcode _ _ h := by cases h

/-- Nothing is outstanding in front of a download. -/
lemma reached_of_none {v : Vendor} (hpending : v.pending = none)
    (hstate : v.state = .idle ∨ v.state = .start) : Reached v where
  idle _ := hpending
  prologue _ _ h := by rw [hpending] at h; cases h
  several _ _ h := by rw [hpending] at h; cases h
  download hidle hstart := by rcases hstate with h | h <;> contradiction
  opcode _ _ h := by rw [hpending] at h; cases h

section Invariant

variable {v w : Vendor} {env : Env} {mem : Option Event}

/-- A command of the prologue is outstanding. -/
lemma reached_asked {callback : Callback} {opcode : ℕ} (hstate : v.state = .start)
    (hpending : v.pending = if env.xmit then some (callback, opcode) else none)
    (hopcode : opcode = hciVscH5Init ↔ callback = .rtkGetLmp)
    (hversion : callback = .hwConfigCback → v.lmpVersion ≠ romLmp8723a) : Reached v := by
  cases hxmit : env.xmit with
  | false => exact reached_of_none (by rw [hpending, hxmit]; rfl) (.inr hstate)
  | true =>
    rw [hxmit, if_pos rfl] at hpending
    refine ⟨fun h => ?_, fun _ _ _ _ => hstate, fun _ _ h => ?_, fun _ h => absurd hstate h,
      fun _ _ h => ?_⟩
    · rw [hstate] at h
      cases h
    · rw [hpending] at h
      exact hversion (congrArg Prod.fst (Option.some.inj h))
    · rw [hpending] at h
      cases h
      exact hopcode

lemma Call.reached (h : Call v w env mem) (hpending : v.pending = none)
    (hread : v.state = .start → (v.readEversion mem).alarm = false)
    (hdownload : v.state ≠ .idle → v.state ≠ .start → v.needDownloadFw = true ∧ v.alarm = false) :
    Reached w := by
  cases h with
  | commanded c log opcode pending state need alarm started =>
    have hw : w.needDownloadFw = true ∧ w.alarm = false := by
      by_cases hstart : v.state = .start
      · obtain ⟨hneed, halarm⟩ := started.2 hstart
        exact ⟨need.trans hneed, Bool.eq_false_iff.mpr fun ha =>
          Bool.false_ne_true ((hread hstart).symm.trans (halarm ha))⟩
      · obtain ⟨hneed, halarm⟩ := hdownload started.1 hstart
        exact ⟨need.trans hneed, Bool.eq_false_iff.mpr fun ha =>
          Bool.false_ne_true (halarm.symm.trans (alarm ha))⟩
    have hnot : w.state ≠ .idle ∧ w.state ≠ .start := by
      rcases state with h | h <;> rw [h] <;> decide
    refine ⟨fun h => absurd h hnot.1, fun _ _ h hcallback => ?_, fun _ h => absurd h hnot.2,
      fun _ _ => hw, fun _ _ h => ?_⟩
    · rw [pending] at h
      cases h
      exact absurd rfl hcallback
    · rw [pending] at h
      cases h
      exact iff_of_false opcode (by decide)
  | ended effects log closing pending state need alarm =>
    exact reached_of_none (pending.trans hpending) (.inl state)

lemma reached_step (hv : Reached v) {a : Env × Act} (h : step v a = some w) : Reached w := by
  cases step_cases h with
  | started env alloc log pending state need alarm =>
    exact reached_asked state pending (by decide) fun h => by cases h
  | notStarted env alloc log pending state need alarm => exact reached_of_none pending (.inl state)
  | asked env e answered log pending state need alarm =>
    have hstart := hv.prologue _ _ answered (by decide)
    exact reached_asked (state.trans hstart) pending (by decide) fun h => by cases h
  | failed env e answered status log pending state need alarm =>
    have hstart := hv.prologue _ _ answered (by decide)
    exact reached_of_none pending (.inr (state.trans hstart))
  | versioned env e answered status several log pending state need alarm version =>
    have hstart := hv.prologue _ _ answered (by decide)
    exact reached_asked (state.trans hstart) pending (by decide) fun _ => version ▸ several
  | called env e u answered status single call last =>
    subst last
    have hstart := hv.prologue _ _ answered (by decide)
    have hu : Reached u := call.reached rfl (fun _ => rfl) fun _ h => absurd hstart h
    exact ⟨hu.idle, hu.prologue, hu.several, hu.download, hu.opcode⟩
  | configured env e answered call =>
    refine call.reached rfl (fun hstart => ?_) hv.download
    rw [alarm_readEversion, if_pos ⟨rfl, hv.several _ hstart answered⟩]
  | timedOut env armed last =>
    subst last
    refine ⟨hv.idle, hv.prologue, hv.several, fun hidle hstart => ?_, hv.opcode⟩
    have harmed := (hv.download hidle hstart).2
    rw [armed] at harmed
    cases harmed

lemma reached_of_runs (h : Runs step (fun _ _ => True) Vendor.initial v) : Reached v :=
  Runs.invariant (fun hs _ hstep => reached_step hs hstep) reached_initial h

end Invariant

/-! ## The observations of a step -/

lemma commandCodes_requests (log : List Effect) :
    commandCodes (requests log) = commandCodes log := by
  unfold commandCodes requests
  rw [List.filterMap_filter]
  refine congrArg (List.filterMap · log) (funext fun effect => ?_)
  cases effect <;> rfl

lemma completions_requests (log : List Effect) : completions (requests log) = completions log := by
  unfold completions requests
  rw [List.filterMap_filter]
  refine congrArg (List.filterMap · log) (funext fun effect => ?_)
  cases effect <;> rfl

section Observed

variable {v w : Vendor} {env : Env} {mem : Option Event} {effects : List Effect}

lemma commandCodes_of_requests (h : requests w.log = requests v.log ++ effects) :
    commandCodes w.log = commandCodes v.log ++ commandCodes effects := by
  rw [← commandCodes_requests w.log, h, commandCodes_append, commandCodes_requests]

lemma completions_of_requests (h : requests w.log = requests v.log ++ effects) :
    completions w.log = completions v.log ++ completions effects := by
  rw [← completions_requests w.log, h, completions_append, completions_requests]

lemma count_of_requests (effect : Effect) (hon : onStack effect = true)
    (h : requests w.log = requests v.log ++ effects) :
    w.log.count effect = v.log.count effect + effects.count effect := by
  have hcount : ∀ log : List Effect, (requests log).count effect = log.count effect :=
    fun _ => List.count_filter hon
  rw [← hcount w.log, h, List.count_append, hcount]

lemma completions_asks (env : Env) (c : Command) : completions (asks env c) = [] := by
  unfold asks
  cases env.xmit <;> rfl

lemma commandCodes_asks (c : Command) :
    commandCodes (asks env c) = if env.xmit then [c.opcode] else [] := by
  unfold asks
  cases env.xmit <;> rfl

end Observed

/-! ## A download that is given up -/

/-- The commands in front of a download. -/
def prologueCodes : List ℕ := [hciVscH5Init, hciReadLmp, hciVendorReadRtkRomVersion]

/-- A state behind `s` without a download. -/
structure GivenUp (s v : Vendor) : Prop where
  reached : Reached v
  need : v.needDownloadFw = false
  codes : ∃ codes, commandCodes v.log = commandCodes s.log ++ codes ∧ ∀ c ∈ codes, c ∈ prologueCodes

section GivenUp

variable {s v w : Vendor} {env : Env} {mem : Option Event}

/-- A step with these commands. -/
lemma GivenUp.commands (hv : GivenUp s v) (hw : Reached w) (hneed : w.needDownloadFw = false)
    {effects : List Effect} (hlog : requests w.log = requests v.log ++ effects)
    (hcodes : ∀ c ∈ commandCodes effects, c ∈ prologueCodes) : GivenUp s w := by
  obtain ⟨codes, hv', hall⟩ := hv.codes
  refine ⟨hw, hneed, codes ++ commandCodes effects, ?_, fun c hc => ?_⟩
  · rw [commandCodes_of_requests hlog, hv', List.append_assoc]
  · exact (List.mem_append.mp hc).elim (hall c) (hcodes c)

lemma mem_codes_asks {c : Command} (hc : c.opcode ∈ prologueCodes) :
    ∀ d ∈ commandCodes (asks env c), d ∈ prologueCodes := by
  intro d hd
  rw [commandCodes_asks] at hd
  split_ifs at hd
  · exact List.mem_singleton.mp hd ▸ hc
  · cases hd

/-- The configuration can only end, because every state with a download needs it. -/
lemma Call.givenUp (h : Call v w env mem) (hneed : v.needDownloadFw = false)
    (hdownload : v.state ≠ .idle → v.state ≠ .start → v.needDownloadFw = true) :
    w.needDownloadFw = false ∧ ∃ effects, requests w.log = requests v.log ++ effects ∧
      commandCodes effects = [] := by
  cases h with
  | commanded c log opcode pending state need alarm started =>
    exfalso
    have hneeds : v.needDownloadFw = true := by
      by_cases hstart : v.state = .start
      · exact (started.2 hstart).1
      · exact hdownload started.1 hstart
    exact Bool.false_ne_true (hneed.symm.trans hneeds)
  | ended effects log closing pending state need alarm =>
    exact ⟨Bool.eq_false_iff.mpr fun hw => Bool.false_ne_true (hneed.symm.trans (need hw)),
      effects, log, closing.codes⟩

lemma GivenUp.step (hv : GivenUp s v) {a : Env × Act} (h : step v a = some w) : GivenUp s w := by
  have hw := reached_step hv.reached h
  have hneed := hv.need
  cases step_cases h with
  | started env alloc log pending state need alarm =>
    exact hv.commands hw (need.trans hneed) log (mem_codes_asks (by decide))
  | notStarted env alloc log pending state need alarm =>
    exact hv.commands hw (need.trans hneed) log fun _ hc => by cases hc
  | asked env e answered log pending state need alarm =>
    exact hv.commands hw (need.trans hneed) log (mem_codes_asks (by decide))
  | failed env e answered status log pending state need alarm =>
    exact hv.commands hw (need.trans hneed) log fun _ hc => by cases hc
  | versioned env e answered status several log pending state need alarm version =>
    refine hv.commands hw (need.trans hneed) log ?_
    rw [commandCodes_append, show commandCodes [.lpm e.status, .deallocEvent] = [] from rfl,
      List.append_nil]
    exact mem_codes_asks (by decide)
  | called env e u answered status single call last =>
    obtain ⟨hu, effects, hlog, hcodes⟩ := call.givenUp hneed fun hidle hstart =>
      (hv.reached.download hidle hstart).1
    subst last
    have hlast : requests (u.log ++ [.lpm e.status, .deallocEvent]) =
        requests v.log ++ (effects ++ [.lpm e.status, .deallocEvent]) := by
      rw [requests_append, hlog, List.append_assoc]
      rfl
    refine hv.commands hw hu hlast ?_
    rw [commandCodes_append, hcodes]
    exact fun _ hc => by cases hc
  | configured env e answered call =>
    obtain ⟨hw', effects, hlog, hcodes⟩ := call.givenUp hneed fun hidle hstart =>
      (hv.reached.download hidle hstart).1
    exact hv.commands hw hw' hlog (hcodes ▸ fun _ hc => by cases hc)
  | timedOut env armed last =>
    subst last
    exact hv.commands hw rfl (requests_append ..) fun _ hc => by cases hc

end GivenUp

/-- Once a download has been given up, none is sent any more: whatever is configured later, the
flag stays down and all commands are those that ask for the version. -/
theorem never_downloads {s t : Vendor} (hs : Runs step (fun _ _ => True) Vendor.initial s)
    (hneed : s.needDownloadFw = false) (hrun : Runs step (fun _ _ => True) s t) :
    t.needDownloadFw = false ∧ ∃ codes, commandCodes t.log = commandCodes s.log ++ codes ∧
      ∀ c ∈ codes, c ∈ prologueCodes := by
  have hfirst : GivenUp s s :=
    ⟨reached_of_runs hs, hneed, [], (List.append_nil _).symm, fun _ hc => by cases hc⟩
  have hlast : GivenUp s t := Runs.invariant (fun hv _ hstep => hv.step hstep) hfirst hrun
  exact ⟨hlast.need, hlast.codes⟩

/-- The version has not been told in time. -/
def gaveUp : Vendor :=
  { Vendor.initial with
    state := .start
    needDownloadFw := false
    pending := some (.rtkGetLmpCback, hciReadLmp)
    log := [.alloc, .xmit ⟨hciVscH5Init, toLe 2 hciVscH5Init⟩, .alloc,
      .xmit (hciCommand hciReadLmp []), .fwcfg true] }

lemma runs_gaveUp : Runs step (fun _ _ => True) Vendor.initial gaveUp :=
  runs_of_foldlM [(smallEnv, .fwCfg), (smallEnv, .reply smallOpening.h5), (smallEnv, .alarm)] rfl

/-- The version arrives behind the timeout. -/
theorem never_downloads_gaveUp : ∃ t, Runs step (fun _ _ => True) gaveUp t ∧ t.state = .idle ∧
    t.needDownloadFw = false ∧ ∃ codes, commandCodes t.log = commandCodes gaveUp.log ++ codes ∧
      ∀ c ∈ codes, c ∈ prologueCodes := by
  obtain ⟨t, hrun, hidle⟩ := exists_runs step (fun _ _ => True) (fun v => v.state = .idle)
    (s := gaveUp) [(smallEnv, .reply smallOpening.lmp), (smallEnv, .reply smallOpening.eversion)]
    (by decide +kernel)
  obtain ⟨hneed, hcodes⟩ := never_downloads runs_gaveUp rfl hrun
  exact ⟨t, hrun, hidle, hneed, hcodes⟩

/-! ## The results of a configuration -/

def isAlarm : Act → Bool
  | .alarm => true
  | _ => false

def isFwCfg : Act → Bool
  | .fwCfg => true
  | _ => false

/-- The timeouts of a run. -/
def alarms (as : List (Env × Act)) : ℕ := as.countP fun a => isAlarm a.2

/-- The alarms that the commands behind a callback can still arm. -/
def Callback.alarms : Callback → ℕ
  | .rtkGetLmp => 2
  | .rtkGetLmpCback => 1
  | .hwConfigCback => 0

/-- The timeouts that can still come without another configuration. -/
def potential (v : Vendor) : ℕ :=
  v.alarm.toNat + (v.pending.elim 0 fun p => p.1.alarms)

/-- A configuration that has reported its result. -/
def reported (v : Vendor) : ℕ := if v.state = .idle then 1 else 0

section Results

variable {v w : Vendor} {env : Env} {mem : Option Event}

lemma reported_of_ne (h : v.state ≠ .idle) : reported v = 0 := if_neg h

/-- What a step adds: its results, one for a timeout and one for the end, and the timeouts that
can still come. -/
def Reports (v w : Vendor) (fired : ℕ) : Prop :=
  ∃ rs, completions w.log = completions v.log ++ rs ∧ rs.length + reported v = fired + reported w ∧
    fired + potential w ≤ potential v

lemma Call.reports (h : Call v w env mem) (hidle : v.state ≠ .idle) (hpending : v.pending = none) :
    Reports v w 0 := by
  rw [Reports, reported_of_ne hidle]
  cases h with
  | commanded c log opcode pending state need alarm started =>
    have hne : w.state ≠ .idle := by rcases state with h | h <;> rw [h] <;> decide
    refine ⟨_, completions_of_requests log, ?_, ?_⟩
    · rw [reported_of_ne hne]
      cases mem <;> rfl
    · simp only [potential, pending, hpending, Option.elim, Callback.alarms, zero_add, add_zero]
      exact Bool.toNat_le_toNat alarm
  | ended effects log closing pending state need alarm =>
    obtain ⟨success, hresults⟩ := closing.results
    refine ⟨[success], hresults ▸ completions_of_requests log, ?_, ?_⟩
    · rw [reported, if_pos state]
      rfl
    · simp only [potential, pending, hpending, Option.elim, zero_add, add_zero]
      exact Bool.toNat_le_toNat alarm

lemma reports_step (hv : Reached v) {a : Env × Act} (hact : isFwCfg a.2 = false)
    (h : step v a = some w) : Reports v w (isAlarm a.2).toNat := by
  have hbusy : ∀ {p}, v.pending = some p → v.state ≠ .idle := by
    intro p hp hidle
    rw [hv.idle hidle] at hp
    cases hp
  cases step_cases h with
  | started env alloc log pending state need alarm => cases hact
  | notStarted env alloc log pending state need alarm => cases hact
  | asked env e answered log pending state need alarm =>
    refine ⟨[], ?_, ?_, ?_⟩
    · exact completions_asks env _ ▸ completions_of_requests log
    · rw [reported_of_ne (hbusy answered), reported_of_ne (state ▸ hbusy answered)]
      rfl
    · simp only [potential, answered, pending, alarm, isAlarm, Option.elim, Callback.alarms]
      cases env.xmit <;> simp
  | failed env e answered status log pending state need alarm =>
    refine ⟨[], completions_of_requests log, ?_, ?_⟩
    · rw [reported_of_ne (hbusy answered), reported_of_ne (state ▸ hbusy answered)]
      rfl
    · simp [potential, answered, pending, alarm, isAlarm]
  | versioned env e answered status several log pending state need alarm version =>
    have hno : completions (asks env (hciCommand hciVendorReadRtkRomVersion []) ++
        [.lpm e.status, .deallocEvent]) = [] := by
      rw [completions_append, completions_asks]
      rfl
    refine ⟨[], hno ▸ completions_of_requests log, ?_, ?_⟩
    · rw [reported_of_ne (hbusy answered), reported_of_ne (state ▸ hbusy answered)]
      rfl
    · simp only [potential, answered, pending, alarm, isAlarm, Option.elim, Callback.alarms]
      cases env.xmit <;> simp
  | called env e u answered status single call last =>
    subst last
    obtain ⟨rs, hlog, hcount, hpotential⟩ := call.reports (hbusy answered) rfl
    refine ⟨rs, ?_, hcount, hpotential.trans ?_⟩
    · exact (completions_append ..).trans ((List.append_nil _).trans hlog)
    · simp [potential]
  | configured env e answered call =>
    obtain ⟨rs, hlog, hcount, hpotential⟩ := call.reports (hbusy answered) rfl
    refine ⟨rs, hlog, hcount, hpotential.trans ?_⟩
    simp [potential]
  | timedOut env armed last =>
    subst last
    refine ⟨[true], completions_append .., rfl, ?_⟩
    simp [potential, timeout, emit, armed, isAlarm]

lemma reports_run (as : List (Env × Act)) : ∀ {v w : Vendor}, Reached v →
    (∀ a ∈ as, isFwCfg a.2 = false) → as.foldlM step v = some w → Reports v w (alarms as) := by
  induction as with
  | nil =>
    intro v w _ _ hrun
    obtain rfl := Option.some.inj hrun
    exact ⟨[], (List.append_nil _).symm, rfl, Nat.le_of_eq (Nat.zero_add _)⟩
  | cons a as ih =>
    intro v w hv hact hrun
    rw [List.foldlM_cons] at hrun
    obtain ⟨u, hstep, hrest⟩ := Option.bind_eq_some_iff.mp hrun
    obtain ⟨hfirst, hothers⟩ := List.forall_mem_cons.mp hact
    obtain ⟨rs, hlog, hcount, hpotential⟩ := reports_step hv hfirst hstep
    obtain ⟨rs', hlog', hcount', hpotential'⟩ := ih (reached_step hv hstep) hothers hrest
    have halarms : alarms (a :: as) = alarms as + (isAlarm a.2).toNat := by
      rw [alarms, List.countP_cons]
      cases isAlarm a.2 <;> rfl
    refine ⟨rs ++ rs', ?_, ?_, ?_⟩
    · rw [hlog', hlog, List.append_assoc]
    · rw [List.length_append, halarms]
      omega
    · omega

end Results

/-- A configuration reports one result when it is over, and one more at each timeout; of these
there are at most two, and one that an earlier configuration has left behind. -/
theorem results_of_configuration {v t : Vendor}
    (hv : Runs step (fun _ _ => True) Vendor.initial v) (env : Env) (as : List (Env × Act))
    (has : ∀ a ∈ as, isFwCfg a.2 = false)
    (hrun : ((env, Act.fwCfg) :: as).foldlM step v = some t) :
    ∃ rs, completions t.log = completions v.log ++ rs ∧
      rs.length = alarms as + (if t.state = .idle then 1 else 0) ∧
      alarms as ≤ 2 + v.alarm.toNat := by
  rw [List.foldlM_cons] at hrun
  obtain ⟨u, hstep, hrest⟩ := Option.bind_eq_some_iff.mp hrun
  have hv := reached_of_runs hv
  obtain ⟨rs, hlog, hcount, hpotential⟩ := reports_run as (reached_step hv hstep) has hrest
  cases step_cases hstep with
  | started _ alloc log pending state need alarm =>
    have hno := completions_asks env ⟨hciVscH5Init, toLe 2 hciVscH5Init⟩
    refine ⟨rs, ?_, ?_, ?_⟩
    · rw [hlog, completions_of_requests log, hno, List.append_nil]
    · rwa [reported_of_ne (by rw [state]; decide)] at hcount
    · have hu : potential u ≤ 2 + v.alarm.toNat := by
        rw [potential, pending, alarm]
        cases env.xmit <;> simp [Callback.alarms, Nat.add_comm]
      omega
  | notStarted _ alloc log pending state need alarm =>
    refine ⟨false :: rs, ?_, ?_, ?_⟩
    · rw [hlog, completions_of_requests log, List.append_assoc]
      rfl
    · rw [reported, if_pos state] at hcount
      exact hcount
    · have hu : potential u ≤ 2 + v.alarm.toNat := by
        rw [potential, pending, alarm]
        exact Nat.le_add_left _ _
      omega

/-- Both commands for the version are answered behind their timeouts. -/
def lateRun : List (Env × Act) :=
  [(smallEnv, .reply smallOpening.h5), (smallEnv, .alarm), (smallEnv, .reply smallOpening.lmp),
    (smallEnv, .alarm), (smallEnv, .reply smallOpening.eversion)]

/-- It has three results. -/
theorem results_of_configuration_late :
    ∃ t rs, ((smallEnv, .fwCfg) :: lateRun).foldlM step Vendor.initial = some t ∧
      completions t.log = completions Vendor.initial.log ++ rs ∧ rs.length = 3 := by
  obtain ⟨t, hrun, hidle⟩ : ∃ t : Vendor, ((smallEnv, .fwCfg) :: lateRun).foldlM step
      Vendor.initial = some t ∧ t.state = .idle := ⟨_, rfl, rfl⟩
  obtain ⟨rs, hlog, hcount, -⟩ :=
    results_of_configuration Relation.ReflTransGen.refl smallEnv lateRun (by decide) hrun
  exact ⟨t, rs, hrun, hlog, by rw [hcount, if_pos hidle]; rfl⟩

end Softwinner.Bluetooth
