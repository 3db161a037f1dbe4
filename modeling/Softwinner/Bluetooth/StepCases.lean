import Softwinner.Bluetooth.Prologue

/-!
# What a step of the library can do

`step_cases` has the outcomes of a step in any state, whatever the files are and whatever the stack
and the controller do; for those of the callback of the configuration it rests on
`hwConfigCback_cases`, and this on the outcomes of the part that has a buffer, `Part`.
-/

namespace Softwinner.Bluetooth

open Framework Vendor

/-! ## What a call does -/

/-- The effects on the stack; the others are on the serial port. -/
def onStack : Effect → Bool
  | .setBaud _ => false
  | .setHwFctrl _ => false
  | _ => true

/-- What the stack has been asked. -/
def requests (log : List Effect) : List Effect := log.filter onStack

lemma requests_append (log log' : List Effect) :
    requests (log ++ log') = requests log ++ requests log' := List.filter_append ..

/-- The outcomes of the part of a call that has a buffer: a command has been transmitted, the
configuration is over, or the stack has not taken the command. -/
inductive Part (v w : Vendor) : Bool → Prop
  | commanded (c : Command) (log : requests w.log = requests v.log ++ [.xmit c])
      (opcode : c.opcode ≠ hciVscH5Init)
      (pending : w.pending = some (.hwConfigCback, c.opcode))
      (state : w.state = .setUartBaudHost ∨ w.state = .dlFwPatch)
      (need : w.needDownloadFw = v.needDownloadFw)
      (alarm : w.alarm = true → v.alarm = true) : Part v w true
  | completed (log : requests w.log = requests v.log ++ [.deallocCommand, .fwcfg true])
      (pending : w.pending = v.pending) (state : w.state = .idle)
      (need : w.needDownloadFw = true → v.needDownloadFw = true)
      (alarm : w.alarm = true → v.alarm = true) : Part v w true
  | refused (log : requests w.log = requests v.log) (pending : w.pending = v.pending)
      (need : w.needDownloadFw = true → v.needDownloadFw = true)
      (alarm : w.alarm = true → v.alarm = true) : Part v w false

section Parts

variable {v w : Vendor} {env : Env} {mem : Option Event} {ok : Bool}

/-- What is in front of a part and does not change what it depends on. -/
lemma Part.of_before {u : Vendor} (h : Part u w ok) (hlog : requests u.log = requests v.log)
    (hpending : u.pending = v.pending) (hneed : u.needDownloadFw = v.needDownloadFw)
    (halarm : u.alarm = true → v.alarm = true) : Part v w ok := by
  cases h with
  | commanded c log opcode pending state need alarm =>
    exact .commanded c (hlog ▸ log) opcode pending state (need.trans hneed) (halarm ∘ alarm)
  | completed log pending state need alarm =>
    exact .completed (hlog ▸ log) (pending.trans hpending) state (hneed ▸ need) (halarm ∘ alarm)
  | refused log pending need alarm =>
    exact .refused (hlog ▸ log) (pending.trans hpending) (hneed ▸ need) (halarm ∘ alarm)

/-- A command whose state is one of a download. -/
lemma part_xmit (c : Command) (hop : c.opcode ≠ hciVscH5Init)
    (hstate : v.state = .setUartBaudHost ∨ v.state = .dlFwPatch) :
    Part v (v.xmit env c .hwConfigCback) env.xmit := by
  unfold Vendor.xmit
  cases env.xmit with
  | false => exact .refused rfl rfl id id
  | true => exact .commanded c (requests_append ..) hop rfl hstate rfl id

lemma part_setBaud : Part v (v.hwConfigSetControllerBaudrate env).1
    (v.hwConfigSetControllerBaudrate env).2 :=
  (part_xmit (v := { v with state := .setUartBaudHost }) _
    (by simp only [hciCommand]; decide) (Or.inl rfl)).of_before rfl rfl rfl id

lemma requests_changeFlowControl : requests v.changeFlowControl.log = requests v.log := by
  unfold changeFlowControl
  split_ifs
  · exact (requests_append ..).trans (List.append_nil _)
  · rfl

lemma changeFlowControl_kept : v.changeFlowControl.pending = v.pending ∧
    v.changeFlowControl.state = v.state ∧
    v.changeFlowControl.needDownloadFw = v.needDownloadFw ∧
    v.changeFlowControl.alarm = v.alarm := by
  unfold changeFlowControl
  split_ifs <;> exact ⟨rfl, rfl, rfl, rfl⟩

lemma Part.changeFlowControl (h : Part v w ok) : Part v w.changeFlowControl ok := by
  have hlog := requests_changeFlowControl (v := w)
  obtain ⟨hpending, hstate, hneed, halarm⟩ := changeFlowControl_kept (v := w)
  cases h with
  | commanded c log opcode pending state need alarm =>
    exact .commanded c (hlog.trans log) opcode (hpending.trans pending) (hstate ▸ state)
      (hneed.trans need) (halarm ▸ alarm)
  | completed log pending state need alarm =>
    exact .completed (hlog.trans log) (hpending.trans pending) (hstate.trans state)
      (hneed ▸ need) (halarm ▸ alarm)
  | refused log pending need alarm =>
    exact .refused (hlog.trans log) (hpending.trans pending) (hneed ▸ need) (halarm ▸ alarm)

lemma part_sendPacket (h : v.sendPacket env = some (w, ok)) : Part v w ok := by
  unfold sendPacket at h
  obtain ⟨data, -, h⟩ := Option.bind_eq_some_iff.mp h
  cases h
  refine Part.changeFlowControl ?_
  exact (part_xmit (v := { v with transfer := v.transfer.next.1, state := .dlFwPatch }) _
    (by simp only [hciCommand]; decide) (Or.inr rfl)).of_before rfl rfl rfl id

lemma part_complete : Part v v.complete true :=
  .completed (requests_append ..) rfl rfl id id

lemma part_downloadFw (h : v.downloadFw env mem = some (w, ok)) : Part v w ok := by
  cases mem with
  | none => cases h
  | some e =>
    simp only [downloadFw] at h
    split_ifs at h with hop hends
    · cases h
      exact part_complete.of_before rfl rfl rfl id
    · exact (part_sendPacket h).of_before rfl rfl rfl id
    · exact part_sendPacket h

lemma alarm_readEversion (v : Vendor) (mem : Option Event) : (v.readEversion mem).alarm =
    if mem.isSome ∧ v.lmpVersion ≠ romLmp8723a then false else v.alarm := by
  cases mem with
  | none => rfl
  | some e =>
    by_cases h : v.lmpVersion = romLmp8723a <;> simp [readEversion, h]

lemma readEversion_alarm : (v.readEversion mem).alarm = true → v.alarm = true := by
  rw [alarm_readEversion]
  split_ifs
  · exact False.elim
  · exact id

lemma part_hwCfgStart (h : v.hwCfgStart env mem = some (w, ok)) :
    Part v w ok ∧ (w.alarm = true → (v.readEversion mem).alarm = true) ∧
      (w.state ≠ .idle → v.needDownloadFw = true) := by
  obtain ⟨hkept, -⟩ := readEversion_kept (v := v) mem
  have hpending : (v.readEversion mem).pending = v.pending ∧
      (v.readEversion mem).log = v.log := by
    unfold readEversion
    split
    · exact ⟨rfl, rfl⟩
    · split_ifs <;> exact ⟨rfl, rfl⟩
  -- what a part makes of the state behind the version of the chip
  have hbefore : ∀ {u : Vendor}, Part u w ok → requests u.log = requests (v.readEversion mem).log →
      u.pending = (v.readEversion mem).pending →
      u.needDownloadFw = (v.readEversion mem).needDownloadFw →
      u.alarm = (v.readEversion mem).alarm →
      Part v w ok ∧ (w.alarm = true → (v.readEversion mem).alarm = true) := by
    intro u hu hlog hpend hneed halarm
    refine ⟨hu.of_before (hlog.trans (by rw [hpending.2])) (hpend.trans hpending.1)
      (hneed.trans hkept) fun ha => readEversion_alarm (halarm ▸ ha), fun ha => halarm ▸ ?_⟩
    cases hu with
    | commanded c log opcode pending state need alarm => exact alarm ha
    | completed log pending state need alarm => exact alarm ha
    | refused log pending need alarm => exact alarm ha
  unfold hwCfgStart at h
  obtain ⟨⟨firmware, config, settings⟩, -, h⟩ := Option.bind_eq_some_iff.mp h
  cases firmware with
  | absent =>
    cases h
    have hpart := hbefore (part_complete (v := { v.readEversion mem with
      settings := settings, transfer := Transfer.reset, iIndexRx := 0 })) rfl rfl rfl rfl
    exact ⟨hpart.1, hpart.2, fun hne => absurd rfl hne⟩
  | refused =>
    cases h
    refine ⟨.completed ?_ hpending.1 rfl (fun hn => absurd hn Bool.false_ne_true)
      readEversion_alarm, id, fun hne => absurd rfl hne⟩
    exact (requests_append ..).trans (by rw [hpending.2]; rfl)
  | image buf =>
    simp only at h
    split_ifs at h with himage hconfig
    · have hpart := hbefore (part_downloadFw h) rfl rfl rfl rfl
      exact ⟨hpart.1, hpart.2, fun _ => hkept ▸ himage.2⟩
    · cases h
      have hpart := hbefore part_setBaud rfl rfl rfl rfl
      exact ⟨hpart.1, hpart.2, fun _ => hkept ▸ himage.2⟩
    · cases h
      have hpart := hbefore (part_complete (v := { v.readEversion mem with
        settings := settings, transfer := Transfer.reset, iIndexRx := 0 })) rfl rfl rfl rfl
      exact ⟨hpart.1, hpart.2, fun hne => absurd rfl hne⟩

/-- The requests by which a call ends a configuration: one result, no command, and the buffer given
back that has been taken; `events` buffers of events are given back. -/
structure Closing (events : ℕ) (effects : List Effect) : Prop where
  results : ∃ success, completions effects = [success]
  codes : commandCodes effects = []
  packets : packets effects = []
  buffers : effects.count .alloc = effects.count .deallocCommand
  events : effects.count .deallocEvent = events

/-- The event that a call gives back. -/
def eventBack (mem : Option Event) : List Effect := if mem.isSome then [.deallocEvent] else []

/-- The outcomes of a call of the callback: a command, or the end of the configuration.  A command
from `HW_CFG_START` is for an image that is wanted. -/
inductive Call (v w : Vendor) (env : Env) (mem : Option Event) : Prop
  | commanded (c : Command)
      (log : requests w.log = requests v.log ++ (.alloc :: .xmit c :: eventBack mem))
      (opcode : c.opcode ≠ hciVscH5Init)
      (pending : w.pending = some (.hwConfigCback, c.opcode))
      (state : w.state = .setUartBaudHost ∨ w.state = .dlFwPatch)
      (need : w.needDownloadFw = v.needDownloadFw) (alarm : w.alarm = true → v.alarm = true)
      (started : v.state ≠ .idle ∧ (v.state = .start → v.needDownloadFw = true ∧
        (w.alarm = true → (v.readEversion mem).alarm = true)))
  | ended (effects : List Effect) (log : requests w.log = requests v.log ++ effects)
      (closing : Closing (eventBack mem).length effects) (pending : w.pending = v.pending)
      (state : w.state = .idle) (need : w.needDownloadFw = true → v.needDownloadFw = true)
      (alarm : w.alarm = true → v.alarm = true)

lemma part_hwConfigState (h : v.hwConfigState env mem = some (w, ok)) :
    Part v w ok ∧ (ok = true → v.state ≠ .idle) ∧ (v.state = .start → w.state ≠ .idle →
      v.needDownloadFw = true ∧ (w.alarm = true → (v.readEversion mem).alarm = true)) := by
  unfold hwConfigState at h
  split at h
  next hstate =>
    cases h
    exact ⟨.refused rfl rfl id id, fun ho => absurd ho Bool.false_ne_true,
      fun hs => by rw [hstate] at hs; cases hs⟩
  next hstate =>
    obtain ⟨hpart, halarm, hneed⟩ := part_hwCfgStart h
    exact ⟨hpart, fun _ => by rw [hstate]; decide, fun _ hne => ⟨hneed hne, halarm⟩⟩
  next hstate =>
    cases h
    exact ⟨part_setBaud, fun _ => by rw [hstate]; decide, fun hs => by rw [hstate] at hs; cases hs⟩
  next hstate =>
    refine ⟨(part_downloadFw h).of_before ?_ rfl rfl id, fun _ => by rw [hstate]; decide,
      fun hs => by rw [hstate] at hs; cases hs⟩
    exact (requests_append ..).trans (List.append_nil _)
  next hstate =>
    exact ⟨part_downloadFw h, fun _ => by rw [hstate]; decide,
      fun hs => by rw [hstate] at hs; cases hs⟩

/-- The event given back. -/
def giveBack (v : Vendor) (mem : Option Event) : Vendor :=
  if mem.isSome then v.emit [.deallocEvent] else v

lemma requests_giveBack (mem : Option Event) :
    requests (giveBack v mem).log = requests v.log ++ eventBack mem := by
  cases mem with
  | none => exact (List.append_nil _).symm
  | some e => exact requests_append ..

lemma giveBack_kept (mem : Option Event) :
    (giveBack v mem).pending = v.pending ∧ (giveBack v mem).state = v.state ∧
    (giveBack v mem).needDownloadFw = v.needDownloadFw ∧ (giveBack v mem).alarm = v.alarm := by
  cases mem <;> exact ⟨rfl, rfl, rfl, rfl⟩

lemma closing_completed : Closing (eventBack mem).length
    (.alloc :: .deallocCommand :: .fwcfg true :: eventBack mem) := by
  cases mem <;> exact ⟨⟨true, rfl⟩, rfl, rfl, rfl, rfl⟩

lemma closing_aborted : Closing (eventBack mem).length
    (.alloc :: (eventBack mem ++ [.deallocCommand, .fwcfg false])) := by
  cases mem <;> exact ⟨⟨false, rfl⟩, rfl, rfl, rfl, rfl⟩

lemma closing_no_buffer : Closing (eventBack mem).length (eventBack mem ++ [.fwcfg false]) := by
  cases mem <;> exact ⟨⟨false, rfl⟩, rfl, rfl, rfl, rfl⟩

/-- What a call of the callback can do. -/
lemma hwConfigCback_cases (h : v.hwConfigCback env mem = some w) : Call v w env mem := by
  unfold hwConfigCback at h
  by_cases halloc : env.alloc = true
  · rw [if_pos halloc] at h
    obtain ⟨⟨u, ok⟩, hstate, h⟩ := Option.bind_eq_some_iff.mp h
    obtain ⟨hpart, hidle, hstart⟩ := part_hwConfigState hstate
    change (if ok = true then some (giveBack u mem) else
      some { (giveBack u mem).emit ((if env.alloc then [.deallocCommand] else []) ++
        [.fwcfg false]) with state := .idle }) = some w at h
    have hfirst : requests (v.emit [.alloc]).log = requests v.log ++ [.alloc] := requests_append ..
    have hlog := requests_giveBack (v := u) mem
    obtain ⟨hback, hbstate, hbneed, hbalarm⟩ := giveBack_kept (v := u) mem
    have hread : ((v.emit [.alloc]).readEversion mem).alarm = (v.readEversion mem).alarm := by
      rw [alarm_readEversion, alarm_readEversion]
      rfl
    cases hpart with
    | commanded c log opcode pending state need alarm =>
      rw [if_pos rfl] at h
      obtain rfl := Option.some.inj h
      refine .commanded c ?_ opcode (hback.trans pending) (hbstate ▸ state) (hbneed.trans need)
        (hbalarm ▸ alarm) ⟨hidle rfl, fun hs => ?_⟩
      · rw [hlog, log, hfirst]
        simp only [List.append_assoc, List.cons_append, List.nil_append]
      · have hne : u.state ≠ .idle := by
          rcases state with h | h <;> rw [h] <;> decide
        obtain ⟨hneed, halarm⟩ := hstart hs hne
        exact ⟨hneed, fun ha => hread ▸ halarm (hbalarm ▸ ha)⟩
    | completed log pending state need alarm =>
      rw [if_pos rfl] at h
      obtain rfl := Option.some.inj h
      refine .ended _ ?_ closing_completed (hback.trans pending) (hbstate.trans state)
        (hbneed ▸ need) (hbalarm ▸ alarm)
      rw [hlog, log, hfirst]
      simp only [List.append_assoc, List.cons_append, List.nil_append]
    | refused log pending need alarm =>
      rw [if_neg Bool.false_ne_true, if_pos halloc] at h
      obtain rfl := Option.some.inj h
      refine .ended _ ?_ closing_aborted (hback.trans pending) rfl (hbneed ▸ need) (hbalarm ▸ alarm)
      show requests ((giveBack u mem).log ++ [.deallocCommand, .fwcfg false]) = _
      rw [requests_append, hlog, log, hfirst]
      simp only [List.append_assoc, List.cons_append, List.nil_append]
      rfl
  · rw [if_neg halloc] at h
    change some { (giveBack v mem).emit ((if env.alloc then [.deallocCommand] else []) ++
      [.fwcfg false]) with state := .idle } = some w at h
    obtain ⟨hback, -, hbneed, hbalarm⟩ := giveBack_kept (v := v) mem
    rw [if_neg halloc] at h
    obtain rfl := Option.some.inj h
    refine .ended _ ?_ closing_no_buffer hback rfl (fun hn => hbneed ▸ hn) fun ha => hbalarm ▸ ha
    show requests ((giveBack v mem).log ++ [.fwcfg false]) = _
    rw [requests_append, requests_giveBack, List.append_assoc]
    rfl

end Parts

/-! ## What a step does -/

/-- The request for a command that is transmitted if the stack takes it. -/
def asks (env : Env) (c : Command) : List Effect := .alloc :: if env.xmit then [.xmit c] else []

/-- The outcomes of a step. -/
inductive StepCase (v w : Vendor) : Env × Act → Prop
  | started (env : Env) (alloc : env.alloc = true)
      (log : requests w.log = requests v.log ++ asks env ⟨hciVscH5Init, toLe 2 hciVscH5Init⟩)
      (pending : w.pending = if env.xmit then some (.rtkGetLmp, hciVscH5Init) else none)
      (state : w.state = .start) (need : w.needDownloadFw = v.needDownloadFw)
      (alarm : w.alarm = v.alarm) : StepCase v w (env, .fwCfg)
  | notStarted (env : Env) (alloc : env.alloc = false)
      (log : requests w.log = requests v.log ++ [.fwcfg false]) (pending : w.pending = none)
      (state : w.state = .idle) (need : w.needDownloadFw = v.needDownloadFw)
      (alarm : w.alarm = v.alarm) : StepCase v w (env, .fwCfg)
  | asked (env : Env) (e : Event) (answered : v.pending = some (.rtkGetLmp, e.opcode))
      (log : requests w.log = requests v.log ++ asks env (hciCommand hciReadLmp []))
      (pending : w.pending = if env.xmit then some (.rtkGetLmpCback, hciReadLmp) else none)
      (state : w.state = v.state) (need : w.needDownloadFw = v.needDownloadFw)
      (alarm : w.alarm = true) : StepCase v w (env, .reply e)
  | failed (env : Env) (e : Event) (answered : v.pending = some (.rtkGetLmpCback, e.opcode))
      (status : e.status ≠ 0)
      (log : requests w.log = requests v.log ++ [.lpm e.status, .deallocEvent])
      (pending : w.pending = none) (state : w.state = v.state)
      (need : w.needDownloadFw = v.needDownloadFw) (alarm : w.alarm = false) :
      StepCase v w (env, .reply e)
  | versioned (env : Env) (e : Event) (answered : v.pending = some (.rtkGetLmpCback, e.opcode))
      (status : e.status = 0) (several : e.lmp ≠ romLmp8723a)
      (log : requests w.log = requests v.log ++
        (asks env (hciCommand hciVendorReadRtkRomVersion []) ++ [.lpm e.status, .deallocEvent]))
      (pending : w.pending =
        if env.xmit then some (.hwConfigCback, hciVendorReadRtkRomVersion) else none)
      (state : w.state = v.state) (need : w.needDownloadFw = v.needDownloadFw)
      (alarm : w.alarm = true) (version : w.lmpVersion = e.lmp) : StepCase v w (env, .reply e)
  | called (env : Env) (e : Event) (u : Vendor)
      (answered : v.pending = some (.rtkGetLmpCback, e.opcode)) (status : e.status = 0)
      (single : e.lmp = romLmp8723a)
      (call : Call { v with pending := none, alarm := false, lmpVersion := e.lmp } u env none)
      (last : w = u.emit [.lpm e.status, .deallocEvent]) : StepCase v w (env, .reply e)
  | configured (env : Env) (e : Event) (answered : v.pending = some (.hwConfigCback, e.opcode))
      (call : Call { v with pending := none } w env (some e)) : StepCase v w (env, .reply e)
  | timedOut (env : Env) (armed : v.alarm = true) (last : w = v.timeout) :
      StepCase v w (env, .alarm)

section Steps

variable {v w : Vendor}

/-- A command of the prologue. -/
lemma ask_kept (env : Env) (c : Command) (callback : Callback) :
    let w := (v.emit [.alloc]).xmit env c callback
    requests w.log = requests v.log ++ asks env c ∧
      w.pending = (if env.xmit then some (callback, c.opcode) else v.pending) ∧
      w.state = v.state ∧ w.needDownloadFw = v.needDownloadFw ∧ w.alarm = v.alarm ∧
      w.lmpVersion = v.lmpVersion := by
  unfold Vendor.xmit asks
  cases env.xmit with
  | false => exact ⟨requests_append .., rfl, rfl, rfl, rfl, rfl⟩
  | true =>
    refine ⟨?_, rfl, rfl, rfl, rfl, rfl⟩
    show requests (v.log ++ [.alloc] ++ [.xmit c]) = _
    rw [List.append_assoc, requests_append]
    rfl

lemma step_rtkGetLmp {env : Env} {e : Event} (hpending : v.pending = some (.rtkGetLmp, e.opcode))
    (h : { v with pending := none }.rtkGetLmp env = some w) : StepCase v w (env, .reply e) := by
  unfold rtkGetLmp at h
  split_ifs at h
  obtain rfl := Option.some.inj h
  obtain ⟨hlog, hpend, hstate, hneed, -, -⟩ := ask_kept (v := { v with pending := none })
    env (hciCommand hciReadLmp []) .rtkGetLmpCback
  exact .asked env e hpending hlog hpend hstate hneed rfl

/-- The callback for the version, with what is in front of its last two requests brought out. -/
lemma rtkGetLmpCback_eq (env : Env) (e : Event) : v.rtkGetLmpCback env e =
    (if e.status = 0 then
      if e.lmp = romLmp8723a then
        { v with alarm := false, lmpVersion := e.lmp }.hwConfigCback env none
      else { v with alarm := false, lmpVersion := e.lmp }.rtkGetEversion env
    else some { v with alarm := false }).bind
      fun u => some (u.emit [.lpm e.status, .deallocEvent]) := by
  unfold rtkGetLmpCback
  split_ifs <;> rfl

lemma step_rtkGetLmpCback {env : Env} {e : Event}
    (hpending : v.pending = some (.rtkGetLmpCback, e.opcode))
    (h : { v with pending := none }.rtkGetLmpCback env e = some w) :
    StepCase v w (env, .reply e) := by
  rw [rtkGetLmpCback_eq] at h
  obtain ⟨u, hu, h⟩ := Option.bind_eq_some_iff.mp h
  obtain rfl := Option.some.inj h
  by_cases hstatus : e.status = 0
  · rw [if_pos hstatus] at hu
    by_cases hlmp : e.lmp = romLmp8723a
    · rw [if_pos hlmp] at hu
      exact .called env e u hpending hstatus hlmp (hwConfigCback_cases hu) rfl
    · rw [if_neg hlmp] at hu
      unfold rtkGetEversion at hu
      split_ifs at hu
      obtain rfl := Option.some.inj hu
      obtain ⟨hlog, hpend, hstate, hneed, -, hversion⟩ := ask_kept
        (v := { v with pending := none, alarm := false, lmpVersion := e.lmp }) env
        (hciCommand hciVendorReadRtkRomVersion []) .hwConfigCback
      refine .versioned env e hpending hstatus hlmp ?_ hpend hstate hneed rfl hversion
      rw [← List.append_assoc, ← hlog]
      exact requests_append ..
  · rw [if_neg hstatus] at hu
    obtain rfl := Option.some.inj hu
    exact .failed env e hpending hstatus (requests_append ..) rfl rfl rfl rfl

lemma step_cases {a : Env × Act} (h : step v a = some w) : StepCase v w a := by
  obtain ⟨env, act⟩ := a
  cases act with
  | fwCfg =>
    obtain rfl := Option.some.inj h
    cases halloc : env.alloc with
    | false =>
      refine .notStarted env halloc ?_ ?_ ?_ ?_ ?_ <;> simp only [hwConfigStart, halloc, emit]
      · exact requests_append ..
      all_goals rfl
    | true =>
      have hask := ask_kept (v := { v with state := .start, pending := none }) env
        ⟨hciVscH5Init, toLe 2 hciVscH5Init⟩ .rtkGetLmp
      obtain ⟨hlog, hpending, hkept⟩ := hask
      have hw : v.hwConfigStart env = _ := if_pos halloc
      rw [hw]
      exact .started env halloc hlog hpending hkept.1 hkept.2.1 hkept.2.2.1
  | reply e =>
    simp only [step] at h
    split at h
    next => cases h
    next callback opcode hpending =>
      split_ifs at h with hopcode
      subst hopcode
      cases callback with
      | rtkGetLmp => exact step_rtkGetLmp hpending h
      | rtkGetLmpCback => exact step_rtkGetLmpCback hpending h
      | hwConfigCback => exact .configured env e hpending (hwConfigCback_cases h)
  | alarm =>
    simp only [step] at h
    split_ifs at h with halarm
    exact .timedOut env halarm (Option.some.inj h).symm

end Steps

end Softwinner.Bluetooth
