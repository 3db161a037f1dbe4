import Softwinner.Bluetooth.Transfer
import Softwinner.Framework.Runs

/-!
# Runs of the download

The download command by command, in the state machine of `hw_config_cback`: what one answer does
(`step_continues`, `step_ends`, `step_wraps`), and what any sequence of answers does
(`run_answers`).  The stack gives the buffers and accepts the commands (`Env.Serves`); the
answers may have any status and any index.
-/

namespace Softwinner.Bluetooth

open Framework

/-! ## Reading the log -/

/-- The controller's view of an effect: a download command with a correct length, as its index and
its data. -/
def packetOf : Effect → Option (UInt8 × Bytes)
  | .xmit ⟨_, low :: high :: length :: index :: data⟩ =>
    if ofLe [low, high] = hciVscDownloadFwPatch ∧ length.toNat = data.length + 1 then
      some (index, data)
    else none
  | _ => none

/-- The packets that the controller has received. -/
def packets (log : List Effect) : List (UInt8 × Bytes) := log.filterMap packetOf

/-- What it has received of the image. -/
def payload (log : List Effect) : Bytes := (packets log).flatMap Prod.snd

def completionOf : Effect → Option Bool
  | .fwcfg success => some success
  | _ => none

/-- The results that the stack has been told. -/
def completions (log : List Effect) : List Bool := log.filterMap completionOf

lemma packets_append (log log' : List Effect) :
    packets (log ++ log') = packets log ++ packets log' := List.filterMap_append

lemma completions_append (log log' : List Effect) :
    completions (log ++ log') = completions log ++ completions log' := List.filterMap_append

/-- The commands that the controller has received. -/
def commandOf : Effect → Option ℕ
  | .xmit c => some c.opcode
  | _ => none

def commandCodes (log : List Effect) : List ℕ := log.filterMap commandOf

lemma commandCodes_append (log log' : List Effect) :
    commandCodes (log ++ log') = commandCodes log ++ commandCodes log' := List.filterMap_append

def speedOf : Effect → Option ℕ
  | .setBaud speed => some speed
  | _ => none

/-- The speeds that the host's port has been set to. -/
def hostSpeeds (log : List Effect) : List ℕ := log.filterMap speedOf

lemma hostSpeeds_append (log log' : List Effect) :
    hostSpeeds (log ++ log') = hostSpeeds log ++ hostSpeeds log' := List.filterMap_append

/-- A log that has been continued by these packets and results, without any other command and
without a change of the port. -/
structure Adds (log log' : List Effect) (ps : List (UInt8 × Bytes)) (results : List Bool) :
    Prop where
  packets : packets log' = packets log ++ ps
  completions : completions log' = completions log ++ results
  commandCodes : commandCodes log' =
    commandCodes log ++ List.replicate ps.length hciVscDownloadFwPatch
  hostSpeeds : hostSpeeds log' = hostSpeeds log

lemma Adds.refl (log : List Effect) : Adds log log [] [] :=
  ⟨(List.append_nil _).symm, (List.append_nil _).symm, (List.append_nil _).symm, rfl⟩

lemma Adds.trans {log log' log'' : List Effect} {ps ps' : List (UInt8 × Bytes)}
    {results results' : List Bool} (h : Adds log log' ps results)
    (h' : Adds log' log'' ps' results') : Adds log log'' (ps ++ ps') (results ++ results') where
  packets := by rw [h'.packets, h.packets, List.append_assoc]
  completions := by rw [h'.completions, h.completions, List.append_assoc]
  commandCodes := by
    rw [h'.commandCodes, h.commandCodes, List.append_assoc, List.length_append,
      List.replicate_add]
  hostSpeeds := h'.hostSpeeds.trans h.hostSpeeds

/-- The same for what is added. -/
lemma adds_append {log : List Effect} {ps : List (UInt8 × Bytes)} {results : List Bool}
    (effects : List Effect)
    (hpackets : Bluetooth.packets effects = ps) (hresults : Bluetooth.completions effects = results)
    (hcodes : Bluetooth.commandCodes effects = List.replicate ps.length hciVscDownloadFwPatch)
    (hspeeds : Bluetooth.hostSpeeds effects = []) : Adds log (log ++ effects) ps results where
  packets := by rw [packets_append, hpackets]
  completions := by rw [completions_append, hresults]
  commandCodes := by rw [commandCodes_append, hcodes]
  hostSpeeds := by rw [hostSpeeds_append, hspeeds, List.append_nil]

lemma adds_alloc (log : List Effect) : Adds log (log ++ [.alloc]) [] [] :=
  adds_append _ rfl rfl rfl rfl

lemma adds_deallocEvent (log : List Effect) : Adds log (log ++ [.deallocEvent]) [] [] :=
  adds_append _ rfl rfl rfl rfl

lemma packetOf_download (index : UInt8) {data : Bytes} (h : data.length < 255) :
    packetOf (.xmit (hciCommand hciVscDownloadFwPatch (index :: data))) = some (index, data) := by
  have hlen : (UInt8.ofNat (data.length + 1)).toNat = data.length + 1 := by
    rw [UInt8.toNat_ofNat']
    omega
  show (if _ ∧ (UInt8.ofNat (data.length + 1)).toNat = data.length + 1 then _ else _) = _
  rw [if_pos ⟨by decide, hlen⟩]

/-- No other command is taken for a packet. -/
lemma packetOf_hciCommand {opcode : ℕ} (params : Bytes) (hlt : opcode < 2 ^ 16)
    (hne : opcode ≠ hciVscDownloadFwPatch) :
    packetOf (.xmit (hciCommand opcode params)) = none := by
  cases params with
  | nil => rfl
  | cons index data =>
    have hop : ofLe [UInt8.ofNat opcode, UInt8.ofNat (opcode / 256)] = opcode :=
      ofLe_toLe (n := 2) hlt
    show (if ofLe [UInt8.ofNat opcode, UInt8.ofNat (opcode / 256)] = _ ∧ _ then _ else _) = _
    rw [hop, if_neg fun h => hne h.1]

/-! ## One answer -/

/-- The stack has buffers, and accepts every command. -/
structure Env.Serves (env : Env) : Prop where
  alloc : env.alloc = true
  xmit : env.xmit = true

namespace Vendor

variable {v : Vendor} {env : Env} {e : Event}

/-- The log of a packet that has been sent, with the flow control behind the last one. -/
def packetLog (settings : Settings) (index : UInt8) (data : Bytes) : List Effect :=
  .xmit (hciCommand hciVscDownloadFwPatch (index :: data)) ::
    (if index &&& 0x80 ≠ 0 ∧ settings.gNeedToSetHWFlowControl then
      [.setHwFctrl settings.gHwFlowControlEnable] else [])

lemma adds_packetLog {log : List Effect} (settings : Settings) (index : UInt8) {data : Bytes}
    (h : data.length < 255) :
    Adds log (log ++ packetLog settings index data) [(index, data)] [] := by
  refine adds_append _ ?_ ?_ ?_ ?_
  · rw [packetLog, packets, List.filterMap_cons, packetOf_download index h]
    split_ifs <;> rfl
  · rw [packetLog, completions, List.filterMap_cons]
    split_ifs <;> rfl
  · rw [packetLog, commandCodes, List.filterMap_cons]
    split_ifs <;> rfl
  · rw [packetLog, hostSpeeds, List.filterMap_cons]
    split_ifs <;> rfl

/-- The log of a call that has sent a packet. -/
def callLog (settings : Settings) (index : UInt8) (data : Bytes) : List Effect :=
  .alloc :: packetLog settings index data ++ [.deallocEvent]

lemma adds_callLog {log : List Effect} (settings : Settings) (index : UInt8) {data : Bytes}
    (h : data.length < 255) :
    Adds log (log ++ callLog settings index data) [(index, data)] [] := by
  have hall := ((adds_alloc log).trans (adds_packetLog settings index h)).trans
    (adds_deallocEvent _)
  simpa only [callLog, List.append_assoc, List.cons_append, List.nil_append, List.append_nil]
    using hall

lemma sendPacket_eq (henv : env.Serves) : v.sendPacket env =
    (v.transfer.next.1.read v.transfer.next.2).map fun data =>
      ({ v with
        state := .dlFwPatch
        transfer := v.transfer.next.1
        pending := some (.hwConfigCback, hciVscDownloadFwPatch)
        log := v.log ++ packetLog v.settings v.transfer.next.1.iCurIndex data }, true) := by
  unfold sendPacket
  cases hread : v.transfer.next.1.read v.transfer.next.2 with
  | none => simp only [hread, Option.bind_eq_bind, Option.bind_none, Option.map_none]
  | some data =>
    simp only [hread, Option.bind_eq_bind, Option.bind_some, Option.map_some, hciDownloadPatchH4,
      xmit, henv.xmit, if_true, hciCommand, changeFlowControl, packetLog, emit]
    split_ifs
    · simp only [List.append_assoc, List.singleton_append]
    · rfl

/-- The call back for an answer to a download command: the transfer is asked for the next packet,
unless the answer ends it. -/
lemma step_download (henv : env.Serves) (hstate : v.state = .dlFwPatch)
    (hpending : v.pending = some (.hwConfigCback, hciVscDownloadFwPatch))
    (hop : e.opcode = hciVscDownloadFwPatch) : step v (env, .reply e) =
      if Ends v.transfer.iTotalIndex e.ret then
        some { v with
          state := .idle
          pending := none
          transfer := { v.transfer.acked with buf := [] }
          iIndexRx := e.ret
          log := v.log ++ [.alloc, .deallocCommand, .fwcfg true, .deallocEvent] }
      else
        (v.transfer.acked.next.1.read v.transfer.acked.next.2).map fun data =>
          { v with
            transfer := v.transfer.acked.next.1
            pending := some (.hwConfigCback, hciVscDownloadFwPatch)
            iIndexRx := e.ret
            log := v.log ++ callLog v.settings v.transfer.acked.next.1.iCurIndex data } := by
  simp only [step, hpending, hop, if_true, callback, hwConfigCback, henv.alloc, hwConfigState, emit,
    hstate, downloadFw, Option.isSome_some]
  have htotal : v.transfer.acked.iTotalIndex = v.transfer.iTotalIndex := rfl
  rw [htotal]
  split_ifs with hends
  · simp only [Option.bind_eq_bind, Option.bind_some, complete, emit, if_true, List.append_assoc,
      List.cons_append, List.nil_append]
  · rw [sendPacket_eq henv]
    cases hread : v.transfer.acked.next.1.read v.transfer.acked.next.2 with
    | none => simp only [Option.map_none, Option.bind_eq_bind, Option.bind_none]
    | some data =>
      simp only [Option.map_some, Option.bind_eq_bind, Option.bind_some, if_true, callLog,
        List.append_assoc, List.cons_append, List.nil_append]

end Vendor

/-! ## All answers -/

section Answers

open Transfer Vendor

variable {image : Bytes} {commands i : ℕ} {v : Vendor}

/-- The packet `i` has been sent and not been answered. -/
structure Downloading (image : Bytes) (commands i : ℕ) (v : Vendor) : Prop where
  state : v.state = .dlFwPatch
  transfer : v.transfer = sent image commands i
  pending : v.pending = some (.hwConfigCback, hciVscDownloadFwPatch)

/-- Answers to download commands. -/
def Answers (ps : List (Env × Event)) : Prop :=
  ∀ p ∈ ps, p.1.Serves ∧ p.2.opcode = hciVscDownloadFwPatch

/-- The callbacks for events, one after the other. -/
def replies (v : Vendor) (ps : List (Env × Event)) : Option Vendor :=
  ps.foldlM (fun v p => step v (p.1, .reply p.2)) v

lemma replies_cons (v : Vendor) (p : Env × Event) (ps : List (Env × Event)) :
    replies v (p :: ps) = (step v (p.1, .reply p.2)).bind fun v => replies v ps :=
  List.foldlM_cons

lemma replies_append (v : Vendor) (ps qs : List (Env × Event)) :
    replies v (ps ++ qs) = (replies v ps).bind fun v => replies v qs := List.foldlM_append

/-- The index of the last packet, or the mark of a last packet: the download ends. -/
def EndsWith (image : Bytes) (commands : ℕ) (p : Env × Event) : Prop :=
  Ends (start image commands).iTotalIndex p.2.ret

instance (image : Bytes) (commands : ℕ) (p : Env × Event) :
    Decidable (EndsWith image commands p) := by
  unfold EndsWith
  infer_instance

lemma length_piece_lt (image : Bytes) (i : ℕ) : (piece 252 image i).length < 255 := by
  rw [piece, slice, List.length_take]
  omega

lemma step_continues (h : Planned image commands) (hi : i < 127) {p : Env × Event}
    (hv : Downloading image commands i v) (henv : p.1.Serves)
    (hop : p.2.opcode = hciVscDownloadFwPatch) (hends : ¬ EndsWith image commands p) :
    ∃ v', step v (p.1, .reply p.2) = some v' ∧ Downloading image commands (i + 1) v' ∧
      Adds v.log v'.log [packet image commands (i + 1)] [] := by
  obtain ⟨hnext, hread⟩ := next_due h (show i + 1 < 128 by omega) (due_acked h hi)
  have hne : ¬ Ends v.transfer.iTotalIndex p.2.ret := by
    rw [hv.transfer]
    exact hends
  rw [step_download henv hv.state hv.pending hop, if_neg hne, hv.transfer, hread, Option.map_some,
    hnext]
  exact ⟨_, rfl, ⟨hv.state, rfl, rfl⟩, adds_callLog _ _ (length_piece_lt image (i + 1))⟩

lemma step_ends {p : Env × Event} (hv : Downloading image commands i v) (henv : p.1.Serves)
    (hop : p.2.opcode = hciVscDownloadFwPatch) (hends : EndsWith image commands p) :
    ∃ v', step v (p.1, .reply p.2) = some v' ∧ v'.state = .idle ∧ Adds v.log v'.log [] [true] := by
  have hyes : Ends v.transfer.iTotalIndex p.2.ret := by
    rw [hv.transfer]
    exact hends
  rw [step_download henv hv.state hv.pending hop, if_pos hyes]
  exact ⟨_, rfl, rfl, adds_append _ rfl rfl rfl rfl⟩

lemma step_wraps (h : Planned image commands) {p : Env × Event}
    (hv : Downloading image commands 127 v) (henv : p.1.Serves)
    (hop : p.2.opcode = hciVscDownloadFwPatch) (hends : ¬ EndsWith image commands p) :
    step v (p.1, .reply p.2) = none := by
  have hne : ¬ Ends v.transfer.iTotalIndex p.2.ret := by
    rw [hv.transfer]
    exact hends
  rw [step_download henv hv.state hv.pending hop, if_neg hne, hv.transfer, next_acked_last h,
    Option.map_none]

/-- Answers that do not end the download bring one packet each. -/
lemma replies_continue (h : Planned image commands) {ps : List (Env × Event)} :
    ∀ {i : ℕ} {v : Vendor}, Downloading image commands i v → Answers ps →
      (∀ p ∈ ps, ¬ EndsWith image commands p) → i + ps.length < 128 →
      ∃ v', replies v ps = some v' ∧ Downloading image commands (i + ps.length) v' ∧
        Adds v.log v'.log
          ((List.range ps.length).map fun j => packet image commands (i + 1 + j)) [] := by
  induction ps with
  | nil =>
    intro i v hv _ _ _
    exact ⟨v, rfl, hv, Adds.refl _⟩
  | cons p ps ih =>
    intro i v hv hps hgo hlt
    rw [List.length_cons] at hlt
    obtain ⟨henv, hop⟩ := hps p List.mem_cons_self
    obtain ⟨u, hstep, hu, hadds⟩ :=
      step_continues h (by omega) hv henv hop (hgo p List.mem_cons_self)
    obtain ⟨v', hrun, hv', hadds'⟩ := ih hu
      (fun q hq => hps q (List.mem_cons_of_mem _ hq))
      (fun q hq => hgo q (List.mem_cons_of_mem _ hq)) (by omega)
    refine ⟨v', ?_, ?_, ?_⟩
    · rw [replies_cons, hstep, Option.bind_some, hrun]
    · rw [List.length_cons, ← Nat.add_assoc, Nat.add_right_comm]
      exact hv'
    · rw [List.length_cons, map_range_succ]
      exact hadds.trans hadds'

end Answers

end Softwinner.Bluetooth
