import Softwinner.Bluetooth.Download

/-!
# From the start of a configuration to its first packet

The commands in front of the download: `HCI_VSC_H5_INIT`, `HCI_READ_LMP`, the version of the chip
unless the controller is an 8723a, and the baud rate if there is a configuration file.
`replies_prologue` is what they leave when the stack serves them and the files give an image: the
download is about to start, and the log has these commands and no packet.
-/

namespace Softwinner.Bluetooth

open Framework Transfer Vendor

/-- The answers to the commands in front of the download. -/
structure Opening where
  h5 : Event
  lmp : Event
  eversion : Event
  baud : Event

structure Opening.Answers (o : Opening) : Prop where
  h5 : o.h5.opcode = hciVscH5Init
  lmp : o.lmp.opcode = hciReadLmp
  eversion : o.eversion.opcode = hciVendorReadRtkRomVersion
  baud : o.baud.opcode = hciVscUpdateBaudrate
  success : o.lmp.status = 0

/-- The version of the chip that the library works with. -/
def Opening.chip (o : Opening) (v : Vendor) : ℕ :=
  if o.lmp.lmp = romLmp8723a then v.gEVersion
  else if o.eversion.status = 0 then o.eversion.ret.toNat
  else if o.eversion.status = 1 then 0
  else v.gEVersion

/-- The answers that come, in their order. -/
def Opening.events (o : Opening) (env : Env) (config : Bytes) : List (Env × Event) :=
  [(env, o.h5), (env, o.lmp)] ++
    ((if o.lmp.lmp = romLmp8723a then [] else [(env, o.eversion)]) ++
      if config = [] then [] else [(env, o.baud)])

/-- The commands of the opening. -/
def Opening.codes (o : Opening) (config : Bytes) : List ℕ :=
  [hciVscH5Init, hciReadLmp] ++
    ((if o.lmp.lmp = romLmp8723a then [] else [hciVendorReadRtkRomVersion]) ++
      if config = [] then [] else [hciVscUpdateBaudrate])

/-- What the log has of the opening. -/
structure Opened (o : Opening) (config : Bytes) (settings : Settings) (v : Vendor)
    (log : List Effect) : Prop where
  packets : packets log = packets v.log
  completions : completions log = completions v.log
  commandCodes : commandCodes log = commandCodes v.log ++ o.codes config
  hostSpeeds : hostSpeeds log = hostSpeeds v.log ++
    if config = [] then [] else [hostSpeed settings.baudrate]

/-- The download is about to start. -/
structure Starts (o : Opening) (image config : Bytes) (settings : Settings) (v u : Vendor) :
    Prop where
  opened : Opened o config settings v u.log
  transfer_eq : u.transfer = start image (countedCommands o.lmp.lmp settings.baudrate)
  settings_eq : u.settings = settings

lemma replies_single (v : Vendor) (p : Env × Event) :
    replies v [p] = step v (p.1, .reply p.2) := by
  rw [replies_cons]
  cases step v (p.1, .reply p.2) <;> rfl

section Opening

variable {v : Vendor} {env : Env} {o : Opening} {image config : Bytes} {settings : Settings}

lemma loadFiles_congr {w : Vendor} (hlmp : v.lmpVersion = w.lmpVersion)
    (hchip : v.gEVersion = w.gEVersion)
    (hflow : v.settings.gHwFlowControlEnable = w.settings.gHwFlowControlEnable) :
    v.loadFiles env = w.loadFiles env := by
  simp only [loadFiles, rtkGetBtFirmware, hlmp, hchip, hflow]

/-- The state in front of the answer to `HCI_READ_LMP`. -/
def asked (v : Vendor) : Vendor :=
  { v with
    state := .start
    alarm := true
    pending := some (.rtkGetLmpCback, hciReadLmp) }.emit
  [.alloc, .xmit ⟨hciVscH5Init, toLe 2 hciVscH5Init⟩, .alloc, .xmit (hciCommand hciReadLmp [])]

lemma replies_h5 (henv : env.Serves) (ho : o.Answers) (rest : List (Env × Event)) :
    replies (v.hwConfigStart env) ((env, o.h5) :: rest) = replies (asked v) rest := by
  have hstart : v.hwConfigStart env = { v with
      state := .start
      pending := some (.rtkGetLmp, hciVscH5Init) }.emit
        [.alloc, .xmit ⟨hciVscH5Init, toLe 2 hciVscH5Init⟩] := by
    simp only [hwConfigStart, henv.alloc, if_true, xmit, henv.xmit, emit, List.append_assoc,
      List.cons_append, List.nil_append]
  rw [replies_cons, hstart]
  simp only [step, ho.h5, if_true, callback, rtkGetLmp, henv.alloc, xmit, henv.xmit, emit,
    Option.bind_some, asked, hciCommand, List.append_assoc, List.cons_append, List.nil_append]

lemma readEversion_kept (mem : Option Event) :
    (v.readEversion mem).needDownloadFw = v.needDownloadFw ∧
      (v.readEversion mem).lmpVersion = v.lmpVersion := by
  unfold readEversion
  split
  · exact ⟨rfl, rfl⟩
  · split_ifs <;> exact ⟨rfl, rfl⟩

lemma readEversion_emit (mem : Option Event) (effects : List Effect) :
    ({ v with pending := none }.emit effects).readEversion mem =
      { v.readEversion mem with pending := none }.emit effects := by
  cases mem with
  | none => rfl
  | some e =>
    by_cases h : v.lmpVersion = romLmp8723a
    · simp only [readEversion, emit, if_pos h]
      exact if_pos h
    · simp only [readEversion, emit, if_neg h]
      exact if_neg h

/-- The library with an image, in front of the commands for it. -/
def loaded (v : Vendor) (mem : Option Event) (image : Bytes) (settings : Settings) : Vendor :=
  { v.readEversion mem with
    settings := settings
    transfer := start image (countedCommands v.lmpVersion settings.baudrate)
    iIndexRx := 0 }

/-- `HW_CFG_START`, with an image. -/
lemma hwCfgStart_image {mem : Option Event} (hneed : v.needDownloadFw = true)
    (hfiles : (v.readEversion mem).loadFiles env = some (.image image, config, settings))
    (himage : image ≠ []) :
    v.hwCfgStart env mem =
      if config = [] then (loaded v mem image settings).downloadFw env mem
      else some ((loaded v mem image settings).hwConfigSetControllerBaudrate env) := by
  obtain ⟨hkept, hlmp⟩ := readEversion_kept (v := v) mem
  simp only [hwCfgStart, hfiles, Option.bind_eq_bind, Option.bind_some, hkept, hlmp, hneed,
    himage, ne_eq, not_false_eq_true, and_self, if_true, loaded]

/-- The answer to the change of the baud rate. -/
lemma step_baud (henv : env.Serves) (ho : o.Answers) (hstate : v.state = .setUartBaudHost)
    (hpending : v.pending = some (.hwConfigCback, hciVscUpdateBaudrate)) :
    step v (env, .reply o.baud) =
      (({ v with pending := none }.emit
        [.alloc, .setBaud (hostSpeed v.settings.baudrate)]).sendPacket env).map
        fun p : Vendor × Bool => p.1.emit [.deallocEvent] := by
  have hne : hciVscUpdateBaudrate ≠ hciVscDownloadFwPatch := by decide
  simp only [step, hpending, ho.baud, if_true, callback, hwConfigCback, henv.alloc, hwConfigState,
    emit, hstate, downloadFw, if_neg hne, Option.isSome_some, List.append_assoc, List.cons_append,
    List.nil_append]
  rw [sendPacket_eq henv]
  cases read _ _ with
  | none => rfl
  | some data => rfl

/-- The answer with the version of the chip. -/
lemma step_eversion (henv : env.Serves) (ho : o.Answers) (hstate : v.state = .start)
    (hpending : v.pending = some (.hwConfigCback, hciVendorReadRtkRomVersion))
    (hneed : v.needDownloadFw = true) (himage : image ≠ [])
    (hfiles : (v.readEversion (some o.eversion)).loadFiles env =
      some (.image image, config, settings)) :
    step v (env, .reply o.eversion) =
      let u := loaded ({ v with pending := none }.emit [.alloc]) (some o.eversion) image settings
      (if config = [] then u.sendPacket env else some (u.hwConfigSetControllerBaudrate env)).map
        fun p : Vendor × Bool => p.1.emit [.deallocEvent] := by
  have hne : o.eversion.opcode ≠ hciVscDownloadFwPatch := by
    rw [ho.eversion]
    decide
  have hfiles' : (({ v with pending := none }.emit [.alloc]).readEversion
      (some o.eversion)).loadFiles env = some (.image image, config, settings) := by
    rw [← hfiles, readEversion_emit]
    exact loadFiles_congr rfl rfl rfl
  have hstart := hwCfgStart_image (v := { v with pending := none }.emit [.alloc]) hneed hfiles'
    himage
  simp only [step, hpending, ho.eversion, if_true, callback, hwConfigCback, henv.alloc,
    hwConfigState, show ({ v with pending := none }.emit [.alloc]).state = .start from hstate,
    hstart, Option.isSome_some]
  split_ifs with hconfig
  · simp only [downloadFw, if_neg hne]
    rw [sendPacket_eq henv]
    cases read _ _ with
    | none => rfl
    | some data => rfl
  · simp only [hwConfigSetControllerBaudrate, henv.xmit, Option.bind_eq_bind, Option.bind_some,
      if_true, Option.map_some]

/-- The answer to `HCI_READ_LMP` of a controller that comes in several versions. -/
lemma step_lmp (henv : env.Serves) (ho : o.Answers) (hlmp : o.lmp.lmp ≠ romLmp8723a) :
    step (asked v) (env, .reply o.lmp) =
      some ({ asked v with
        lmpVersion := o.lmp.lmp
        pending := some (.hwConfigCback, hciVendorReadRtkRomVersion) }.emit
          [.alloc, .xmit (hciCommand hciVendorReadRtkRomVersion []), .lpm 0, .deallocEvent]) := by
  simp only [step, asked, emit, ho.lmp, if_true, callback, rtkGetLmpCback, ho.success, if_neg hlmp,
    rtkGetEversion, henv.alloc, xmit, henv.xmit, hciCommand, Option.bind_eq_bind, Option.bind_some,
    List.append_assoc, List.cons_append, List.nil_append]

/-- The answer to `HCI_READ_LMP` of an 8723a; without a configuration file the library would read
an event that there is not. -/
lemma step_lmp_8723a (henv : env.Serves) (ho : o.Answers) (hlmp : o.lmp.lmp = romLmp8723a)
    (hneed : v.needDownloadFw = true) (himage : image ≠ []) (hconfig : config ≠ [])
    (hfiles : { v with lmpVersion := o.lmp.lmp }.loadFiles env =
      some (.image image, config, settings)) :
    step (asked v) (env, .reply o.lmp) =
      some (((loaded ({ asked v with
          lmpVersion := o.lmp.lmp
          alarm := false
          pending := none }.emit [.alloc]) none image settings).hwConfigSetControllerBaudrate
        env).1.emit [.lpm 0, .deallocEvent]) := by
  set u := { asked v with
    lmpVersion := o.lmp.lmp
    alarm := false
    pending := none }.emit [.alloc] with hu
  have hfiles' : (u.readEversion none).loadFiles env = some (.image image, config, settings) :=
    (loadFiles_congr rfl rfl rfl).trans hfiles
  have hstart := hwCfgStart_image (v := u) hneed hfiles' himage
  rw [if_neg hconfig] at hstart
  have hback : { asked v with
      lmpVersion := o.lmp.lmp
      alarm := false
      pending := none }.hwConfigCback env none =
      some ((loaded u none image settings).hwConfigSetControllerBaudrate env).1 := by
    rw [hwConfigCback, if_pos henv.alloc, ← hu, hwConfigState]
    simp only [show u.state = .start from rfl, hstart, hwConfigSetControllerBaudrate, henv.xmit,
      Option.bind_eq_bind, Option.bind_some, Option.isSome_none, if_true]
    rfl
  have hpending : (asked v).pending = some (.rtkGetLmpCback, hciReadLmp) := rfl
  simp only [step, hpending, ho.lmp, if_true, callback, rtkGetLmpCback, ho.success, if_pos hlmp,
    hback, Option.bind_eq_bind, Option.bind_some]

lemma hwConfigSetControllerBaudrate_eq (henv : env.Serves) :
    v.hwConfigSetControllerBaudrate env =
      ({ v with
        state := .setUartBaudHost
        pending := some (.hwConfigCback, hciVscUpdateBaudrate) }.emit
          [.xmit (hciCommand hciVscUpdateBaudrate (toLe 4 v.settings.baudrate))], true) := by
  simp only [hwConfigSetControllerBaudrate, xmit, henv.xmit, if_true, emit]
  rfl

lemma opened_of_log {u : Vendor} (effects : List Effect) (hlog : u.log = v.log ++ effects)
    (hpackets : Bluetooth.packets effects = []) (hresults : Bluetooth.completions effects = [])
    (hcodes : Bluetooth.commandCodes effects = o.codes config)
    (hspeeds : Bluetooth.hostSpeeds effects =
      if config = [] then [] else [hostSpeed settings.baudrate]) :
    Opened o config settings v u.log where
  packets := by rw [hlog, packets_append, hpackets, List.append_nil]
  completions := by rw [hlog, completions_append, hresults, List.append_nil]
  commandCodes := by rw [hlog, commandCodes_append, hcodes]
  hostSpeeds := by rw [hlog, hostSpeeds_append, hspeeds]

/-- The commands in front of the download, for an image that is not empty. -/
lemma replies_opening (henv : env.Serves) (ho : o.Answers) (hneed : v.needDownloadFw = true)
    (himage : image ≠ []) (hconfig : o.lmp.lmp = romLmp8723a → config ≠ [])
    (hfiles : { v with lmpVersion := o.lmp.lmp, gEVersion := o.chip v }.loadFiles env =
      some (.image image, config, settings)) :
    ∃ u, replies (v.hwConfigStart env) (o.events env config) =
        (u.sendPacket env).map (fun p : Vendor × Bool => p.1.emit [.deallocEvent]) ∧
      Starts o image config settings v u := by
  have hbaud : packetOf (.xmit (hciCommand hciVscUpdateBaudrate (toLe 4 settings.baudrate))) =
      none := packetOf_hciCommand _ (by decide) (by decide)
  rw [Opening.events, List.cons_append, replies_h5 henv ho, List.cons_append, replies_cons]
  by_cases hlmp : o.lmp.lmp = romLmp8723a
  · have hchip : o.chip v = v.gEVersion := if_pos hlmp
    rw [hchip] at hfiles
    have hconfig := hconfig hlmp
    rw [if_pos hlmp, if_neg hconfig, List.nil_append,
      step_lmp_8723a henv ho hlmp hneed himage hconfig hfiles,
      hwConfigSetControllerBaudrate_eq henv, Option.bind_some, List.nil_append, replies_single,
      step_baud henv ho rfl rfl]
    refine ⟨_, rfl, opened_of_log [.alloc, .xmit ⟨hciVscH5Init, toLe 2 hciVscH5Init⟩,
      .alloc, .xmit (hciCommand hciReadLmp []), .alloc,
      .xmit (hciCommand hciVscUpdateBaudrate (toLe 4 settings.baudrate)), .lpm 0, .deallocEvent,
      .alloc, .setBaud (hostSpeed settings.baudrate)] ?_ ?_ rfl ?_ ?_, rfl, rfl⟩
    · simp only [emit, loaded, readEversion, asked, List.append_assoc, List.cons_append,
        List.nil_append]
    · rw [packets]
      simp only [List.filterMap_cons, hbaud]
      rfl
    · rw [Opening.codes, if_pos hlmp, if_neg hconfig]
      rfl
    · rw [if_neg hconfig]
      rfl
  · set w := { asked v with
      lmpVersion := o.lmp.lmp
      pending := some (.hwConfigCback, hciVendorReadRtkRomVersion) }.emit
        [.alloc, .xmit (hciCommand hciVendorReadRtkRomVersion []), .lpm 0, .deallocEvent] with hw
    have hread : w.readEversion (some o.eversion) =
        { w with alarm := false, gEVersion := o.chip v } := by
      rw [Opening.chip, if_neg hlmp]
      exact if_neg hlmp
    have hfiles' : (w.readEversion (some o.eversion)).loadFiles env =
        some (.image image, config, settings) := by
      rw [hread]
      exact (loadFiles_congr rfl rfl rfl).trans hfiles
    have hloaded : loaded ({ w with pending := none }.emit [.alloc]) (some o.eversion) image
        settings = { w with
          alarm := false
          gEVersion := o.chip v
          settings := settings
          transfer := start image (countedCommands o.lmp.lmp settings.baudrate)
          iIndexRx := 0
          pending := none }.emit [.alloc] := by
      rw [loaded, readEversion_emit, hread]
      rfl
    rw [if_neg hlmp, step_lmp henv ho hlmp, Option.bind_some, List.nil_append]
    by_cases hconfig : config = []
    · rw [if_pos hconfig, List.append_nil, replies_single,
        step_eversion henv ho (v := w) rfl rfl hneed himage hfiles', hloaded]
      simp only [if_pos hconfig]
      refine ⟨_, rfl, opened_of_log [.alloc, .xmit ⟨hciVscH5Init, toLe 2 hciVscH5Init⟩,
        .alloc, .xmit (hciCommand hciReadLmp []), .alloc,
        .xmit (hciCommand hciVendorReadRtkRomVersion []), .lpm 0, .deallocEvent, .alloc]
        ?_ rfl rfl ?_ ?_, rfl, rfl⟩
      · simp only [emit, asked, hw, List.append_assoc, List.cons_append, List.nil_append]
      · rw [Opening.codes, if_neg hlmp, if_pos hconfig]
        rfl
      · rw [if_pos hconfig]
        rfl
    · rw [if_neg hconfig, List.cons_append, List.nil_append, replies_cons,
        step_eversion henv ho (v := w) rfl rfl hneed himage hfiles', hloaded]
      simp only [if_neg hconfig]
      rw [hwConfigSetControllerBaudrate_eq henv, Option.map_some, Option.bind_some, replies_single,
        step_baud henv ho rfl rfl]
      refine ⟨_, rfl, opened_of_log [.alloc, .xmit ⟨hciVscH5Init, toLe 2 hciVscH5Init⟩,
        .alloc, .xmit (hciCommand hciReadLmp []), .alloc,
        .xmit (hciCommand hciVendorReadRtkRomVersion []), .lpm 0, .deallocEvent, .alloc,
        .xmit (hciCommand hciVscUpdateBaudrate (toLe 4 settings.baudrate)), .deallocEvent, .alloc,
        .setBaud (hostSpeed settings.baudrate)] ?_ ?_ rfl ?_ ?_, rfl, rfl⟩
      · simp only [emit, asked, hw, List.append_assoc, List.cons_append, List.nil_append]
      · rw [packets]
        simp only [List.filterMap_cons, hbaud]
        rfl
      · rw [Opening.codes, if_neg hlmp, if_neg hconfig]
        rfl
      · rw [if_neg hconfig]
        rfl

end Opening

end Softwinner.Bluetooth
