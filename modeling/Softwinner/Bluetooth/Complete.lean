import Softwinner.Bluetooth.Echo

/-!
# From the files to the controller

The two formats and the download together: for a firmware file and a configuration file in their
formats, `configuration_of_files` says which bytes the controller has at the end.
-/

namespace Softwinner.Bluetooth

open Framework Transfer Vendor

/-- Files in their formats for a controller: the firmware has a patch for its chip, and every entry
for the baud rate is long enough. -/
structure Supplied (v : Vendor) (env : Env) (o : Opening) (f : EpatchFile) (p : Patch)
    (es : List Entry) : Prop where
  product : ∃ entry, getPatchEntry o.lmp.lmp patchTable = some entry ∧
    env.files entry.patchName = some f.encode ∧ env.files entry.configName = some (configFile es)
  several : o.lmp.lmp ≠ romLmp8723a
  project : projectId[f.project.toNat]? = some o.lmp.lmp
  mallocs : env.mallocs = true
  firmware : f.WellFormed
  entries : ∀ e ∈ es, e.WellFormed
  complete : ∀ e ∈ es, e.offset = 0xc → 13 ≤ e.data.length
  length_lt : (encodeEntries es).length < 2 ^ 16
  patch : patchFor (o.chip v + 1) f.patches = some p
  long : 4 ≤ p.data.length

section Session

variable {v : Vendor} {env : Env} {o : Opening} {f : EpatchFile} {p : Patch} {es : List Entry}

/-- What the library reads from such files. -/
lemma Supplied.loadFiles (h : Supplied v env o f p es) :
    { v with lmpVersion := o.lmp.lmp, gEVersion := o.chip v }.loadFiles env =
      some (.image (f.versioned p ++ configFile es), configFile es,
        (lastBaud es).elim ⟨0, false, v.settings.gHwFlowControlEnable⟩ Entry.settings) := by
  obtain ⟨entry, hentry, hfw, hconfig⟩ := h.product
  have hsettings := rtkParseConfigFile_last (s := ⟨0, false, v.settings.gHwFlowControlEnable⟩)
    h.entries h.length_lt h.complete
  have himage := EpatchFile.multiEpatch_encode h.firmware o.lmp.lmp (o.chip v) (configFile es)
  rw [h.project, Option.bind_some, if_neg (by simp), h.patch, Option.bind_some,
    if_neg (Nat.not_lt.mpr h.long)] at himage
  simp only [Vendor.loadFiles, hentry, rtkGetBtConfig, hconfig, hsettings, rtkGetBtFirmware, hfw,
    if_neg h.several, h.mallocs, himage, Option.bind_eq_bind, Option.bind_some, Option.map_some]
  rfl

lemma Supplied.offers (h : Supplied v env o f p es) (henv : env.Serves) (ho : o.Answers)
    (hneed : v.needDownloadFw = true) :
    Offers v env o (f.versioned p ++ configFile es) (configFile es)
      ((lastBaud es).elim ⟨0, false, v.settings.gHwFlowControlEnable⟩ Entry.settings) :=
  ⟨henv, ho, hneed, fun hlmp => absurd hlmp h.several, h.loadFiles⟩

/-- A controller that answers with the index of the packet gets the patch for its chip, with the
version of the firmware over its last four bytes, and the configuration file behind it, if and only
if both fit; of the other patches of the file it gets nothing. -/
theorem configuration_of_files (h : Supplied v env o f p es) (henv : env.Serves) (ho : o.Answers)
    (hneed : v.needDownloadFw = true) :
    (∃ w n u, replies (v.hwConfigStart env) (o.events env (configFile es)) = some w ∧
      echoes env n w = some u ∧ u.state = .idle ∧
      payload u.log = payload v.log ++
        (p.data.take (p.data.length - 4) ++ toLe 4 f.fmVersion ++ configFile es) ∧
      completions u.log = completions v.log ++ [true]) ↔
      p.data.length + (configFile es).length ≤
        252 * if (lastBaud es).elim 0 (fun e => ofLe (slice e.data 0 4)) = 0 then 126 else 125 := by
  have hoffers := h.offers henv ho hneed
  have hlong := h.long
  have hlen : (f.versioned p ++ configFile es).length =
      p.data.length + (configFile es).length := by
    rw [List.length_append, EpatchFile.versioned, List.length_append, List.length_take,
      length_toLe]
    omega
  have hcount : ∀ settings : Settings, o.commands settings =
      if settings.baudrate = 0 then 3 else 4 := by
    intro settings
    unfold Opening.commands countedCommands
    by_cases hbaud : settings.baudrate = 0 <;> simp [hbaud, h.several]
  have hbaud : ((lastBaud es).elim ⟨0, false, v.settings.gHwFlowControlEnable⟩
      Entry.settings).baudrate = (lastBaud es).elim 0 fun e => ofLe (slice e.data 0 4) := by
    cases lastBaud es <;> rfl
  have hroom : 252 * (129 - o.commands ((lastBaud es).elim
      ⟨0, false, v.settings.gHwFlowControlEnable⟩ Entry.settings)) =
      252 * if (lastBaud es).elim 0 (fun e => ofLe (slice e.data 0 4)) = 0 then 126 else 125 := by
    rw [hcount, hbaud]
    split_ifs <;> rfl
  rw [← hroom, ← hlen]
  refine ⟨?_, hoffers.delivered⟩
  rintro ⟨_, _, _, hopen, hrun, hidle, hpayload, _⟩
  exact hoffers.length_le hopen hrun hidle hpayload

end Session

lemma small_supplied : Supplied Vendor.initial smallEnv smallOpening smallFirmware
    ⟨2, [6, 7, 8, 9, 10, 11]⟩ smallConfig where
  product := ⟨⟨romLmp8723b, "rtl8723b_fw", "rtl8723b_config"⟩, rfl, rfl, rfl⟩
  several := by decide
  project := rfl
  mallocs := rfl
  firmware := smallFirmware_wellFormed
  entries := smallConfig_wellFormed
  complete := by decide
  length_lt := by decide
  patch := rfl
  long := by decide

theorem configuration_of_files_small :
    ∃ w n u, replies (Vendor.initial.hwConfigStart smallEnv)
        (smallOpening.events smallEnv (configFile smallConfig)) = some w ∧
      echoes smallEnv n w = some u ∧ u.state = .idle ∧
      payload u.log = payload Vendor.initial.log ++
        ([6, 7] ++ toLe 4 0x01020304 ++ configFile smallConfig) ∧
      completions u.log = completions Vendor.initial.log ++ [true] :=
  (configuration_of_files small_supplied ⟨rfl, rfl⟩ small_answers rfl).mpr (by decide)

end Softwinner.Bluetooth
