import Softwinner.Bluetooth.Prologue

/-!
# What a configuration delivers

A configuration from `BT_VND_OP_FW_CFG` to its end, with the packets that the controller has
received and the results that the stack has been told.  `configuration_answered` is for any answers
to the download commands: the packets are the pieces of the image in order, and the first answer
that ends the download ends it, whether the image is complete or not.
`delivers_iff` is for the controller that answers with the index of the packet: it gets the image if
and only if the packets of the image fit the seven bits of an index.
-/

namespace Softwinner.Bluetooth

open Framework Transfer Vendor

/-- A configuration whose files give an image, up to the download: what the stack and the
controller do in it. -/
structure Offers (v : Vendor) (env : Env) (o : Opening) (image config : Bytes)
    (settings : Settings) : Prop where
  serves : env.Serves
  answers : o.Answers
  need : v.needDownloadFw = true
  configured : o.lmp.lmp = romLmp8723a → config ≠ []
  files : { v with lmpVersion := o.lmp.lmp, gEVersion := o.chip v }.loadFiles env =
    some (.image image, config, settings)

/-- The number of commands of a configuration that its packets are padded for. -/
def Opening.commands (o : Opening) (settings : Settings) : ℕ :=
  countedCommands o.lmp.lmp settings.baudrate

/-! ## The image -/

lemma epatchImage_ne_nil {fw config buf : Bytes} {chip : ℕ} {mallocs : Bool}
    (h : epatchImage fw chip config mallocs = some (.image buf)) : buf ≠ [] := by
  unfold epatchImage at h
  simp only [Option.bind_eq_bind, Option.bind_eq_some_iff] at h
  obtain ⟨version, hversion, total, -, entry, -, h⟩ := h
  split_ifs at h with hmem hconfig
  · obtain ⟨patch, -, h⟩ := Option.bind_eq_some_iff.mp h
    obtain ⟨stored, hstore, h⟩ := Option.bind_eq_some_iff.mp h
    have hlen := length_store hstore
    have hfour := length_of_fetch hversion
    unfold store at hstore
    split_ifs at hstore with hfit
    cases h
    intro hnil
    have hempty := List.append_eq_nil_iff.mp hnil
    rw [hempty.1, List.length_nil] at hlen
    omega
  · cases h

lemma multiEpatch_ne_nil {fw config buf : Bytes} {lmp chip : ℕ} {mallocs : Bool}
    (h : multiEpatch fw lmp chip config mallocs = some (.image buf)) : buf ≠ [] := by
  unfold multiEpatch at h
  split_ifs at h with hshort hsig
  · cases h
  · simp only [Option.bind_eq_bind, Option.bind_eq_some_iff] at h
    obtain ⟨data, -, project, -, h⟩ := h
    split_ifs at h with hproject
    · cases h
    · obtain ⟨signature, -, h⟩ := Option.bind_eq_some_iff.mp h
      split_ifs at h with hfront
      · cases h
      · exact epatchImage_ne_nil h

lemma singlePatch_ne_nil {fw config buf : Bytes} {mallocs : Bool}
    (h : singlePatch fw config mallocs = some (.image buf)) : buf ≠ [] := by
  unfold singlePatch at h
  simp only [Option.bind_eq_bind, Option.bind_eq_some_iff] at h
  obtain ⟨signature, hsig, h⟩ := h
  have hlong := fetch_isSome_iff.mp (Option.isSome_iff_exists.mpr ⟨_, hsig⟩)
  split_ifs at h with hmulti hmem
  · cases h
  · cases h
    intro hnil
    rw [(List.append_eq_nil_iff.mp hnil).1, List.length_nil] at hlong
    omega
  · cases h

/-- An image has the version of the firmware, or the eight bytes that a signature would have. -/
lemma loadFiles_ne_nil {v : Vendor} {env : Env} {image config : Bytes} {settings : Settings}
    (h : v.loadFiles env = some (.image image, config, settings)) : image ≠ [] := by
  unfold loadFiles at h
  simp only [Option.bind_eq_bind, Option.bind_eq_some_iff] at h
  obtain ⟨entry, -, ⟨config', settings'⟩, -, firmware, hfirmware, h⟩ := h
  cases h
  unfold rtkGetBtFirmware at hfirmware
  split at hfirmware
  · cases hfirmware
  · split_ifs at hfirmware
    · exact singlePatch_ne_nil hfirmware
    · exact multiEpatch_ne_nil hfirmware

lemma countedCommands_bounds (lmp baudrate : ℕ) :
    2 ≤ countedCommands lmp baudrate ∧ countedCommands lmp baudrate ≤ 4 := by
  unfold countedCommands
  split_ifs <;> omega

section Session

variable {v : Vendor} {env : Env} {o : Opening} {image config : Bytes} {settings : Settings}

/-- The room that the index leaves for an image. -/
lemma Offers.fits_iff (h : Offers v env o image config settings) :
    Fits image (o.commands settings) ↔ image.length ≤ 252 * (129 - o.commands settings) := by
  have hpos := List.length_pos_iff.mpr (loadFiles_ne_nil h.files)
  obtain ⟨hlow, hhigh⟩ := countedCommands_bounds o.lmp.lmp settings.baudrate
  unfold Fits lastPiece Opening.commands
  omega

lemma Offers.planned (h : Offers v env o image config settings)
    (hfits : image.length ≤ 252 * (129 - o.commands settings)) :
    Planned image (o.commands settings) :=
  ⟨loadFiles_ne_nil h.files, h.fits_iff.mpr hfits, (countedCommands_bounds _ _).1⟩

/-- The opening leaves the download with its first packet. -/
lemma Offers.opened (h : Offers v env o image config settings)
    (hplan : Planned image (o.commands settings)) :
    ∃ u, replies (v.hwConfigStart env) (o.events env config) = some u ∧
      Downloading image (o.commands settings) 0 u ∧
      ∃ log, Opened o config settings v log ∧
        Adds log u.log [packet image (o.commands settings) 0] [] := by
  obtain ⟨u, hrun, hopened, htransfer, hsettings⟩ := replies_opening h.serves h.answers h.need
    (loadFiles_ne_nil h.files) h.configured h.files
  obtain ⟨hnext, hread⟩ := next_due hplan (by omega) due_start
  have hsend : u.sendPacket env = some ({ u with
      state := .dlFwPatch
      transfer := sent image (o.commands settings) 0
      pending := some (.hwConfigCback, hciVscDownloadFwPatch)
      log := u.log ++ packetLog u.settings (indexByte image (o.commands settings) 0)
        (piece 252 image 0) }, true) := by
    rw [sendPacket_eq h.serves, htransfer]
    rw [show countedCommands o.lmp.lmp settings.baudrate = o.commands settings from rfl, hread,
      hnext]
    rfl
  rw [hsend, Option.map_some] at hrun
  refine ⟨_, hrun, ⟨rfl, rfl, rfl⟩, u.log, hopened, ?_⟩
  exact (adds_packetLog _ _ (length_piece_lt image 0)).trans (adds_deallocEvent _)

/-! ## Any answers -/

/-- The number of answers in front of the first that ends the download. -/
def held (image : Bytes) (commands : ℕ) (ps : List (Env × Event)) : ℕ :=
  ps.findIdx fun p => EndsWith image commands p

lemma not_endsWith_of_take {commands n : ℕ} {ps : List (Env × Event)}
    (hn : n ≤ held image commands ps) : ∀ p ∈ ps.take n, ¬ EndsWith image commands p := by
  intro p hp
  obtain ⟨i, hi, rfl⟩ := List.mem_take_iff_getElem.mp hp
  have hlt : i < ps.findIdx fun p => EndsWith image commands p :=
    Nat.lt_of_lt_of_le (Nat.lt_of_lt_of_le hi (Nat.min_le_left _ _)) hn
  simpa using List.not_of_lt_findIdx hlt

lemma endsWith_of_held {commands : ℕ} {ps : List (Env × Event)}
    (hlt : held image commands ps < ps.length) :
    EndsWith image commands (ps.get ⟨held image commands ps, hlt⟩) :=
  of_decide_eq_true (List.findIdx_getElem (w := hlt))

/-- Behind `n` answers that do not end the download, `n + 1` packets have been received. -/
lemma Offers.downloading (h : Offers v env o image config settings)
    (hplan : Planned image (o.commands settings)) {ps : List (Env × Event)} (hps : Answers ps)
    {n : ℕ} (hn : n ≤ held image (o.commands settings) ps) (hlt : n < 128) :
    ∃ u, replies (v.hwConfigStart env) (o.events env config ++ ps.take n) = some u ∧
      Downloading image (o.commands settings) n u ∧
      ∃ log, Opened o config settings v log ∧
        Adds log u.log ((List.range (n + 1)).map (packet image (o.commands settings))) [] := by
  have hlen : (ps.take n).length = n := by
    rw [List.length_take]
    exact Nat.min_eq_left (Nat.le_trans hn List.findIdx_le_length)
  obtain ⟨w, hopen, hw, log, hopened, hadds⟩ := h.opened hplan
  obtain ⟨u, hrun, hu, hadds'⟩ := replies_continue hplan hw
    (fun p hp => hps p (List.mem_of_mem_take hp)) (not_endsWith_of_take hn)
    (by rw [hlen, Nat.zero_add]; exact hlt)
  rw [hlen, Nat.zero_add] at hu
  have hall := map_range_succ (packet image (o.commands settings)) 0 n
  simp only [Nat.zero_add] at hall
  refine ⟨u, ?_, hu, log, hopened, ?_⟩
  · rw [replies_append, hopen, Option.bind_some, hrun]
  · rw [hall]
    rw [hlen] at hadds'
    simp only [Nat.zero_add] at hadds'
    exact hadds.trans hadds'

/-- Packets in their order bring the front of the image. -/
lemma flatMap_packets (commands n : ℕ) :
    ((List.range n).map (packet image commands)).flatMap Prod.snd = image.take (252 * n) := by
  rw [List.flatMap_map]
  exact flatMap_pieces 252 n image

/-- Whatever the controller answers, it gets the pieces of the image in their order, one with each
answer, until the first answer that has the last index or the mark of the last packet.  That answer
ends the configuration with success, also when the image is not complete; and after 128 answers
without one the library copies from a null pointer. -/
theorem configuration_answered (h : Offers v env o image config settings)
    (hfits : image.length ≤ 252 * (129 - o.commands settings)) {ps : List (Env × Event)}
    (hps : Answers ps) :
    let commands := o.commands settings
    let last := held image commands ps
    let run := fun n => replies (v.hwConfigStart env) (o.events env config ++ ps.take n)
    let received := fun n => packets v.log ++ (List.range n).map (packet image commands)
    (∀ n ≤ last, n < 128 → ∃ u, run n = some u ∧ u.state = .dlFwPatch ∧
        packets u.log = received (n + 1) ∧ completions u.log = completions v.log) ∧
      (last < ps.length → last < 128 → ∃ u, run (last + 1) = some u ∧ u.state = .idle ∧
        packets u.log = received (last + 1) ∧ completions u.log = completions v.log ++ [true] ∧
        payload u.log = payload v.log ++ image.take (252 * (last + 1))) ∧
      (128 ≤ last → run 128 = none) := by
  intro commands last run received
  have hplan := h.planned hfits
  refine ⟨?_, ?_, ?_⟩
  · intro n hn hlt
    obtain ⟨u, hrun, hu, log, hopened, hadds⟩ := h.downloading hplan hps hn hlt
    exact ⟨u, hrun, hu.state, hadds.packets.trans (by rw [hopened.packets]),
      hadds.completions.trans (by rw [hopened.completions, List.append_nil])⟩
  · intro hlast hlt
    obtain ⟨u, hrun, hu, log, hopened, hadds⟩ := h.downloading hplan hps (Nat.le_refl last) hlt
    obtain ⟨henv, hop⟩ := hps _ (List.get_mem ps ⟨last, hlast⟩)
    obtain ⟨u', hstep, hstate, hend⟩ := step_ends hu henv hop (endsWith_of_held hlast)
    have hboth := hadds.trans hend
    rw [List.append_nil, List.nil_append] at hboth
    have hall : packets u'.log = received (last + 1) := by
      rw [hboth.packets, hopened.packets]
    refine ⟨u', ?_, hstate, hall, by rw [hboth.completions, hopened.completions], ?_⟩
    · show replies (v.hwConfigStart env) (o.events env config ++ ps.take (last + 1)) = some u'
      rw [List.take_add_one, List.getElem?_eq_getElem hlast, ← List.append_assoc, replies_append,
        hrun, Option.bind_some]
      exact (replies_single u _).trans hstep
    · rw [payload, hall, List.flatMap_append, flatMap_packets]
      rfl
  · intro hlong
    obtain ⟨u, hrun, hu, -⟩ := h.downloading hplan hps (show 127 ≤ last by omega) (by omega)
    have hlen : 127 < ps.length :=
      Nat.lt_of_lt_of_le hlong (Nat.le_trans List.findIdx_le_length (Nat.le_refl _))
    obtain ⟨henv, hop⟩ := hps _ (List.get_mem ps ⟨127, hlen⟩)
    have hgo : ¬ EndsWith image commands (ps.get ⟨127, hlen⟩) :=
      not_endsWith_of_take hlong _ (List.mem_take_iff_getElem.mpr
        ⟨127, by omega, rfl⟩)
    show replies (v.hwConfigStart env) (o.events env config ++ ps.take (127 + 1)) = none
    rw [List.take_add_one, List.getElem?_eq_getElem hlen, ← List.append_assoc, replies_append,
      hrun, Option.bind_some]
    exact (replies_single u _).trans (step_wraps hplan hu henv hop hgo)

end Session

def smallEnv : Env where
  files name :=
    if name = "rtl8723b_fw" then some smallFirmware.encode
    else if name = "rtl8723b_config" then some (configFile smallConfig)
    else none
  alloc := true
  xmit := true
  mallocs := true

/-- The answers of an 8723b with the second chip. -/
def smallOpening : Opening :=
  ⟨⟨hciVscH5Init, 0, 0, 0⟩, ⟨hciReadLmp, 0, 0, romLmp8723b⟩, ⟨hciVendorReadRtkRomVersion, 0, 1, 0⟩,
    ⟨hciVscUpdateBaudrate, 0, 0, 0⟩⟩

lemma small_answers : smallOpening.Answers := ⟨rfl, rfl, rfl, rfl, rfl⟩

/-- The image for it: the second patch and the configuration. -/
def smallImage : Bytes :=
  smallFirmware.versioned ⟨2, [6, 7, 8, 9, 10, 11]⟩ ++ configFile smallConfig

lemma small_offers : Offers Vendor.initial smallEnv smallOpening smallImage (configFile smallConfig)
    ⟨0x04928002, true, true⟩ :=
  ⟨⟨rfl, rfl⟩, small_answers, rfl, (fun h => by cases h), by decide +kernel⟩

/-- A firmware for the 8723a, which is sent as it is, in two pieces with the configuration. -/
def twoPieceEnv : Env where
  files name :=
    if name = "rtl8723a_fw" then some (List.replicate 300 1)
    else if name = "rtl8723a_config" then some (configFile smallConfig)
    else none
  alloc := true
  xmit := true
  mallocs := true

def twoPieceOpening : Opening :=
  ⟨⟨hciVscH5Init, 0, 0, 0⟩, ⟨hciReadLmp, 0, 0, romLmp8723a⟩, ⟨hciVendorReadRtkRomVersion, 0, 1, 0⟩,
    ⟨hciVscUpdateBaudrate, 0, 0, 0⟩⟩

def twoPieceImage : Bytes := List.replicate 300 1 ++ configFile smallConfig

lemma twoPiece_offers : Offers Vendor.initial twoPieceEnv twoPieceOpening twoPieceImage
    (configFile smallConfig) ⟨0x04928002, true, true⟩ :=
  ⟨⟨rfl, rfl⟩, ⟨rfl, rfl, rfl, rfl, rfl⟩, rfl, fun _ => by decide, by decide +kernel⟩

/-- The answer to a packet, with an index and perhaps the mark of a last packet. -/
def answerOf (index : UInt8) : Env × Event := (twoPieceEnv, ⟨hciVscDownloadFwPatch, 0, index, 0⟩)

/-- With the mark in the answer to the second packet the image has arrived, and with the mark in the
first answer its second piece is missing. -/
theorem configuration_answered_marked :
    (∃ u, replies (Vendor.initial.hwConfigStart twoPieceEnv)
        (twoPieceOpening.events twoPieceEnv (configFile smallConfig) ++
          [answerOf 0, answerOf 0x81]) = some u ∧
      u.state = .idle ∧ completions u.log = [true] ∧ payload u.log = twoPieceImage) ∧
    ∃ u, replies (Vendor.initial.hwConfigStart twoPieceEnv)
        (twoPieceOpening.events twoPieceEnv (configFile smallConfig) ++ [answerOf 0x80]) = some u ∧
      u.state = .idle ∧ completions u.log = [true] ∧ payload u.log = twoPieceImage.take 252 := by
  have hanswers : ∀ indices : List UInt8, Answers (indices.map answerOf) := by
    intro indices p hp
    obtain ⟨index, -, rfl⟩ := List.mem_map.mp hp
    exact ⟨⟨rfl, rfl⟩, rfl⟩
  have hfits : twoPieceImage.length ≤
      252 * (129 - twoPieceOpening.commands ⟨0x04928002, true, true⟩) := by decide +kernel
  constructor
  · have hheld : held twoPieceImage (twoPieceOpening.commands ⟨0x04928002, true, true⟩)
        ([0, 0x81].map answerOf) = 1 := by decide +kernel
    have hanswered := (configuration_answered twoPiece_offers hfits (hanswers [0, 0x81])).2.1
    rw [hheld] at hanswered
    obtain ⟨u, hrun, hidle, -, hresults, hpayload⟩ := hanswered (by decide) (by decide)
    have hwhole : twoPieceImage.take (252 * (1 + 1)) = twoPieceImage :=
      List.take_of_length_le (by decide +kernel)
    exact ⟨u, hrun, hidle, hresults, hpayload.trans hwhole⟩
  · have hheld : held twoPieceImage (twoPieceOpening.commands ⟨0x04928002, true, true⟩)
        ([0x80].map answerOf) = 0 := by decide +kernel
    have hanswered := (configuration_answered twoPiece_offers hfits (hanswers [0x80])).2.1
    rw [hheld] at hanswered
    obtain ⟨u, hrun, hidle, -, hresults, hpayload⟩ := hanswered (by decide) (by decide)
    exact ⟨u, hrun, hidle, hresults, hpayload⟩

end Softwinner.Bluetooth
