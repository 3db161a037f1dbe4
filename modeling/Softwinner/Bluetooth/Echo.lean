import Softwinner.Bluetooth.Delivery

/-!
# A controller that answers with the index

The controller answers every packet with its index, and nothing is lost.  `delivers_iff` says which
images it gets.  That an image which fits arrives is the plan of `Transfer`, packet after packet.
For the converse no plan is needed: in a download that ends, the answers have run through the
indices up to the last one, so that no more bytes have been sent than an image that fits can have
(`Echoing`).
-/

namespace Softwinner.Bluetooth

open Framework Transfer Vendor

/-- The answer to a download command, with an index. -/
def answer (index : UInt8) : Event := ⟨hciVscDownloadFwPatch, 0, index, 0⟩

/-- `n` answers, each with the index of the last packet. -/
def echoes (env : Env) : ℕ → Vendor → Option Vendor
  | 0, v => some v
  | n + 1, v => do
    let p ← (packets v.log).getLast?
    let v ← step v (env, .reply (answer p.1))
    echoes env n v

section Echoes

variable {v : Vendor} {env : Env} {image : Bytes} {commands i n : ℕ}

lemma echoes_succ {p : UInt8 × Bytes} (hlast : (packets v.log).getLast? = some p) :
    echoes env (n + 1) v = (step v (env, .reply (answer p.1))).bind (echoes env n) := by
  simp only [echoes, hlast, Option.bind_eq_bind, Option.bind_some]

/-! ## An image that fits -/

/-- The index of a packet ends the download if and only if it is the last one. -/
lemma ends_indexByte (env : Env) (h : Planned image commands) (hi : i ≤ lastPacket image commands) :
    EndsWith image commands (env, answer (indexByte image commands i)) ↔
      i = lastPacket image commands := by
  obtain ⟨-, hsum, -⟩ := lastPacket_bounds h
  have hleast := h.least
  have hindex := toNat_indexByte image commands (show i < 128 by omega)
  show (indexByte image commands i &&& 0x80 ≠ 0 ∨
    indexByte image commands i = (start image commands).iTotalIndex) ↔ _
  rw [and_80_ne_zero, ← UInt8.toNat_inj, iTotalIndex_start h, hindex]
  split_ifs with hlt
  · constructor
    · rintro (hle | heq) <;> omega
    · intro heq
      omega
  · exact iff_of_true (Or.inl (by omega)) (by omega)

/-- From the packet `i` on, the rest of the image arrives. -/
lemma echoes_complete (h : Planned image commands) (henv : env.Serves) (left : ℕ) :
    ∀ {i : ℕ} {v : Vendor}, i + left = lastPacket image commands → Downloading image commands i v →
      (packets v.log).getLast? = some (packet image commands i) →
      ∃ u, echoes env (left + 1) v = some u ∧ u.state = .idle ∧
        Adds v.log u.log ((List.range left).map fun j => packet image commands (i + 1 + j))
          [true] := by
  have hbound := (lastPacket_bounds h).2.1
  have hleast := h.least
  induction left with
  | zero =>
    intro i v hi hv hlast
    obtain ⟨u, hstep, hstate, hadds⟩ := step_ends
      (p := (env, answer (indexByte image commands i))) hv henv rfl
      ((ends_indexByte env h (by omega)).mpr (by omega))
    refine ⟨u, ?_, hstate, hadds⟩
    rw [echoes_succ hlast]
    show (step v (env, .reply (answer (indexByte image commands i)))).bind _ = _
    rw [hstep]
    rfl
  | succ left ih =>
    intro i v hi hv hlast
    obtain ⟨u, hstep, hu, hadds⟩ := step_continues
      (p := (env, answer (indexByte image commands i))) h (by omega) hv henv rfl
      (mt (ends_indexByte env h (by omega)).mp (by omega))
    obtain ⟨u', hrun, hstate, hadds'⟩ := ih (by omega) hu
      (by rw [hadds.packets, List.getLast?_concat])
    refine ⟨u', ?_, hstate, ?_⟩
    · rw [echoes_succ hlast]
      show (step v (env, .reply (answer (indexByte image commands i)))).bind _ = _
      rw [hstep, Option.bind_some, hrun]
    · rw [map_range_succ]
      exact hadds.trans hadds'

/-! ## Any image -/

/-- The index of the `n`-th packet, counted from 1.  If the last index has seven bits, the indices
run up to it; otherwise none is the last one, nor marked. -/
def Reaches (commands n : ℕ) (iTotalIndex iCurIndex : UInt8) : Prop :=
  if iTotalIndex.toNat + commands ≤ 128 then
    iCurIndex.toNat + 1 = n ∧ n ≤ iTotalIndex.toNat ∨
      Ends iTotalIndex iCurIndex ∧ n = iTotalIndex.toNat + 1
  else iCurIndex.toNat < 128

/-- The `n`-th packet has been sent, each with at most 252 bytes. -/
structure Echoing (image : Bytes) (commands : ℕ) (sent : ℕ) (n : ℕ) (v : Vendor) : Prop where
  state : v.state = .dlFwPatch
  pending : v.pending = some (.hwConfigCback, hciVscDownloadFwPatch)
  iTotalIndex : v.transfer.iTotalIndex = (start image commands).iTotalIndex
  iLastPacketLen : v.transfer.iLastPacketLen.toNat ≤ 252
  last : ∃ data, (packets v.log).getLast? = some (v.transfer.iCurIndex, data)
  payload : (payload v.log).length ≤ sent + 252 * n
  reaches : Reaches commands n v.transfer.iTotalIndex v.transfer.iCurIndex

lemma iTotalIndex_mod (image : Bytes) (commands : ℕ) :
    ((start image commands).iTotalIndex.toNat + commands) % 8 = 0 := by
  have hpad : (iAdditionPkt (start image commands).iEndIndex commands).toNat =
      (8 - ((start image commands).iEndIndex.toNat + commands) % 8) % 8 := by
    unfold iAdditionPkt
    split_ifs with hmod
    · rw [UInt8.toNat_ofNat']
      omega
    · rw [show (0 : UInt8).toNat = 0 from rfl]
      omega
  have hsum : (start image commands).iTotalIndex.toNat =
      ((iAdditionPkt (start image commands).iEndIndex commands).toNat +
        (start image commands).iEndIndex.toNat) % 2 ^ 8 := UInt8.toNat_add ..
  rw [hsum, hpad]
  omega

/-- An index loses its mark, or gets it when the packet is the last one or behind it. -/
lemma next_index (t : Transfer) :
    t.next.1.iTotalIndex = t.iTotalIndex ∧ t.next.1.iLastPacketLen = t.iLastPacketLen ∧
      (t.next.1.iCurIndex = t.iCurIndex &&& 0x7F ∨
        t.next.1.iCurIndex = t.iCurIndex ||| 0x80 ∧ t.iTotalIndex.toNat ≤ t.iCurIndex.toNat) := by
  unfold next
  split_ifs with hend hlast hfinal hbefore
  · exact ⟨rfl, rfl, Or.inl rfl⟩
  · exact ⟨rfl, rfl, Or.inr ⟨rfl, Nat.le_of_eq (congrArg UInt8.toNat hfinal.symm)⟩⟩
  · exact ⟨rfl, rfl, Or.inl rfl⟩
  · exact ⟨rfl, rfl, Or.inl rfl⟩
  · exact ⟨rfl, rfl, Or.inr ⟨rfl, Nat.le_of_not_lt (mt UInt8.lt_iff_toNat_lt.mpr hbefore)⟩⟩

lemma length_read {t : Transfer} {data : Bytes} (hlast : t.iLastPacketLen.toNat ≤ 252)
    (h : t.next.1.read t.next.2 = some data) : data.length ≤ 252 := by
  have hread : data.length ≤ t.next.2.toNat := by
    unfold Transfer.read at h
    split at h
    · exact Nat.le_of_eq (length_of_fetch h)
    · split_ifs at h
      rw [← Option.some.inj h]
      exact Nat.zero_le _
  refine Nat.le_trans hread ?_
  unfold next
  split_ifs
  · exact Nat.le_refl _
  · exact hlast
  · exact hlast
  · exact Nat.zero_le _
  · exact Nat.zero_le _

variable {sent : ℕ}

lemma reaches_next {t : Transfer} (hmod : (t.iTotalIndex.toNat + commands) % 8 = 0)
    (hlow : 2 ≤ commands) (hhigh : commands ≤ 4)
    (hcur : t.iCurIndex.toNat ≤ 128 ∧
      (t.iTotalIndex.toNat + commands ≤ 128 → t.iCurIndex.toNat = n ∧ n ≤ t.iTotalIndex.toNat)) :
    Reaches commands (n + 1) t.iTotalIndex t.next.1.iCurIndex := by
  obtain ⟨-, -, hindex⟩ := next_index t
  unfold Reaches
  split_ifs with hfits
  · obtain ⟨heq, hle⟩ := hcur.2 hfits
    rcases hindex with hindex | ⟨hindex, htotal⟩
    · have hnat : t.next.1.iCurIndex.toNat = n := by
        rw [hindex, toNat_and_7F, heq]
        omega
      by_cases hlt : n < t.iTotalIndex.toNat
      · exact Or.inl ⟨by omega, hlt⟩
      · refine Or.inr ⟨Or.inr ?_, by omega⟩
        rw [← UInt8.toNat_inj]
        omega
    · refine Or.inr ⟨Or.inl ?_, by omega⟩
      rw [and_80_ne_zero, hindex, toNat_or_80]
      split_ifs <;> omega
  · rcases hindex with hindex | ⟨hindex, htotal⟩
    · rw [hindex, toNat_and_7F]
      omega
    · omega

/-- An answer either ends the download, with the last index behind it, or brings a packet. -/
lemma step_echo (henv : env.Serves) (hlow : 2 ≤ commands) (hhigh : commands ≤ 4)
    (hv : Echoing image commands sent n v) {u : Vendor}
    (hstep : step v (env, .reply (answer v.transfer.iCurIndex)) = some u) :
    Echoing image commands sent (n + 1) u ∨
      u.pending = none ∧ (payload u.log).length ≤ sent + 252 * (129 - commands) := by
  have hmod := iTotalIndex_mod image commands
  rw [← hv.iTotalIndex] at hmod
  have hreach := hv.reaches
  rw [step_download henv hv.state hv.pending rfl] at hstep
  split_ifs at hstep with hends
  · right
    have hcount : n = v.transfer.iTotalIndex.toNat + 1 ∧
        v.transfer.iTotalIndex.toNat + commands ≤ 128 := by
      unfold Reaches at hreach
      unfold Ends at hends
      rw [and_80_ne_zero, ← UInt8.toNat_inj] at hends
      simp only [answer] at hends
      split_ifs at hreach with hfits
      · rcases hreach with ⟨hcur, hle⟩ | ⟨-, hn⟩
        · omega
        · exact ⟨hn, hfits⟩
      · omega
    rw [← Option.some.inj hstep]
    refine ⟨rfl, ?_⟩
    have hsame : payload (v.log ++ [.alloc, .deallocCommand, .fwcfg true, .deallocEvent]) =
        payload v.log := by
      rw [payload, packets_append]
      exact congrArg (List.flatMap Prod.snd) (List.append_nil _)
    rw [hsame]
    have hlen := hv.payload
    omega
  · left
    obtain ⟨data, hread, hu⟩ := Option.map_eq_some_iff.mp hstep
    have hlen := length_read (t := v.transfer.acked) hv.iLastPacketLen hread
    obtain ⟨htotal, hlast, -⟩ := next_index v.transfer.acked
    have hpackets : packets u.log =
        packets v.log ++ [(v.transfer.acked.next.1.iCurIndex, data)] := by
      rw [← hu]
      exact (adds_callLog _ _ (by omega)).packets
    have hcur : (v.transfer.acked).iCurIndex.toNat = (v.transfer.iCurIndex.toNat + 1) % 256 :=
      toNat_add_one _
    have hnext := reaches_next (t := v.transfer.acked) (n := n) hmod hlow hhigh ?_
    · subst hu
      refine ⟨hv.state, rfl, htotal.trans hv.iTotalIndex, ?_, ⟨data, ?_⟩, ?_, ?_⟩
      · show (v.transfer.acked.next.1.iLastPacketLen).toNat ≤ 252
        rw [hlast]
        exact hv.iLastPacketLen
      · rw [hpackets, List.getLast?_concat]
      · have hold := hv.payload
        rw [payload, hpackets, List.flatMap_append, List.length_append, List.flatMap_singleton]
        show (payload v.log).length + data.length ≤ sent + 252 * (n + 1)
        omega
      · show Reaches commands (n + 1) v.transfer.acked.next.1.iTotalIndex _
        rw [htotal]
        exact hnext
    · unfold Reaches at hreach
      unfold Ends at hends
      rw [not_or, and_80_ne_zero, ← UInt8.toNat_inj] at hends
      simp only [answer] at hends
      have hsame : v.transfer.acked.iTotalIndex = v.transfer.iTotalIndex := rfl
      rw [hcur, hsame]
      refine ⟨by omega, fun hfits => ?_⟩
      rw [if_pos hfits] at hreach
      rcases hreach with ⟨hn, hle⟩ | ⟨hbad, -⟩
      · omega
      · unfold Ends at hbad
        rw [and_80_ne_zero, ← UInt8.toNat_inj] at hbad
        omega

/-- In a download that ends, no more bytes have been sent than an image that fits can have. -/
lemma payload_of_ended (henv : env.Serves) (hlow : 2 ≤ commands) (hhigh : commands ≤ 4) {m : ℕ} :
    ∀ {n : ℕ} {v u : Vendor}, Echoing image commands sent n v → echoes env m v = some u →
      u.state = .idle → (payload u.log).length ≤ sent + 252 * (129 - commands) := by
  induction m with
  | zero =>
    intro n v u hv hrun hidle
    rw [← Option.some.inj hrun, hv.state] at hidle
    cases hidle
  | succ m ih =>
    intro n v u hv hrun hidle
    obtain ⟨data, hlast⟩ := hv.last
    rw [echoes_succ hlast] at hrun
    obtain ⟨w, hstep, hrest⟩ := Option.bind_eq_some_iff.mp hrun
    rcases step_echo henv hlow hhigh hv hstep with hw | ⟨hpending, hlen⟩
    · exact ih hw hrest hidle
    · cases m with
      | zero =>
        rw [← Option.some.inj hrest]
        exact hlen
      | succ m =>
        simp only [echoes, Option.bind_eq_bind, Option.bind_eq_some_iff] at hrest
        obtain ⟨p, -, w', hstep', -⟩ := hrest
        simp only [step, hpending] at hstep'
        cases hstep'

end Echoes

/-! ## Both together -/

section Session

variable {v : Vendor} {env : Env} {o : Opening} {image config : Bytes} {settings : Settings}

lemma echoing_of_opening (h : Offers v env o image config settings) {w : Vendor}
    (hopen : replies (v.hwConfigStart env) (o.events env config) = some w) :
    Echoing image (o.commands settings) (payload v.log).length 1 w := by
  obtain ⟨u, hrun, hopened, htransfer, -⟩ := replies_opening h.serves h.answers h.need
    (loadFiles_ne_nil h.files) h.configured h.files
  obtain ⟨hlow, hhigh⟩ := countedCommands_bounds o.lmp.lmp settings.baudrate
  have hstart : u.transfer = start image (o.commands settings) := htransfer
  have hmod := iTotalIndex_mod image (o.commands settings)
  have hlen252 : (start image (o.commands settings)).iLastPacketLen.toNat ≤ 252 := by
    show (if UInt8.ofNat (image.length % 252) = 0 then UInt8.ofNat 252
      else UInt8.ofNat (image.length % 252)).toNat ≤ 252
    split_ifs
    · exact Nat.le_refl _
    · rw [UInt8.toNat_ofNat']
      omega
  rw [hrun, sendPacket_eq h.serves, hstart, Option.map_map, Option.map_eq_some_iff] at hopen
  obtain ⟨data, hread, rfl⟩ := hopen
  obtain ⟨htotal, hlast, -⟩ := next_index (start image (o.commands settings))
  have hlen := length_read hlen252 hread
  have hpackets : packets (u.log ++ packetLog u.settings
      (start image (o.commands settings)).next.1.iCurIndex data ++ [.deallocEvent]) =
      packets v.log ++ [((start image (o.commands settings)).next.1.iCurIndex, data)] := by
    rw [← hopened.packets]
    exact ((adds_packetLog _ _ (by omega)).trans (adds_deallocEvent _)).packets
  refine ⟨rfl, rfl, htotal, ?_, ⟨data, ?_⟩, ?_, ?_⟩
  · show (start image (o.commands settings)).next.1.iLastPacketLen.toNat ≤ 252
    rw [hlast]
    exact hlen252
  · exact (congrArg List.getLast? hpackets).trans List.getLast?_concat
  · show (List.flatMap Prod.snd (packets (u.log ++ packetLog u.settings _ data ++
      [.deallocEvent]))).length ≤ _
    rw [hpackets, List.flatMap_append, List.length_append, List.flatMap_singleton]
    show (payload v.log).length + data.length ≤ (payload v.log).length + 252 * 1
    omega
  · show Reaches (o.commands settings) 1 (start image (o.commands settings)).next.1.iTotalIndex _
    rw [htotal]
    exact reaches_next hmod hlow hhigh ⟨Nat.zero_le 128, fun _ => ⟨rfl, Nat.zero_le _⟩⟩

/-- An image that fits arrives, in one packet for each index up to the last one. -/
lemma Offers.echoed (h : Offers v env o image config settings)
    (hplan : Planned image (o.commands settings)) :
    ∃ w n u log, replies (v.hwConfigStart env) (o.events env config) = some w ∧
      echoes env n w = some u ∧ u.state = .idle ∧ Opened o config settings v log ∧
      Adds log u.log ((List.range (lastPacket image (o.commands settings) + 1)).map
        (packet image (o.commands settings))) [true] := by
  obtain ⟨w, hopen, hw, log, hopened, hadds⟩ := h.opened hplan
  obtain ⟨u, hrun, hidle, hadds'⟩ := echoes_complete hplan h.serves
    (lastPacket image (o.commands settings)) (Nat.zero_add _) hw
    (by rw [hadds.packets, List.getLast?_concat])
  have hall := map_range_succ (packet image (o.commands settings)) 0
    (lastPacket image (o.commands settings))
  simp only [Nat.zero_add] at hall hadds'
  have hboth := hadds.trans hadds'
  rw [List.singleton_append, ← hall, List.nil_append] at hboth
  exact ⟨w, _, u, log, hopen, hrun, hidle, hopened, hboth⟩

lemma payload_echoed
    (hplan : Planned image (o.commands settings)) {log log' : List Effect}
    (hopened : Opened o config settings v log)
    (hadds : Adds log log' ((List.range (lastPacket image (o.commands settings) + 1)).map
      (packet image (o.commands settings))) [true]) :
    payload log' = payload v.log ++ image := by
  have hlast := (lastPacket_bounds hplan).1
  have hlong := (length_bounds hplan).2
  rw [payload, hadds.packets, hopened.packets, List.flatMap_append, flatMap_packets,
    List.take_of_length_le (by omega)]
  rfl

lemma Offers.length_le (h : Offers v env o image config settings) {w u : Vendor} {n : ℕ}
    (hopen : replies (v.hwConfigStart env) (o.events env config) = some w)
    (hrun : echoes env n w = some u) (hidle : u.state = .idle)
    (hpayload : payload u.log = payload v.log ++ image) :
    image.length ≤ 252 * (129 - o.commands settings) := by
  obtain ⟨hlow, hhigh⟩ := countedCommands_bounds o.lmp.lmp settings.baudrate
  have hlen := payload_of_ended h.serves hlow hhigh (echoing_of_opening h hopen) hrun hidle
  rw [hpayload, List.length_append] at hlen
  exact Nat.le_of_add_le_add_left hlen

lemma Offers.delivered (h : Offers v env o image config settings)
    (hfits : image.length ≤ 252 * (129 - o.commands settings)) :
    ∃ w n u, replies (v.hwConfigStart env) (o.events env config) = some w ∧
      echoes env n w = some u ∧ u.state = .idle ∧
      payload u.log = payload v.log ++ image ∧ completions u.log = completions v.log ++ [true] := by
  have hplan := h.planned hfits
  obtain ⟨w, n, u, log, hopen, hrun, hidle, hopened, hadds⟩ := h.echoed hplan
  exact ⟨w, n, u, hopen, hrun, hidle, payload_echoed hplan hopened hadds,
    by rw [hadds.completions, hopened.completions]⟩

/-- The controller gets the image if and only if it fits: 252 bytes for each of the packets that
the seven bits of an index and the other commands leave.  A larger image is cut off with a report of
success, or its download does not end. -/
theorem delivers_iff (h : Offers v env o image config settings) :
    (∃ w n u, replies (v.hwConfigStart env) (o.events env config) = some w ∧
      echoes env n w = some u ∧ u.state = .idle ∧
      payload u.log = payload v.log ++ image ∧ completions u.log = completions v.log ++ [true]) ↔
      image.length ≤ 252 * (129 - o.commands settings) :=
  ⟨fun ⟨_, _, _, hopen, hrun, hidle, hpayload, _⟩ => h.length_le hopen hrun hidle hpayload,
    h.delivered⟩

/-! ## The commands of a configuration -/

lemma baudrate_eq_zero {v : Vendor} (hconfig : config = [])
    (h : v.loadFiles env = some (.image image, config, settings)) : settings.baudrate = 0 := by
  subst hconfig
  unfold loadFiles at h
  simp only [Option.bind_eq_bind, Option.bind_eq_some_iff] at h
  obtain ⟨entry, -, ⟨config', settings'⟩, hconfig, firmware, -, h⟩ := h
  cases h
  unfold rtkGetBtConfig at hconfig
  split at hconfig
  · cases hconfig
    rfl
  · -- an empty file does not have the header
    obtain ⟨settings', hparse, heq⟩ := Option.map_eq_some_iff.mp hconfig
    rw [(Prod.mk.inj heq).1] at hparse
    cases hparse

/-- The commands of the opening and the packets. -/
lemma Offers.length_codes (h : Offers v env o image config settings)
    (hplan : Planned image (o.commands settings)) :
    ((o.codes config).length + (lastPacket image (o.commands settings) + 1)) % 8 = 1 ↔
      config = [] ∨ settings.baudrate ≠ 0 := by
  have hmod := (lastPacket_bounds hplan).2.2
  have hzero := fun hconfig => baudrate_eq_zero hconfig h.files
  have hlen : (o.codes config).length =
      2 + ((if o.lmp.lmp = romLmp8723a then 0 else 1) + if config = [] then 0 else 1) := by
    rw [Opening.codes, List.length_append, List.length_append]
    split_ifs <;> rfl
  have hcount : o.commands settings = 2 + ((if o.lmp.lmp = romLmp8723a then 0 else 1) +
      if settings.baudrate = 0 then 0 else 1) := by
    unfold Opening.commands countedCommands
    by_cases hlmp : o.lmp.lmp = romLmp8723a <;> by_cases hbaud : settings.baudrate = 0 <;>
      simp [hlmp, hbaud]
  rw [hlen]
  rw [hcount] at hmod ⊢
  by_cases hconfig : config = []
  · rw [if_pos (hzero hconfig)] at hmod ⊢
    rw [if_pos hconfig]
    exact iff_of_true (by omega) (Or.inl hconfig)
  · rw [if_neg hconfig]
    by_cases hbaud : settings.baudrate = 0
    · rw [if_pos hbaud] at hmod ⊢
      exact iff_of_false (by omega) fun hor => hor.elim hconfig fun hne => hne hbaud
    · rw [if_neg hbaud] at hmod ⊢
      exact iff_of_true (by omega) (Or.inr hbaud)

/-- The padding packets bring the number of commands behind the first one to a multiple of eight,
unless there is a configuration file without a baud rate: the library changes the baud rate all the
same, and has not counted that command.  With a configuration file the host's port is set once, to
the speed of the controller's code if and only if that is not one of the two codes for 3.5 Mbit/s;
for these it is set to 115200. -/
theorem configuration_commands (h : Offers v env o image config settings)
    (hfits : image.length ≤ 252 * (129 - o.commands settings)) :
    ∃ w n u codes, replies (v.hwConfigStart env) (o.events env config) = some w ∧
      echoes env n w = some u ∧ u.state = .idle ∧
      commandCodes u.log = commandCodes v.log ++ codes ∧
      (codes.length % 8 = 1 ↔ config = [] ∨ settings.baudrate ≠ 0) ∧
      hostSpeeds u.log = hostSpeeds v.log ++
        (if config = [] then [] else [hostSpeed settings.baudrate]) ∧
      (hostSpeed settings.baudrate = rtkSpeedToUartSpeed settings.baudrate ↔
        settings.baudrate ≠ 0x7001 ∧ settings.baudrate ≠ 0x052A6001) ∧
      (settings.baudrate = 0x7001 ∨ settings.baudrate = 0x052A6001 →
        hostSpeed settings.baudrate = 115200) := by
  have hplan := h.planned hfits
  obtain ⟨w, n, u, log, hopen, hrun, hidle, hopened, hadds⟩ := h.echoed hplan
  have hcodes : commandCodes u.log = commandCodes v.log ++ (o.codes config ++
      List.replicate (lastPacket image (o.commands settings) + 1) hciVscDownloadFwPatch) := by
    rw [hadds.commandCodes, hopened.commandCodes, List.append_assoc, List.length_map,
      List.length_range]
  refine ⟨w, n, u, _, hopen, hrun, hidle, hcodes, ?_, hadds.hostSpeeds.trans hopened.hostSpeeds,
    hostSpeed_eq_iff _, ?_⟩
  · rw [List.length_append, List.length_replicate]
    exact h.length_codes hplan
  · rintro (hcode | hcode)
    · rw [hcode]
      rfl
    · rw [hcode]
      rfl

end Session

theorem delivers_iff_small :
    ∃ w n u, replies (Vendor.initial.hwConfigStart smallEnv)
        (smallOpening.events smallEnv (configFile smallConfig)) = some w ∧
      echoes smallEnv n w = some u ∧ u.state = .idle ∧ payload u.log = smallImage ∧
      completions u.log = [true] :=
  (delivers_iff small_offers).mpr (by decide)

theorem configuration_commands_small :
    ∃ w n u codes, replies (Vendor.initial.hwConfigStart smallEnv)
        (smallOpening.events smallEnv (configFile smallConfig)) = some w ∧
      echoes smallEnv n w = some u ∧ u.state = .idle ∧ commandCodes u.log = codes ∧
      codes.length % 8 = 1 ∧ hostSpeeds u.log = [1500000] := by
  obtain ⟨w, n, u, codes, hopen, hrun, hidle, hcodes, hmod, hspeeds, -⟩ :=
    configuration_commands small_offers (by decide)
  rw [if_neg (configFile_ne_nil smallConfig)] at hspeeds
  exact ⟨w, n, u, codes, hopen, hrun, hidle, hcodes, hmod.mpr (Or.inr (by decide)), hspeeds⟩

end Softwinner.Bluetooth
