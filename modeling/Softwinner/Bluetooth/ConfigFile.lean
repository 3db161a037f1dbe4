import Softwinner.Framework.Wire

/-!
# The vendor configuration file

`rtk_parse_config_file` of the Bluetooth vendor library's `hardware.c`.  A file is a header
(`RTK_VENDOR_CONFIG_MAGIC` and the length of what follows) and entries, each an offset, a length
and data; the entry with offset `0xc` has the baud rate of the controller and, from its thirteenth
byte, the hardware flow control.

A pointer to an entry is the part of the file from there on, and a read behind the file gives
`none`.  Nothing outside the entry's own data should be read; `rtkParseConfigFile_isSome_iff` and
`rtkParseConfigFile_configFile` say when the code keeps to the file, and what it finds then.
-/

namespace Softwinner.Bluetooth

open Framework

/-- `RTK_VENDOR_CONFIG_MAGIC`. -/
def rtkVendorConfigMagic : ℕ := 0x8723ab55

/-- The baud rate that the file sets, and the two globals beside it. -/
structure Settings where
  baudrate : ℕ
  gNeedToSetHWFlowControl : Bool
  gHwFlowControlEnable : Bool
deriving DecidableEq

/-- `case 0xc`.  The byte `entry_data[12]` is printed whatever the length is. -/
def baudEntry (entry : Bytes) (entryLen : ℕ) (s : Settings) : Option Settings := do
  let baudrate ← fetchLe entry 3 4
  let byte ← fetchLe entry 15 1
  if 12 ≤ entryLen then
    some ⟨baudrate, true, decide (byte &&& 0x4 ≠ 0)⟩
  else
    some { s with baudrate := baudrate, gNeedToSetHWFlowControl := false }

/-- The loop over the entries, with `left` bytes to go.  Every turn takes at least three of them,
so that `left` is enough fuel. -/
def parseEntries : ℕ → ℕ → Bytes → Settings → Option Settings
  | _, 0, _, s => some s
  | 0, _ + 1, _, _ => none
  | fuel + 1, left + 1, entry, s => do
    let offset ← fetchLe entry 0 2
    let entryLen ← fetchLe entry 2 1
    let s ← if offset = 0xc then baudEntry entry entryLen s else some s
    parseEntries fuel (left + 1 - (entryLen + 3)) (entry.drop (entryLen + 3)) s

def rtkParseConfigFile (config : Bytes) (s : Settings) : Option Settings := do
  let signature ← fetchLe config 0 4
  let dataLen ← fetchLe config 4 2
  if signature ≠ rtkVendorConfigMagic then
    some { s with baudrate := 0 }
  else if dataLen ≠ config.length - 6 then
    some { s with baudrate := 0 }
  else
    parseEntries dataLen dataLen (config.drop 6) { s with baudrate := 0 }

/-! ## The format -/

/-- `struct rtk_bt_vendor_config_entry`. -/
structure Entry where
  offset : ℕ
  data : Bytes

structure Entry.WellFormed (e : Entry) : Prop where
  offset_lt : e.offset < 2 ^ 16
  length_lt : e.data.length < 2 ^ 8

def Entry.encode (e : Entry) : Bytes := toLe 2 e.offset ++ (toLe 1 e.data.length ++ e.data)

def encodeEntries (es : List Entry) : Bytes := es.flatMap Entry.encode

/-- A file with these entries. -/
def configFile (es : List Entry) : Bytes :=
  toLe 4 rtkVendorConfigMagic ++ (toLe 2 (encodeEntries es).length ++ encodeEntries es)

/-- What an entry says whose data is long enough to have all of it. -/
def Entry.settings (e : Entry) : Settings :=
  ⟨ofLe (slice e.data 0 4), true, decide (ofLe (slice e.data 12 1) &&& 0x4 ≠ 0)⟩

/-- The last entry for the baud rate. -/
def lastBaud (es : List Entry) : Option Entry := (es.filter (·.offset = 0xc)).getLast?

/-- Thirteen bytes of the file follow the header of every entry for the baud rate. -/
def Covered : List Entry → Prop
  | [] => True
  | e :: es =>
    (e.offset = 0xc → 13 ≤ e.data.length + (encodeEntries es).length) ∧ Covered es

/-! ## One entry -/

@[simp] lemma Entry.length_encode (e : Entry) : e.encode.length = e.data.length + 3 := by
  simp only [Entry.encode, List.length_append, length_toLe]
  omega

lemma encodeEntries_cons (e : Entry) (es : List Entry) :
    encodeEntries (e :: es) = e.encode ++ encodeEntries es := rfl

lemma length_encodeEntries_cons (e : Entry) (es : List Entry) :
    (encodeEntries (e :: es)).length = e.data.length + 3 + (encodeEntries es).length := by
  rw [encodeEntries_cons, List.length_append, Entry.length_encode]

lemma configFile_ne_nil (es : List Entry) : configFile es ≠ [] := by
  intro h
  have hlen := congrArg List.length h
  rw [configFile, List.length_append, length_toLe, List.length_nil] at hlen
  omega

/-- What the header of an entry has in front of it. -/
lemma Entry.encode_append (e : Entry) (post : Bytes) :
    e.encode ++ post = (toLe 2 e.offset ++ toLe 1 e.data.length) ++ (e.data ++ post) := by
  simp only [Entry.encode, List.append_assoc]

lemma fetchLe_data (e : Entry) (post : Bytes) (off n : ℕ) :
    fetchLe (e.encode ++ post) (3 + off) n = fetchLe (e.data ++ post) off n := by
  rw [e.encode_append]
  exact fetchLe_append (toLe 2 e.offset ++ toLe 1 e.data.length) (e.data ++ post) off n

section Turn

variable {e : Entry} {es : List Entry} {s : Settings} {fuel : ℕ}

/-- The turn of the loop for one entry. -/
lemma parseEntries_cons (he : e.WellFormed) :
    parseEntries (fuel + 1) (encodeEntries (e :: es)).length (encodeEntries (e :: es)) s =
      (if e.offset = 0xc then baudEntry (e.encode ++ encodeEntries es) e.data.length s
        else some s).bind
      fun s => parseEntries fuel (encodeEntries es).length (encodeEntries es) s := by
  have hoff : fetchLe (e.encode ++ encodeEntries es) 0 2 = some e.offset := by
    rw [Entry.encode, List.append_assoc]
    exact fetchLe_front he.offset_lt
  have hlen : fetchLe (e.encode ++ encodeEntries es) 2 1 = some e.data.length := by
    rw [Entry.encode, List.append_assoc, List.append_assoc]
    exact fetchLe_middle (length_toLe 2 _) he.length_lt
  have hleft : (encodeEntries (e :: es)).length =
      (e.data.length + 2 + (encodeEntries es).length) + 1 := by
    rw [length_encodeEntries_cons]
    omega
  have hdrop : (e.encode ++ encodeEntries es).drop (e.data.length + 3) = encodeEntries es := by
    rw [← e.length_encode, List.drop_left]
  have hrest : e.data.length + 2 + (encodeEntries es).length + 1 - (e.data.length + 3) =
      (encodeEntries es).length := by omega
  rw [hleft, encodeEntries_cons, parseEntries]
  simp only [hoff, hlen, Option.bind_eq_bind, Option.bind_some, hdrop, hrest]
  split_ifs <;> rfl

lemma baudEntry_isSome_iff :
    (baudEntry (e.encode ++ encodeEntries es) e.data.length s).isSome ↔
      13 ≤ e.data.length + (encodeEntries es).length := by
  have hread : ∀ off n, (fetchLe (e.encode ++ encodeEntries es) (3 + off) n).isSome ↔
      off + n ≤ e.data.length + (encodeEntries es).length := by
    intro off n
    rw [fetchLe_data, fetchLe, Option.isSome_map, fetch_isSome_iff, List.length_append]
  have h4 := hread 0 4
  have h13 := hread 12 1
  unfold baudEntry
  constructor
  · intro h
    refine h13.mp ?_
    cases hbyte : fetchLe (e.encode ++ encodeEntries es) (3 + 12) 1 with
    | some byte => rfl
    | none =>
      simp only [Option.bind_eq_bind, hbyte, Option.bind_none, Option.bind_fun_none] at h
      exact absurd h Bool.false_ne_true
  · intro h
    obtain ⟨baudrate, hbaud⟩ := Option.isSome_iff_exists.mp (h4.mpr (by omega))
    obtain ⟨byte, hbyte⟩ := Option.isSome_iff_exists.mp (h13.mpr h)
    simp only [Nat.add_zero, Nat.reduceAdd] at hbaud hbyte
    simp only [Option.bind_eq_bind, hbaud, hbyte, Option.bind_some]
    split_ifs <;> rfl

/-- An entry with all of its data is read from its own data. -/
lemma baudEntry_of_le (h : 13 ≤ e.data.length) :
    baudEntry (e.encode ++ encodeEntries es) e.data.length s = some e.settings := by
  have hread : ∀ off n, off + n ≤ 13 →
      fetchLe (e.encode ++ encodeEntries es) (3 + off) n = some (ofLe (slice e.data off n)) := by
    intro off n hle
    rw [fetchLe_data, fetchLe, fetch_append_left (by omega), fetch_eq_some (by omega),
      Option.map_some]
  have hbaud := hread 0 4 (by omega)
  have hbyte := hread 12 1 (by omega)
  simp only [Nat.add_zero, Nat.reduceAdd] at hbaud hbyte
  simp only [baudEntry, Option.bind_eq_bind, hbaud, hbyte, Option.bind_some,
    if_pos (show 12 ≤ e.data.length by omega)]
  rfl

end Turn

/-! ## All entries -/

section File

variable {es : List Entry} {s : Settings}

lemma parseEntries_isSome_iff (hall : ∀ e ∈ es, e.WellFormed) :
    ∀ {fuel : ℕ} {s : Settings}, (encodeEntries es).length ≤ fuel →
      ((parseEntries fuel (encodeEntries es).length (encodeEntries es) s).isSome ↔ Covered es) := by
  induction es with
  | nil =>
    intro fuel s _
    cases fuel <;> exact iff_of_true rfl trivial
  | cons e es ih =>
    intro fuel s hfuel
    have hlen := length_encodeEntries_cons e es
    obtain ⟨fuel, rfl⟩ := Nat.exists_eq_succ_of_ne_zero (show fuel ≠ 0 by omega)
    have ih := @ih (fun e he => hall e (List.mem_cons_of_mem _ he)) fuel
    rw [parseEntries_cons (hall e List.mem_cons_self)]
    split_ifs with hbaud
    · rw [Covered, ← baudEntry_isSome_iff (s := s)]
      cases hentry : baudEntry (e.encode ++ encodeEntries es) e.data.length s with
      | none => exact iff_of_false Bool.false_ne_true fun h => Bool.false_ne_true (h.1 hbaud)
      | some s' =>
        rw [Option.bind_some, ih (by omega)]
        exact ⟨fun h => ⟨fun _ => rfl, h⟩, And.right⟩
    · rw [Option.bind_some, ih (by omega)]
      exact ⟨fun h => ⟨fun h0 => absurd h0 hbaud, h⟩, And.right⟩

lemma lastBaud_cons_getD (e : Entry) (s : Settings) :
    ((lastBaud (e :: es)).elim s Entry.settings) =
      (lastBaud es).elim (if e.offset = 0xc then e.settings else s) Entry.settings := by
  unfold lastBaud
  by_cases hbaud : e.offset = 0xc
  · rw [List.filter_cons_of_pos (by simpa using hbaud), if_pos hbaud, List.getLast?_cons]
    cases (es.filter (·.offset = 0xc)).getLast? <;> rfl
  · rw [List.filter_cons_of_neg (by simpa using hbaud), if_neg hbaud]

lemma parseEntries_eq (hall : ∀ e ∈ es, e.WellFormed)
    (hlong : ∀ e ∈ es, e.offset = 0xc → 13 ≤ e.data.length) :
    ∀ {fuel : ℕ} {s : Settings}, (encodeEntries es).length ≤ fuel →
      parseEntries fuel (encodeEntries es).length (encodeEntries es) s =
        some ((lastBaud es).elim s Entry.settings) := by
  induction es with
  | nil =>
    intro fuel s _
    cases fuel <;> rfl
  | cons e es ih =>
    intro fuel s hfuel
    have hlen := length_encodeEntries_cons e es
    obtain ⟨fuel, rfl⟩ := Nat.exists_eq_succ_of_ne_zero (show fuel ≠ 0 by omega)
    have ih := @ih (fun e he => hall e (List.mem_cons_of_mem _ he))
      (fun e he => hlong e (List.mem_cons_of_mem _ he)) fuel
    have hentry : (if e.offset = 0xc then baudEntry (e.encode ++ encodeEntries es) e.data.length s
        else some s) = some (if e.offset = 0xc then e.settings else s) := by
      split_ifs with hbaud
      · exact baudEntry_of_le (hlong e List.mem_cons_self hbaud)
      · rfl
    rw [parseEntries_cons (hall e List.mem_cons_self), hentry, Option.bind_some, ih (by omega),
      lastBaud_cons_getD]

/-- The header of a file is accepted, and the loop starts at its entries. -/
lemma rtkParseConfigFile_eq (hlen : (encodeEntries es).length < 2 ^ 16) :
    rtkParseConfigFile (configFile es) s =
      parseEntries (encodeEntries es).length (encodeEntries es).length (encodeEntries es)
        { s with baudrate := 0 } := by
  have hsig : fetchLe (configFile es) 0 4 = some rtkVendorConfigMagic := by
    rw [configFile]
    exact fetchLe_front (by unfold rtkVendorConfigMagic; omega)
  have hdata : fetchLe (configFile es) 4 2 = some (encodeEntries es).length := by
    rw [configFile]
    exact fetchLe_middle (length_toLe 4 _) hlen
  have hsize : (configFile es).length - 6 = (encodeEntries es).length := by
    simp only [configFile, List.length_append, length_toLe]
    omega
  have hdrop : (configFile es).drop 6 = encodeEntries es := by
    rw [configFile, ← List.append_assoc]
    exact List.drop_left' (by simp only [List.length_append, length_toLe])
  simp only [rtkParseConfigFile, hsig, hdata, Option.bind_eq_bind, Option.bind_some, ne_eq,
    not_true_eq_false, if_false, hsize, hdrop]

lemma rtkParseConfigFile_last (hall : ∀ e ∈ es, e.WellFormed)
    (hlen : (encodeEntries es).length < 2 ^ 16)
    (hlong : ∀ e ∈ es, e.offset = 0xc → 13 ≤ e.data.length) :
    rtkParseConfigFile (configFile es) s =
      some ((lastBaud es).elim { s with baudrate := 0 } Entry.settings) := by
  rw [rtkParseConfigFile_eq hlen]
  exact parseEntries_eq hall hlong (Nat.le_refl _)

/-- The code reads only bytes of the file if and only if thirteen bytes of it follow the header of
every entry for the baud rate, and then, when these are the entry's own, the last such entry has
set everything: the three settings come from its data alone. -/
theorem rtkParseConfigFile_configFile (es : List Entry) (s : Settings)
    (hall : ∀ e ∈ es, e.WellFormed) (hlen : (encodeEntries es).length < 2 ^ 16) :
    ((rtkParseConfigFile (configFile es) s).isSome ↔ Covered es) ∧
      ((∀ e ∈ es, e.offset = 0xc → 13 ≤ e.data.length) →
        rtkParseConfigFile (configFile es) s =
          some ((lastBaud es).elim { s with baudrate := 0 } Entry.settings)) := by
  refine ⟨?_, rtkParseConfigFile_last hall hlen⟩
  rw [rtkParseConfigFile_eq hlen]
  exact parseEntries_isSome_iff hall (Nat.le_refl _)

end File

/-- A configuration with a baud rate. -/
def smallConfig : List Entry :=
  [⟨0x3c, [1, 2]⟩, ⟨0xc, [0x02, 0x80, 0x92, 0x04, 0, 0, 0, 0, 0, 0, 0, 0, 4]⟩]

lemma smallConfig_wellFormed : ∀ e ∈ smallConfig, e.WellFormed := by
  have hall : ∀ e ∈ smallConfig, e.offset < 2 ^ 16 ∧ e.data.length < 2 ^ 8 := by decide
  exact fun e he => ⟨(hall e he).1, (hall e he).2⟩

theorem rtkParseConfigFile_smallConfig :
    rtkParseConfigFile (configFile smallConfig) ⟨0, false, true⟩ =
      some ⟨0x04928002, true, true⟩ :=
  (rtkParseConfigFile_configFile smallConfig ⟨0, false, true⟩ smallConfig_wellFormed
    (by decide)).2 (by decide)

end Softwinner.Bluetooth
