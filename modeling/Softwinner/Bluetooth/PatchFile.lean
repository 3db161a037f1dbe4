import Softwinner.Framework.Wire

/-!
# The firmware files of the Bluetooth controller

What `HW_CFG_START` in `hw_config_cback` (`hardware.c` of the vendor library) makes of a firmware
file.  The file of the 8723a is the patch itself.  The files of the other controllers hold one
patch for each chip version: a signature, the version of the firmware and the number of patches,
three tables (chips, lengths, offsets), the patches, and an extension section that is read from
its end and names the project.  What is sent is the patch for the chip, its last four bytes
replaced by the version, and the configuration file behind it.

A file is in the front of a buffer that has room for the configuration behind it; these last bytes
are not set yet.  `none` is a read of a byte that is not set, or outside the buffer, or through a
pointer that is not set.
-/

namespace Softwinner.Bluetooth

open Framework

/-! ## The tables of the library -/

def romLmp8723a : ℕ := 0x1200
def romLmp8723b : ℕ := 0x8723
def romLmp8821a : ℕ := 0x8821
def romLmp8761a : ℕ := 0x8761

/-- `project_id`. -/
def projectId : List ℕ := [romLmp8723a, romLmp8723b, romLmp8821a, romLmp8761a]

/-- `patch_info`. -/
structure PatchInfo where
  prodId : ℕ
  patchName : String
  configName : String

/-- `patch_table`. -/
def patchTable : List PatchInfo :=
  [⟨romLmp8723a, "rtl8723a_fw", "rtl8723a_config"⟩,
    ⟨romLmp8723b, "rtl8723b_fw", "rtl8723b_config"⟩,
    ⟨romLmp8821a, "rtl8821a_fw", "rtl8821a_config"⟩,
    ⟨romLmp8761a, "rtl8761a_fw", "rtl8761a_config"⟩]

/-- The loop of `get_patch_entry`: an entry for the product 0 would end it, but the table has
none, so that it leaves the table for an unknown product. -/
def getPatchEntry (prodId : ℕ) : List PatchInfo → Option PatchInfo
  | [] => none
  | entry :: entries =>
    if prodId = entry.prodId then some entry
    else if entry.prodId = 0 then some entry
    else getPatchEntry prodId entries

/-- `RTK_EPATCH_SIGNATURE`. -/
def rtkEpatchSignature : Bytes := [0x52, 0x65, 0x61, 0x6C, 0x74, 0x65, 0x63, 0x68]

/-- `Extension_Section_SIGNATURE`. -/
def extensionSectionSignature : Bytes := [0x51, 0x04, 0xFD, 0x77]

/-! ## Reading a file -/

/-- What there is to download: nothing (`buf_len` is negative), nothing because the file is not the
right one (`need_download_fw` becomes 0), or the bytes of `buf`. -/
inductive Firmware
  | absent
  | refused
  | image (buf : Bytes)
deriving DecidableEq

/-- The loop over the extension section, for the first byte of the field with opcode 0.  `temp` goes
from the end to the front, so that it is the list of the bytes from there to the front; `behind` is
the number of bytes from `temp` to the end of the buffer, from which the field is copied. -/
def projectByte : ℕ → ℕ → Bytes → Option UInt8
  | fuel + 1, behind, opcode :: length :: data =>
    if opcode = 0 then
      if length.toNat = 0 ∨ behind + 2 < length.toNat then none else data.head?
    else
      match data.drop length.toNat with
      | [] => none
      | next :: rest =>
        if next = 0xFF then none
        else projectByte fuel (behind + 2 + length.toNat) (next :: rest)
  | _, _, _ => none

/-- `struct rtk_epatch_entry`, less the chip. -/
structure EpatchEntry where
  patchLength : ℕ
  startOffset : ℕ

/-- The loop for the entry of a chip, from the index `i` on; `current_entry` is not set when there
is none. -/
def epatchEntry (fw : Bytes) (total chip : ℕ) : ℕ → ℕ → Option EpatchEntry
  | 0, _ => none
  | left + 1, i => do
    let chipId ← fetchLe fw (14 + 2 * i) 2
    if chipId = chip then
      let patchLength ← fetchLe fw (14 + 2 * total + 2 * i) 2
      let startOffset ← fetchLe fw (14 + 4 * total + 4 * i) 4
      some ⟨patchLength, startOffset⟩
    else
      epatchEntry fw total chip left (i + 1)

/-- The patch for a chip, with the configuration behind it.  When there is no memory for them and
there is a configuration, it is copied to an address in front of the null pointer. -/
def epatchImage (fw : Bytes) (gEVersion : ℕ) (config : Bytes) (mallocs : Bool) :
    Option Firmware := do
  let fmVersion ← fetch fw 8 4
  let total ← fetchLe fw 12 2
  let entry ← epatchEntry fw total (gEVersion + 1) total 0
  if mallocs then
    let patch ← fetch fw entry.startOffset entry.patchLength
    let buf ← store patch (entry.patchLength - 4) fmVersion
    some (.image (buf ++ config))
  else if config = [] then
    some .absent
  else
    none

/-- The file of a controller other than the 8723a. -/
def multiEpatch (fw : Bytes) (lmpVersion gEVersion : ℕ) (config : Bytes) (mallocs : Bool) :
    Option Firmware :=
  if fw.length < 4 then
    none
  else if fw.drop (fw.length - 4) ≠ extensionSectionSignature then
    some .refused
  else do
    let data ← projectByte fw.length (5 + config.length) (fw.reverse.drop 4)
    let project ← projectId[data.toNat]?
    if lmpVersion ≠ project then
      some .refused
    else
      let signature ← fetch fw 0 8
      if signature ≠ rtkEpatchSignature then some .refused
      else epatchImage fw gEVersion config mallocs

/-- The file of the 8723a. -/
def singlePatch (fw config : Bytes) (mallocs : Bool) : Option Firmware := do
  let signature ← fetch fw 0 8
  if signature = rtkEpatchSignature then some .refused
  else if mallocs then some (.image (fw ++ config))
  else some .absent

/-! ## The format -/

structure Patch where
  chipId : ℕ
  data : Bytes

/-- A field of the extension section. -/
structure Field where
  opcode : UInt8
  data : Bytes

/-- A file with patches for chips; of several for one chip the first is taken.  The extension
section has the fields `skipped` behind the project and `others` in front of it. -/
structure EpatchFile where
  fmVersion : ℕ
  patches : List Patch
  others : List Field
  project : UInt8
  skipped : List Field

/-- A field is read from its last byte. -/
def Field.encode (f : Field) : Bytes := f.data ++ [UInt8.ofNat f.data.length, f.opcode]

/-- Patches with the offsets where they start. -/
def locate : ℕ → List Patch → List (Patch × ℕ)
  | _, [] => []
  | off, p :: ps => (p, off) :: locate (off + p.data.length) ps

namespace EpatchFile

variable (f : EpatchFile)

/-- The patches follow the header and the tables. -/
def located : List (Patch × ℕ) := locate (14 + 8 * f.patches.length) f.patches

def header : Bytes :=
  rtkEpatchSignature ++ (toLe 4 f.fmVersion ++ (toLe 2 f.patches.length ++ []))

def tables : Bytes :=
  table 2 (f.located.map fun q => q.1.chipId) ++
    (table 2 (f.located.map fun q => q.1.data.length) ++ (table 4 (f.located.map Prod.snd) ++ []))

def extension : Bytes :=
  0xFF :: (f.others.flatMap Field.encode ++
    (Field.encode ⟨0, [f.project]⟩ ++ f.skipped.flatMap Field.encode))

def encode : Bytes :=
  f.header ++ (f.tables ++ (f.patches.flatMap Patch.data ++
    (f.extension ++ extensionSectionSignature)))

structure WellFormed : Prop where
  fmVersion_lt : f.fmVersion < 2 ^ 32
  total_lt : f.patches.length < 2 ^ 16
  chipId_lt : ∀ p ∈ f.patches, p.chipId < 2 ^ 16
  length_lt : ∀ p ∈ f.patches, p.data.length < 2 ^ 16
  offset_lt : ∀ q ∈ f.located, q.2 < 2 ^ 32
  opcode_ne : ∀ g ∈ f.skipped, g.opcode ≠ 0 ∧ g.opcode ≠ 0xFF
  field_lt : ∀ g ∈ f.skipped, g.data.length < 2 ^ 8

end EpatchFile

/-! ## The extension section -/

lemma Field.reverse_encode (g : Field) :
    g.encode.reverse = g.opcode :: UInt8.ofNat g.data.length :: g.data.reverse := by
  rw [Field.encode, List.reverse_append]
  rfl

lemma projectByte_skip {g : Field} {next : UInt8} {rest : Bytes} {fuel behind : ℕ}
    (hzero : g.opcode ≠ 0) (hnext : next ≠ 0xFF) (hlen : g.data.length < 2 ^ 8) :
    projectByte (fuel + 1) behind (g.encode.reverse ++ next :: rest) =
      projectByte fuel (behind + 2 + g.data.length) (next :: rest) := by
  have hdrop : (g.data.reverse ++ next :: rest).drop g.data.length = next :: rest := by
    rw [← List.length_reverse, List.drop_left]
  rw [g.reverse_encode]
  simp only [List.cons_append, projectByte, if_neg hzero, UInt8.toNat_ofNat',
    Nat.mod_eq_of_lt hlen, hdrop, if_neg hnext]

/-- The fields in front of the project, from the end, are skipped. -/
lemma projectByte_fields {project : UInt8} {rest : Bytes} {gs : List Field}
    (hop : ∀ g ∈ gs, g.opcode ≠ 0 ∧ g.opcode ≠ 0xFF)
    (hlen : ∀ g ∈ gs, g.data.length < 2 ^ 8) :
    ∀ {fuel behind : ℕ}, gs.length < fuel →
      projectByte fuel behind
        (gs.flatMap (fun g => g.encode.reverse) ++ 0 :: 1 :: project :: rest) = some project := by
  induction gs with
  | nil =>
    intro fuel behind hfuel
    obtain ⟨fuel, rfl⟩ := Nat.exists_eq_succ_of_ne_zero (Nat.ne_of_gt hfuel)
    have hcopy : ¬ ((1 : UInt8).toNat = 0 ∨ behind + 2 < (1 : UInt8).toNat) := by
      rw [show (1 : UInt8).toNat = 1 from rfl]
      omega
    simp only [List.flatMap_nil, List.nil_append, projectByte, if_true, if_neg hcopy,
      List.head?_cons]
  | cons g gs ih =>
    intro fuel behind hfuel
    obtain ⟨fuel, rfl⟩ := Nat.exists_eq_succ_of_ne_zero (Nat.ne_of_gt (Nat.zero_lt_of_lt hfuel))
    have ih := @ih (fun g hg => hop g (List.mem_cons_of_mem _ hg))
      (fun g hg => hlen g (List.mem_cons_of_mem _ hg)) fuel (behind + 2 + g.data.length)
      (Nat.lt_of_succ_lt_succ hfuel)
    obtain ⟨next, tail, htail, hnext⟩ : ∃ next tail, gs.flatMap (fun g => g.encode.reverse) ++
        0 :: 1 :: project :: rest = next :: tail ∧ next ≠ 0xFF := by
      cases gs with
      | nil => exact ⟨0, 1 :: project :: rest, rfl, by decide⟩
      | cons g' gs =>
        refine ⟨g'.opcode, UInt8.ofNat g'.data.length :: (g'.data.reverse ++
          (gs.flatMap (fun g => g.encode.reverse) ++ 0 :: 1 :: project :: rest)), ?_,
          (hop g' (by simp)).2⟩
        rw [List.flatMap_cons, g'.reverse_encode, List.append_assoc]
        rfl
    rw [List.flatMap_cons, List.append_assoc, htail,
      projectByte_skip (hop g List.mem_cons_self).1 hnext (hlen g List.mem_cons_self), ← htail, ih]

namespace EpatchFile

variable {f : EpatchFile}

lemma drop_encode : f.encode.drop (f.encode.length - 4) = extensionSectionSignature := by
  have hsplit : f.encode = (f.header ++ f.tables ++ f.patches.flatMap Patch.data ++ f.extension) ++
      extensionSectionSignature := by
    simp only [encode, List.append_assoc]
  rw [hsplit, List.length_append]
  exact List.drop_left' rfl

lemma projectByte_encode (hf : f.WellFormed) (behind : ℕ) :
    projectByte f.encode.length behind (f.encode.reverse.drop 4) = some f.project := by
  have hsplit : f.encode.reverse.drop 4 =
      f.skipped.reverse.flatMap (fun g => g.encode.reverse) ++ 0 :: 1 :: f.project ::
        ((f.others.flatMap Field.encode).reverse ++ [0xFF] ++
          (f.header ++ (f.tables ++ f.patches.flatMap Patch.data)).reverse) := by
    have hsig : extensionSectionSignature.reverse.length = 4 := rfl
    have hproject : (Field.encode ⟨0, [f.project]⟩).reverse = [0, 1, f.project] := rfl
    have hskipped : (f.skipped.flatMap Field.encode).reverse =
        f.skipped.reverse.flatMap fun g => g.encode.reverse := List.reverse_flatMap ..
    simp only [encode, List.reverse_append, List.append_assoc]
    rw [List.drop_left' hsig]
    simp only [extension, List.reverse_cons, List.reverse_append, hproject, hskipped,
      List.append_assoc, List.cons_append, List.nil_append]
  have hshort : f.skipped.reverse.length < f.encode.length := by
    have hfields : f.skipped.length ≤ (f.skipped.flatMap Field.encode).length := by
      induction f.skipped with
      | nil => exact Nat.le_refl _
      | cons g gs ih =>
        rw [List.flatMap_cons, List.length_append, List.length_cons, Field.encode,
          List.length_append, List.length_cons]
        omega
    simp only [encode, extension, List.length_append, List.length_cons, List.length_reverse]
    omega
  rw [hsplit]
  exact projectByte_fields (fun g hg => hf.opcode_ne g (List.mem_reverse.mp hg))
    (fun g hg => hf.field_lt g (List.mem_reverse.mp hg)) hshort

end EpatchFile

/-! ## The patch for a chip -/

section Located

variable {ps : List Patch}

lemma length_locate (off : ℕ) : (locate off ps).length = ps.length := by
  induction ps generalizing off with
  | nil => rfl
  | cons p ps ih => rw [locate, List.length_cons, List.length_cons, ih]

lemma fst_mem_of_mem_locate {off : ℕ} {q : Patch × ℕ} (hq : q ∈ locate off ps) : q.1 ∈ ps := by
  induction ps generalizing off with
  | nil => exact absurd hq List.not_mem_nil
  | cons p ps ih =>
    rcases List.mem_cons.mp hq with rfl | hq
    · exact List.mem_cons_self
    · exact List.mem_cons_of_mem _ (ih hq)

/-- The data of a patch is where its offset says. -/
lemma fetch_locate {pre post : Bytes} {off : ℕ} {q : Patch × ℕ} (hoff : pre.length = off)
    (hq : q ∈ locate off ps) :
    fetch (pre ++ (ps.flatMap Patch.data ++ post)) q.2 q.1.data.length = some q.1.data := by
  induction ps generalizing off pre with
  | nil => exact absurd hq List.not_mem_nil
  | cons p ps ih =>
    rw [List.flatMap_cons, List.append_assoc]
    rcases List.mem_cons.mp hq with rfl | hq
    · exact fetch_middle hoff rfl
    · rw [← List.append_assoc]
      exact ih (by rw [List.length_append, hoff]) hq

/-- The first patch for a chip. -/
def patchFor (chip : ℕ) (ps : List Patch) : Option Patch := ps.find? fun p => p.chipId = chip

lemma find_locate (chip off : ℕ) :
    ((locate off ps).find? fun q => q.1.chipId = chip).map Prod.fst = patchFor chip ps := by
  induction ps generalizing off with
  | nil => rfl
  | cons p ps ih =>
    rw [locate, patchFor, List.find?_cons, List.find?_cons]
    cases decide (p.chipId = chip) with
    | true => rfl
    | false => exact ih _

end Located

namespace EpatchFile

variable {f : EpatchFile}

@[simp] lemma length_located : f.located.length = f.patches.length := length_locate _

@[simp] lemma length_header : f.header.length = 14 := by
  simp only [header, List.length_append, length_toLe, List.length_nil]
  rfl

/-- The three entries for the patch with index `i`. -/
lemma fetchLe_tables (hf : f.WellFormed) {i : ℕ} {q : Patch × ℕ} (hq : f.located[i]? = some q) :
    fetchLe f.encode (14 + 2 * i) 2 = some q.1.chipId ∧
      fetchLe f.encode (14 + 2 * f.patches.length + 2 * i) 2 = some q.1.data.length ∧
      fetchLe f.encode (14 + 4 * f.patches.length + 4 * i) 4 = some q.2 := by
  have hget : ∀ g : Patch × ℕ → ℕ, (f.located.map g)[i]? = some (g q) := fun g => by
    rw [List.getElem?_map, hq, Option.map_some]
  have hsmall : ∀ (g : Patch × ℕ → ℕ) (m : ℕ), (∀ q ∈ f.located, g q < m) →
      ∀ v ∈ f.located.map g, v < m := by
    intro g m hall v hv
    obtain ⟨q, hq, rfl⟩ := List.mem_map.mp hv
    exact hall q hq
  refine ⟨?_, ?_, ?_⟩
  · rw [encode, tables, List.append_assoc]
    exact fetchLe_table length_header
      (hsmall _ _ fun q hq => hf.chipId_lt _ (fst_mem_of_mem_locate hq)) (hget _)
  · rw [encode, tables, List.append_assoc, List.append_assoc, ← List.append_assoc f.header]
    refine fetchLe_table ?_
      (hsmall _ _ fun q hq => hf.length_lt _ (fst_mem_of_mem_locate hq)) (hget _)
    rw [List.length_append, length_header, length_table, List.length_map, length_located]
  · rw [encode, tables, List.append_assoc, List.append_assoc, List.append_assoc,
      ← List.append_assoc f.header, ← List.append_assoc (f.header ++ _)]
    refine fetchLe_table ?_ (hsmall _ _ hf.offset_lt) (hget _)
    simp only [List.length_append, length_header, length_table, List.length_map, length_located]
    omega

/-- The loop finds the first entry of the chip. -/
lemma epatchEntry_encode (hf : f.WellFormed) (chip : ℕ) :
    ∀ {left i : ℕ}, i + left = f.patches.length →
      epatchEntry f.encode f.patches.length chip left i =
        ((f.located.drop i).find? fun q => q.1.chipId = chip).map
          fun q => ⟨q.1.data.length, q.2⟩ := by
  intro left
  induction left with
  | zero =>
    intro i hi
    rw [List.drop_eq_nil_of_le (by rw [length_located]; omega)]
    rfl
  | succ left ih =>
    intro i hi
    have hlt : i < f.located.length := by
      rw [length_located]
      omega
    obtain ⟨hchip, hlen, hoff⟩ := fetchLe_tables hf (List.getElem?_eq_getElem hlt)
    rw [List.drop_eq_getElem_cons hlt, List.find?_cons, epatchEntry]
    simp only [hchip, hlen, hoff, Option.bind_eq_bind, Option.bind_some]
    by_cases heq : f.located[i].1.chipId = chip
    · simp only [heq, if_true, decide_true, Option.map_some]
    · rw [if_neg heq, ih (by omega)]
      simp only [decide_eq_false heq]

/-- What the code makes of a file: the patch whose chip is the version plus one, with the version
of the firmware over its last four bytes, and the configuration behind it. -/
lemma epatchImage_encode (hf : f.WellFormed) (gEVersion : ℕ) (config : Bytes) :
    epatchImage f.encode gEVersion config true =
      (patchFor (gEVersion + 1) f.patches).bind fun p =>
        if p.data.length < 4 then none
        else some (.image (p.data.take (p.data.length - 4) ++ toLe 4 f.fmVersion ++ config)) := by
  have hversion : fetch f.encode 8 4 = some (toLe 4 f.fmVersion) := by
    rw [encode, header, List.append_assoc, List.append_assoc]
    exact fetch_middle rfl (length_toLe 4 _)
  have htotal : fetchLe f.encode 12 2 = some f.patches.length := by
    rw [encode, header, List.append_assoc, List.append_assoc, ← List.append_assoc,
      List.append_assoc (toLe 2 _)]
    exact fetchLe_middle rfl hf.total_lt
  have hentry := epatchEntry_encode hf (gEVersion + 1) (Nat.zero_add f.patches.length)
  rw [List.drop_zero] at hentry
  have hfind : (f.located.find? fun q => q.1.chipId = gEVersion + 1).map Prod.fst =
      patchFor (gEVersion + 1) f.patches := find_locate _ _
  rw [epatchImage]
  simp only [hversion, htotal, hentry, Option.bind_eq_bind, Option.bind_some, if_true]
  rw [← hfind]
  cases hq : f.located.find? fun q => q.1.chipId = gEVersion + 1 with
  | none => rfl
  | some q =>
    have hmem := List.mem_of_find?_eq_some hq
    have hpatch : fetch f.encode q.2 q.1.data.length = some q.1.data := by
      rw [encode, ← List.append_assoc]
      refine fetch_locate ?_ hmem
      simp only [tables, List.length_append, length_header, length_table, List.length_map,
        length_located, List.length_nil]
      omega
    simp only [Option.map_some, Option.bind_some, hpatch]
    unfold store
    rw [length_toLe]
    by_cases hshort : q.1.data.length < 4
    · rw [if_neg (by omega), if_pos hshort]
      rfl
    · rw [if_pos (by omega), if_neg hshort, Option.bind_some]
      congr 2
      rw [patch, length_toLe, List.drop_eq_nil_of_le (by omega), List.append_nil]

/-- What the code makes of a file for several chips. -/
lemma multiEpatch_encode (hf : f.WellFormed) (lmpVersion gEVersion : ℕ) (config : Bytes) :
    multiEpatch f.encode lmpVersion gEVersion config true =
      projectId[f.project.toNat]?.bind fun project =>
        if lmpVersion ≠ project then some .refused
        else (patchFor (gEVersion + 1) f.patches).bind fun p =>
          if p.data.length < 4 then none
          else some (.image (p.data.take (p.data.length - 4) ++ toLe 4 f.fmVersion ++ config)) := by
  have hsig : fetch f.encode 0 8 = some rtkEpatchSignature := by
    rw [encode, header, List.append_assoc]
    exact fetch_front rfl
  have hlong : ¬ f.encode.length < 4 := by
    rw [encode, List.length_append, length_header]
    omega
  simp only [multiEpatch, if_neg hlong, drop_encode, ne_eq, not_true_eq_false, if_false,
    projectByte_encode hf, Option.bind_eq_bind, Option.bind_some, hsig, epatchImage_encode hf]

/-- The patch with the version of the firmware over its last four bytes. -/
def versioned (f : EpatchFile) (p : Patch) : Bytes :=
  p.data.take (p.data.length - 4) ++ toLe 4 f.fmVersion

/-- The three outcomes of a file for several chips.  The project is the first one from the end,
whatever other fields there are.  A file for another project is refused; of one for the controller
exactly the first patch for its chip is taken; and a project that the library does not know, a file
without a patch for the chip, or a patch shorter than the version makes the code read something
that is not set, or write in front of the image. -/
theorem multiEpatch_outcome (f : EpatchFile) (hf : f.WellFormed) (lmpVersion gEVersion : ℕ)
    (config : Bytes) :
    (multiEpatch f.encode lmpVersion gEVersion config true = some .refused ↔
        ∃ project, projectId[f.project.toNat]? = some project ∧ lmpVersion ≠ project) ∧
      (∀ buf, multiEpatch f.encode lmpVersion gEVersion config true = some (.image buf) ↔
        projectId[f.project.toNat]? = some lmpVersion ∧
        ∃ p, patchFor (gEVersion + 1) f.patches = some p ∧ 4 ≤ p.data.length ∧
          buf = f.versioned p ++ config) ∧
      (multiEpatch f.encode lmpVersion gEVersion config true = none ↔
        projectId[f.project.toNat]? = none ∨ projectId[f.project.toNat]? = some lmpVersion ∧
          ∀ p, patchFor (gEVersion + 1) f.patches = some p → p.data.length < 4) := by
  rw [multiEpatch_encode hf]
  cases hproject : projectId[f.project.toNat]? with
  | none => simp
  | some project =>
    rw [Option.bind_some]
    by_cases heq : lmpVersion = project
    · subst heq
      rw [if_neg (by simp)]
      cases hpatch : patchFor (gEVersion + 1) f.patches with
      | none => simp
      | some p =>
        rw [Option.bind_some]
        by_cases hshort : p.data.length < 4
        · simp [hshort]
        · simp [hshort, versioned, eq_comm, Nat.le_of_not_lt hshort]
    · rw [if_pos heq]
      simp [heq, eq_comm]

end EpatchFile

/-- A file with the patches of two chips. -/
def smallFirmware : EpatchFile where
  fmVersion := 0x01020304
  patches := [⟨1, [1, 2, 3, 4, 5]⟩, ⟨2, [6, 7, 8, 9, 10, 11]⟩]
  others := []
  project := 1
  skipped := [⟨2, [7, 7]⟩]

lemma smallFirmware_wellFormed : smallFirmware.WellFormed :=
  ⟨by decide, by decide, by decide, by decide, by decide, by decide, by decide⟩

theorem multiEpatch_smallFirmware :
    multiEpatch smallFirmware.encode romLmp8723b 1 [0xAA] true =
      some (.image ([6, 7] ++ toLe 4 0x01020304 ++ [0xAA])) :=
  ((smallFirmware.multiEpatch_outcome smallFirmware_wellFormed romLmp8723b 1 [0xAA]).2.1 _).mpr
    ⟨rfl, ⟨2, [6, 7, 8, 9, 10, 11]⟩, rfl, by decide, rfl⟩

end Softwinner.Bluetooth
