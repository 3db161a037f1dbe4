import Mathlib.Data.Int.Notation
import Softwinner.Framework.Bytes
import Softwinner.Framework.Prog

/-!
# The flash layer of the secure store

The lower half of `libsec_storage/secure_storage.c`: the process globals and the devices the
library works on, the system calls it makes (`Op`, `perform`), and the functions that move
4096-byte items between memory and flash, from `getInfoFromCmdline` up to
`sunxi_secstorage_write`.

A system call is one operation.  Its `Choice` says whether it succeeds and, when it does not,
what it leaves behind: a failed write has stored its first `cut` bytes.  Memory the C code
does not initialise before use is an operation too (`Op.uninit`), so its contents are chosen
by the environment.  `open`, `lseek` and `read` (or `write`) on the eMMC device are folded
into one operation: every one of their failures takes the same `return -1`.

On eMMC each item has two copies, `copy0` and `copy1`.  The functions keep the source's
return codes (`0`, `-1`, and `1` or `2` where the map is read); a function that fills a
caller's buffer returns the code together with the buffer.

`crc32` is zlib's and is a parameter: the code only relies on it being a function of the
bytes.
-/

namespace Softwinner.SecureStorage

open Framework

/-! ## Constants

Constants and functions carry the source's names in camel case; the eMMC addresses and sizes
are in sectors, as there. -/

def secBlkSize : ℕ := 4096
def maxSecureStorageMaxItem : ℕ := 32
def storeObjectMagic : ℕ := 0x17253948
def storeWriteProtectMagic : ℕ := 0x8ad3820f
def sdmmcSectorSize : ℕ := 512
def sdmmcSecureStorageStartAdd : ℕ := 6 * 1024 * 1024 / 512
def sdmmcItemSize : ℕ := 4 * 1024 / 512
def flashTypeNand : ℤ := 0
def flashTypeSd1 : ℤ := 1
def flashTypeSd2 : ℤ := 2

-- `sizeof(store_object_t)`
def storeObjectSize : ℕ := 3176

/-! ## State and operations -/

/-- What the environment decides about one operation. -/
structure Choice where
  /-- The call succeeds. -/
  ok : Bool
  /-- How many bytes a failed write has stored. -/
  cut : ℕ
  /-- What uninitialised memory holds. -/
  junk : ℕ → UInt8
  /-- The code finds out that an access to the private partition has failed. -/
  seen : Bool

/-- The access does what it is asked for, or is reported to have failed. -/
def Choice.Reported (c : Choice) : Prop := c.ok = true ∨ c.seen = true

/-- The globals of `secure_storage.c` and the devices it works on. -/
structure Store where
  /-- `struct map_info`: `data[4088]`, `magic`, `crc`. -/
  secureStorageMap : Bytes
  secureStorageInited : Bool
  mapDirty : Bool
  flashBootType : ℤ
  /-- What `/proc/cmdline` holds. -/
  cmdline : Bytes
  /-- Whether `/dev/sunxi_soc_info` exists. -/
  socInfo : Bool
  /-- `/dev/block/mmcblk0`, byte by byte. -/
  emmc : Medium
  /-- The secure items of the NAND driver. -/
  nand : ℕ → Medium

/-- What the secure store does outside its own stack: accesses to its globals, and calls
into the system. -/
inductive Op
  | getInited
  | setInited (b : Bool)
  | getDirty
  | setDirty (b : Bool)
  | getMap
  | setMap (map : Bytes)
  | getBootType
  | setBootType (t : ℤ)
  | readCmdline
  | accessSocInfo
  | malloc
  | uninit (n : ℕ)
  | sdRead (offset len : ℕ)
  | sdWrite (offset : ℕ) (buf : Bytes)
  | nandRead (id len : ℕ)
  | nandWrite (id : ℕ) (buf : Bytes)
  | fault

/-- What each operation returns.  A system call that can fail returns an `Option` or a
`Bool`; `fault` is an access outside an object and does not return. -/
@[reducible] def Op.Res : Op → Type
  | .getInited => Bool
  | .setInited _ => Unit
  | .getDirty => Bool
  | .setDirty _ => Unit
  | .getMap => Bytes
  | .setMap _ => Unit
  | .getBootType => ℤ
  | .setBootType _ => Unit
  | .readCmdline => Option Bytes
  | .accessSocInfo => Bool
  | .malloc => Bool
  | .uninit _ => Bytes
  | .sdRead _ _ => Option Bytes
  | .sdWrite _ _ => Bool
  | .nandRead _ _ => Option Bytes
  | .nandWrite _ _ => Bool
  | .fault => Empty

/-- The programs of the secure store. -/
abbrev Sec := Prog Op Op.Res

/-- Perform one operation. -/
abbrev call (op : Op) : Sec op.Res := Prog.perform op

/-- An access that the object bounds decide: `none` is undefined behaviour. -/
def orFault {α : Type} : Option α → Sec α
  | some a => return a
  | none => do
    let e ← call .fault
    nomatch e

/-- What a write of `buf` stores. -/
def Choice.written (c : Choice) (buf : Bytes) : Bytes :=
  if c.ok then buf else buf.take c.cut

/-- The effect of each operation on the store. -/
def perform : Perform Op Op.Res Choice Store
  | .getInited, _, s => some (s.secureStorageInited, s)
  | .setInited b, _, s => some ((), { s with secureStorageInited := b })
  | .getDirty, _, s => some (s.mapDirty, s)
  | .setDirty b, _, s => some ((), { s with mapDirty := b })
  | .getMap, _, s => some (s.secureStorageMap, s)
  | .setMap map, _, s => some ((), { s with secureStorageMap := map })
  | .getBootType, _, s => some (s.flashBootType, s)
  | .setBootType t, _, s => some ((), { s with flashBootType := t })
  | .readCmdline, c, s => some (if c.ok then some (s.cmdline.take 1024) else none, s)
  | .accessSocInfo, _, s => some (s.socInfo, s)
  | .malloc, c, s => some (c.ok, s)
  | .uninit n, c, s => some ((List.range n).map c.junk, s)
  | .sdRead offset len, c, s =>
    some (if c.ok then some (pread s.emmc offset len) else none, s)
  | .sdWrite offset buf, c, s =>
    some (c.ok, { s with emmc := pwrite s.emmc offset (c.written buf) })
  | .nandRead id len, c, s =>
    some (if c.ok then some (pread (s.nand id) 0 len) else none, s)
  | .nandWrite id buf, c, s =>
    some (c.ok, { s with nand := fun i =>
      if i = id then pwrite (s.nand i) 0 (c.written buf) else s.nand i })
  | .fault, _, _ => none

/-! ## The boot device -/

/-- `atol` on the bytes of a string: blanks, a sign, digits.  The value saturates as
`strtol` on a 32-bit `long` does. -/
def atol (s : Bytes) : ℤ :=
  let s := s.dropWhile fun c => c == 32 || (9 ≤ c && c ≤ 13)
  let digits (t : Bytes) : ℕ :=
    (t.takeWhile fun c => 48 ≤ c && c ≤ 57).foldl (fun n c => 10 * n + (c.toNat - 48)) 0
  let v : ℤ :=
    match s with
    | 45 :: t => -digits t
    | 43 :: t => digits t
    | t => digits t
  max (-2 ^ 31) (min v (2 ^ 31 - 1))

-- `"boot_type="`
def bootTypeKey : Bytes := [98, 111, 111, 116, 95, 116, 121, 112, 101, 61]

/-- The search loop of `getInfoFromCmdline`: the byte behind the first occurrence of the
key that leaves room for one. -/
def findKey (key : Bytes) : Bytes → Option UInt8
  | [] => none
  | c :: line =>
    if (c :: line).length ≤ key.length then none
    else if (c :: line).take key.length = key then (c :: line)[key.length]?
    else findKey key line

def getInfoFromCmdline (key : Bytes) : Sec (Option UInt8) := do
  match ← call .readCmdline with
  | none => return none
  | some line => return findKey key line

def getFlashType : Sec ℤ := do
  match ← getInfoFromCmdline bootTypeKey with
  | none => return -1
  | some c =>
    call (.setBootType (atol [c]))
    return 0

/-! ## Checks on blocks -/

variable (crc32 : Bytes → UInt32)

@[irreducible] def checkSecureStorageKey (buffer : Bytes) : ℤ :=
  if u32 buffer 0 ≠ storeObjectMagic then -1
  else if u32 buffer 3172 ≠ (crc32 (buffer.take 3172)).toNat then -1
  else 0

@[irreducible] def checkSecureStorageMap (buffer : Bytes) : ℤ :=
  if u32 buffer 4088 ≠ storeObjectMagic then 2
  else if u32 buffer 4092 ≠ (crc32 (buffer.take 4092)).toNat then -1
  else 0

/-! ## NAND items -/

def nandRead (id : ℕ) (buf : Bytes) : Sec (ℤ × Bytes) := do
  if id > maxSecureStorageMaxItem then return (-1, buf)
  if !(← call .malloc) then return (-1, buf)
  match ← call (.nandRead id buf.length) with
  | none => return (-1, buf)
  | some data => return (0, data)

def nandWrite (id : ℕ) (buf : Bytes) : Sec ℤ := do
  if id > maxSecureStorageMaxItem then return -1
  if !(← call .malloc) then return -1
  if ← call (.nandWrite id buf) then return 0 else return -1

/-! ## eMMC items

The two copies of an item lie side by side; the byte addresses are those of the first copy
and of the backup. -/

def sdOffset (id : ℕ) : ℕ :=
  (sdmmcSecureStorageStartAdd + sdmmcItemSize * 2 * id) * sdmmcSectorSize

def sdBackupOffset (id : ℕ) : ℕ :=
  (sdmmcSecureStorageStartAdd + sdmmcItemSize * 2 * id + sdmmcItemSize) * sdmmcSectorSize

/-- The common body of `_sd_read` and `_sd_read_backup`. -/
def sdReadAt (offset id : ℕ) (buf : Bytes) : Sec (ℤ × Bytes) := do
  if id > maxSecureStorageMaxItem then return (-1, buf)
  if !(← call .malloc) then return (-1, buf)
  match ← call (.sdRead offset buf.length) with
  | none => return (-1, buf)
  | some data => return (0, data)

def sdRead (id : ℕ) (buf : Bytes) : Sec (ℤ × Bytes) := sdReadAt (sdOffset id) id buf

def sdReadBackup (id : ℕ) (buf : Bytes) : Sec (ℤ × Bytes) := sdReadAt (sdBackupOffset id) id buf

/-- `_sd_write`: the first copy, then the backup. -/
def sdWrite (id : ℕ) (buf : Bytes) : Sec ℤ := do
  if id > maxSecureStorageMaxItem then return -1
  if !(← call .malloc) then return -1
  if !(← call (.sdWrite (sdOffset id) buf)) then return -1
  if !(← call (.sdWrite (sdBackupOffset id) buf)) then return -1
  return 0

/-- The second half of `sd_read_key`: the backup. -/
def sdReadKeyBackup (id : ℕ) (buf : Bytes) : Sec (ℤ × Bytes) := do
  let (ret, buf) ← sdReadBackup id (zeros buf.length)
  if ret = 0 ∧ checkSecureStorageKey crc32 buf = 0 then return (0, buf)
  return (-1, buf)

def sdReadKey (id : ℕ) (buf : Bytes) : Sec (ℤ × Bytes) := do
  let (ret, buf) ← sdRead id buf
  if ret = 0 ∧ checkSecureStorageKey crc32 buf = 0 then return (0, buf)
  sdReadKeyBackup crc32 id buf

/-- The second half of `sd_read_map`: the backup, with what the first half left in
`have_map_copy0` and `map_copy0_buf`. -/
def sdReadMapBackup (id : ℕ) (buf : Bytes) (haveMapCopy0 : Bool) (mapCopy0Buf : Bytes) :
    Sec (ℤ × Bytes) := do
  let (ret, buf) ← sdReadBackup id (zeros buf.length)
  if ret ≠ 0 then return (-1, buf)
  if checkSecureStorageMap crc32 buf = 0 then return (0, buf)
  if checkSecureStorageMap crc32 buf = 2 then
    if haveMapCopy0 ∧ mapCopy0Buf = buf then return (0, buf)
    -- "copy0 != copy1, try to use copy0"
    return (1, mapCopy0Buf)
  return (1, buf)

/-- `sd_read_map`.  `have_map_copy0` and the buffer for the first copy are read
uninitialised unless the first copy was read and has a bad magic. -/
def sdReadMap (id : ℕ) (buf : Bytes) : Sec (ℤ × Bytes) := do
  let flag ← call (.uninit 4)
  if !(← call .malloc) then return (-1, buf)
  let mapCopy0Buf ← call (.uninit buf.length)
  let (ret, buf) ← sdRead id buf
  if ret = 0 ∧ checkSecureStorageMap crc32 buf = 0 then return (0, buf)
  if ret = 0 ∧ checkSecureStorageMap crc32 buf = 2 then sdReadMapBackup crc32 id buf true buf
  else sdReadMapBackup crc32 id buf (decide (u32 flag 0 ≠ 0)) mapCopy0Buf

/-! ## The selected device -/

def nvRead (id : ℕ) (buf : Bytes) : Sec (ℤ × Bytes) := do
  let t ← call .getBootType
  if t = flashTypeNand then nandRead id buf
  else if t = flashTypeSd1 ∨ t = flashTypeSd2 then
    if id = 0 then sdReadMap crc32 0 buf else sdReadKey crc32 id buf
  else return (-1, buf)

def nvWrite (id : ℕ) (buf : Bytes) : Sec ℤ := do
  let t ← call .getBootType
  if t = flashTypeNand then nandWrite id buf
  else if t = flashTypeSd1 ∨ t = flashTypeSd2 then sdWrite id buf
  else return -1

def sunxiSecstorageRead (item : ℕ) (buf : Bytes) : Sec (ℤ × Bytes) := nvRead crc32 item buf

def sunxiSecstorageWrite (item : ℕ) (buf : Bytes) : Sec ℤ := nvWrite item buf

/-! ## Specifications

Reads never change the store and writes change nothing but the flash, whatever fails; these
frame laws hold for every `Ok`.  The functional laws ask that the system calls they depend on
succeed; under `AllOk` every system call does. -/

/-- Every system call succeeds. -/
abbrev AllOk : Op → Choice → Store → Prop := fun _ c _ => c.ok = true

/-- Anything may happen. -/
abbrev AnyOk : Op → Choice → Store → Prop := fun _ _ _ => True

/-- Writes of item `id`, on either device. -/
def Op.stores (id : ℕ) : Op → Bool
  | .sdWrite offset _ => offset == sdOffset id || offset == sdBackupOffset id
  | .nandWrite i _ => i == id
  | _ => false

def Op.writes : Op → Bool
  | .sdWrite _ _ => true
  | .nandWrite _ _ => true
  | _ => false

/-- In `s`, nothing but a write may fail. -/
def ReadsOk (Ok : Op → Choice → Store → Prop) (s : Store) : Prop :=
  ∀ op c, Ok op c s → op.writes = false → c.ok = true

lemma readsOk_allOk (s : Store) : ReadsOk AllOk s := fun _ _ hc _ => hc

def copy0 (s : Store) (id : ℕ) : Bytes := pread s.emmc (sdOffset id) secBlkSize

def copy1 (s : Store) (id : ℕ) : Bytes := pread s.emmc (sdBackupOffset id) secBlkSize

def nandItem (s : Store) (id : ℕ) : Bytes := pread (s.nand id) 0 secBlkSize

@[simp] lemma length_copy0 (s : Store) (id : ℕ) : (copy0 s id).length = secBlkSize := by
  simp [copy0]

@[simp] lemma length_copy1 (s : Store) (id : ℕ) : (copy1 s id).length = secBlkSize := by
  simp [copy1]

@[simp] lemma length_nandItem (s : Store) (id : ℕ) : (nandItem s id).length = secBlkSize := by
  simp [nandItem]

section Spec

open Prog

variable {Ok : Op → Choice → Store → Prop} {h : Bool} {s : Store} {id : ℕ} {buf : Bytes}

lemma wp_sdReadAt {off : ℕ} {Q : ℤ × Bytes → Bool → Store → Prop} (hfail : Q (-1, buf) h s)
    (hok : Q (0, pread s.emmc off buf.length) h s) :
    wp perform Ok (sdReadAt off id buf) Q h s := by
  unfold sdReadAt
  split_ifs
  · exact hfail
  refine wp_step fun c _ => ⟨_, _, rfl, ?_⟩
  split_ifs
  · exact hfail
  refine wp_step fun c _ => ⟨_, _, rfl, ?_⟩
  cases c.ok with
  | false => exact hfail
  | true => exact hok

lemma wp_sdReadAt_ok {off : ℕ} {Q : ℤ × Bytes → Bool → Store → Prop} (hOk : ReadsOk Ok s)
    (hid : id ≤ maxSecureStorageMaxItem) (hok : Q (0, pread s.emmc off buf.length) h s) :
    wp perform Ok (sdReadAt off id buf) Q h s := by
  unfold sdReadAt
  rw [if_neg (by omega)]
  refine wp_step fun c hc => ⟨_, _, rfl, ?_⟩
  rw [hOk _ c hc rfl, if_neg (by simp)]
  refine wp_step fun c hc => ⟨_, _, rfl, ?_⟩
  rw [if_pos (hOk _ c hc rfl)]
  exact hok

lemma wp_sdRead_ok {Q : ℤ × Bytes → Bool → Store → Prop} (hOk : ReadsOk Ok s)
    (hid : id ≤ maxSecureStorageMaxItem) (hbuf : buf.length = secBlkSize) (hok : Q (0, copy0 s id) h s) :
    wp perform Ok (sdRead id buf) Q h s := by
  apply wp_sdReadAt_ok hOk hid
  rw [hbuf]
  exact hok

lemma wp_sdReadBackup_ok {Q : ℤ × Bytes → Bool → Store → Prop} (hOk : ReadsOk Ok s)
    (hid : id ≤ maxSecureStorageMaxItem) (hbuf : buf.length = secBlkSize)
    (hok : Q (0, copy1 s id) h s) :
    wp perform Ok (sdReadBackup id buf) Q h s := by
  apply wp_sdReadAt_ok hOk hid
  rw [hbuf]
  exact hok

/-- `sd_read_key` returns the first copy that passes the check. -/
lemma wp_sdReadKey_ok {Q : ℤ × Bytes → Bool → Store → Prop} (hOk : ReadsOk Ok s)
    (hid : id ≤ maxSecureStorageMaxItem) (hbuf : buf.length = secBlkSize)
    (h0 : checkSecureStorageKey crc32 (copy0 s id) = 0 → Q (0, copy0 s id) h s)
    (h1 : checkSecureStorageKey crc32 (copy0 s id) ≠ 0 →
      Q (if checkSecureStorageKey crc32 (copy1 s id) = 0 then 0 else -1, copy1 s id) h s) :
    wp perform Ok (sdReadKey crc32 id buf) Q h s := by
  unfold sdReadKey
  rw [wp_bind]
  apply wp_sdRead_ok hOk hid hbuf
  by_cases hc0 : checkSecureStorageKey crc32 (copy0 s id) = 0
  · simp only [hc0, and_self, if_true]
    exact h0 hc0
  · simp only [hc0, and_false, if_false]
    unfold sdReadKeyBackup
    rw [wp_bind]
    apply wp_sdReadBackup_ok hOk hid (by simp)
    have hQ := h1 hc0
    by_cases hc1 : checkSecureStorageKey crc32 (copy1 s id) = 0
    · simp only [hc1, if_true] at hQ
      simp only [hc1, and_self, if_true]
      exact hQ
    · simp only [hc1, if_false] at hQ
      simp only [hc1, and_false, if_false]
      exact hQ

/-- `sd_read_map` returns the first copy that passes the check; two equal copies with a bad
magic are accepted as they are. -/
lemma wp_sdReadMap_ok {Q : ℤ × Bytes → Bool → Store → Prop} (hOk : ReadsOk Ok s)
    (hid : id ≤ maxSecureStorageMaxItem) (hbuf : buf.length = secBlkSize)
    (hgood : checkSecureStorageMap crc32 (copy0 s id) = 0 ∨
      checkSecureStorageMap crc32 (copy1 s id) = 0 ∨
      (checkSecureStorageMap crc32 (copy0 s id) = 2 ∧ copy1 s id = copy0 s id))
    (h0 : checkSecureStorageMap crc32 (copy0 s id) = 0 → Q (0, copy0 s id) h s)
    (h1 : checkSecureStorageMap crc32 (copy0 s id) ≠ 0 → Q (0, copy1 s id) h s) :
    wp perform Ok (sdReadMap crc32 id buf) Q h s := by
  have hbackup : ∀ (have0 : Bool) (b0 b' : Bytes), b'.length = secBlkSize →
      checkSecureStorageMap crc32 (copy0 s id) ≠ 0 →
      (checkSecureStorageMap crc32 (copy1 s id) = 0 ∨
        (checkSecureStorageMap crc32 (copy1 s id) = 2 ∧ have0 = true ∧ b0 = copy1 s id)) →
      wp perform Ok (sdReadMapBackup crc32 id b' have0 b0) Q h s := by
    intro have0 b0 b' hb' hc0 hcase
    unfold sdReadMapBackup
    rw [wp_bind]
    apply wp_sdReadBackup_ok hOk hid (by simp [hb'])
    rcases hcase with hc1 | ⟨hc1, rfl, rfl⟩
    · simp only [ne_eq, not_true, if_false, hc1, if_true]
      exact h1 hc0
    · simp only [ne_eq, not_true, if_false, hc1, if_true, and_self]
      exact h1 hc0
  unfold sdReadMap
  refine wp_step fun _ _ => ⟨_, _, rfl, ?_⟩
  refine wp_step fun c hc => ⟨_, _, rfl, ?_⟩
  rw [hOk _ c hc rfl, if_neg (by simp)]
  refine wp_step fun _ _ => ⟨_, _, rfl, ?_⟩
  rw [wp_bind]
  apply wp_sdRead_ok hOk hid hbuf
  by_cases hc0 : checkSecureStorageMap crc32 (copy0 s id) = 0
  · simp only [hc0, and_self, if_true]
    exact h0 hc0
  · simp only [hc0, and_false, if_false, true_and]
    rcases hgood with hg | hg | ⟨hg, heq⟩
    · exact absurd hg hc0
    · split_ifs
      · exact hbackup _ _ _ (by simp) hc0 (Or.inl hg)
      · exact hbackup _ _ _ (by simp) hc0 (Or.inl hg)
    · rw [if_pos hg]
      exact hbackup _ _ _ (by simp) hc0 (Or.inr ⟨heq ▸ hg, rfl, heq.symm⟩)

/-! ### Writes

`sdWritten s id w0 w1` is the store after `w0` has reached the first copy of item `id` and
`w1` its backup: both are the whole buffer after a completed write, and prefixes of it after
one that failed. -/

def sdWritten (s : Store) (id : ℕ) (w0 w1 : Bytes) : Store :=
  { s with emmc := pwrite (pwrite s.emmc (sdOffset id) w0) (sdBackupOffset id) w1 }

lemma sdOffset_eq (id : ℕ) : sdOffset id = 6291456 + 8192 * id := by
  simp only [sdOffset, sdmmcSecureStorageStartAdd, sdmmcItemSize, sdmmcSectorSize]
  omega

lemma sdBackupOffset_eq (id : ℕ) : sdBackupOffset id = 6291456 + 8192 * id + 4096 := by
  simp only [sdBackupOffset, sdmmcSecureStorageStartAdd, sdmmcItemSize, sdmmcSectorSize]
  omega

lemma copy0_sdWritten_take {w1 : Bytes} (hbuf : buf.length = secBlkSize) (k : ℕ) :
    copy0 (sdWritten s id (buf.take k) w1) id = buf.take k ++ (copy0 s id).drop k := by
  have hblk : secBlkSize = 4096 := rfl
  unfold copy0 sdWritten
  rw [pread_pwrite_disjoint (by rw [sdOffset_eq, sdBackupOffset_eq]; omega), ← hbuf,
    pread_pwrite_take]

lemma copy1_sdWritten_take {w0 : Bytes} (hbuf : buf.length = secBlkSize)
    (hw : w0.length ≤ secBlkSize) (k : ℕ) :
    copy1 (sdWritten s id w0 (buf.take k)) id = buf.take k ++ (copy1 s id).drop k := by
  have hblk : secBlkSize = 4096 := rfl
  unfold copy1 sdWritten
  rw [← hbuf, pread_pwrite_take,
    pread_pwrite_disjoint (by rw [sdOffset_eq, sdBackupOffset_eq]; omega)]

lemma copy0_sdWritten_self {w1 : Bytes} (hbuf : buf.length = secBlkSize) :
    copy0 (sdWritten s id buf w1) id = buf := by
  have hk : copy0 (sdWritten s id (buf.take buf.length) w1) id =
      buf.take buf.length ++ (copy0 s id).drop buf.length := copy0_sdWritten_take hbuf _
  rwa [List.take_length, List.drop_eq_nil_of_le (by simp [hbuf]), List.append_nil] at hk

lemma copy1_sdWritten_self {w0 : Bytes} (hbuf : buf.length = secBlkSize)
    (hw : w0.length ≤ secBlkSize) : copy1 (sdWritten s id w0 buf) id = buf := by
  have hk : copy1 (sdWritten s id w0 (buf.take buf.length)) id =
      buf.take buf.length ++ (copy1 s id).drop buf.length := copy1_sdWritten_take hbuf hw _
  rwa [List.take_length, List.drop_eq_nil_of_le (by simp [hbuf]), List.append_nil] at hk

/-- The copies of different items do not overlap. -/
lemma copies_sdWritten_other {w0 w1 : Bytes} {id' : ℕ} (hne : id' ≠ id)
    (hw0 : w0.length ≤ secBlkSize) (hw1 : w1.length ≤ secBlkSize) :
    copy0 (sdWritten s id w0 w1) id' = copy0 s id' ∧
      copy1 (sdWritten s id w0 w1) id' = copy1 s id' := by
  have hblk : secBlkSize = 4096 := rfl
  have hoff := sdOffset_eq id
  have hback := sdBackupOffset_eq id
  have hoff' := sdOffset_eq id'
  have hback' := sdBackupOffset_eq id'
  unfold copy0 copy1 sdWritten
  constructor
  · rw [pread_pwrite_disjoint (by omega), pread_pwrite_disjoint (by omega)]
  · rw [pread_pwrite_disjoint (by omega), pread_pwrite_disjoint (by omega)]

/-- Whatever fails, `_sd_write` changes only prefixes of the item's two copies, and it
returns 0 only after both are complete. -/
lemma wp_sdWrite : wp perform Ok (sdWrite id buf)
    (fun r h' s' => h' = h ∧ ∃ w0 w1, w0 <+: buf ∧ w1 <+: buf ∧ s' = sdWritten s id w0 w1 ∧
      (r = 0 ∧ w0 = buf ∧ w1 = buf ∨ r = -1)) h s := by
  have hwritten : ∀ c : Choice, c.written buf <+: buf := by
    intro c
    unfold Choice.written
    split_ifs
    · exact List.prefix_rfl
    · exact List.take_prefix _ _
  have hnone : s = sdWritten s id [] [] := by
    unfold sdWritten
    rw [pwrite_nil, pwrite_nil]
  unfold sdWrite
  split_ifs
  · exact ⟨rfl, [], [], List.nil_prefix, List.nil_prefix, hnone, Or.inr rfl⟩
  refine wp_step fun _ _ => ⟨_, _, rfl, ?_⟩
  split_ifs
  · exact ⟨rfl, [], [], List.nil_prefix, List.nil_prefix, hnone, Or.inr rfl⟩
  refine wp_step fun c0 _ => ⟨_, _, rfl, ?_⟩
  split_ifs with hc0
  · refine ⟨rfl, c0.written buf, [], hwritten c0, List.nil_prefix, ?_, Or.inr rfl⟩
    unfold sdWritten
    rw [pwrite_nil]
  refine wp_step fun c1 _ => ⟨_, _, rfl, ?_⟩
  split_ifs with hc1
  · exact ⟨rfl, c0.written buf, c1.written buf, hwritten c0, hwritten c1, rfl, Or.inr rfl⟩
  · refine ⟨rfl, c0.written buf, c1.written buf, hwritten c0, hwritten c1, rfl, Or.inl ⟨rfl, ?_⟩⟩
    simp only [Bool.not_eq_true', Bool.not_eq_false] at hc0 hc1
    simp only [Choice.written, hc0, hc1, if_true, and_self]

lemma wp_sdWrite_ok {Q : ℤ → Bool → Store → Prop} (hid : id ≤ maxSecureStorageMaxItem)
    (hOk : ∀ op c w0, w0 = [] ∨ w0 = buf → Ok op c (sdWritten s id w0 []) →
      op = .malloc ∨ op.stores id = true → c.ok = true)
    (hQ : Q 0 h (sdWritten s id buf buf)) : wp perform Ok (sdWrite id buf) Q h s := by
  have hnone : sdWritten s id [] [] = s := by
    unfold sdWritten
    rw [pwrite_nil, pwrite_nil]
  have hfirst : ∀ op c, Ok op c s → op = .malloc ∨ op.stores id = true → c.ok = true := by
    intro op c hc
    exact hOk op c [] (Or.inl rfl) (hnone.symm ▸ hc)
  unfold sdWrite
  rw [if_neg (by omega)]
  refine wp_step fun c hc => ⟨_, _, rfl, ?_⟩
  rw [hfirst _ c hc (Or.inl rfl), if_neg (by simp)]
  refine wp_step fun c0 hc0 => ⟨_, _, rfl, ?_⟩
  have h0 : c0.ok = true := hfirst _ c0 hc0 (Or.inr (by simp [Op.stores]))
  rw [h0, if_neg (by simp)]
  refine wp_step fun c1 hc1 => ⟨_, _, rfl, ?_⟩
  have hhalf : { s with emmc := pwrite s.emmc (sdOffset id) (c0.written buf) } =
      sdWritten s id buf [] := by
    unfold sdWritten
    rw [pwrite_nil, Choice.written, if_pos h0]
  have h1 : c1.ok = true :=
    hOk _ c1 buf (Or.inr rfl) (hhalf ▸ hc1) (Or.inr (by simp [Op.stores]))
  rw [h1, if_neg (by simp)]
  simp only [Choice.written, h0, h1, if_true]
  exact hQ

end Spec

end Softwinner.SecureStorage
