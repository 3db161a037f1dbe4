import Mathlib.Logic.Relation
import Softwinner.SecureStorage.Device

/-!
# The private store

`libsec_storage/fetch_env.c`: names and values in the last 8 KiB of the private partition.  The
area is a header and a table of records,

| offset | field | offset in a record | field |
| --- | --- | --- | --- |
| 0 | `magic_name[8]` | 0 | `name[32]` |
| 8 | `count` | 32 | `value[128]` |
| 12 | `reserved[3]` | 160 | `valid` |
| 24 | records, 176 bytes each | 164 | `reserved[3]` |

and the code reads all of it, changes it in memory and writes all of it back.  The model works
on the bytes: `strcpy` writes as many bytes as the string has and is undefined only behind the
8 KiB buffer.

The store is meant to be a finite map from names to values.  `Holds buf recs` relates the bytes
to a list of records; `modifyEnvParameter` refines `put` and `checkEnvParameter` refines
`find` on it.  Both loops stop at `USER_DATA_PARAMETER_MAX_COUNT` records, but the insertion
behind the loop does not look at the bound: the 31st name is stored where no reader looks, and
further ones are dropped, all with return code 0.  `privateStoreWrite_refines` says for which
writes the map is kept.
-/

namespace Softwinner.SecureStorage

open Framework

def userDataMaxsize : ℕ := 8 * 1024
def userDataParameterMaxCount : ℕ := 30
def nameSize : ℕ := 32
def valueSize : ℕ := 128

-- `"sunxi"`
def envMagic : Bytes := [115, 117, 110, 120, 105]

/-- `n` bytes of erased flash. -/
@[irreducible] def ffs (n : ℕ) : Bytes := List.replicate n 0xff

lemma slice_ffs (n off k : ℕ) : slice (ffs n) off k = ffs (min k (n - off)) := by
  simp only [slice, ffs, List.drop_replicate, List.take_replicate]

lemma i32_ffs {n off : ℕ} (h : off + 4 ≤ n) : i32 (ffs n) off = -1 := by
  have hget : ∀ i < n, (ffs n).getD i 0 = 0xff := by
    intro i hi
    rw [List.getD_eq_getElem?_getD, ffs, List.getElem?_replicate, if_pos hi]
    rfl
  have hword : u32 (ffs n) off = 2 ^ 32 - 1 := by
    rw [u32, hget _ (by omega), hget _ (by omega), hget _ (by omega), hget _ (by omega)]
    rfl
  rw [i32, hword]
  decide

-- the address of `user_data_p[j]` in the buffer
def recordOffset (j : ℕ) : ℕ := 24 + 176 * j

/-! ## State and operations -/

/-- The part of the private partition that the code works on. -/
structure EnvStore where
  userData : Bytes
  length : userData.length = userDataMaxsize

inductive EnvOp
  | malloc
  | envRead
  | envWrite (buf : Bytes)
  | fault

@[reducible] def EnvOp.Res : EnvOp → Type
  | .malloc => Bool
  | .envRead => Option Bytes
  | .envWrite _ => Bool
  | .fault => Empty

/-- The programs of the private store. -/
abbrev Env := Prog EnvOp EnvOp.Res

abbrev envCall (op : EnvOp) : Env op.Res := Prog.perform op

def orEnvFault {α : Type} : Option α → Env α
  | some a => return a
  | none => do
    let e ← envCall .fault
    nomatch e

/-- The area after `w` has been written to its front. -/
def EnvStore.write (t : EnvStore) (w : Bytes) : EnvStore :=
  ⟨(w ++ t.userData.drop w.length).take userDataMaxsize, by
    have hlen := t.length
    rw [List.length_take, List.length_append, List.length_drop]
    omega⟩

/-- The buffer behind a failed read that returns 0: as many bytes as were read, and behind them
what the buffer held, or other bytes of the partition where `lseek` has failed. -/
def Choice.readBack (c : Choice) (data : Bytes) : Bytes :=
  data.take c.cut ++ ((List.range userDataMaxsize).map c.junk).drop c.cut

/-- `env_read` and `env_write` with the system calls in them.  A failed write has stored a
prefix.  Neither looks at the result of `lseek`, and both take a short count for success, so a
failure is reported only if it is `seen`; a write to another place has stored nothing here. -/
def performEnv : Perform EnvOp EnvOp.Res Choice EnvStore
  | .malloc, c, t => some (c.ok, t)
  | .envRead, c, t =>
    some (if c.ok then some t.userData
      else if c.seen then none else some (c.readBack t.userData), t)
  | .envWrite buf, c, t => some (c.ok || !c.seen, t.write (c.written buf))
  | .fault, _, _ => none

/-! ## The table in memory -/

/-- `strcpy` of the string in the object `src` to offset `off` of `buf`. -/
def strcpyAt (buf : Bytes) (off : ℕ) (src : Bytes) : Option Bytes :=
  (cstr src).bind fun s => store buf off (s ++ [0])

/-- The search loop of both functions, `n` turns before its bound: the record where it stops,
and whether the names are equal there. -/
def scanRecords (buf name : Bytes) (count : ℤ) : ℕ → ℕ → Option (ℕ × Bool)
  | 0, j => some (j, false)
  | n + 1, j =>
    if (j : ℤ) < count then
      match strcmp name (buf.drop (recordOffset j)) with
      | none => none
      | some true => some (j, true)
      | some false => scanRecords buf name count n (j + 1)
    else some (j, false)

/-- Name, value and `valid` of record `j`. -/
def putRecord (buf : Bytes) (j : ℕ) (name value : Bytes) : Option Bytes := do
  let buf ← store buf (recordOffset j) (name ++ [0])
  let buf ← strcpyAt buf (recordOffset j + 32) value
  store buf (recordOffset j + 160) (le32 1)

/-- Value and `valid` of record `j`. -/
def putValue (buf : Bytes) (j : ℕ) (value : Bytes) : Option Bytes := do
  let buf ← strcpyAt buf (recordOffset j + 32) value
  store buf (recordOffset j + 160) (le32 1)

def setCount (buf : Bytes) (count : ℕ) : Option Bytes := store buf 8 (le32 count)

/-- The eight `0xff` that mark an unused first record. -/
def firstUnused (buf : Bytes) : Bool := decide (slice buf 24 8 = ffs 8)

/-- "init the (user) private space". -/
def initSpace (buf : Bytes) : Bytes :=
  if buf.take 5 = envMagic then buf
  else patch (patch (ffs userDataMaxsize) 0 (envMagic ++ [0])) 8 (le32 0)

def modifyEnvParameter (privateBuf name value : Bytes) : Option Bytes := do
  let buf := initSpace privateBuf
  if firstUnused buf then
    let buf ← setCount buf 1
    putRecord buf 0 name value
  else if i32 buf 8 > 0 then
    let (j, found) ← scanRecords buf name (i32 buf 8) userDataParameterMaxCount 0
    if found then putValue buf j value
    else if (j : ℤ) = i32 buf 8 then
      let buf ← putRecord buf j name value
      setCount buf (u32 buf 8 + 1)
    else return buf
  else
    let buf ← putRecord buf 0 name value
    setCount buf (u32 buf 8 + 1)

/-- The return code and the caller's buffer. -/
def checkEnvParameter (privateBuf name value : Bytes) : Option (ℤ × Bytes) :=
  if privateBuf.take 5 ≠ envMagic then some (-1, value)
  else if firstUnused privateBuf then some (-1, value)
  else if i32 privateBuf 8 > 0 then
    match scanRecords privateBuf name (i32 privateBuf 8) userDataParameterMaxCount 0 with
    | none => none
    | some (j, true) =>
      (strcpyAt value 0 (privateBuf.drop (recordOffset j + 32))).map fun value => (0, value)
    | some (_, false) => some (-1, value)
  else some (-1, value)

/-! ## The store -/

def strnlen (b : Bytes) (n : ℕ) : ℕ := ((b.take n).takeWhile (· != 0)).length

def sunxiPrivateStoreRead (itemName buffer : Bytes) (dataLen : ℤ) : Env ReadOut := do
  if buffer.length < valueSize then return ⟨-1, buffer, dataLen⟩
  if !(← envCall .malloc) then return ⟨-1, buffer, dataLen⟩
  match ← envCall .envRead with
  | none => return ⟨-1, buffer, dataLen⟩
  | some priBuf =>
    let (ret, buffer) ← orEnvFault (checkEnvParameter priBuf itemName buffer)
    if ret = 0 then return ⟨0, buffer, strnlen buffer valueSize⟩
    else return ⟨-1, buffer, dataLen⟩

/-- `buffer` is the object that holds the value as a C string; its length is not used. -/
def sunxiPrivateStoreWrite (itemName buffer : Bytes) : Env ℤ := do
  if !(← envCall .malloc) then return -1
  match ← envCall .envRead with
  | none => return -1
  | some priBuf =>
    let priBuf ← orEnvFault (modifyEnvParameter priBuf itemName buffer)
    if ← envCall (.envWrite priBuf) then return 0 else return -1

/-! ## Tables as lists of records

`nameAt` and `valueAt` are the strings of a record, which in a table never leave their
fields. -/

def nameAt (buf : Bytes) (j : ℕ) : Option Bytes := cstr (slice buf (recordOffset j) nameSize)

def valueAt (buf : Bytes) (j : ℕ) : Option Bytes :=
  cstr (slice buf (recordOffset j + 32) valueSize)

/-- A name that fits its field. -/
structure ShortName (a : Bytes) : Prop where
  short : a.length ≤ 31
  noNul : (0 : UInt8) ∉ a

/-- A name that also does not look like an unused record: a first byte other than `0xff` is
enough. -/
structure EnvName (a : Bytes) : Prop extends ShortName a where
  visible : ¬ ffs 8 <+: a

/-- A value of at most 127 bytes. -/
structure EnvValue (v : Bytes) : Prop where
  short : v.length ≤ 127
  noNul : (0 : UInt8) ∉ v

/-- The abstract store: names with values, in the order of their first write. -/
abbrev Records := List (Bytes × Bytes)

/-- Where the loops find a name. -/
def recordIndex (recs : Records) (a : Bytes) : Option ℕ :=
  ((recs.map Prod.fst).take userDataParameterMaxCount).findIdx? fun b => decide (b = a)

/-- The value the store has for a name. -/
def find (recs : Records) (a : Bytes) : Option Bytes :=
  (recordIndex recs a).bind fun j => (recs[j]?).map Prod.snd

/-- What a write does to the records. -/
def put (recs : Records) (a v : Bytes) : Records :=
  match recordIndex recs a with
  | some j => recs.set j (a, v)
  | none => if recs.length ≤ 30 then recs ++ [(a, v)] else recs

/-- `buf` is a table of the records `recs`. -/
structure TableOf (buf : Bytes) (recs : Records) : Prop where
  length : buf.length = userDataMaxsize
  magic : buf.take 5 = envMagic
  count : u32 buf 8 = recs.length
  nonempty : recs ≠ []
  bound : recs.length ≤ 31
  fields : ∀ i r, recs[i]? = some r → nameAt buf i = some r.1 ∧ valueAt buf i = some r.2
  names : ∀ r ∈ recs, EnvName r.1

/-- The bytes of a store with the records `recs`; without any, it has no magic. -/
def Holds (buf : Bytes) (recs : Records) : Prop :=
  (recs = [] ∧ buf.length = userDataMaxsize ∧ buf.take 5 ≠ envMagic) ∨ TableOf buf recs

section Layout

variable {buf a v src : Bytes} {j : ℕ}

lemma exists_of_nameAt {n : Bytes} (h : nameAt buf j = some n) :
    (0 : UInt8) ∉ n ∧ ∃ t, buf.drop (recordOffset j) = n ++ 0 :: t := by
  obtain ⟨h0, t, ht⟩ := exists_of_cstr_eq_some h
  refine ⟨h0, t ++ (buf.drop (recordOffset j)).drop nameSize, ?_⟩
  rw [← List.cons_append, ← List.append_assoc, ← ht]
  exact (List.take_append_drop _ _).symm

lemma exists_of_valueAt {n : Bytes} (h : valueAt buf j = some n) :
    (0 : UInt8) ∉ n ∧ n.length ≤ 127 ∧ ∃ t, buf.drop (recordOffset j + 32) = n ++ 0 :: t := by
  obtain ⟨h0, t, ht⟩ := exists_of_cstr_eq_some h
  have hlen : (slice buf (recordOffset j + 32) valueSize).length ≤ valueSize := by
    rw [slice, List.length_take]
    omega
  have hsize : valueSize = 128 := rfl
  rw [ht, List.length_append, List.length_cons] at hlen
  refine ⟨h0, by omega, t ++ (buf.drop (recordOffset j + 32)).drop valueSize, ?_⟩
  rw [← List.cons_append, ← List.append_assoc, ← ht]
  exact (List.take_append_drop _ _).symm

/-- The bytes of a completed `putRecord`. -/
def recordPut (buf : Bytes) (j : ℕ) (a v : Bytes) : Bytes :=
  patch (patch (patch buf (recordOffset j) (a ++ [0])) (recordOffset j + 32) (v ++ [0]))
    (recordOffset j + 160) (le32 1)

/-- The bytes of a completed `putValue`. -/
def valuePut (buf : Bytes) (j : ℕ) (v : Bytes) : Bytes :=
  patch (patch buf (recordOffset j + 32) (v ++ [0])) (recordOffset j + 160) (le32 1)

lemma length_valueField (hbuf : buf.length = userDataMaxsize) (hj : j ≤ 30) (hv : EnvValue v) :
    (patch buf (recordOffset j + 32) (v ++ [0])).length = userDataMaxsize := by
  have hsize : userDataMaxsize = 8192 := rfl
  have hoff : recordOffset j = 24 + 176 * j := rfl
  have hshort := hv.short
  rw [length_patch (by simp; omega), hbuf]

lemma length_valuePut (hbuf : buf.length = userDataMaxsize) (hj : j ≤ 30) (hv : EnvValue v) :
    (valuePut buf j v).length = userDataMaxsize := by
  have hsize : userDataMaxsize = 8192 := rfl
  have hoff : recordOffset j = 24 + 176 * j := rfl
  have h1 := length_valueField hbuf hj hv
  rw [valuePut, length_patch (by rw [h1, length_le32]; omega), h1]

lemma putValue_eq (hbuf : buf.length = userDataMaxsize) (hj : j ≤ 30) (hv : EnvValue v)
    (hsrc : cstr src = some v) : putValue buf j src = some (valuePut buf j v) := by
  have hsize : userDataMaxsize = 8192 := rfl
  have hoff : recordOffset j = 24 + 176 * j := rfl
  have hshort := hv.short
  have h1 := length_valueField hbuf hj hv
  simp only [putValue, strcpyAt, hsrc, Option.bind_some, Option.bind_eq_bind]
  rw [store_of_le (by simp; omega), Option.bind_some, store_of_le (by rw [h1, length_le32]; omega)]
  rfl

lemma length_namePut (hbuf : buf.length = userDataMaxsize) (hj : j ≤ 30) (ha : ShortName a) :
    (patch buf (recordOffset j) (a ++ [0])).length = userDataMaxsize := by
  have hsize : userDataMaxsize = 8192 := rfl
  have hoff : recordOffset j = 24 + 176 * j := rfl
  have hshort := ha.short
  rw [length_patch (by simp; omega), hbuf]

lemma recordPut_eq : recordPut buf j a v = valuePut (patch buf (recordOffset j) (a ++ [0])) j v := rfl

lemma putRecord_eq (hbuf : buf.length = userDataMaxsize) (hj : j ≤ 30) (ha : ShortName a)
    (hv : EnvValue v) (hsrc : cstr src = some v) :
    putRecord buf j a src = some (recordPut buf j a v) := by
  have hsize : userDataMaxsize = 8192 := rfl
  have hoff : recordOffset j = 24 + 176 * j := rfl
  have hshort := ha.short
  have hrest := putValue_eq (length_namePut hbuf hj ha) hj hv hsrc
  simp only [putValue, Option.bind_eq_bind] at hrest
  simp only [putRecord, Option.bind_eq_bind]
  rw [store_of_le (by simp; omega), Option.bind_some, hrest, recordPut_eq]

/-- Writing a value leaves everything outside the value fields of its record. -/
lemma slice_valuePut (hbuf : buf.length = userDataMaxsize) (hj : j ≤ 30) (hv : EnvValue v)
    {off n : ℕ} (hout : off + n ≤ recordOffset j + 32 ∨ recordOffset j + 176 ≤ off) :
    slice (valuePut buf j v) off n = slice buf off n := by
  have hsize : userDataMaxsize = 8192 := rfl
  have hoff : recordOffset j = 24 + 176 * j := rfl
  have hshort := hv.short
  have h1 := length_valueField hbuf hj hv
  rw [valuePut, slice_patch_disjoint (by omega) (by rw [length_le32]; omega),
    slice_patch_disjoint (by omega) (by simp; omega)]

lemma valueAt_valuePut (hbuf : buf.length = userDataMaxsize) (hj : j ≤ 30) (hv : EnvValue v) :
    valueAt (valuePut buf j v) j = some v := by
  have hsize : userDataMaxsize = 8192 := rfl
  have hvs : valueSize = 128 := rfl
  have hoff : recordOffset j = 24 + 176 * j := rfl
  have hshort := hv.short
  have h1 := length_valueField hbuf hj hv
  rw [valueAt, valuePut, slice_patch_disjoint (by omega) (by omega),
    slice_patch_front (by omega) (by simp; omega), List.append_assoc, List.singleton_append,
    cstr_append_nul hv.noNul]

lemma nameAt_namePut (hbuf : buf.length = userDataMaxsize) (hj : j ≤ 30) (ha : ShortName a) :
    nameAt (patch buf (recordOffset j) (a ++ [0])) j = some a := by
  have hsize : userDataMaxsize = 8192 := rfl
  have hns : nameSize = 32 := rfl
  have hoff : recordOffset j = 24 + 176 * j := rfl
  have hshort := ha.short
  rw [nameAt, slice_patch_front (by omega) (by simp; omega), List.append_assoc,
    List.singleton_append, cstr_append_nul ha.noNul]

lemma slice_recordPut (hbuf : buf.length = userDataMaxsize) (hj : j ≤ 30) (ha : ShortName a)
    (hv : EnvValue v) {off n : ℕ}
    (hout : off + n ≤ recordOffset j ∨ recordOffset j + 176 ≤ off) :
    slice (recordPut buf j a v) off n = slice buf off n := by
  have hsize : userDataMaxsize = 8192 := rfl
  have hoff : recordOffset j = 24 + 176 * j := rfl
  have hshort := ha.short
  rw [recordPut_eq, slice_valuePut (length_namePut hbuf hj ha) hj hv (by omega),
    slice_patch_disjoint (by omega) (by simp; omega)]

/-- Both strings of a record that has just been written. -/
lemma fields_recordPut (hbuf : buf.length = userDataMaxsize) (hj : j ≤ 30) (ha : ShortName a)
    (hv : EnvValue v) :
    nameAt (recordPut buf j a v) j = some a ∧ valueAt (recordPut buf j a v) j = some v := by
  have hns : nameSize = 32 := rfl
  have hlen := length_namePut hbuf hj ha
  rw [recordPut_eq]
  refine ⟨?_, valueAt_valuePut hlen hj hv⟩
  rw [← nameAt_namePut hbuf hj ha, nameAt, nameAt, slice_valuePut hlen hj hv (by omega)]

lemma length_recordPut (hbuf : buf.length = userDataMaxsize) (hj : j ≤ 30) (ha : ShortName a)
    (hv : EnvValue v) : (recordPut buf j a v).length = userDataMaxsize := by
  rw [recordPut_eq, length_valuePut (length_namePut hbuf hj ha) hj hv]

/-- The header fields depend on the first 24 bytes only. -/
lemma header_congr {buf' : Bytes} (h : ∀ off n, off + n ≤ 24 → slice buf' off n = slice buf off n) :
    buf'.take 5 = buf.take 5 ∧ u32 buf' 8 = u32 buf 8 := by
  have htake : ∀ b : Bytes, b.take 5 = slice b 0 5 := fun _ => rfl
  constructor
  · rw [htake, htake, h 0 5 (by omega)]
  · have hword : ∀ b : Bytes, u32 (slice b 8 4) 0 = u32 b 8 := by
      intro b
      rw [u32_slice (Nat.le_refl 4)]
    rw [← hword, ← hword, h 8 4 (by omega)]

lemma fields_congr {buf' : Bytes} {i : ℕ}
    (h : ∀ off n, recordOffset i ≤ off → off + n ≤ recordOffset i + 176 →
      slice buf' off n = slice buf off n) :
    nameAt buf' i = nameAt buf i ∧ valueAt buf' i = valueAt buf i := by
  have hns : nameSize = 32 := rfl
  have hvs : valueSize = 128 := rfl
  constructor
  · rw [nameAt, nameAt, h _ _ (by omega) (by omega)]
  · rw [valueAt, valueAt, h _ _ (by omega) (by omega)]

lemma setCount_eq (hbuf : buf.length = userDataMaxsize) (n : ℕ) :
    setCount buf n = some (patch buf 8 (le32 n)) := by
  have hsize : userDataMaxsize = 8192 := rfl
  exact store_of_le (by rw [length_le32]; omega)

/-- Setting the count changes the header's count and nothing else. -/
lemma slice_setCount (hbuf : buf.length = userDataMaxsize) (c : ℕ) {off n : ℕ}
    (hout : off + n ≤ 8 ∨ 12 ≤ off) : slice (patch buf 8 (le32 c)) off n = slice buf off n := by
  have hsize : userDataMaxsize = 8192 := rfl
  exact slice_patch_disjoint (by omega) (by rw [length_le32]; omega)

lemma u32_setCount (hbuf : buf.length = userDataMaxsize) {c : ℕ} (hc : c < 2 ^ 32) :
    u32 (patch buf 8 (le32 c)) 8 = c := by
  have hsize : userDataMaxsize = 8192 := rfl
  exact u32_append_le32 (by rw [List.length_take]; omega) hc

end Layout

/-! ### The search loop -/

section Scan

variable {buf a v src : Bytes} {recs : Records}

lemma TableOf.i32_count (h : TableOf buf recs) : i32 buf 8 = recs.length := by
  have hbound := h.bound
  rw [i32, h.count, if_pos (by omega)]

lemma TableOf.strcmp_record (h : TableOf buf recs) (ha : (0 : UInt8) ∉ a) {j : ℕ}
    {r : Bytes × Bytes} (hr : recs[j]? = some r) :
    strcmp a (buf.drop (recordOffset j)) = some (decide (r.1 = a)) := by
  obtain ⟨h0, t, ht⟩ := exists_of_nameAt (h.fields j r hr).1
  rw [ht, strcmp_append_nul ha h0]
  congr 1
  rw [decide_eq_decide]
  exact eq_comm

/-- From record `j` on, the loop is a search in the list of names. -/
lemma TableOf.scanRecords_eq (h : TableOf buf recs) (ha : (0 : UInt8) ∉ a) (n j : ℕ)
    (hj : j ≤ recs.length) :
    scanRecords buf a recs.length n j =
      some (match (((recs.map Prod.fst).drop j).take n).findIdx? (fun b => decide (b = a)) with
        | some i => (j + i, true)
        | none => (min (j + n) recs.length, false)) := by
  induction n generalizing j with
  | zero =>
    simp only [scanRecords, List.take_zero, List.findIdx?_nil, Nat.add_zero, Nat.min_eq_left hj]
  | succ n ih =>
    rw [scanRecords]
    by_cases hlt : j < recs.length
    · have hget : recs[j]? = some recs[j] := List.getElem?_eq_getElem hlt
      have hdrop : (recs.map Prod.fst).drop j = recs[j].1 :: (recs.map Prod.fst).drop (j + 1) := by
        rw [List.drop_eq_getElem_cons (by simpa using hlt), List.getElem_map]
      rw [if_pos (by omega), h.strcmp_record ha hget, hdrop, List.take_succ_cons,
        List.findIdx?_cons]
      by_cases heq : recs[j].1 = a
      · simp [heq]
      · simp only [heq, decide_false, Bool.false_eq_true, if_false]
        rw [ih (j + 1) hlt]
        cases (((recs.map Prod.fst).drop (j + 1)).take n).findIdx? fun b => decide (b = a) with
        | none =>
          simp only [Option.map_none, Option.some.injEq, Prod.mk.injEq, and_true]
          omega
        | some i =>
          simp only [Option.map_some, Option.some.injEq, Prod.mk.injEq, and_true]
          omega
    · rw [if_neg (by omega), List.drop_eq_nil_of_le (by simp; omega)]
      simp only [List.take_nil, List.findIdx?_nil, Option.some.injEq, Prod.mk.injEq, and_true]
      omega

lemma TableOf.scanRecords_count (h : TableOf buf recs) (ha : (0 : UInt8) ∉ a) :
    scanRecords buf a (i32 buf 8) userDataParameterMaxCount 0 =
      some (match recordIndex recs a with
        | some j => (j, true)
        | none => (min userDataParameterMaxCount recs.length, false)) := by
  rw [h.i32_count, h.scanRecords_eq ha _ _ (Nat.zero_le _), List.drop_zero]
  simp only [Nat.zero_add]
  rfl

lemma recordIndex_spec {j : ℕ} (hj : recordIndex recs a = some j) :
    j < userDataParameterMaxCount ∧ ∃ w, recs[j]? = some (a, w) := by
  have hget := List.findIdx?_eq_some_iff_getElem.mp hj
  obtain ⟨hlt, heq, -⟩ := hget
  rw [List.length_take, List.length_map] at hlt
  have hlt' : j < recs.length := by omega
  refine ⟨by omega, recs[j].2, ?_⟩
  simp only [List.getElem_take, List.getElem_map, decide_eq_true_eq] at heq
  rw [List.getElem?_eq_getElem hlt', ← heq]

/-- A record with an ordinary name is not taken for an unused one. -/
lemma firstUnused_of_nameAt {n : Bytes} (hname : nameAt buf 0 = some n) :
    firstUnused buf = true ↔ ffs 8 <+: n := by
  obtain ⟨-, t, ht⟩ := exists_of_nameAt hname
  have hdrop : buf.drop 24 = n ++ 0 :: t := ht
  have hff : (ffs 8).length = 8 := by simp [ffs]
  have hnul : (0 : UInt8) ∉ ffs 8 := by
    rw [ffs]
    decide
  unfold firstUnused
  rw [decide_eq_true_eq, slice, hdrop, ← prefix_append_of_not_mem hnul, List.prefix_iff_eq_take, hff]
  exact eq_comm

lemma TableOf.firstUnused_eq (h : TableOf buf recs) : firstUnused buf = false := by
  obtain ⟨r, rs, rfl⟩ := List.exists_cons_of_ne_nil h.nonempty
  have hiff := firstUnused_of_nameAt (h.fields 0 r rfl).1
  rw [← Bool.not_eq_true, hiff]
  exact (h.names r List.mem_cons_self).visible

end Scan

/-! ### The two functions on tables -/

section Refine

variable {buf a v src : Bytes} {recs : Records}

/-- Reading is the abstract lookup. -/
lemma checkEnvParameter_holds (h : Holds buf recs) (ha : (0 : UInt8) ∉ a) {value : Bytes}
    (hvalue : valueSize ≤ value.length) :
    checkEnvParameter buf a value =
      some (match find recs a with
        | some v => (0, v ++ 0 :: value.drop (v.length + 1))
        | none => (-1, value)) := by
  rcases h with ⟨rfl, -, hmagic⟩ | h
  · rw [checkEnvParameter, if_pos hmagic]
    rfl
  · have hpos : 0 < recs.length := List.length_pos_of_ne_nil h.nonempty
    have hcount := h.i32_count
    rw [checkEnvParameter, if_neg (not_not.mpr h.magic), h.firstUnused_eq, if_neg (by decide),
      if_pos (by omega), h.scanRecords_count ha]
    unfold find
    cases hidx : recordIndex recs a with
    | none => rfl
    | some j =>
      obtain ⟨-, w, hw⟩ := recordIndex_spec hidx
      obtain ⟨h0, hlen, t, ht⟩ := exists_of_valueAt (h.fields j _ hw).2
      simp only at h0 hlen ht
      have hsize : valueSize = 128 := rfl
      have hstore : store value 0 (w ++ [0]) = some (w ++ 0 :: value.drop (w.length + 1)) := by
        rw [store_of_le (by simp; omega)]
        simp [patch]
      simp only [Option.bind_some, hw, Option.map_some, ht, strcpyAt, cstr_append_nul h0, hstore]

/-- A table with one more record. -/
lemma tableOf_append {buf' : Bytes} (hlen : buf'.length = userDataMaxsize)
    (hmagic : buf'.take 5 = envMagic) (hcount : u32 buf' 8 = recs.length + 1)
    (hbound : recs.length ≤ 30)
    (hold : ∀ i r, recs[i]? = some r → nameAt buf' i = some r.1 ∧ valueAt buf' i = some r.2)
    (hname : nameAt buf' recs.length = some a) (hvalue : valueAt buf' recs.length = some v)
    (hnames : ∀ r ∈ recs, EnvName r.1) (ha : EnvName a) : TableOf buf' (recs ++ [(a, v)]) := by
  refine ⟨hlen, hmagic, by simpa using hcount, by simp, by simp; omega, ?_, ?_⟩
  · intro i r hr
    by_cases hi : i < recs.length
    · rw [List.getElem?_append_left hi] at hr
      exact hold i r hr
    · rw [List.getElem?_append_right (by omega)] at hr
      have hi0 : i - recs.length = 0 := by
        by_contra hne
        rw [List.getElem?_eq_none (by simp; omega)] at hr
        cases hr
      rw [hi0, List.getElem?_cons_zero, Option.some.injEq] at hr
      have hieq : i = recs.length := by omega
      rw [hieq, ← hr]
      exact ⟨hname, hvalue⟩
  · intro r hr
    rcases List.mem_append.mp hr with hr | hr
    · exact hnames r hr
    · rw [List.mem_singleton.mp hr]
      exact ha

lemma TableOf.append (h : TableOf buf recs) (hroom : recs.length ≤ 30) (ha : EnvName a)
    (hv : EnvValue v) :
    TableOf (patch (recordPut buf recs.length a v) 8
      (le32 (u32 (recordPut buf recs.length a v) 8 + 1))) (recs ++ [(a, v)]) := by
  have hlen := length_recordPut h.length hroom ha.toShortName hv
  have hsize : userDataMaxsize = 8192 := rfl
  have hoff : ∀ i, recordOffset i = 24 + 176 * i := fun _ => rfl
  have hfields := fields_recordPut h.length hroom ha.toShortName hv
  have hhead := header_congr (fun off n hle => slice_recordPut h.length hroom ha.toShortName hv
    (Or.inl (Nat.le_trans hle (show 24 ≤ recordOffset recs.length by rw [hoff]; omega))))
  have hkeep : ∀ i, nameAt (patch (recordPut buf recs.length a v) 8
      (le32 (u32 (recordPut buf recs.length a v) 8 + 1))) i =
        nameAt (recordPut buf recs.length a v) i ∧
      valueAt (patch (recordPut buf recs.length a v) 8
        (le32 (u32 (recordPut buf recs.length a v) 8 + 1))) i =
        valueAt (recordPut buf recs.length a v) i := by
    intro i
    refine fields_congr fun off n hle _ => slice_setCount hlen _ (Or.inr ?_)
    have := hoff i
    omega
  have htake : ∀ b : Bytes, b.take 5 = slice b 0 5 := fun _ => rfl
  refine tableOf_append ?_ ?_ ?_ hroom ?_ ?_ ?_ h.names ha
  · rw [length_patch (by rw [hlen, length_le32]; omega), hlen]
  · rw [htake, slice_setCount hlen _ (by omega), ← htake, hhead.1]
    exact h.magic
  · rw [u32_setCount hlen (by rw [hhead.2, h.count]; omega), hhead.2, h.count]
  · intro i r hr
    have hi : i < recs.length := by
      by_contra hge
      rw [List.getElem?_eq_none (by omega)] at hr
      cases hr
    rw [(hkeep i).1, (hkeep i).2]
    have hbefore : recordOffset i + 176 ≤ recordOffset recs.length := by
      rw [hoff, hoff]
      omega
    have hsame : nameAt (recordPut buf recs.length a v) i = nameAt buf i ∧
        valueAt (recordPut buf recs.length a v) i = valueAt buf i :=
      fields_congr fun off n _ hle =>
        slice_recordPut h.length hroom ha.toShortName hv (Or.inl (Nat.le_trans hle hbefore))
    rw [hsame.1, hsame.2]
    exact h.fields i r hr
  · rw [(hkeep _).1]
    exact hfields.1
  · rw [(hkeep _).2]
    exact hfields.2

lemma TableOf.set (h : TableOf buf recs) {j : ℕ} (hj : j ≤ 30) {w : Bytes}
    (hw : recs[j]? = some (a, w)) (hv : EnvValue v) :
    TableOf (valuePut buf j v) (recs.set j (a, v)) := by
  have hoff : ∀ i, recordOffset i = 24 + 176 * i := fun _ => rfl
  have hhead := header_congr (fun off n hle => slice_valuePut h.length hj hv
    (Or.inl (Nat.le_trans hle (show 24 ≤ recordOffset j + 32 by rw [hoff]; omega))))
  have hns : nameSize = 32 := rfl
  refine ⟨length_valuePut h.length hj hv, hhead.1.trans h.magic, ?_, by simp [h.nonempty], ?_, ?_, ?_⟩
  · rw [hhead.2, h.count, List.length_set]
  · rw [List.length_set]
    exact h.bound
  · intro i r hr
    by_cases hij : j = i
    · subst hij
      rw [List.getElem?_set_self (List.getElem?_eq_some_iff.mp hw).1, Option.some.injEq] at hr
      subst hr
      refine ⟨?_, valueAt_valuePut h.length hj hv⟩
      rw [← (h.fields j _ hw).1, nameAt, nameAt, slice_valuePut h.length hj hv (by omega)]
    · rw [List.getElem?_set_ne hij] at hr
      have hapart : recordOffset i + 176 ≤ recordOffset j + 32 ∨
          recordOffset j + 176 ≤ recordOffset i := by
        rw [hoff, hoff]
        omega
      have hsame : nameAt (valuePut buf j v) i = nameAt buf i ∧
          valueAt (valuePut buf j v) i = valueAt buf i :=
        fields_congr fun off n hle hle' => slice_valuePut h.length hj hv (by omega)
      rw [hsame.1, hsame.2]
      exact h.fields i r hr
  · intro r hr
    rcases List.mem_or_eq_of_mem_set hr with hr | rfl
    · exact h.names r hr
    · exact h.names (a, w) (List.mem_of_getElem? hw)

/-- What a fresh area looks like before its first record. -/
lemma initSpace_fresh (hmagic : buf.take 5 ≠ envMagic) :
    (initSpace buf).length = userDataMaxsize ∧ (initSpace buf).take 5 = envMagic ∧
      firstUnused (initSpace buf) = true := by
  have hsize : userDataMaxsize = 8192 := rfl
  have hff : (ffs userDataMaxsize).length = userDataMaxsize := by simp [ffs]
  have h1 : (patch (ffs userDataMaxsize) 0 (envMagic ++ [0])).length = userDataMaxsize := by
    rw [length_patch (by rw [hff]; simp [envMagic, hsize]), hff]
  rw [initSpace, if_neg hmagic]
  refine ⟨?_, ?_, ?_⟩
  · rw [length_patch (by rw [h1, length_le32]; omega), h1]
  · have htake : ∀ b : Bytes, b.take 5 = slice b 0 5 := fun _ => rfl
    rw [htake, slice_patch_disjoint (by omega) (by omega)]
    rfl
  · unfold firstUnused
    rw [decide_eq_true_eq, slice_patch_disjoint (by omega) (by rw [length_le32]; omega),
      slice_patch_disjoint (by omega) (by simp [envMagic])]
    rw [slice_ffs]
    rfl

/-- The record written to a fresh area. -/
lemma modifyEnvParameter_first (hmagic : buf.take 5 ≠ envMagic) (ha : ShortName a)
    (hv : EnvValue v) (hsrc : cstr src = some v) :
    ∃ buf', modifyEnvParameter buf a src = some buf' ∧ buf'.length = userDataMaxsize ∧
      buf'.take 5 = envMagic ∧ u32 buf' 8 = 1 ∧ nameAt buf' 0 = some a ∧ valueAt buf' 0 = some v := by
  obtain ⟨hlen, hmag, hunused⟩ := initSpace_fresh hmagic
  have hsize : userDataMaxsize = 8192 := rfl
  have hlen' : (patch (initSpace buf) 8 (le32 1)).length = userDataMaxsize := by
    rw [length_patch (by rw [hlen, length_le32]; omega), hlen]
  have h0 : recordOffset 0 = 24 := rfl
  have hhead : ∀ off n, off + n ≤ 24 →
      slice (recordPut (patch (initSpace buf) 8 (le32 1)) 0 a v) off n =
        slice (patch (initSpace buf) 8 (le32 1)) off n :=
    fun off n hle => slice_recordPut hlen' (by omega) ha hv (by omega)
  obtain ⟨hm, hc⟩ := header_congr hhead
  have htake : ∀ b : Bytes, b.take 5 = slice b 0 5 := fun _ => rfl
  obtain ⟨hname, hvalue⟩ := fields_recordPut hlen' (j := 0) (by omega) ha hv
  refine ⟨recordPut (patch (initSpace buf) 8 (le32 1)) 0 a v, ?_,
    length_recordPut hlen' (by omega) ha hv, ?_, ?_, hname, hvalue⟩
  · simp only [modifyEnvParameter, hunused, if_true, setCount_eq hlen, Option.bind_eq_bind,
      Option.bind_some]
    exact putRecord_eq hlen' (by omega) ha hv hsrc
  · rw [hm, htake, slice_setCount hlen _ (by omega)]
    exact hmag
  · rw [hc, u32_setCount hlen (by omega)]

lemma modifyEnvParameter_fresh (hmagic : buf.take 5 ≠ envMagic) (ha : EnvName a) (hv : EnvValue v)
    (hsrc : cstr src = some v) :
    ∃ buf', modifyEnvParameter buf a src = some buf' ∧ TableOf buf' [(a, v)] := by
  obtain ⟨buf', hmod, hlen, hmag, hcount, hname, hvalue⟩ :=
    modifyEnvParameter_first hmagic ha.toShortName hv hsrc
  refine ⟨buf', hmod, ?_⟩
  exact @tableOf_append a v [] _ hlen hmag hcount (by simp) (by simp) hname hvalue (by simp) ha

/-- **Refinement of a write**: on the records it is `put`. -/
lemma modifyEnvParameter_holds (h : Holds buf recs) (ha : EnvName a) (hv : EnvValue v)
    (hsrc : cstr src = some v) :
    ∃ buf', modifyEnvParameter buf a src = some buf' ∧ TableOf buf' (put recs a v) := by
  rcases h with ⟨rfl, -, hmagic⟩ | h
  · exact modifyEnvParameter_fresh hmagic ha hv hsrc
  have hpos : 0 < recs.length := List.length_pos_of_ne_nil h.nonempty
  have hcount := h.i32_count
  have hmax : userDataParameterMaxCount = 30 := rfl
  have hbound := h.bound
  have hmodify : modifyEnvParameter buf a src =
      (scanRecords buf a (i32 buf 8) userDataParameterMaxCount 0).bind fun x =>
        if x.2 then putValue buf x.1 src
        else if (x.1 : ℤ) = i32 buf 8 then
          (putRecord buf x.1 a src).bind fun buf => setCount buf (u32 buf 8 + 1)
        else some buf := by
    simp only [modifyEnvParameter, initSpace, if_pos h.magic, h.firstUnused_eq, hcount,
      Option.bind_eq_bind]
    rw [if_neg (by decide), if_pos (by omega)]
    rfl
  rw [hmodify, h.scanRecords_count ha.noNul]
  unfold put
  cases hidx : recordIndex recs a with
  | some j =>
    obtain ⟨hlt, w, hw⟩ := recordIndex_spec hidx
    simp only [Option.bind_some, if_true]
    refine ⟨valuePut buf j v, putValue_eq h.length (by omega) hv hsrc, ?_⟩
    exact h.set (by omega) hw hv
  | none =>
    simp only [Option.bind_some, Bool.false_eq_true, if_false]
    by_cases hroom : recs.length ≤ 30
    · have hmin : min userDataParameterMaxCount recs.length = recs.length := by omega
      rw [if_pos hroom, hmin, if_pos hcount.symm, putRecord_eq h.length hroom ha.toShortName hv hsrc,
        Option.bind_some, setCount_eq (length_recordPut h.length hroom ha.toShortName hv)]
      exact ⟨_, rfl, h.append hroom ha hv⟩
    · rw [if_neg hroom, if_neg (by omega)]
      exact ⟨buf, rfl, h⟩

end Refine

/-! ## The abstract map -/

section Abstract

variable {recs : Records} {a b v : Bytes}

lemma recordIndex_set {j : ℕ} {w : Bytes} (hw : recs[j]? = some (a, w)) :
    recordIndex (recs.set j (a, v)) b = recordIndex recs b := by
  have hkeys : (recs.set j (a, v)).map Prod.fst = recs.map Prod.fst := by
    apply List.ext_getElem?
    intro i
    rw [List.getElem?_map, List.getElem?_map]
    by_cases hij : j = i
    · subst hij
      rw [List.getElem?_set_self (List.getElem?_eq_some_iff.mp hw).1, hw]
      rfl
    · rw [List.getElem?_set_ne hij]
  rw [recordIndex, recordIndex, hkeys]

lemma recordIndex_append (hroom : recs.length < 30) :
    recordIndex (recs ++ [(a, v)]) b =
      (recordIndex recs b).or (if a = b then some recs.length else none) := by
  have hmax : userDataParameterMaxCount = 30 := rfl
  rw [recordIndex, recordIndex, List.map_append, List.take_of_length_le (by simp; omega),
    List.take_of_length_le (by simp; omega), List.findIdx?_append]
  by_cases hab : a = b
  · simp [hab]
  · simp [hab]

lemma recordIndex_append_full (hfull : 30 ≤ recs.length) :
    recordIndex (recs ++ [(a, v)]) b = recordIndex recs b := by
  have hmax : userDataParameterMaxCount = 30 := rfl
  rw [recordIndex, recordIndex, List.map_append, List.take_append_of_le_length (by simp; omega)]

/-- Other names keep their values, whether or not the write is lost. -/
lemma find_put_other (hba : b ≠ a) : find (put recs a v) b = find recs b := by
  unfold put
  cases hidx : recordIndex recs a with
  | some j =>
    obtain ⟨-, w, hw⟩ := recordIndex_spec hidx
    unfold find
    rw [recordIndex_set hw]
    cases hb : recordIndex recs b with
    | none => rfl
    | some i =>
      obtain ⟨-, w', hw'⟩ := recordIndex_spec hb
      have hij : j ≠ i := by
        rintro rfl
        rw [hw] at hw'
        injection hw' with hpair
        injection hpair with hab
        exact hba hab.symm
      simp only [Option.bind_some, List.getElem?_set_ne hij]
  | none =>
    by_cases hle : recs.length ≤ 30
    · rw [if_pos hle]
      unfold find
      have hindex : recordIndex (recs ++ [(a, v)]) b = recordIndex recs b := by
        by_cases hroom : recs.length < 30
        · rw [recordIndex_append hroom, if_neg (Ne.symm hba), Option.or_none]
        · exact recordIndex_append_full (by omega)
      rw [hindex]
      cases hb : recordIndex recs b with
      | none => rfl
      | some i =>
        obtain ⟨-, w', hw'⟩ := recordIndex_spec hb
        have hi := (List.getElem?_eq_some_iff.mp hw').1
        simp only [Option.bind_some, List.getElem?_append_left hi]
    · rw [if_neg hle]

/-- The name itself has the new value exactly when it was found or one of the first 30 records
is free. -/
lemma find_put_self : find (put recs a v) a = some v ↔
    recordIndex recs a ≠ none ∨ recs.length < 30 := by
  unfold put
  cases hidx : recordIndex recs a with
  | some j =>
    obtain ⟨-, w, hw⟩ := recordIndex_spec hidx
    unfold find
    simp only [recordIndex_set hw, hidx, Option.bind_some,
      List.getElem?_set_self (List.getElem?_eq_some_iff.mp hw).1, Option.map_some]
    simp
  | none =>
    by_cases hroom : recs.length < 30
    · rw [if_pos (by omega)]
      unfold find
      simp [recordIndex_append hroom, hidx, hroom]
    · have hnone : recordIndex (if recs.length ≤ 30 then recs ++ [(a, v)] else recs) a = none := by
        split_ifs
        · rw [recordIndex_append_full (by omega), hidx]
        · exact hidx
      unfold find
      simp [hnone, hroom]

/-- A name is never found with another value than the one written. -/
lemma eq_of_find_put {w : Bytes} (hfind : find (put recs a v) a = some w) : w = v := by
  by_cases hroom : recordIndex recs a ≠ none ∨ recs.length < 30
  · rw [find_put_self.mpr hroom] at hfind
    exact (Option.some.inj hfind).symm
  · obtain ⟨hnone, hfull⟩ := not_or.mp hroom
    rw [not_not] at hnone
    have hindex : recordIndex (put recs a v) a = none := by
      unfold put
      rw [hnone]
      simp only
      split_ifs
      · rw [recordIndex_append_full (by omega), hnone]
      · exact hnone
    rw [find, hindex] at hfind
    cases hfind

lemma find_eq_none : find recs a = none ↔ recordIndex recs a = none := by
  unfold find
  cases hidx : recordIndex recs a with
  | none => simp
  | some j =>
    obtain ⟨-, w, hw⟩ := recordIndex_spec hidx
    simp [hw]

end Abstract

/-! ## Runs of the store -/

section Runs

open Prog

/-- What an undisturbed read returns. -/
def privateValue (o : Option Bytes) (buf : Bytes) (dl : ℤ) : ReadOut :=
  if buf.length < valueSize then ⟨-1, buf, dl⟩
  else
    match o with
    | some v => ⟨0, v ++ 0 :: buf.drop (v.length + 1), v.length⟩
    | none => ⟨-1, buf, dl⟩

variable {t t' : EnvStore} {recs : Records} {a v src : Bytes} {h : Bool}

lemma Holds.value_of_find {buf : Bytes} (hrecs : Holds buf recs) (hfind : find recs a = some v) :
    EnvValue v := by
  rcases hrecs with ⟨rfl, -, -⟩ | htable
  · cases hfind
  · unfold find at hfind
    cases hidx : recordIndex recs a with
    | none => simp [hidx] at hfind
    | some j =>
      obtain ⟨-, w, hw⟩ := recordIndex_spec hidx
      simp only [hidx, Option.bind_some, hw, Option.map_some, Option.some.injEq] at hfind
      subst hfind
      obtain ⟨h0, hlen, -⟩ := exists_of_valueAt (htable.fields j _ hw).2
      exact ⟨hlen, h0⟩

lemma strnlen_value (hv : EnvValue v) (rest : Bytes) : strnlen (v ++ 0 :: rest) valueSize = v.length := by
  have hsize : valueSize = 128 := rfl
  have hshort := hv.short
  have htake : (v ++ 0 :: rest).take valueSize = v ++ (0 :: rest).take (valueSize - v.length) := by
    rw [List.take_append, List.take_of_length_le (by omega)]
  have hall : ∀ c ∈ v, (c != 0) = true := by
    intro c hc
    rw [bne_iff_ne]
    rintro rfl
    exact hv.noNul hc
  have hone : valueSize - v.length = (valueSize - v.length - 1) + 1 := by omega
  rw [strnlen, htake, List.takeWhile_append_of_pos hall, hone, List.take_succ_cons,
    List.takeWhile_cons_of_neg (by decide), List.append_nil]

/-- The search for a name comes to `o`, whatever buffer it is given. -/
structure Finds (buf a : Bytes) (o : Option Bytes) : Prop where
  check : ∀ value : Bytes, valueSize ≤ value.length → checkEnvParameter buf a value =
    some (match o with
      | some v => (0, v ++ 0 :: value.drop (v.length + 1))
      | none => (-1, value))
  envValue : ∀ v, o = some v → EnvValue v

lemma Holds.finds {buf : Bytes} (hrecs : Holds buf recs) (ha : (0 : UInt8) ∉ a) :
    Finds buf a (find recs a) :=
  ⟨fun _ hlen => checkEnvParameter_holds hrecs ha hlen, fun _ hfind => hrecs.value_of_find hfind⟩

/-- In any table, a search that finds the name in one buffer finds it in all. -/
lemma finds_of_found {buf out : Bytes}
    (hfound : checkEnvParameter buf a (zeros valueSize) = some (0, out)) :
    ∃ v, Finds buf a (some v) := by
  have hsize : valueSize = 128 := rfl
  unfold checkEnvParameter at hfound
  split_ifs at hfound with hmagic hunused hcount
  · simp at hfound
  · simp at hfound
  · cases hscan : scanRecords buf a (i32 buf 8) userDataParameterMaxCount 0 with
    | none =>
      rw [hscan] at hfound
      cases hfound
    | some x =>
      obtain ⟨j, found⟩ := x
      rw [hscan] at hfound
      cases found with
      | false => simp at hfound
      | true =>
        simp only [Option.map_eq_some_iff, Prod.mk.injEq, true_and] at hfound
        obtain ⟨out, hcopy, -⟩ := hfound
        obtain ⟨v, hv, hstore⟩ := Option.bind_eq_some_iff.mp hcopy
        have hshort : v.length ≤ 127 := by
          unfold store at hstore
          split_ifs at hstore with hfit
          rw [List.length_append, List.length_singleton, length_zeros] at hfit
          omega
        refine ⟨v, fun value hvalue => ?_, fun w hw => ?_⟩
        · rw [checkEnvParameter, if_neg hmagic, if_neg hunused, if_pos hcount, hscan]
          simp only [strcpyAt, hv, Option.bind_some]
          rw [store_of_le (by simp; omega)]
          simp [patch]
        · obtain rfl := Option.some.inj hw
          exact ⟨hshort, (exists_of_cstr_eq_some hv).1⟩
  · simp at hfound

lemma wp_sunxiPrivateStoreRead_ok {o : Option Bytes} {buf : Bytes} {dl : ℤ}
    {Q : ReadOut → Bool → EnvStore → Prop} (hfinds : Finds t.userData a o)
    (hQ : Q (privateValue o buf dl) h t) :
    wp performEnv (fun _ c _ => c.ok = true) (sunxiPrivateStoreRead a buf dl) Q h t := by
  unfold sunxiPrivateStoreRead
  unfold privateValue at hQ
  by_cases hbuf : buf.length < valueSize
  · rw [if_pos hbuf] at hQ ⊢
    exact hQ
  rw [if_neg hbuf] at hQ ⊢
  refine wp_step fun c hc => ⟨_, _, rfl, ?_⟩
  rw [hc, if_neg (by simp)]
  refine wp_step fun c hc => ⟨_, _, rfl, ?_⟩
  simp only [hc, if_true, hfinds.check buf (Nat.not_lt.mp hbuf)]
  cases o with
  | none => exact hQ
  | some v =>
    have hlen := strnlen_value (hfinds.envValue v rfl) (buf.drop (v.length + 1))
    change Q ⟨0, v ++ 0 :: buf.drop (v.length + 1),
      strnlen (v ++ 0 :: buf.drop (v.length + 1)) valueSize⟩ h t
    rw [hlen]
    exact hQ

/-- A read that returns 0 has found its name. -/
lemma wp_sunxiPrivateStoreRead_found {buf : Bytes} {dl : ℤ} :
    wp performEnv (fun op c t => c.ok = true ∧ performEnv op c t ≠ none)
      (sunxiPrivateStoreRead a buf dl)
      (fun r _ _ => r.ret = 0 → ∃ out, checkEnvParameter t.userData a buf = some (0, out)) h t := by
  unfold sunxiPrivateStoreRead
  split_ifs
  · exact fun hret => absurd hret (by simp)
  refine wp_step fun c hc => ⟨_, _, rfl, ?_⟩
  rw [hc.1, if_neg (by simp)]
  refine wp_step fun c hc => ⟨_, _, rfl, ?_⟩
  cases hcheck : checkEnvParameter t.userData a buf with
  | none =>
    simp only [hc.1, if_true, hcheck]
    exact fun c' hc' => absurd rfl hc'.2
  | some x =>
    obtain ⟨ret, out⟩ := x
    simp only [hc.1, if_true, hcheck]
    change wp performEnv _ (if ret = 0 then _ else _) _ h t
    split_ifs with hret
    · exact fun _ => ⟨out, by rw [hret]⟩
    · exact fun hret' => absurd hret' (by simp)

lemma run_sunxiPrivateStoreRead {o : Option Bytes} {env : ℕ → Choice}
    (henv : ∀ n, (env n).ok = true) {buf : Bytes} {dl : ℤ} (hfinds : Finds t.userData a o) :
    ((sunxiPrivateStoreRead a buf dl).run performEnv ⟨h, env, t⟩).map Prod.fst =
      .ok (privateValue o buf dl) := by
  obtain ⟨r, c', hrun, hr⟩ := wp_run (G := fun c => c.ok = true) (c := ⟨h, env, t⟩)
    (Q := fun r _ _ => r = privateValue o buf dl) (wp_sunxiPrivateStoreRead_ok hfinds rfl) henv
  rw [hrun, hr]
  rfl

lemma EnvStore.userData_write {w : Bytes} (hw : w.length = userDataMaxsize) :
    (t.write w).userData = w := by
  change (w ++ t.userData.drop w.length).take userDataMaxsize = w
  rw [← hw, List.take_left]

lemma wp_sunxiPrivateStoreWrite_ok {Q : ℤ → Bool → EnvStore → Prop}
    (hrecs : Holds t.userData recs) (ha : EnvName a) (hv : EnvValue v) (hsrc : cstr src = some v)
    (hQ : ∀ t', TableOf t'.userData (put recs a v) → Q 0 h t') :
    wp performEnv (fun _ c _ => c.ok = true) (sunxiPrivateStoreWrite a src) Q h t := by
  obtain ⟨buf', hbuf', htable⟩ := modifyEnvParameter_holds hrecs ha hv hsrc
  unfold sunxiPrivateStoreWrite
  refine wp_step fun c hc => ⟨_, _, rfl, ?_⟩
  rw [hc, if_neg (by simp)]
  refine wp_step fun c hc => ⟨_, _, rfl, ?_⟩
  simp only [hc, if_true, hbuf']
  refine wp_step fun c hc => ⟨_, _, rfl, ?_⟩
  rw [if_pos (by simp [hc])]
  refine hQ _ ?_
  simp only [Choice.written, hc, if_true]
  rw [EnvStore.userData_write htable.length]
  exact htable

/-- A write of which any access may be reported to fail, if a failed write stores nothing. -/
lemma wp_sunxiPrivateStoreWrite {Ok : EnvOp → Choice → EnvStore → Prop}
    {Q : ℤ → Bool → EnvStore → Prop} (hread : ∀ c t', Ok .envRead c t' → c.Reported)
    (hwrite : ∀ buf c t', Ok (.envWrite buf) c t' → c.ok = true ∨ c.seen = true ∧ c.cut = 0)
    (hrecs : Holds t.userData recs) (ha : EnvName a) (hv : EnvValue v) (hsrc : cstr src = some v)
    (hfail : ∀ t', t'.userData = t.userData → Q (-1) h t')
    (hQ : ∀ t', TableOf t'.userData (put recs a v) → Q 0 h t') :
    wp performEnv Ok (sunxiPrivateStoreWrite a src) Q h t := by
  obtain ⟨buf', hbuf', htable⟩ := modifyEnvParameter_holds hrecs ha hv hsrc
  unfold sunxiPrivateStoreWrite
  refine wp_step fun _ _ => ⟨_, _, rfl, ?_⟩
  split_ifs
  · exact hfail t rfl
  refine wp_step fun c hc => ⟨_, _, rfl, ?_⟩
  cases hok : c.ok with
  | false =>
    have hseen : c.seen = true := (hread _ _ hc).resolve_left (by simp [hok])
    simp only [hseen, Bool.false_eq_true, if_false, if_true]
    exact hfail t rfl
  | true =>
    simp only [if_true, hbuf']
    refine wp_step fun c hc => ⟨_, _, rfl, ?_⟩
    cases hok : c.ok with
    | true =>
      refine hQ _ ?_
      simp only [Choice.written, hok, if_true]
      rw [EnvStore.userData_write htable.length]
      exact htable
    | false =>
      obtain ⟨hseen, hcut⟩ := (hwrite _ _ _ hc).resolve_left (by simp [hok])
      rw [hseen, if_neg (by simp)]
      refine hfail _ ?_
      have hlen := t.length
      simp only [Choice.written, hok, hcut]
      simp [EnvStore.write, ← hlen]

/-- One write with an admissible name and value, all partition accesses succeeding. -/
def PrivateStep (t t' : EnvStore) : Prop :=
  ∃ (h : Bool) (env : ℕ → Choice) (a v src : Bytes) (r : ℤ) (c' : Conf Choice EnvStore),
    EnvName a ∧ EnvValue v ∧ cstr src = some v ∧ (∀ n, (env n).ok = true) ∧
      (sunxiPrivateStoreWrite a src).run performEnv ⟨h, env, t⟩ = .ok (r, c') ∧ t' = c'.st

/-- What holds between two writes: the area is erased, or a table. -/
def PrivateInv (t : EnvStore) (recs : Records) : Prop :=
  (recs = [] ∧ t.userData = ffs userDataMaxsize) ∨ TableOf t.userData recs

lemma PrivateInv.holds (hinv : PrivateInv t recs) : Holds t.userData recs := by
  rcases hinv with ⟨rfl, hff⟩ | htable
  · refine Or.inl ⟨rfl, t.length, ?_⟩
    rw [hff, show (ffs userDataMaxsize).take 5 = slice (ffs userDataMaxsize) 0 5 from rfl, slice_ffs]
    intro heq
    have h0 : (ffs (min 5 (userDataMaxsize - 0)))[0]? = envMagic[0]? := by rw [heq]
    rw [ffs, List.getElem?_replicate, if_pos (by decide)] at h0
    exact absurd h0 (by decide)
  · exact Or.inr htable

lemma PrivateInv.step (hinv : PrivateInv t recs) (hstep : PrivateStep t t') :
    ∃ recs', PrivateInv t' recs' := by
  obtain ⟨h, env, a, v, src, r, c', ha, hv, hsrc, henv, hrun, rfl⟩ := hstep
  have hwp : wp performEnv (fun _ c _ => c.ok = true) (sunxiPrivateStoreWrite a src)
      (fun _ _ t' => ∃ recs', PrivateInv t' recs') h t :=
    wp_sunxiPrivateStoreWrite_ok hinv.holds ha hv hsrc fun t' ht' => ⟨_, Or.inr ht'⟩
  exact wp_of_run (G := fun c => c.ok = true) hwp henv hrun

lemma privateInv_of_run (hinv : PrivateInv t recs) (hrun : Relation.ReflTransGen PrivateStep t t') :
    ∃ recs', PrivateInv t' recs' := by
  induction hrun with
  | refl => exact ⟨recs, hinv⟩
  | tail _ hlast ih =>
    obtain ⟨recs', hinv'⟩ := ih
    exact hinv'.step hlast

/-- Every undisturbed read of `a` into a buffer the code accepts returns `v` and its length. -/
def ReadsValue (t : EnvStore) (a v : Bytes) : Prop :=
  ∀ (h : Bool) (env : ℕ → Choice) (buf : Bytes) (dl : ℤ), (∀ n, (env n).ok = true) →
    valueSize ≤ buf.length → ∃ c',
      (sunxiPrivateStoreRead a buf dl).run performEnv ⟨h, env, t⟩ =
        .ok (⟨0, v ++ 0 :: buf.drop (v.length + 1), v.length⟩, c')

/-- Undisturbed reads of `b` have the same outcome in both stores. -/
def SameValue (t t' : EnvStore) (b : Bytes) : Prop :=
  ∀ (h : Bool) (env env' : ℕ → Choice) (buf : Bytes) (dl : ℤ), (∀ n, (env n).ok = true) →
    (∀ n, (env' n).ok = true) →
    ((sunxiPrivateStoreRead b buf dl).run performEnv ⟨h, env', t'⟩).map Prod.fst =
      ((sunxiPrivateStoreRead b buf dl).run performEnv ⟨h, env, t⟩).map Prod.fst

/-- The name is found by the reader already, or one of the 30 records that the reader looks at
is free. -/
def HasRoom (t : EnvStore) (a : Bytes) : Prop :=
  (∃ out, checkEnvParameter t.userData a (zeros valueSize) = some (0, out)) ∨ i32 t.userData 8 < 30

lemma readsValue_iff {o : Option Bytes} (hfinds : Finds t.userData a o) :
    ReadsValue t a v ↔ o = some v := by
  constructor
  · intro hread
    obtain ⟨c', hrun⟩ := hread false smooth (zeros valueSize) 0 (fun _ => rfl) (by simp)
    have hval : ((sunxiPrivateStoreRead a (zeros valueSize) 0).run performEnv
        ⟨false, smooth, t⟩).map Prod.fst = .ok (privateValue o (zeros valueSize) 0) :=
      run_sunxiPrivateStoreRead (fun _ => rfl) hfinds
    rw [hrun] at hval
    injection hval with hval
    unfold privateValue at hval
    rw [if_neg (by simp)] at hval
    cases o with
    | none =>
      have hret : (0 : ℤ) = -1 := congrArg ReadOut.ret hval
      exact absurd hret (by decide)
    | some w =>
      simp only [ReadOut.mk.injEq, true_and, Int.natCast_inj] at hval
      rw [List.append_inj_left hval.1 hval.2]
  · rintro rfl h env buf dl henv hbuf
    have hval : ((sunxiPrivateStoreRead a buf dl).run performEnv ⟨h, env, t⟩).map Prod.fst =
        .ok (privateValue (some v) buf dl) := run_sunxiPrivateStoreRead henv hfinds
    unfold privateValue at hval
    rw [if_neg (by omega)] at hval
    simp only at hval
    cases hres : (sunxiPrivateStoreRead a buf dl).run performEnv ⟨h, env, t⟩ with
    | error e =>
      rw [hres] at hval
      cases hval
    | ok x =>
      rw [hres] at hval
      injection hval with hx
      exact ⟨x.2, by rw [← hx]⟩

lemma sameValue_of_find {recs' : Records} {b : Bytes} (hrecs : Holds t.userData recs)
    (hrecs' : Holds t'.userData recs') (hb : (0 : UInt8) ∉ b) (heq : find recs' b = find recs b) :
    SameValue t t' b := by
  intro h env env' buf dl henv henv'
  rw [run_sunxiPrivateStoreRead henv (hrecs.finds hb),
    run_sunxiPrivateStoreRead henv' (hrecs'.finds hb), heq]

lemma hasRoom_iff (hinv : PrivateInv t recs) (ha : (0 : UInt8) ∉ a) :
    HasRoom t a ↔ recordIndex recs a ≠ none ∨ recs.length < 30 := by
  have hcheck := checkEnvParameter_holds hinv.holds ha (show valueSize ≤ (zeros valueSize).length by simp)
  have hfound : (∃ out, checkEnvParameter t.userData a (zeros valueSize) = some (0, out)) ↔
      recordIndex recs a ≠ none := by
    rw [hcheck, ne_eq, ← find_eq_none]
    cases find recs a with
    | none => simp
    | some v => simp
  rw [HasRoom, hfound]
  rcases hinv with ⟨rfl, hff⟩ | htable
  · rw [hff, i32_ffs (by decide)]
    simp
  · rw [htable.i32_count]
    constructor
    · rintro (hf | hlt)
      · exact Or.inl hf
      · exact Or.inr (by omega)
    · rintro (hf | hlt)
      · exact Or.inl hf
      · exact Or.inr (by omega)

/-- The step lemma behind the theorem: one write to a store with the invariant. -/
lemma PrivateInv.write_iff (hinv : PrivateInv t recs) (ha : EnvName a) (hv : EnvValue v)
    (hsrc : cstr src = some v) {env : ℕ → Choice} (henv : ∀ n, (env n).ok = true) :
    ∃ c', (sunxiPrivateStoreWrite a src).run performEnv ⟨h, env, t⟩ = .ok (0, c') ∧
      TableOf c'.st.userData (put recs a v) ∧
      ((ReadsValue c'.st a v ∧ ∀ b, (0 : UInt8) ∉ b → b ≠ a → SameValue t c'.st b) ↔
        HasRoom t a) := by
  have hwp : wp performEnv (fun _ c _ => c.ok = true) (sunxiPrivateStoreWrite a src)
      (fun r _ t' => r = 0 ∧ TableOf t'.userData (put recs a v)) h t :=
    wp_sunxiPrivateStoreWrite_ok hinv.holds ha hv hsrc fun t' ht' => ⟨rfl, ht'⟩
  obtain ⟨r, c', hrun, rfl, htable⟩ := wp_run (G := fun c => c.ok = true) (c := ⟨h, env, t⟩)
    hwp henv
  refine ⟨c', hrun, htable, ?_⟩
  have hothers : ∀ b, (0 : UInt8) ∉ b → b ≠ a → SameValue t c'.st b :=
    fun b hb hba => sameValue_of_find hinv.holds (Or.inr htable) hb (find_put_other hba)
  rw [and_iff_left hothers, readsValue_iff (Holds.finds (Or.inr htable) ha.noNul), find_put_self,
    hasRoom_iff hinv ha.noNul]

/-- **The private store as a finite map.**  In every store reachable from an erased partition, a
write returns 0.  It makes its name read back as its value, and leaves the reads of all other
names, if and only if there is room for the name where the reader looks. -/
theorem privateStoreWrite_refines (t₀ t : EnvStore) (hff : t₀.userData = ffs userDataMaxsize)
    (hreach : Relation.ReflTransGen PrivateStep t₀ t) (a v src : Bytes) (ha : EnvName a)
    (hv : EnvValue v) (hsrc : cstr src = some v) (h : Bool) (env : ℕ → Choice)
    (henv : ∀ n, (env n).ok = true) :
    ∃ c', (sunxiPrivateStoreWrite a src).run performEnv ⟨h, env, t⟩ = .ok (0, c') ∧
      ((ReadsValue c'.st a v ∧ ∀ b, (0 : UInt8) ∉ b → b ≠ a → SameValue t c'.st b) ↔
        HasRoom t a) := by
  obtain ⟨recs, hinv⟩ := privateInv_of_run (Or.inl ⟨rfl, hff⟩) hreach
  obtain ⟨c', hrun, -, hiff⟩ := hinv.write_iff ha hv hsrc henv
  exact ⟨c', hrun, hiff⟩

/-! ### The thirty-first name -/

/-- An erased partition. -/
def erasedEnv : EnvStore := ⟨ffs userDataMaxsize, by simp [ffs]⟩

/-- The first write to an erased partition. -/
theorem privateStoreWrite_refines_first :
    ∃ c', (sunxiPrivateStoreWrite [97] [118, 0]).run performEnv ⟨false, smooth, erasedEnv⟩ =
      .ok (0, c') ∧ ReadsValue c'.st [97] [118] := by
  obtain ⟨c', hrun, hiff⟩ := privateStoreWrite_refines erasedEnv erasedEnv rfl .refl [97] [118]
    [118, 0] ⟨⟨by decide, by decide⟩, by rw [ffs]; decide⟩ ⟨by decide, by decide⟩ (by decide) false
    smooth fun _ => rfl
  refine ⟨c', hrun, (hiff.mpr (Or.inr ?_)).1⟩
  change i32 (ffs userDataMaxsize) 8 < 30
  rw [i32_ffs (by decide)]
  decide

/-- The names `1`, `2`, ..., each a single byte. -/
def sampleRecords (n : ℕ) : Records := (List.range n).map fun i => ([UInt8.ofNat (i + 1)], [])

lemma sampleName (i : ℕ) (hi : i < 31) : EnvName [UInt8.ofNat (i + 1)] := by
  have hnat : (UInt8.ofNat (i + 1)).toNat = i + 1 := by
    rw [UInt8.toNat_ofNat']
    omega
  refine ⟨⟨by simp, ?_⟩, ?_⟩
  · intro hmem
    have heq : UInt8.ofNat (i + 1) = 0 := (List.mem_singleton.mp hmem).symm
    rw [heq] at hnat
    exact absurd hnat (by simp)
  · intro hpre
    have hlen := hpre.length_le
    simp [ffs] at hlen

lemma recordIndex_sampleRecords {n : ℕ} (hn : n < 31) :
    recordIndex (sampleRecords n) [UInt8.ofNat (n + 1)] = none := by
  rw [recordIndex, List.findIdx?_eq_none_iff]
  intro b hb
  obtain ⟨r, hr, rfl⟩ := List.mem_map.mp (List.mem_of_mem_take hb)
  obtain ⟨i, hi, rfl⟩ := List.mem_map.mp hr
  have hlt := List.mem_range.mp hi
  rw [decide_eq_false_iff_not, List.singleton_inj]
  intro heq
  have hnat := congrArg UInt8.toNat heq
  rw [UInt8.toNat_ofNat', UInt8.toNat_ofNat'] at hnat
  omega

/-- Writing the names one after the other. -/
lemma exists_sampleRecords (n : ℕ) (hn : n ≤ 30) :
    ∃ t, Relation.ReflTransGen PrivateStep erasedEnv t ∧ PrivateInv t (sampleRecords n) := by
  induction n with
  | zero => exact ⟨erasedEnv, .refl, Or.inl ⟨rfl, rfl⟩⟩
  | succ n ih =>
    obtain ⟨t, hreach, hinv⟩ := ih (by omega)
    have hname := sampleName n (by omega)
    have hvalue : EnvValue [] := ⟨by simp, by simp⟩
    have hsrc : cstr [0] = some [] := by decide
    obtain ⟨c', hrun, htable, -⟩ := hinv.write_iff (h := false) hname hvalue hsrc
      (show ∀ k, (smooth k).ok = true from fun _ => rfl)
    have hput : put (sampleRecords n) [UInt8.ofNat (n + 1)] [] = sampleRecords (n + 1) := by
      have hlen : (sampleRecords n).length = n := by simp [sampleRecords]
      unfold put
      rw [recordIndex_sampleRecords (by omega)]
      simp only [hlen, if_pos (show n ≤ 30 by omega)]
      simp [sampleRecords, List.range_succ]
    rw [hput] at htable
    exact ⟨c'.st, hreach.tail ⟨false, smooth, _, _, _, _, c', hname, hvalue, hsrc, fun _ => rfl,
      hrun, rfl⟩, Or.inr htable⟩

/-- The thirty-first name is accepted and not found again. -/
theorem privateStoreWrite_loses_name :
    ¬ ∀ t₀ t : EnvStore, t₀.userData = ffs userDataMaxsize →
      Relation.ReflTransGen PrivateStep t₀ t → ∀ a v src : Bytes, EnvName a → EnvValue v →
      cstr src = some v → ∀ (h : Bool) (env : ℕ → Choice) (c' : Conf Choice EnvStore),
      (∀ n, (env n).ok = true) →
      (sunxiPrivateStoreWrite a src).run performEnv ⟨h, env, t⟩ = .ok (0, c') →
      ReadsValue c'.st a v ∧ ∀ b, (0 : UInt8) ∉ b → b ≠ a → SameValue t c'.st b := by
  intro hall
  obtain ⟨t, hreach, hinv⟩ := exists_sampleRecords 30 (by omega)
  have hname := sampleName 30 (by omega)
  have hvalue : EnvValue [] := ⟨by simp, by simp⟩
  have hsrc : cstr [0] = some [] := by decide
  obtain ⟨c', hrun, -, hiff⟩ := hinv.write_iff (h := false) hname hvalue hsrc
    (show ∀ k, (smooth k).ok = true from fun _ => rfl)
  have hroom := hiff.mp (hall erasedEnv t rfl hreach _ _ _ hname hvalue hsrc false smooth c'
    (fun _ => rfl) hrun)
  rw [hasRoom_iff hinv hname.noNul] at hroom
  rcases hroom with hfound | hlt
  · exact hfound (recordIndex_sampleRecords (by omega))
  · simp [sampleRecords] at hlt

end Runs

end Softwinner.SecureStorage
