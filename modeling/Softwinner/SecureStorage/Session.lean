import Mathlib.Logic.Relation
import Softwinner.Framework.Crc32
import Softwinner.SecureStorage.Device
import Softwinner.SecureStorage.Map

/-!
# Sessions of the secure store

The upper half of `libsec_storage/secure_storage.c`.  A session is opened by
`sunxi_secure_storage_init`, which takes `sec_mutex` and loads the map unless an earlier
session has left it loaded, and closed by `sunxi_secure_storage_exit`, which writes a dirty map
back and releases the mutex.  In between, `sunxi_secure_object_write` and
`sunxi_secure_object_read` move payloads under a name.

`itemName` is the C string without its NUL, `buffer` of a write the `length` bytes it passes.
`secure_object` of `sunxi_secure_object_write` is a stack array, so what it holds when the
lookup succeeds and the read does not is chosen by the environment; so are the globals' lock
and device failures of the layers below.
-/

namespace Softwinner.SecureStorage

open Framework

variable (crc32 : Bytes → UInt32)

/-! ## Items by name -/

def sunxiSecureStorageRead (itemName buffer : Bytes) (dataLen : ℤ) : Sec ReadOut := do
  if !(← call .getInited) then return ⟨-1, buffer, dataLen⟩
  if !(← call .malloc) then return ⟨-1, buffer, dataLen⟩
  let bufferToSec ← call (.uninit secBlkSize)
  let map ← call .getMap
  match ← orFault (probeNameInMap map itemName) with
  | none => return ⟨-1, buffer, dataLen⟩
  | some (index, lenInStore) =>
    let (ret, bufferToSec) ← sunxiSecstorageRead crc32 index bufferToSec
    if ret ≠ 0 then return ⟨-1, zeros buffer.length, dataLen⟩
    let n := min lenInStore buffer.length
    -- a negative length is converted to a huge `size_t`
    let data ← orFault (if 0 ≤ n ∧ n ≤ bufferToSec.length then some (bufferToSec.take n.toNat)
      else none)
    return ⟨0, patch (zeros buffer.length) 0 data, lenInStore⟩

def sunxiSecureStorageWrite (itemName buffer : Bytes) (length : ℕ) : Sec ℤ := do
  if !(← call .getInited) then return -1
  let map ← call .getMap
  let (index, map) ← orFault (fillNameInMap map itemName length)
  call (.setMap map)
  if index < 0 then return -1
  let ret ← sunxiSecstorageWrite index.toNat buffer
  if ret ≠ 0 then return -1
  call (.setDirty true)
  return 0

def sunxiSecureStorageProbe (itemName : Bytes) : Sec ℤ := do
  if !(← call .getInited) then return -1
  let map ← call .getMap
  match ← orFault (probeNameInMap map itemName) with
  | none => return -1
  | some _ => return 0

/-! ## Objects by name -/

/-- `dataLen` is what the caller's `*data_len` holds before the call. -/
def sunxiSecureObjectRead (itemName buffer : Bytes) (dataLen : ℤ) : Sec ReadOut := do
  let r ← sunxiSecureStorageRead crc32 itemName (zeros secBlkSize) 0
  if r.ret ≠ 0 then return ⟨-1, buffer, dataLen⟩
  orFault (unwrapSecureObject crc32 r.buffer r.dataLen buffer dataLen)

/-- The second half of `sunxi_secure_object_write`, behind the test for write protection. -/
def writeObject (itemName buffer : Bytes) : Sec ℤ :=
  match wrapSecureObject crc32 buffer itemName (zeros secBlkSize) with
  | none => return -1
  | some secureObject => sunxiSecureStorageWrite itemName secureObject storeObjectSize

/-- The test for write protection. -/
def LooksProtected (so : Bytes) : Prop :=
  u32 so 0 = storeObjectMagic ∧ u32 so 80 = storeWriteProtectMagic

instance (so : Bytes) : Decidable (LooksProtected so) :=
  inferInstanceAs (Decidable (_ ∧ _))

def sunxiSecureObjectWrite (itemName buffer : Bytes) : Sec ℤ := do
  let secureObject ← call (.uninit secBlkSize)
  if (← sunxiSecureStorageProbe itemName) = 0 then
    -- the test looks at the payload that was read, not at the object around it
    let so ← sunxiSecureObjectRead crc32 itemName secureObject 0
    if LooksProtected so.buffer then return -1
    else writeObject crc32 itemName buffer
  else writeObject crc32 itemName buffer

/-! ## Opening and closing -/

/-- The map that `sunxi_secure_storage_init` goes on with, from the one it has read. -/
def loadedMap (map : Bytes) : Bytes :=
  if checkSecureStorageMap crc32 map = -1 then zeros secBlkSize
  else if checkSecureStorageMap crc32 map = 2 then
    if map.getD 0 0 = 0xff ∨ map.getD 0 0 = 0 then zeros secBlkSize else map
  else map

def sunxiSecureStorageInit : Sec ℤ := do
  Prog.acquire
  if ← call .getInited then
    call (.setInited true)
    return 0
  else
    let _ ← getFlashType
    let map ← call .getMap
    let (ret, map) ← sunxiSecstorageRead crc32 0 map
    call (.setMap map)
    if ret = -1 then
      Prog.release
      return -1
    else
      call (.setMap (loadedMap crc32 map))
      call (.setInited true)
      return 0

/-- The map with its `magic` and `crc` set. -/
def sealedMap (map : Bytes) : Bytes :=
  let body := map.take mapDataSize ++ le32 storeObjectMagic
  body ++ le32 (crc32 body).toNat

/-- The end of `sunxi_secure_storage_exit`. -/
def closeSession : Sec ℤ := do
  call (.setInited false)
  call (.setDirty false)
  Prog.release
  return 0

def sunxiSecureStorageExit (mode : ℤ) : Sec ℤ := do
  if !(← call .getInited) then return -1
  let dirty ← if mode ≠ 0 then pure true else call .getDirty
  if dirty then
    let map ← call .getMap
    let map := sealedMap crc32 map
    call (.setMap map)
    let ret ← sunxiSecstorageWrite 0 map
    if ret < 0 then
      Prog.release
      return -1
    else closeSession
  else closeSession

def secureStorageSupport : Sec ℤ := do
  if !(← call .accessSocInfo) then return -1
  if (← sunxiSecureStorageInit crc32) < 0 then return -1
  let _ ← sunxiSecureStorageExit crc32 0
  return 0

/-! ## Specifications of the operations on names -/

section Spec

open Prog

variable {crc32} {Ok : Op → Choice → Store → Prop} {h : Bool} {s : Store} {a p buf : Bytes}
  {names : List Bytes} {dl : ℤ}

lemma wp_orFault {α : Type} {o : Option α} {Q : α → Bool → Store → Prop}
    (hsome : ∀ x, o = some x → Q x h s) (hnone : o = none → ∀ c s', ¬ Ok .fault c s') :
    wp perform Ok (orFault o) Q h s := by
  cases o with
  | some x => exact hsome x rfl
  | none => exact fun c hc => absurd hc (hnone rfl c s)

/-- Reading leaves the store alone, whatever fails. -/
lemma wp_sunxiSecureObjectRead_frame {Q : ReadOut → Bool → Store → Prop}
    (hfault : ∀ c s', ¬ Ok .fault c s') (hQ : ∀ r, Q r h s) :
    wp perform Ok (sunxiSecureObjectRead crc32 a buf dl) Q h s := by
  unfold sunxiSecureObjectRead
  rw [wp_bind]
  have hread : wp perform Ok (sunxiSecureStorageRead crc32 a (zeros secBlkSize) 0)
      (fun _ h' s' => h' = h ∧ s' = s) h s := by
    unfold sunxiSecureStorageRead
    refine wp_step fun _ _ => ⟨_, _, rfl, ?_⟩
    split_ifs
    · exact ⟨rfl, rfl⟩
    refine wp_step fun _ _ => ⟨_, _, rfl, ?_⟩
    split_ifs
    · exact ⟨rfl, rfl⟩
    refine wp_step fun _ _ => ⟨_, _, rfl, ?_⟩
    refine wp_step fun _ _ => ⟨_, _, rfl, ?_⟩
    rw [wp_bind]
    refine wp_orFault (fun x _ => ?_) fun _ => hfault
    cases x with
    | none => exact ⟨rfl, rfl⟩
    | some x =>
      obtain ⟨index, len⟩ := x
      simp only
      rw [wp_bind]
      refine wp_nvRead_frame fun r b' _ => ?_
      simp only
      by_cases hr : r = 0
      · rw [if_neg (not_not.mpr hr), wp_bind]
        exact wp_orFault (fun _ _ => ⟨rfl, rfl⟩) fun _ => hfault
      · rw [if_pos hr]
        exact ⟨rfl, rfl⟩
  refine wp_mono hread ?_
  rintro r h' s' ⟨rfl, rfl⟩
  split_ifs
  · exact hQ _
  · exact wp_orFault (fun _ _ => hQ _) fun _ => hfault

/-- The item an insertion of `a` ends up with, the map it leaves, and the names of that map. -/
inductive Slot (m : Bytes) (names : List Bytes) (a : Bytes) : ℕ → Bytes → List Bytes → Prop
  | found {k : ℕ} (hk : indexOf names a = some k) : Slot m names a k m names
  | added (hnone : indexOf names a = none) (hroom : names.length < 31) :
      Slot m names a (names.length + 1) (appendName m names a) (names ++ [a])

lemma Slot.mapOf {m m' : Bytes} {names' : List Bytes} {k : ℕ} (hs : Slot m names a k m' names')
    (hmap : MapOf m names) (ha : ItemName a) : MapOf m' names' := by
  cases hs with
  | found hk => exact hmap
  | added hnone hroom => exact hmap.appendName ha hnone hroom

lemma Slot.index {m m' : Bytes} {names' : List Bytes} {k : ℕ} (hs : Slot m names a k m' names')
    (hmap : MapOf m names) : 1 ≤ k ∧ k ≤ 31 ∧ indexOf names' a = some k := by
  have hcount := hmap.count
  cases hs with
  | found hk =>
    have hle := indexOf_le hk
    exact ⟨hle.1, by omega, hk⟩
  | added hnone hroom =>
    refine ⟨by omega, by omega, ?_⟩
    rw [indexOf_append, hnone, if_pos List.prefix_rfl]
    rfl

/-- `sunxi_secure_storage_write` in an open session, over the block write it makes. -/
lemma wp_sunxiSecureStorageWrite {Q : ℤ → Bool → Store → Prop}
    (hmap : MapOf s.secureStorageMap names) (ha : ItemName a)
    (hinit : s.secureStorageInited = true)
    (hfull : indexOf names a = none ∧ names.length = 31 → Q (-1) h s)
    (hslot : ∀ k m' names', Slot s.secureStorageMap names a k m' names' →
      wp perform Ok (nvWrite k buf) (fun r h' s' =>
        (r ≠ 0 → Q (-1) h' s') ∧ (r = 0 → Q 0 h' { s' with mapDirty := true })) h
        { s with secureStorageMap := m' }) :
    wp perform Ok (sunxiSecureStorageWrite a buf storeObjectSize) Q h s := by
  have hstep : ∀ k m' names', Slot s.secureStorageMap names a k m' names' →
      wp perform Ok (sunxiSecstorageWrite k buf >>= fun ret =>
        if ret ≠ 0 then pure (-1) else call (.setDirty true) >>= fun _ => pure 0) Q h
        { s with secureStorageMap := m' } := by
    intro k m' names' hsl
    rw [wp_bind]
    refine wp_mono (hslot k m' names' hsl) ?_
    rintro r h' s' ⟨hfail, hok⟩
    by_cases hr : r = 0
    · rw [if_neg (not_not.mpr hr)]
      exact wp_step fun _ _ => ⟨_, _, rfl, hok hr⟩
    · rw [if_pos hr]
      exact hfail hr
  unfold sunxiSecureStorageWrite
  refine wp_step fun _ _ => ⟨_, _, rfl, ?_⟩
  rw [hinit, if_neg (by simp)]
  refine wp_step fun _ _ => ⟨_, _, rfl, ?_⟩
  rw [fillNameInMap_mapOf hmap ha]
  cases hidx : indexOf names a with
  | some k =>
    refine wp_step fun _ _ => ⟨_, _, rfl, ?_⟩
    rw [if_neg (by omega)]
    exact hstep k _ _ (Slot.found hidx)
  | none =>
    have hcount := hmap.count
    by_cases hfullc : names.length = 31
    · simp only [if_pos hfullc]
      refine wp_step fun _ _ => ⟨_, _, rfl, ?_⟩
      rw [if_pos (show (-1 : ℤ) < 0 by decide)]
      exact hfull ⟨hidx, hfullc⟩
    · simp only [if_neg hfullc]
      refine wp_step fun _ _ => ⟨_, _, rfl, ?_⟩
      rw [if_neg (by omega)]
      exact hstep _ _ _ (Slot.added hidx (by omega))

/-- The ways `sunxi_secure_object_write` stops before it reads or writes anything: the session
is closed, the payload is too long, or the table is full. -/
def Refuses (s : Store) (names : List Bytes) (a p : Bytes) : Prop :=
  s.secureStorageInited = false ∨ maxStoreLen < p.length ∨
    (indexOf names a = none ∧ names.length = 31)

/-- `sunxi_secure_object_write` over the read, the insertion and the block write it makes. -/
lemma wp_sunxiSecureObjectWrite {Q : ℤ → Bool → Store → Prop}
    (hmap : MapOf s.secureStorageMap names) (ha : ItemName a)
    (hread : indexOf names a ≠ none → s.secureStorageInited = true → ∀ c : Choice,
      Ok (.uninit secBlkSize) c s →
      wp perform Ok (sunxiSecureObjectRead crc32 a ((List.range secBlkSize).map c.junk) 0)
        (fun r h' s' => h' = h ∧ s' = s ∧ (LooksProtected r.buffer → Q (-1) h s)) h s)
    (hsame : Refuses s names a p → Q (-1) h s)
    (hslot : s.secureStorageInited = true → ∀ obj,
      wrapSecureObject crc32 p a (zeros secBlkSize) = some obj →
      ∀ k m' names', Slot s.secureStorageMap names a k m' names' →
      wp perform Ok (nvWrite k obj) (fun r h' s' =>
        (r ≠ 0 → Q (-1) h' s') ∧ (r = 0 → Q 0 h' { s' with mapDirty := true })) h
        { s with secureStorageMap := m' }) :
    wp perform Ok (sunxiSecureObjectWrite crc32 a p) Q h s := by
  have hwrite : wp perform Ok (writeObject crc32 a p) Q h s := by
    unfold writeObject
    cases hwrap : wrapSecureObject crc32 p a (zeros secBlkSize) with
    | none =>
      refine hsame (Or.inr (Or.inl ?_))
      by_contra hle
      rw [wrapSecureObject, if_neg hle] at hwrap
      cases hwrap
    | some obj =>
      cases hinit : s.secureStorageInited with
      | false =>
        unfold sunxiSecureStorageWrite
        refine wp_step fun _ _ => ⟨_, _, rfl, ?_⟩
        rw [hinit, if_pos (by simp)]
        exact hsame (Or.inl hinit)
      | true =>
        exact wp_sunxiSecureStorageWrite hmap ha hinit
          (fun hfull => hsame (Or.inr (Or.inr hfull))) (hslot hinit obj hwrap)
  unfold sunxiSecureObjectWrite
  refine wp_step fun c hc => ⟨_, _, rfl, ?_⟩
  unfold sunxiSecureStorageProbe
  rw [wp_bind]
  refine wp_step fun _ _ => ⟨_, _, rfl, ?_⟩
  cases hinit : s.secureStorageInited with
  | false =>
    rw [if_pos (by simp)]
    exact hwrite
  | true =>
    rw [if_neg (by simp)]
    refine wp_step fun _ _ => ⟨_, _, rfl, ?_⟩
    rw [probeNameInMap_mapOf hmap ha]
    cases hidx : indexOf names a with
    | none => exact hwrite
    | some k =>
      have hfound : indexOf names a ≠ none := by
        rw [hidx]
        simp
      change wp perform Ok (sunxiSecureObjectRead crc32 a _ 0 >>= _) Q h s
      refine wp_bind_of (hread hfound hinit c hc) ?_
      rintro r h' s' ⟨rfl, rfl, hprot⟩
      by_cases hlooks : LooksProtected r.buffer
      · rw [if_pos hlooks]
        exact hprot hlooks
      · rw [if_neg hlooks]
        exact hwrite

/-- In a closed session a write is refused. -/
lemma wp_sunxiSecureObjectWrite_closed {Q : ℤ → Bool → Store → Prop}
    (hclosed : s.secureStorageInited = false) (hQ : Q (-1) h s) :
    wp perform Ok (sunxiSecureObjectWrite crc32 a p) Q h s := by
  unfold sunxiSecureObjectWrite
  refine wp_step fun _ _ => ⟨_, _, rfl, ?_⟩
  unfold sunxiSecureStorageProbe
  rw [wp_bind]
  refine wp_step fun _ _ => ⟨_, _, rfl, ?_⟩
  rw [hclosed, if_pos (by simp), wp_pure, if_neg (by decide)]
  unfold writeObject
  cases wrapSecureObject crc32 p a (zeros secBlkSize) with
  | none => exact hQ
  | some obj =>
    unfold sunxiSecureStorageWrite
    refine wp_step fun _ _ => ⟨_, _, rfl, ?_⟩
    rw [hclosed, if_pos (by simp)]
    exact hQ

end Spec

/-! ## Undisturbed sessions

The laws for system calls that succeed, where results are determined.  A read finds the object as it was
wrapped, because the buffer a block is copied into was zeroed like the buffer it was wrapped
in. -/

section Undisturbed

open Prog

/-- What `sunxi_secure_object_read` unwraps: the object's bytes of the block, in a zeroed
buffer. -/
def loadedObject (block : Bytes) : Bytes :=
  patch (zeros secBlkSize) 0 (block.take storeObjectSize)

/-- The block a name leads to. -/
def blockOf (crc32 : Bytes → UInt32) (s : Store) (names : List Bytes) (a : Bytes) : Option Bytes :=
  (indexOf names a).bind (item crc32 s)

variable {crc32 : Bytes → UInt32} {Ok : Op → Choice → Store → Prop} {h : Bool} {s : Store}
  {a buf : Bytes} {names : List Bytes} {dl : ℤ}

lemma loadedObject_eq {block : Bytes} (hlen : block.length = secBlkSize) :
    loadedObject block = block.take storeObjectSize ++ zeros (secBlkSize - storeObjectSize) := by
  have hobj : storeObjectSize = 3176 := rfl
  have hblk : secBlkSize = 4096 := rfl
  have htake : (block.take storeObjectSize).length = storeObjectSize := by
    rw [List.length_take]
    omega
  simp only [loadedObject, patch, List.take_zero, List.nil_append, htake, drop_zeros, Nat.zero_add]

lemma loadedObject_wrap {src name block : Bytes}
    (hwrap : wrapSecureObject crc32 src name (zeros secBlkSize) = some block) :
    loadedObject block = block := by
  have hobj : storeObjectSize = 3176 := rfl
  have hlen : block.length = secBlkSize := length_wrap (by simp) hwrap
  obtain ⟨hsrc, hform⟩ := wrapSecureObject_eq hwrap
  have hbody : (objectBody src name (zeros secBlkSize) ++
      le32 (crc32 (objectBody src name (zeros secBlkSize))).toNat).length = storeObjectSize := by
    rw [List.length_append, length_objectBody hsrc (by simp), length_le32, hobj]
  rw [loadedObject_eq hlen, hform, ← hbody, List.take_left, drop_zeros]

/-- The block read, or the failure, that `sunxi_secure_storage_read` hands on. -/
lemma wp_sunxiSecureStorageRead_ok {Q : ReadOut → Bool → Store → Prop} (hOk : ReadsOk Ok s)
    (hinit : s.secureStorageInited = true) (hknown : Known s.flashBootType)
    (hmap : MapOf s.secureStorageMap names) (ha : ItemName a)
    (hsome : ∀ block, blockOf crc32 s names a = some block →
      Q ⟨0, loadedObject block, storeObjectSize⟩ h s)
    (hnone : blockOf crc32 s names a = none → ∀ b, Q ⟨-1, b, dl⟩ h s) :
    wp perform Ok (sunxiSecureStorageRead crc32 a (zeros secBlkSize) dl) Q h s := by
  have hcount := hmap.count
  have hmax : maxSecureStorageMaxItem = 32 := rfl
  have hobj : storeObjectSize = 3176 := rfl
  have hblk : secBlkSize = 4096 := rfl
  unfold blockOf at hsome hnone
  unfold sunxiSecureStorageRead
  refine wp_step fun _ _ => ⟨_, _, rfl, ?_⟩
  rw [hinit, if_neg (by simp)]
  refine wp_step fun c hc => ⟨_, _, rfl, ?_⟩
  rw [hOk _ c hc rfl, if_neg (by simp)]
  refine wp_step fun _ _ => ⟨_, _, rfl, ?_⟩
  refine wp_step fun _ _ => ⟨_, _, rfl, ?_⟩
  rw [probeNameInMap_mapOf hmap ha, wp_bind]
  cases hidx : indexOf names a with
  | none =>
    rw [hidx] at hnone
    exact hnone rfl _
  | some k =>
    have hk := indexOf_le hidx
    rw [hidx] at hsome hnone
    change wp perform Ok (sunxiSecstorageRead crc32 k _ >>= _) Q h s
    rw [wp_bind]
    refine wp_nvRead_item_ok hOk hknown ⟨by omega, by omega⟩ (by simp) ?_ ?_
    · intro block hblock
      have hlen : block.length = secBlkSize := length_item hblock
      have hmin : min (storeObjectSize : ℤ) ((zeros secBlkSize).length : ℤ) = storeObjectSize := by
        rw [length_zeros]
        omega
      simp only [hmin]
      rw [if_neg (by simp), if_pos ⟨by omega, by omega⟩]
      have hQ := hsome block hblock
      unfold loadedObject at hQ
      rw [length_zeros]
      exact hQ
    · intro b' hblock
      simp only
      rw [if_pos (by decide)]
      exact hnone hblock _

/-- What an undisturbed read returns, including the case that the payload does not fit. -/
def readValue (crc32 : Bytes → UInt32) (block : Option Bytes) (buf : Bytes) (dl : ℤ) :
    Except Halt ReadOut :=
  match block with
  | none => .ok ⟨-1, buf, dl⟩
  | some block =>
    match unwrapSecureObject crc32 (loadedObject block) storeObjectSize buf dl with
    | some r => .ok r
    | none => .error .undefined

lemma run_sunxiSecureObjectRead {env : ℕ → Choice} (henv : ∀ n, (env n).ok = true)
    (hinit : s.secureStorageInited = true) (hknown : Known s.flashBootType)
    (hmap : MapOf s.secureStorageMap names) (ha : ItemName a) :
    ((sunxiSecureObjectRead crc32 a buf dl).run perform ⟨h, env, s⟩).map Prod.fst =
      readValue crc32 (blockOf crc32 s names a) buf dl := by
  have hwp : wp perform AllOk (sunxiSecureStorageRead crc32 a (zeros secBlkSize) 0) (fun r _ _ =>
      match blockOf crc32 s names a with
      | none => r.ret = -1
      | some block => r = ⟨0, loadedObject block, storeObjectSize⟩) h s := by
    refine wp_sunxiSecureStorageRead_ok (readsOk_allOk s) hinit hknown hmap ha ?_ ?_
    · intro block hblock
      rw [hblock]
    · intro hblock b
      rw [hblock]
  obtain ⟨r, c', hrun, hr⟩ := wp_run (G := fun c => c.ok = true) (c := ⟨h, env, s⟩) hwp henv
  unfold sunxiSecureObjectRead
  rw [run_bind, hrun]
  cases hblock : blockOf crc32 s names a with
  | none =>
    rw [hblock] at hr
    simp only at hr
    simp only [hr]
    rfl
  | some block =>
    rw [hblock] at hr
    simp only at hr
    subst hr
    simp only [ne_eq, not_true, if_false, readValue]
    cases unwrapSecureObject crc32 (loadedObject block) storeObjectSize buf dl with
    | none => rfl
    | some r => rfl

/-- An undisturbed write of a name that is not found. -/
lemma wp_sunxiSecureObjectWrite_new_ok {p : Bytes} {Q : ℤ → Bool → Store → Prop}
    (hmap : MapOf s.secureStorageMap names) (ha : ItemName a)
    (hinit : s.secureStorageInited = true) (hknown : Known s.flashBootType)
    (hnone : indexOf names a = none) (hroom : names.length < 31) (hp : p.length ≤ maxStoreLen)
    (hQ : ∀ obj, wrapSecureObject crc32 p a (zeros secBlkSize) = some obj →
      Q 0 h { written { s with secureStorageMap := appendName s.secureStorageMap names a }
        (names.length + 1) obj with mapDirty := true }) :
    wp perform AllOk (sunxiSecureObjectWrite crc32 a p) Q h s := by
  refine wp_sunxiSecureObjectWrite hmap ha (fun hne => absurd hnone hne) ?_ ?_
  · rintro (hclosed | hlong | hfull)
    · exact absurd (hclosed.symm.trans hinit) (by decide)
    · omega
    · omega
  · intro _ obj hwrap k m' names' hsl
    have hmax : maxSecureStorageMaxItem = 32 := rfl
    have hk := (hsl.index hmap).2.1
    cases hsl with
    | found hk => exact nomatch hnone.symm.trans hk
    | added _ _ =>
      refine wp_nvWrite_ok (writesOk_allOk _ _) hknown (by omega)
        (Nat.le_of_eq (length_wrap (by simp) hwrap)) ⟨fun hr => absurd rfl hr, fun _ => hQ obj hwrap⟩

/-! ### Opening and closing -/

lemma wp_getFlashType_ok {Q : ℤ → Bool → Store → Prop} (hOk : ReadsOk Ok s)
    (hQ : ∀ r, Q r h { s with flashBootType := bootDevice s }) :
    wp perform Ok getFlashType Q h s := by
  unfold getFlashType getInfoFromCmdline
  rw [wp_bind]
  refine wp_step fun c hc => ⟨_, _, rfl, ?_⟩
  rw [if_pos (hOk _ c hc rfl)]
  simp only [wp_pure]
  unfold bootDevice at hQ
  cases hkey : findKey bootTypeKey (s.cmdline.take 1024) with
  | none =>
    rw [hkey] at hQ
    exact hQ _
  | some x =>
    rw [hkey] at hQ
    refine wp_step fun _ _ => ⟨_, _, rfl, ?_⟩
    exact hQ _

/-- Opening a closed session. -/
lemma wp_sunxiSecureStorageInit_ok {m : Bytes} {Q : ℤ → Bool → Store → Prop}
    (hOk : ∀ b, ReadsOk Ok { s with flashBootType := b })
    (hinit : s.secureStorageInited = false) (hlen : s.secureStorageMap.length = secBlkSize)
    (hm : HoldsMap crc32 (bootDevice s) s m)
    (hopen : Known (bootDevice s) → Q 0 true { s with
      flashBootType := bootDevice s, secureStorageMap := loadedMap crc32 m,
      secureStorageInited := true })
    (hfail : ¬ Known (bootDevice s) → Q (-1) false { s with flashBootType := bootDevice s }) :
    wp perform Ok (sunxiSecureStorageInit crc32) Q false s := by
  unfold sunxiSecureStorageInit
  refine ⟨rfl, ?_⟩
  refine wp_step fun _ _ => ⟨_, _, rfl, ?_⟩
  rw [hinit, if_neg (by simp), wp_bind]
  refine wp_getFlashType_ok (hOk s.flashBootType) fun _ => ?_
  refine wp_step fun _ _ => ⟨_, _, rfl, ?_⟩
  rw [wp_bind]
  by_cases hknown : Known (bootDevice s)
  · refine wp_nvRead_map_ok (hOk _) hknown (hm.of_flash rfl rfl) hlen ?_
    refine wp_step fun _ _ => ⟨_, _, rfl, ?_⟩
    rw [if_neg (by decide)]
    refine wp_step fun _ _ => ⟨_, _, rfl, ?_⟩
    refine wp_step fun _ _ => ⟨_, _, rfl, ?_⟩
    exact hopen hknown
  · have hne : bootDevice s ≠ flashTypeNand := fun h => hknown (Or.inl h)
    have hne' : ¬ (bootDevice s = flashTypeSd1 ∨ bootDevice s = flashTypeSd2) :=
      fun h => hknown (Or.inr h)
    unfold sunxiSecstorageRead nvRead
    refine wp_step fun _ _ => ⟨_, _, rfl, ?_⟩
    rw [if_neg hne, if_neg hne']
    refine wp_step fun _ _ => ⟨_, _, rfl, ?_⟩
    rw [if_pos rfl]
    exact ⟨rfl, hfail hknown⟩

lemma length_sealedMap {map : Bytes} (hlen : map.length = secBlkSize) :
    (sealedMap crc32 map).length = secBlkSize := by
  have hblk : secBlkSize = 4096 := rfl
  have hmap : mapDataSize = 4088 := rfl
  simp only [sealedMap, List.length_append, List.length_take, length_le32]
  omega

lemma length_sealedMap_le (map : Bytes) : (sealedMap crc32 map).length ≤ secBlkSize := by
  have hblk : secBlkSize = 4096 := rfl
  have hmap : mapDataSize = 4088 := rfl
  simp only [sealedMap, List.length_append, List.length_take, length_le32]
  omega

lemma take_sealedMap {map : Bytes} (hlen : map.length = secBlkSize) :
    (sealedMap crc32 map).take mapDataSize = map.take mapDataSize := by
  have hblk : secBlkSize = 4096 := rfl
  have hmap : mapDataSize = 4088 := rfl
  have htake : (map.take mapDataSize).length = mapDataSize := by
    rw [List.length_take]
    omega
  simp only [sealedMap, List.append_assoc]
  rw [List.take_append_of_le_length (by omega), List.take_take, Nat.min_self]

/-- A sealed map passes its check. -/
lemma checkSecureStorageMap_sealedMap {map : Bytes} (hlen : map.length = secBlkSize) :
    checkSecureStorageMap crc32 (sealedMap crc32 map) = 0 := by
  have hblk : secBlkSize = 4096 := rfl
  have hmap : mapDataSize = 4088 := rfl
  have htake : (map.take mapDataSize).length = 4088 := by
    rw [List.length_take]
    omega
  have hbody : (map.take mapDataSize ++ le32 storeObjectMagic).length = 4092 := by
    rw [List.length_append, htake, length_le32]
  have hmagic : u32 (sealedMap crc32 map) 4088 = storeObjectMagic :=
    u32_append_le32 htake (by decide)
  have hcrc : u32 (sealedMap crc32 map) 4092 =
      (crc32 (map.take mapDataSize ++ le32 storeObjectMagic)).toNat := by
    have hnil : sealedMap crc32 map = sealedMap crc32 map ++ [] := (List.append_nil _).symm
    rw [hnil]
    exact u32_append_le32 hbody (UInt32.toNat_lt _)
  have hprefix : (sealedMap crc32 map).take 4092 =
      map.take mapDataSize ++ le32 storeObjectMagic := by
    simp only [sealedMap]
    rw [← hbody, List.take_left]
  rw [checkSecureStorageMap, hmagic, hcrc, hprefix]
  simp

lemma loadedMap_of_check {map : Bytes} (hcheck : checkSecureStorageMap crc32 map = 0) :
    loadedMap crc32 map = map := by
  unfold loadedMap
  rw [hcheck, if_neg (by decide), if_neg (by decide)]

lemma MapOf.sealedMap {map : Bytes} (hmap : MapOf map names) :
    MapOf (sealedMap crc32 map) names :=
  hmap.congr (length_sealedMap hmap.length) (take_sealedMap hmap.length)

/-- The store a session leaves behind when it writes its map. -/
def closedDirty (crc32 : Bytes → UInt32) (s : Store) : Store :=
  { written { s with secureStorageMap := sealedMap crc32 s.secureStorageMap } 0
      (sealedMap crc32 s.secureStorageMap) with secureStorageInited := false, mapDirty := false }

/-- The flash has the session's map. -/
lemma holdsMap_closedDirty {s : Store} (hlen : s.secureStorageMap.length = secBlkSize) :
    HoldsMap crc32 s.flashBootType (closedDirty crc32 s) (sealedMap crc32 s.secureStorageMap) := by
  have hholds : HoldsMap crc32 s.flashBootType
      (written { s with secureStorageMap := sealedMap crc32 s.secureStorageMap } 0
        (sealedMap crc32 s.secureStorageMap)) (sealedMap crc32 s.secureStorageMap) :=
    @holdsMap_written _ { s with secureStorageMap := sealedMap crc32 s.secureStorageMap } _
      (length_sealedMap hlen) (checkSecureStorageMap_sealedMap hlen)
  exact hholds.of_flash rfl rfl

/-- The other items stay. -/
lemma item_closedDirty {s : Store} (hlen : s.secureStorageMap.length = secBlkSize) {j : ℕ}
    (hj : j ≠ 0) : item crc32 (closedDirty crc32 s) j = item crc32 s j := by
  have hmoved : Touched 0 { s with secureStorageMap := sealedMap crc32 s.secureStorageMap }
      (written { s with secureStorageMap := sealedMap crc32 s.secureStorageMap } 0
        (sealedMap crc32 s.secureStorageMap)) := touched_written (length_sealedMap hlen)
  calc item crc32 (closedDirty crc32 s) j
      = item crc32 (written { s with secureStorageMap := sealedMap crc32 s.secureStorageMap } 0
          (sealedMap crc32 s.secureStorageMap)) j := item_of_flash rfl rfl rfl
    _ = item crc32 { s with secureStorageMap := sealedMap crc32 s.secureStorageMap } j :=
        hmoved.item_eq hj
    _ = item crc32 s j := item_of_flash rfl rfl rfl

/-- Closing an open session. -/
lemma wp_sunxiSecureStorageExit_ok {mode : ℤ} {Q : ℤ → Bool → Store → Prop}
    (hinit : s.secureStorageInited = true) (hknown : Known s.flashBootType)
    (hdirty : mode ≠ 0 ∨ s.mapDirty = true → Q 0 false (closedDirty crc32 s))
    (hclean : mode = 0 → s.mapDirty = false →
      Q 0 false { s with secureStorageInited := false, mapDirty := false }) :
    wp perform AllOk (sunxiSecureStorageExit crc32 mode) Q true s := by
  have hclose : ∀ s', Q 0 false { s' with secureStorageInited := false, mapDirty := false } →
      wp perform AllOk closeSession Q true s' := by
    intro s' hQ
    unfold closeSession
    refine wp_step fun _ _ => ⟨_, _, rfl, ?_⟩
    refine wp_step fun _ _ => ⟨_, _, rfl, ?_⟩
    exact ⟨rfl, hQ⟩
  have hwrite : Q 0 false (closedDirty crc32 s) →
      wp perform AllOk (call .getMap >>= fun map =>
        call (.setMap (sealedMap crc32 map)) >>= fun _ =>
        sunxiSecstorageWrite 0 (sealedMap crc32 map) >>= fun ret =>
        if ret < 0 then (Prog.release >>= fun _ => pure (-1)) else closeSession) Q true s := by
    intro hQ
    refine wp_step fun _ _ => ⟨_, _, rfl, ?_⟩
    refine wp_step fun _ _ => ⟨_, _, rfl, ?_⟩
    rw [wp_bind]
    refine wp_nvWrite_ok (writesOk_allOk _ _) hknown (by decide) (length_sealedMap_le _) ?_
    rw [if_neg (by decide)]
    exact hclose _ hQ
  unfold sunxiSecureStorageExit
  refine wp_step fun _ _ => ⟨_, _, rfl, ?_⟩
  rw [hinit, if_neg (by simp)]
  by_cases hmode : mode = 0
  · rw [if_neg (not_not.mpr hmode)]
    refine wp_step fun _ _ => ⟨_, _, rfl, ?_⟩
    cases hd : s.mapDirty with
    | true => exact hwrite (hdirty (Or.inr hd))
    | false => exact hclose s (hclean hmode hd)
  · rw [if_pos hmode]
    exact hwrite (hdirty (Or.inl hmode))

/-! ### A first session -/

/-- The first session on a blank device. -/
def openStore : Store := { blankStore with secureStorageInited := true }

lemma mapOf_openStore : MapOf openStore.secureStorageMap [] := by
  refine mapOf_nil (by simp [openStore, blankStore]) ?_
  change (zeros secBlkSize).take mapDataSize = zeros mapDataSize
  rw [take_zeros]
  rfl

/-- An undisturbed write of a name that is not found returns 0, and enters it. -/
lemma exists_write_new (crc32 : Bytes → UInt32) {a p : Bytes}
    (hmap : MapOf s.secureStorageMap names) (ha : ItemName a)
    (hinit : s.secureStorageInited = true) (hknown : Known s.flashBootType)
    (hnone : indexOf names a = none) (hroom : names.length < 31) (hp : p.length ≤ maxStoreLen) :
    ∃ c', (sunxiSecureObjectWrite crc32 a p).run perform ⟨true, smooth, s⟩ = .ok (0, c') ∧
      MapOf c'.st.secureStorageMap (names ++ [a]) ∧ c'.st.secureStorageInited = true ∧
      Known c'.st.flashBootType := by
  have hwp : wp perform AllOk (sunxiSecureObjectWrite crc32 a p) (fun r _ s' => r = 0 ∧
      MapOf s'.secureStorageMap (names ++ [a]) ∧ s'.secureStorageInited = true ∧
      Known s'.flashBootType) true s := by
    refine wp_sunxiSecureObjectWrite_new_ok hmap ha hinit hknown hnone hroom hp
      fun obj _ => ⟨rfl, ?_, ?_, ?_⟩
    · rw [written_secureStorageMap]
      exact hmap.appendName ha hnone hroom
    · rw [written_secureStorageInited]
      exact hinit
    · rw [written_flashBootType]
      exact hknown
  obtain ⟨r, c', hrun, rfl, hafter⟩ := wp_run (G := fun c => c.ok = true)
    (c := ⟨true, smooth, s⟩) hwp fun _ => rfl
  exact ⟨c', hrun, hafter⟩

/-- A first write in the first session returns 0. -/
lemma exists_write_openStore (crc32 : Bytes → UInt32) {a p : Bytes} (ha : ItemName a)
    (hp : p.length ≤ maxStoreLen) :
    ∃ c', (sunxiSecureObjectWrite crc32 a p).run perform ⟨true, smooth, openStore⟩ =
      .ok (0, c') := by
  obtain ⟨c', hrun, -⟩ := exists_write_new crc32 mapOf_openStore ha rfl (Or.inr (Or.inl rfl)) rfl
    (by simp) hp
  exact ⟨c', hrun⟩

end Undisturbed

/-! ## Disturbed sessions

The same two functions when anything may fail.  A failed opening leaves the mutex free and the
flash alone; a closing whose map write fails leaves the session open in memory, with the mutex
released. -/

section Disturbed

open Prog

variable {crc32 : Bytes → UInt32} {Ok : Op → Choice → Store → Prop} {h : Bool} {s : Store}

lemma wp_getFlashType {Q : ℤ → Bool → Store → Prop}
    (hQ : ∀ r b, b = s.flashBootType ∨ b = bootDevice s → Q r h { s with flashBootType := b }) :
    wp perform Ok getFlashType Q h s := by
  unfold getFlashType getInfoFromCmdline
  rw [wp_bind]
  refine wp_step fun c _ => ⟨_, _, rfl, ?_⟩
  cases c.ok with
  | false => exact hQ _ _ (Or.inl rfl)
  | true =>
    simp only [if_true, wp_pure]
    unfold bootDevice at hQ
    cases hkey : findKey bootTypeKey (s.cmdline.take 1024) with
    | none => exact hQ _ _ (Or.inl rfl)
    | some x =>
      rw [hkey] at hQ
      refine wp_step fun _ _ => ⟨_, _, rfl, ?_⟩
      exact hQ _ _ (Or.inr rfl)

/-- Opening a closed session. -/
lemma wp_sunxiSecureStorageInit {m : Bytes} {Q : ℤ → Bool → Store → Prop}
    (hinit : s.secureStorageInited = false) (hlen : s.secureStorageMap.length = secBlkSize)
    (hm : HoldsMap crc32 (bootDevice s) s m)
    (hboot : Known s.flashBootType → s.flashBootType = bootDevice s)
    (hOk : checkSecureStorageMap crc32 m ≠ 0 → ∀ b, b = s.flashBootType ∨ b = bootDevice s →
      ReadsFirst Ok s.secureStorageMap { s with flashBootType := b })
    (hfail : ∀ b map', b = s.flashBootType ∨ b = bootDevice s → map'.length = secBlkSize →
      Q (-1) false { s with flashBootType := b, secureStorageMap := map' })
    (hopen : Known (bootDevice s) → Q 0 true { s with
      flashBootType := bootDevice s, secureStorageMap := loadedMap crc32 m,
      secureStorageInited := true }) :
    wp perform Ok (sunxiSecureStorageInit crc32) Q false s := by
  unfold sunxiSecureStorageInit
  refine ⟨rfl, ?_⟩
  refine wp_step fun _ _ => ⟨_, _, rfl, ?_⟩
  rw [hinit, if_neg (by simp), wp_bind]
  refine wp_getFlashType fun _ b hb => ?_
  have hdev : Known b → b = bootDevice s := by
    intro hknown
    rcases hb with rfl | rfl
    · exact hboot hknown
    · rfl
  have hmb : HoldsMap crc32 b { s with flashBootType := b } m := by
    refine ⟨fun hd => ?_, fun hd => ?_, hm.check, hm.length⟩
    · exact (hm.of_flash rfl rfl).nand ((hdev (Or.inl hd)).symm.trans hd)
    · exact (hm.of_flash rfl rfl).emmc ((hdev (Or.inr hd)) ▸ hd)
  refine wp_step fun _ _ => ⟨_, _, rfl, ?_⟩
  rw [wp_bind]
  refine wp_nvRead_map hmb hlen (fun hne => hOk hne b hb) ?_ ?_
  · intro b' hb'
    refine wp_step fun _ _ => ⟨_, _, rfl, ?_⟩
    rw [if_pos rfl]
    exact ⟨rfl, hfail b b' hb hb'⟩
  · intro hknown
    refine wp_step fun _ _ => ⟨_, _, rfl, ?_⟩
    rw [if_neg (by decide)]
    refine wp_step fun _ _ => ⟨_, _, rfl, ?_⟩
    refine wp_step fun _ _ => ⟨_, _, rfl, ?_⟩
    have hbd := hdev hknown
    have hQ := hopen (hbd ▸ hknown)
    rw [← hbd] at hQ
    exact hQ

/-- A session that an earlier closing has left open is taken over. -/
lemma wp_sunxiSecureStorageInit_open {Q : ℤ → Bool → Store → Prop}
    (hinit : s.secureStorageInited = true) (hQ : Q 0 true s) :
    wp perform Ok (sunxiSecureStorageInit crc32) Q false s := by
  unfold sunxiSecureStorageInit
  refine ⟨rfl, ?_⟩
  refine wp_step fun _ _ => ⟨_, _, rfl, ?_⟩
  rw [hinit, if_pos rfl]
  refine wp_step fun _ _ => ⟨_, _, rfl, ?_⟩
  have hself : { s with secureStorageInited := true } = s := by rw [← hinit]
  rw [hself]
  exact hQ

/-- Closing an open session. -/
lemma wp_sunxiSecureStorageExit {Q : ℤ → Bool → Store → Prop}
    (hinit : s.secureStorageInited = true) (hlen : s.secureStorageMap.length = secBlkSize)
    (hknown : Known s.flashBootType)
    (hfail : s.mapDirty = true → ¬ (∀ s', WritesOk Ok 0 s') → ∀ s',
      Touched 0 { s with secureStorageMap := sealedMap crc32 s.secureStorageMap } s' →
      Q (-1) false s')
    (hdirty : s.mapDirty = true → Q 0 false (closedDirty crc32 s))
    (hclean : s.mapDirty = false →
      Q 0 false { s with secureStorageInited := false, mapDirty := false }) :
    wp perform Ok (sunxiSecureStorageExit crc32 0) Q true s := by
  have hclose : ∀ s', Q 0 false { s' with secureStorageInited := false, mapDirty := false } →
      wp perform Ok closeSession Q true s' := by
    intro s' hQ
    unfold closeSession
    refine wp_step fun _ _ => ⟨_, _, rfl, ?_⟩
    refine wp_step fun _ _ => ⟨_, _, rfl, ?_⟩
    exact ⟨rfl, hQ⟩
  unfold sunxiSecureStorageExit
  refine wp_step fun _ _ => ⟨_, _, rfl, ?_⟩
  rw [hinit, if_neg (by simp), if_neg (by simp)]
  refine wp_step fun _ _ => ⟨_, _, rfl, ?_⟩
  cases hd : s.mapDirty with
  | false => exact hclose s (hclean hd)
  | true =>
    refine wp_step fun _ _ => ⟨_, _, rfl, ?_⟩
    refine wp_step fun _ _ => ⟨_, _, rfl, ?_⟩
    rw [wp_bind]
    by_cases hw : ∀ s', WritesOk Ok 0 s'
    · refine wp_nvWrite_ok (hw _) hknown (by decide) (length_sealedMap_le _) ?_
      rw [if_neg (by decide)]
      exact hclose _ (hdirty hd)
    · refine wp_nvWrite (length_sealedMap hlen) (fun s' ht => ?_) ?_
      · rw [if_pos (by decide)]
        exact ⟨rfl, hfail hd hw s' ht⟩
      · rw [if_neg (by decide)]
        exact hclose _ (hdirty hd)

end Disturbed

/-! ## The map over runs of writes -/

section MapRuns

open Prog

/-- Any behaviour that is defined. -/
def NoFault : Op → Choice → Store → Prop := fun op _ _ => op ≠ .fault

lemma noFault_of_some {op : Op} {c : Choice} {s : Store} {r : op.Res × Store}
    (hr : perform op c s = some r) : NoFault op c s := by
  rintro rfl
  cases hr

/-- One call of `sunxi_secure_object_write` with an admissible name, in any environment. -/
def WriteStep (crc32 : Bytes → UInt32) (s s' : Store) : Prop :=
  ∃ (h : Bool) (env : ℕ → Choice) (a p : Bytes) (r : ℤ) (c' : Conf Choice Store),
    ItemName a ∧ (sunxiSecureObjectWrite crc32 a p).run perform ⟨h, env, s⟩ = .ok (r, c') ∧
      s' = c'.st

/-- What a write of `a` that returned `r` makes of the entries: it keeps them, enters at most `a`
behind them, and returns 0 only if there is an entry for `a`. -/
structure Enters (names : List Bytes) (a : Bytes) (r : ℤ) (names' : List Bytes) : Prop where
  names : names' = names ∨ names' = names ++ [a]
  found : r = 0 → indexOf names' a ≠ none

lemma Slot.enters {m m' a : Bytes} {names names' : List Bytes} {k : ℕ} (r : ℤ)
    (hsl : Slot m names a k m' names') (hmap : MapOf m names) : Enters names a r names' := by
  refine ⟨?_, fun _ => ?_⟩
  · cases hsl with
    | found _ => exact Or.inl rfl
    | added _ _ => exact Or.inr rfl
  · rw [(hsl.index hmap).2.2]
    exact Option.some_ne_none k

/-- A write in any environment. -/
lemma enters_of_write {crc32 : Bytes → UInt32} {s : Store} {names : List Bytes} {a p : Bytes}
    {h : Bool} {env : ℕ → Choice} {r : ℤ} {c' : Conf Choice Store} (ha : ItemName a)
    (hrun : (sunxiSecureObjectWrite crc32 a p).run perform ⟨h, env, s⟩ = .ok (r, c'))
    (hmap : MapOf s.secureStorageMap names) :
    ∃ names', Enters names a r names' ∧ MapOf c'.st.secureStorageMap names' := by
  have hwp : wp perform NoFault (sunxiSecureObjectWrite crc32 a p) (fun r _ s' =>
      ∃ names', Enters names a r names' ∧ MapOf s'.secureStorageMap names') h s := by
    have hsame : ∃ names', Enters names a (-1) names' ∧ MapOf s.secureStorageMap names' :=
      ⟨names, ⟨Or.inl rfl, fun hr => absurd hr (by decide)⟩, hmap⟩
    refine wp_sunxiSecureObjectWrite hmap ha ?_ (fun _ => hsame) ?_
    · intro _ _ _ _
      exact wp_sunxiSecureObjectRead_frame (fun _ _ hno => hno rfl)
        fun _ => ⟨rfl, rfl, fun _ => hsame⟩
    intro _ obj hwrap k m' names' hsl
    have hm' := hsl.mapOf hmap ha
    have hlen : obj.length = secBlkSize := length_wrap (by simp) hwrap
    refine wp_nvWrite hlen
      (fun s' ht => ⟨fun _ => ⟨names', hsl.enters _ hmap, ?_⟩, fun hr => absurd hr (by decide)⟩)
      ⟨fun hr => absurd rfl hr, fun _ => ⟨names', hsl.enters _ hmap, ?_⟩⟩
    · rw [ht.globals]
      exact hm'
    · rw [(touched_written hlen).globals]
      exact hm'
  exact wp_of_returned hwp (fun _ _ _ _ => noFault_of_some) hrun

/-- The step lemma: a write keeps the entries there are. -/
lemma WriteStep.mapOf {crc32 : Bytes → UInt32} {s s' : Store} {names : List Bytes}
    (hstep : WriteStep crc32 s s') (hmap : MapOf s.secureStorageMap names) :
    ∃ names', names <+: names' ∧ MapOf s'.secureStorageMap names' := by
  obtain ⟨h, env, a, p, r, c', ha, hrun, rfl⟩ := hstep
  obtain ⟨names', henters, hmap'⟩ := enters_of_write ha hrun hmap
  refine ⟨names', ?_, hmap'⟩
  rcases henters.names with rfl | rfl
  · exact List.prefix_rfl
  · exact List.prefix_append _ _

/-- The run lemma. -/
lemma mapOf_of_writes {crc32 : Bytes → UInt32} {s s' : Store} {names : List Bytes}
    (hrun : Relation.ReflTransGen (WriteStep crc32) s s') (hmap : MapOf s.secureStorageMap names) :
    ∃ names', names <+: names' ∧ MapOf s'.secureStorageMap names' := by
  induction hrun with
  | refl => exact ⟨names, List.prefix_rfl, hmap⟩
  | tail _ hlast ih =>
    obtain ⟨names₁, hpre₁, hmap₁⟩ := ih
    obtain ⟨names₂, hpre₂, hmap₂⟩ := hlast.mapOf hmap₁
    exact ⟨names₂, hpre₁.trans hpre₂, hmap₂⟩

lemma appendName_ne {m a : Bytes} {names : List Bytes} (hmap : MapOf m names) (ha : ItemName a) :
    appendName m names a ≠ m := by
  intro heq
  obtain ⟨x, a', rfl⟩ := List.exists_cons_of_ne_nil ha.ne_nil
  have henc := hmap.length_encode
  have hlen := hmap.length
  have hblk : secBlkSize = 4096 := rfl
  obtain ⟨rest, hm, -⟩ := hmap.eq_append
  have hget := getElem?_patch (w := mapEntry (x :: a') storeObjectSize)
    (show (encode names).length ≤ m.length by omega) (encode names).length
  rw [if_neg (by omega), if_pos (by rw [length_mapEntry, List.length_cons]; omega),
    Nat.sub_self] at hget
  change (appendName m names (x :: a'))[(encode names).length]? = _ at hget
  rw [heq, hm, List.getElem?_append_right (Nat.le_refl _), Nat.sub_self] at hget
  simp only [List.getElem?_cons_zero, mapEntry, List.cons_append, Option.some.injEq] at hget
  exact ha.noNul (hget ▸ List.mem_cons_self)

/-- **The map invariant.**  After any sequence of writes from an all-zero map, whatever fails in
them, the map is the encoding of at most 31 different names followed by zeros; later writes keep
its entries where they are; a write enters at most its own name, and there is an entry for it if it
returns 0; the two scanners find the same entry for every name; and with 31 entries in place a write
of a name that is not found returns `-1` and leaves the map as it is. -/
theorem secureStorageMap_invariant (crc32 : Bytes → UInt32) (s₀ s : Store)
    (hlen : s₀.secureStorageMap.length = secBlkSize)
    (hzero : s₀.secureStorageMap.take mapDataSize = zeros mapDataSize)
    (hrun : Relation.ReflTransGen (WriteStep crc32) s₀ s) :
    ∃ names, MapOf s.secureStorageMap names ∧ names.Nodup ∧
      (encode names).length ≤ mapDataSize ∧
      (∀ s', Relation.ReflTransGen (WriteStep crc32) s s' →
        ∃ names', names <+: names' ∧ MapOf s'.secureStorageMap names') ∧
      (∀ a p h env r c', ItemName a →
        (sunxiSecureObjectWrite crc32 a p).run perform ⟨h, env, s⟩ = .ok (r, c') →
        ∃ names', Enters names a r names' ∧ MapOf c'.st.secureStorageMap names') ∧
      (∀ a, ItemName a → ∀ k : ℕ,
        fillNameInMap s.secureStorageMap a storeObjectSize = some ((k : ℤ), s.secureStorageMap) ↔
          ∃ len, probeNameInMap s.secureStorageMap a = some (some (k, len))) ∧
      (∀ a p, ItemName a → probeNameInMap s.secureStorageMap a = some none →
        names.length = 31 → ∀ (h : Bool) (env : ℕ → Choice), ∃ c',
          (sunxiSecureObjectWrite crc32 a p).run perform ⟨h, env, s⟩ = .ok (-1, c') ∧
            c'.st.secureStorageMap = s.secureStorageMap) := by
  obtain ⟨names, -, hmap⟩ := mapOf_of_writes hrun (mapOf_nil hlen hzero)
  have hsize : mapDataSize = 4088 := rfl
  have henc := hmap.length_encode
  refine ⟨names, hmap, hmap.nodup, by omega, fun s' h' => mapOf_of_writes h' hmap,
    fun a p h env r c' ha hwrite => enters_of_write ha hwrite hmap, ?_, ?_⟩
  · intro a ha k
    rw [fillNameInMap_mapOf hmap ha, probeNameInMap_mapOf hmap ha]
    cases hidx : indexOf names a with
    | some j =>
      simp only [Option.some.injEq, Prod.mk.injEq, and_true, Option.map_some, exists_and_left,
        exists_eq', Int.natCast_inj]
    | none =>
      by_cases hfull : names.length = 31
      · simp [hfull]
      · simp [hfull, appendName_ne hmap ha]
  · intro a p ha hprobe hcount h env
    have hidx : indexOf names a = none := by
      rw [probeNameInMap_mapOf hmap ha] at hprobe
      simpa using hprobe
    have hwp : wp perform (fun _ _ _ => True) (sunxiSecureObjectWrite crc32 a p)
        (fun r _ s' => r = -1 ∧ s'.secureStorageMap = s.secureStorageMap) h s := by
      refine wp_sunxiSecureObjectWrite hmap ha (fun hne => absurd hidx hne)
        (fun _ => ⟨rfl, rfl⟩) ?_
      intro _ _ _ k m' names' hsl
      cases hsl with
      | found hk => simp [hidx] at hk
      | added _ hroom => omega
    obtain ⟨r, c', hret, hr, hmem⟩ := wp_run (G := fun _ => True) (c := ⟨h, env, s⟩) hwp
      fun _ => trivial
    exact ⟨c', by rw [hret, hr], hmem⟩

/-- Two writes to a map without entries. -/
theorem secureStorageMap_invariant_two : ∃ (s : Store) (names : List Bytes),
    Relation.ReflTransGen (WriteStep Framework.crc32) openStore s ∧
      MapOf s.secureStorageMap names ∧ names.Nodup ∧
      fillNameInMap s.secureStorageMap [97] storeObjectSize = some (1, s.secureStorageMap) ∧
      fillNameInMap s.secureStorageMap [98] storeObjectSize = some (2, s.secureStorageMap) := by
  have ha : ItemName [97] := by decide
  have hb : ItemName [98] := by decide
  have hp : [1].length ≤ maxStoreLen := by decide
  obtain ⟨c₁, hrun₁, hmap₁, hinit₁, hknown₁⟩ := exists_write_new (p := [1]) Framework.crc32
    mapOf_openStore ha rfl (Or.inr (Or.inl rfl)) rfl (by simp) hp
  obtain ⟨c₂, hrun₂, hmap₂, -⟩ := exists_write_new (p := [1]) Framework.crc32 hmap₁ hb
    hinit₁ hknown₁ (by decide) (by simp) hp
  have hsteps : Relation.ReflTransGen (WriteStep Framework.crc32) openStore c₂.st :=
    (Relation.ReflTransGen.single ⟨true, smooth, [97], [1], 0, c₁, ha, hrun₁, rfl⟩).tail
      ⟨true, smooth, [98], [1], 0, c₂, hb, hrun₂, rfl⟩
  obtain ⟨names, hmap, hnodup, -, -, -, hsame, -⟩ := secureStorageMap_invariant Framework.crc32
    openStore c₂.st mapOf_openStore.length (by rw [mapOf_openStore.data]; rfl) hsteps
  refine ⟨c₂.st, names, hsteps, hmap, hnodup, (hsame _ ha 1).mpr ?_, (hsame _ hb 2).mpr ?_⟩
  · exact ⟨_, probeNameInMap_mapOf hmap₂ ha⟩
  · exact ⟨_, probeNameInMap_mapOf hmap₂ hb⟩

end MapRuns

end Softwinner.SecureStorage
