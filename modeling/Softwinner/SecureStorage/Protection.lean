import Softwinner.SecureStorage.Scan
import Softwinner.SecureStorage.Session

/-!
# Write protection

`sunxi_secure_object_write` refuses to overwrite a protected item, but it looks for the mark in
the wrong place: `sunxi_secure_object_read` returns the payload of the stored object, and the
test reads `magic` and `write_protect` at their offsets in an object from this payload.  Where
the payload is shorter than that, or was not read at all, the test sees the uninitialised bytes
of its buffer.

`refusesWrite` is the part of the function up to the decision.  It is followed through lookup,
block and unwrapping for any map in which the name is found, and `writeProtection_iff` says for
which stored blocks the decision is the one that the object's `write_protect` field asks for.
-/

namespace Softwinner.SecureStorage

open Framework Prog

variable (crc32 : Bytes → UInt32)

/-! ## The decision -/

/-- `sunxi_secure_object_write` up to its test for write protection. -/
def refusesWrite (itemName : Bytes) : Sec Bool := do
  let secureObject ← call (.uninit secBlkSize)
  if (← sunxiSecureStorageProbe itemName) = 0 then
    let so ← sunxiSecureObjectRead crc32 itemName secureObject 0
    return decide (LooksProtected so.buffer)
  else return false

lemma sunxiSecureObjectWrite_eq (a p : Bytes) :
    sunxiSecureObjectWrite crc32 a p = refusesWrite crc32 a >>= fun refused =>
      if refused then pure (-1) else writeObject crc32 a p := by
  unfold sunxiSecureObjectWrite refusesWrite
  rw [Prog.bind_assoc]
  refine bind_congr fun so => ?_
  rw [Prog.bind_assoc]
  refine bind_congr fun r => ?_
  by_cases hr : r = 0
  · rw [if_pos hr, if_pos hr, Prog.bind_assoc]
    refine bind_congr fun so => ?_
    change _ = if decide (LooksProtected so.buffer) = true then _ else _
    simp only [decide_eq_true_eq]
  · rw [if_neg hr, if_neg hr]
    rfl

/-- The block that the map's entry number `k` stands for, if it can be read at all. -/
def storedBlock (s : Store) (k : ℕ) : Option Bytes :=
  if k ≤ maxSecureStorageMaxItem ∧ Known s.flashBootType then item crc32 s k else none

/-- What the block is copied to, for an entry of length `len`. -/
def loadedPart (block : Bytes) (len : ℤ) : Bytes :=
  patch (zeros secBlkSize) 0 (block.take (min len secBlkSize).toNat)

/-- What `sunxi_secure_object_read` makes of a block, for an entry of length `len`; `none` when
a copy leaves its buffers. -/
def readOutcome (block : Option Bytes) (len : ℤ) (buf : Bytes) (dl : ℤ) : Option ReadOut :=
  match block with
  | none => some ⟨-1, buf, dl⟩
  | some block =>
    if len < 0 then none else unwrapSecureObject crc32 (loadedPart block len) len buf dl

section Read

variable {crc32} {Ok : Op → Choice → Store → Prop} {h : Bool} {s : Store} {a buf block : Bytes}
  {k : ℕ} {len dl : ℤ}

lemma length_storedBlock (hblock : storedBlock crc32 s k = some block) :
    block.length = secBlkSize := by
  unfold storedBlock at hblock
  split_ifs at hblock
  exact length_item hblock

/-- Reading a stored block, when no system call fails. -/
lemma wp_nvRead_storedBlock {Q : ℤ × Bytes → Bool → Store → Prop} (hOk : ReadsOk Ok s)
    (hk : 1 ≤ k) (hbuf : buf.length = secBlkSize)
    (hsome : ∀ b, storedBlock crc32 s k = some b → Q (0, b) h s)
    (hnone : storedBlock crc32 s k = none → ∀ b', Q (-1, b') h s) :
    wp perform Ok (nvRead crc32 k buf) Q h s := by
  unfold storedBlock at hsome hnone
  by_cases hknown : Known s.flashBootType
  swap
  · rw [if_neg fun hc => hknown hc.2] at hnone
    unfold Known at hknown
    push Not at hknown
    unfold nvRead
    refine wp_step fun _ _ => ⟨_, _, rfl, ?_⟩
    rw [if_neg hknown.1, if_neg fun hsd => hsd.elim hknown.2.1 hknown.2.2]
    exact hnone rfl _
  by_cases hmax : k ≤ maxSecureStorageMaxItem
  · rw [if_pos ⟨hmax, hknown⟩] at hsome hnone
    exact wp_nvRead_item_ok hOk hknown ⟨by omega, hmax⟩ hbuf hsome fun b' hitem => hnone hitem b'
  · rw [if_neg fun hc => hmax hc.1] at hnone
    unfold nvRead
    refine wp_step fun _ _ => ⟨_, _, rfl, ?_⟩
    split_ifs with hnand hsd hzero
    · unfold nandRead
      rw [if_pos (by omega)]
      exact hnone rfl _
    · omega
    · exact wp_sdReadKey_beyond (Nat.lt_of_not_le hmax) fun b' => hnone rfl b'
    · exact hnone rfl _

/-- Reading a name that the map has, over the read of its block. -/
lemma wp_sunxiSecureObjectRead_nvRead {Q : ReadOut → Bool → Store → Prop}
    (hinit : s.secureStorageInited = true)
    (hprobe : probeNameInMap s.secureStorageMap a = some (some (k, len)))
    (hmalloc : ∀ c, Ok .malloc c s → c.ok = false → Q ⟨-1, buf, dl⟩ h s)
    (hread : ∀ b₀ : Bytes, b₀.length = secBlkSize →
      wp perform Ok (nvRead crc32 k b₀) (fun x h' s' => h' = h ∧ s' = s ∧
        if x.1 = 0 then x.2.length = secBlkSize ∧
          (∀ r, readOutcome crc32 (some x.2) len buf dl = some r → Q r h s) ∧
          (readOutcome crc32 (some x.2) len buf dl = none → ∀ c s', ¬ Ok .fault c s')
        else Q ⟨-1, buf, dl⟩ h s) h s) :
    wp perform Ok (sunxiSecureObjectRead crc32 a buf dl) Q h s := by
  have hblk : secBlkSize = 4096 := rfl
  have hstore : wp perform Ok (sunxiSecureStorageRead crc32 a (zeros secBlkSize) 0)
      (fun r h' s' => h' = h ∧ s' = s ∧
        if r.ret = 0 then
          (∀ r', unwrapSecureObject crc32 r.buffer r.dataLen buf dl = some r' → Q r' h s) ∧
          (unwrapSecureObject crc32 r.buffer r.dataLen buf dl = none → ∀ c s', ¬ Ok .fault c s')
        else Q ⟨-1, buf, dl⟩ h s) h s := by
    unfold sunxiSecureStorageRead
    refine wp_step fun _ _ => ⟨_, _, rfl, ?_⟩
    rw [hinit, if_neg (by simp)]
    refine wp_step fun c hc => ⟨_, _, rfl, ?_⟩
    by_cases hok : c.ok = true
    swap
    · rw [if_pos (by simpa using hok)]
      exact ⟨rfl, rfl, hmalloc c hc (by simpa using hok)⟩
    rw [if_neg (by simp [hok])]
    refine wp_step fun _ _ => ⟨_, _, rfl, ?_⟩
    refine wp_step fun _ _ => ⟨_, _, rfl, ?_⟩
    rw [hprobe, wp_bind]
    change wp perform Ok (nvRead crc32 k _ >>= _) _ h s
    refine wp_bind_of (hread _ (by simp)) ?_
    rintro ⟨ret, block⟩ h' s' ⟨rfl, rfl, hx⟩
    simp only at hx ⊢
    split_ifs at hx with hret
    · obtain ⟨hlen, hsome, hnone⟩ := hx
      rw [if_neg (by simpa using hret), wp_bind, length_zeros, hlen]
      unfold readOutcome at hsome hnone
      simp only at hsome hnone
      refine wp_orFault ?_ ?_
      · intro data hdata
        split_ifs at hdata with hn
        obtain rfl := Option.some.inj hdata
        rw [if_neg (by omega)] at hsome hnone
        exact ⟨rfl, rfl, hsome, hnone⟩
      · intro hdata
        split_ifs at hdata with hn
        exact hnone (if_pos (by omega))
    · rw [if_pos (by simpa using hret)]
      exact ⟨rfl, rfl, by rw [if_neg (by decide)]; exact hx⟩
  unfold sunxiSecureObjectRead
  refine wp_bind_of hstore ?_
  rintro r h' s' ⟨rfl, rfl, hr⟩
  split_ifs at hr with hret
  · rw [if_neg (by simpa using hret)]
    exact wp_orFault hr.1 hr.2
  · rw [if_pos hret]
    exact hr

/-- Reading a name that the map has, when no system call fails. -/
lemma wp_sunxiSecureObjectRead_found {Q : ReadOut → Bool → Store → Prop} (hOk : ReadsOk Ok s)
    (hinit : s.secureStorageInited = true)
    (hprobe : probeNameInMap s.secureStorageMap a = some (some (k, len)))
    (hsome : ∀ r, readOutcome crc32 (storedBlock crc32 s k) len buf dl = some r → Q r h s)
    (hnone : readOutcome crc32 (storedBlock crc32 s k) len buf dl = none →
      ∀ c s', ¬ Ok .fault c s') :
    wp perform Ok (sunxiSecureObjectRead crc32 a buf dl) Q h s := by
  refine wp_sunxiSecureObjectRead_nvRead hinit hprobe ?_ fun b₀ hb₀ => ?_
  · intro c hc hok
    exact absurd ((hOk _ c hc rfl).symm.trans hok) (by decide)
  refine wp_nvRead_storedBlock hOk (probeNameInMap_pos hprobe) hb₀ ?_ ?_
  · intro block hblock
    rw [hblock] at hsome hnone
    refine ⟨rfl, rfl, ?_⟩
    rw [if_pos rfl]
    exact ⟨length_storedBlock hblock, hsome, hnone⟩
  · intro hblock b'
    rw [hblock] at hsome
    refine ⟨rfl, rfl, ?_⟩
    rw [if_neg (by simp)]
    exact hsome _ rfl

end Read

/-! ## The test -/

/-- The byte that the test for write protection asks for at an offset of its buffer. -/
def expected (i : ℕ) : Option UInt8 :=
  if i < 4 then some ((le32 storeObjectMagic).getD i 0)
  else if 80 ≤ i ∧ i < 84 then some ((le32 storeWriteProtectMagic).getD (i - 80) 0)
  else none

lemma looksProtected_iff (so : Bytes) :
    LooksProtected so ↔ ∀ i x, expected i = some x → so.getD i 0 = x := by
  unfold LooksProtected
  rw [u32_eq_iff (by decide), u32_eq_iff (by decide)]
  constructor
  · rintro ⟨hmagic, hprot⟩ i x hx
    unfold expected at hx
    split_ifs at hx with h1 h2
    · rw [← Option.some.inj hx, ← hmagic i h1, Nat.zero_add]
    · rw [← Option.some.inj hx, ← hprot (i - 80) (by omega)]
      congr 1
      omega
  · intro hall
    constructor
    · intro i hi
      rw [Nat.zero_add]
      exact hall i _ (by rw [expected, if_pos hi])
    · intro i hi
      refine hall (80 + i) _ ?_
      rw [expected, if_neg (by omega), if_pos (by omega), Nat.add_sub_cancel_left]

lemma expected_lt {i : ℕ} {x : UInt8} (h : expected i = some x) : i < 84 := by
  unfold expected at h
  split_ifs at h
  · omega
  · omega

/-- The buffer of the test, before the payload is read into it. -/
def junkBlock (junk : ℕ → UInt8) : Bytes := (List.range secBlkSize).map junk

lemma getD_junkBlock {junk : ℕ → UInt8} {i : ℕ} (hi : i < secBlkSize) :
    (junkBlock junk).getD i 0 = junk i := by
  simp [junkBlock, hi]

/-- The test on a payload in an uninitialised buffer. -/
lemma looksProtected_patch {junk : ℕ → UInt8} {payload : Bytes} :
    LooksProtected (patch (junkBlock junk) 0 payload) ↔ ∀ i x, expected i = some x →
      (if i < payload.length then payload.getD i 0 else junk i) = x := by
  have hblk : secBlkSize = 4096 := rfl
  rw [looksProtected_iff]
  refine forall_congr' fun i => forall_congr' fun x => forall_congr' fun hx => ?_
  have hlt := expected_lt hx
  rw [List.getD_eq_getElem?_getD, getElem?_patch (Nat.zero_le _), if_neg (by omega), Nat.zero_add,
    Nat.sub_zero]
  split_ifs
  · rw [List.getD_eq_getElem?_getD]
  · rw [← List.getD_eq_getElem?_getD, getD_junkBlock (by omega)]

/-- Uninitialised bytes that make the test succeed. -/
def protectedJunk (i : ℕ) : UInt8 := (expected i).getD 0

/-- Nothing decides a test on uninitialised memory alone. -/
lemma not_forall_looksProtected {P : Prop} : ¬ ∀ junk, LooksProtected (junkBlock junk) ↔ P := by
  intro hall
  have hyes : LooksProtected (junkBlock protectedJunk) := by
    rw [looksProtected_iff]
    intro i x hx
    have hlt := expected_lt hx
    rw [getD_junkBlock (Nat.lt_trans hlt (by decide)), protectedJunk, hx]
    rfl
  have hno : ¬ LooksProtected (junkBlock fun _ => 0) := by
    rw [looksProtected_iff]
    intro hzero
    have h0 := hzero 0 _ rfl
    rw [getD_junkBlock (by decide)] at h0
    exact absurd h0 (by decide)
  exact hno ((hall _).mpr ((hall _).mp hyes))

/-! ## The exact condition -/

/-- The block stored for entry `k` is a valid object with its protection mark set. -/
def StoredProtected (s : Store) (k : ℕ) : Prop :=
  ∃ block, storedBlock crc32 s k = some block ∧ checkSecureStorageKey crc32 block = 0 ∧
    u32 block 80 = storeWriteProtectMagic

/-- Over all runs whose choices satisfy `G`: whether a write is refused for protection is what
the stored object's field says.  A refused write returns `-1` and changes nothing; one that is not
goes on to store the payload. -/
def DecidedByField (G : Choice → Prop) (s : Store) (a : Bytes) (k : ℕ) : Prop :=
  ∀ (p : Bytes) (h : Bool) (env : ℕ → Choice), (∀ n, G (env n)) →
    Yields perform (refusesWrite crc32 a) ⟨h, env, s⟩ fun refused c =>
      c.st = s ∧ (refused = true ↔ StoredProtected crc32 s k) ∧
      (sunxiSecureObjectWrite crc32 a p).run perform ⟨h, env, s⟩ =
        if refused then .ok (-1, c) else (writeObject crc32 a p).run perform c

/-- The payload of an object, as a read of its block delivers it. -/
def objectPayload (block : Bytes) : Bytes := slice (loadedObject block) 100 (u32 block 96)

/-- The entry has the length of an object; its block is valid, and its payload lies inside the
block; if the block is protected the payload has both marks at their offsets, and if it is not the
payload has another byte at one of them. -/
def FieldDecides (s : Store) (k : ℕ) (len : ℤ) : Prop :=
  len = storeObjectSize ∧ ∃ block, storedBlock crc32 s k = some block ∧
    checkSecureStorageKey crc32 block = 0 ∧ 100 + u32 block 96 ≤ secBlkSize ∧
    if u32 block 80 = storeWriteProtectMagic then
      84 ≤ u32 block 96 ∧ LooksProtected (objectPayload block)
    else ∃ i x, i < u32 block 96 ∧ expected i = some x ∧ (objectPayload block).getD i 0 ≠ x

section Condition

variable {crc32} {Ok : Op → Choice → Store → Prop} {G : Choice → Prop} {h : Bool} {s : Store}
  {a block : Bytes} {k : ℕ} {len : ℤ}

/-- The decision over the read it is based on. -/
lemma wp_refusesWrite_read {Q : Bool → Bool → Store → Prop} (hinit : s.secureStorageInited = true)
    (hprobe : probeNameInMap s.secureStorageMap a = some (some (k, len)))
    (hread : ∀ c, Ok (.uninit secBlkSize) c s →
      wp perform Ok (sunxiSecureObjectRead crc32 a (junkBlock c.junk) 0)
        (fun r h' s' => Q (decide (LooksProtected r.buffer)) h' s') h s) :
    wp perform Ok (refusesWrite crc32 a) Q h s := by
  unfold refusesWrite sunxiSecureStorageProbe
  refine wp_step fun c hc => ⟨_, _, rfl, ?_⟩
  rw [wp_bind]
  refine wp_step fun _ _ => ⟨_, _, rfl, ?_⟩
  rw [hinit, if_neg (by simp)]
  refine wp_step fun _ _ => ⟨_, _, rfl, ?_⟩
  rw [hprobe]
  change wp perform Ok (sunxiSecureObjectRead crc32 a (junkBlock c.junk) 0 >>= _) Q h s
  rw [wp_bind]
  exact hread c hc

lemma wp_refusesWrite {Q : Bool → Bool → Store → Prop} (hOk : ReadsOk Ok s)
    (hinit : s.secureStorageInited = true)
    (hprobe : probeNameInMap s.secureStorageMap a = some (some (k, len)))
    (hsome : ∀ c r, Ok (.uninit secBlkSize) c s →
      readOutcome crc32 (storedBlock crc32 s k) len (junkBlock c.junk) 0 = some r →
      Q (decide (LooksProtected r.buffer)) h s)
    (hnone : ∀ c, Ok (.uninit secBlkSize) c s →
      readOutcome crc32 (storedBlock crc32 s k) len (junkBlock c.junk) 0 = none →
      ∀ c s', ¬ Ok .fault c s') :
    wp perform Ok (refusesWrite crc32 a) Q h s :=
  wp_refusesWrite_read hinit hprobe fun c hc =>
    wp_sunxiSecureObjectRead_found hOk hinit hprobe (fun r hr => hsome c r hc hr)
      fun hr => hnone c hc hr

/-- The outcomes of the read, over all contents of uninitialised memory, settle the property. -/
lemma decidedByField_iff (hinit : s.secureStorageInited = true)
    (hprobe : probeNameInMap s.secureStorageMap a = some (some (k, len))) :
    DecidedByField crc32 (fun c => c.ok = true) s a k ↔
      ∀ junk, ∃ r, readOutcome crc32 (storedBlock crc32 s k) len (junkBlock junk) 0 = some r ∧
        (LooksProtected r.buffer ↔ StoredProtected crc32 s k) := by
  constructor
  · intro hdec junk
    obtain ⟨refused, c', hrun, -, hiff, -⟩ :=
      hdec [] true (fun _ => ⟨true, 0, junk, true⟩) fun _ => rfl
    -- a run that returns has made no access outside its objects
    have hwp : wp perform (fun op c _ => c = ⟨true, 0, junk, true⟩ ∧ op ≠ .fault)
        (refusesWrite crc32 a) (fun refused _ _ => ∃ r,
          readOutcome crc32 (storedBlock crc32 s k) len (junkBlock junk) 0 = some r ∧
          refused = decide (LooksProtected r.buffer)) true s := by
      refine wp_refusesWrite (fun op c hc _ => by rw [hc.1]) hinit hprobe ?_ ?_
      · rintro c r ⟨rfl, -⟩ hr
        exact ⟨r, hr, rfl⟩
      · exact fun _ _ _ c s' hfault => hfault.2 rfl
    obtain ⟨r, hr, hrefused⟩ := wp_of_returned hwp
      (fun _ op s r hr => ⟨rfl, noFault_of_some hr⟩) hrun
    refine ⟨r, hr, ?_⟩
    rw [← hiff, hrefused, decide_eq_true_eq]
  · intro hall p h env henv
    have hwp : wp perform AllOk (refusesWrite crc32 a) (fun refused h' s' =>
        s' = s ∧ (refused = true ↔ StoredProtected crc32 s k)) h s := by
      refine wp_refusesWrite (readsOk_allOk s) hinit hprobe ?_ ?_
      · intro c r _ hr
        obtain ⟨r', hr', hiff⟩ := hall c.junk
        rw [hr] at hr'
        obtain rfl := Option.some.inj hr'
        exact ⟨rfl, by rw [decide_eq_true_eq, hiff]⟩
      · intro c _ hr
        obtain ⟨r', hr', -⟩ := hall c.junk
        exact nomatch hr.symm.trans hr'
    obtain ⟨refused, c, hrun, hst, hiff⟩ :=
      wp_run (G := fun c => c.ok = true) (c := ⟨h, env, s⟩) hwp henv
    refine ⟨refused, c, hrun, hst, hiff, ?_⟩
    rw [sunxiSecureObjectWrite_eq, run_bind, hrun]
    cases refused with
    | true => rfl
    | false => rfl

/-! ### The object behind a block -/

lemma loadedPart_storeObjectSize : loadedPart block storeObjectSize = loadedObject block := rfl

lemma take_loadedObject (hlen : block.length = secBlkSize) {n : ℕ} (hn : n ≤ storeObjectSize) :
    (loadedObject block).take n = block.take n := by
  have hobj : storeObjectSize = 3176 := rfl
  have hblk : secBlkSize = 4096 := rfl
  rw [loadedObject_eq hlen, List.take_append_of_le_length (by rw [List.length_take]; omega),
    List.take_take, Nat.min_eq_left hn]

lemma u32_loadedObject (hlen : block.length = secBlkSize) {off : ℕ}
    (hoff : off + 4 ≤ storeObjectSize) : u32 (loadedObject block) off = u32 block off := by
  apply u32_congr
  intro i hi
  rw [← List.getElem?_take_of_lt (show off + i < storeObjectSize by omega),
    take_loadedObject hlen (Nat.le_refl _), List.getElem?_take_of_lt (by omega)]

@[simp] lemma length_loadedObject (hlen : block.length = secBlkSize) :
    (loadedObject block).length = secBlkSize := by
  have hobj : storeObjectSize = 3176 := rfl
  have hblk : secBlkSize = 4096 := rfl
  rw [loadedObject_eq hlen, List.length_append, List.length_take, length_zeros]
  omega

lemma checkSecureStorageKey_eq_zero : checkSecureStorageKey crc32 block = 0 ↔
    u32 block 0 = storeObjectMagic ∧ u32 block 3172 = (crc32 (block.take 3172)).toNat := by
  rw [checkSecureStorageKey]
  split_ifs with h1 h2
  · simp [h1]
  · simp [h2]
  · simp only [not_not] at h1 h2
    simp [h1, h2]

/-- Unwrapping is governed by the check of the block and by the two bounds that the C code leaves
out. -/
lemma unwrapSecureObject_loadedObject {buf : Bytes} {dl : ℤ} (hlen : block.length = secBlkSize) :
    unwrapSecureObject crc32 (loadedObject block) storeObjectSize buf dl =
      if checkSecureStorageKey crc32 block = 0 then
        if 100 + u32 block 96 ≤ secBlkSize ∧ u32 block 96 ≤ buf.length then
          some ⟨0, patch buf 0 (objectPayload block), u32 block 96⟩
        else none
      else some ⟨-1, buf, dl⟩ := by
  have hobj : storeObjectSize = 3176 := rfl
  unfold unwrapSecureObject objectPayload
  rw [if_neg (by simp), u32_loadedObject hlen (by omega), u32_loadedObject hlen (by omega),
    u32_loadedObject hlen (by omega), take_loadedObject hlen (by omega),
    length_loadedObject hlen]
  by_cases hmagic : u32 block 0 = storeObjectMagic
  · rw [if_neg (not_not.mpr hmagic)]
    by_cases hcrc : u32 block 3172 = (crc32 (block.take 3172)).toNat
    · rw [if_neg (not_not.mpr hcrc), if_pos (checkSecureStorageKey_eq_zero.mpr ⟨hmagic, hcrc⟩)]
    · rw [if_pos hcrc, if_neg fun hc => hcrc (checkSecureStorageKey_eq_zero.mp hc).2]
  · rw [if_pos hmagic, if_neg fun hc => hmagic (checkSecureStorageKey_eq_zero.mp hc).1]

lemma length_objectPayload (hlen : block.length = secBlkSize)
    (hfit : 100 + u32 block 96 ≤ secBlkSize) : (objectPayload block).length = u32 block 96 :=
  length_slice (by rw [length_loadedObject hlen]; exact hfit)

/-- What the test sees of a block that unwraps, over all contents of the buffer. -/
lemma forall_looksProtected_iff {payload : Bytes} {P : Prop} [Decidable P] :
    (∀ junk, LooksProtected (patch (junkBlock junk) 0 payload) ↔ P) ↔
      if P then 84 ≤ payload.length ∧ LooksProtected payload
      else ∃ i x, i < payload.length ∧ expected i = some x ∧ payload.getD i 0 ≠ x := by
  simp only [looksProtected_patch]
  by_cases hP : P
  · simp only [hP, iff_true, if_true]
    rw [looksProtected_iff]
    constructor
    · intro hall
      -- zeroed memory fails the test at the last byte of the mark
      have hlen : 83 < payload.length := by
        by_contra hle
        have hlast := hall (fun _ => 0) 83 _ rfl
        rw [if_neg hle] at hlast
        exact absurd hlast (by decide)
      refine ⟨hlen, fun i x hx => ?_⟩
      have hlt := expected_lt hx
      have hi := hall (fun _ => 0) i x hx
      rwa [if_pos (by omega)] at hi
    · rintro ⟨hlen, hlooks⟩ junk i x hx
      have hlt := expected_lt hx
      rw [if_pos (by omega)]
      exact hlooks i x hx
  · simp only [hP, iff_false, if_false]
    constructor
    · intro hall
      have hno := hall protectedJunk
      push Not at hno
      obtain ⟨i, x, hx, hne⟩ := hno
      by_cases hi : i < payload.length
      · rw [if_pos hi] at hne
        exact ⟨i, x, hi, hx, hne⟩
      · rw [if_neg hi, protectedJunk, hx] at hne
        exact absurd rfl hne
    · rintro ⟨i, x, hi, hx, hne⟩ junk hall
      have heq := hall i x hx
      rw [if_pos hi] at heq
      exact hne heq

/-- A read that hands its buffer back leaves the decision to uninitialised memory. -/
lemma not_decided_of_untouched {f : (ℕ → UInt8) → Option ReadOut} {P : Prop}
    (hsame : ∀ junk r, f junk = some r → r.buffer = junkBlock junk) :
    ¬ ∀ junk, ∃ r, f junk = some r ∧ (LooksProtected r.buffer ↔ P) := by
  intro hall
  refine not_forall_looksProtected (P := P) fun junk => ?_
  obtain ⟨r, hr, hiff⟩ := hall junk
  rw [← hsame junk r hr]
  exact hiff

lemma readOutcome_object {buf : Bytes} {dl : ℤ} (hlen : block.length = secBlkSize) :
    readOutcome crc32 (some block) storeObjectSize buf dl =
      if checkSecureStorageKey crc32 block = 0 then
        if 100 + u32 block 96 ≤ secBlkSize ∧ u32 block 96 ≤ buf.length then
          some ⟨0, patch buf 0 (objectPayload block), u32 block 96⟩
        else none
      else some ⟨-1, buf, dl⟩ := by
  simp only [readOutcome]
  rw [if_neg (by decide), loadedPart_storeObjectSize, unwrapSecureObject_loadedObject hlen]

lemma fieldDecides_of_block (hblock : storedBlock crc32 s k = some block) :
    FieldDecides crc32 s k len ↔ len = storeObjectSize ∧ checkSecureStorageKey crc32 block = 0 ∧
      100 + u32 block 96 ≤ secBlkSize ∧
      if u32 block 80 = storeWriteProtectMagic then
        84 ≤ u32 block 96 ∧ LooksProtected (objectPayload block)
      else ∃ i x, i < u32 block 96 ∧ expected i = some x ∧ (objectPayload block).getD i 0 ≠ x := by
  simp only [FieldDecides, hblock, Option.some.injEq, exists_eq_left']

lemma forall_readOutcome_iff :
    (∀ junk, ∃ r, readOutcome crc32 (storedBlock crc32 s k) len (junkBlock junk) 0 = some r ∧
      (LooksProtected r.buffer ↔ StoredProtected crc32 s k)) ↔ FieldDecides crc32 s k len := by
  have hblk : secBlkSize = 4096 := rfl
  cases hblock : storedBlock crc32 s k with
  | none =>
    constructor
    · intro hall
      refine absurd hall (not_decided_of_untouched fun junk r hr => ?_)
      rw [← Option.some.inj hr]
    · rintro ⟨-, block, hsome, -⟩
      rw [hblock] at hsome
      cases hsome
  | some block =>
    have hlen : block.length = secBlkSize := length_storedBlock hblock
    rw [fieldDecides_of_block hblock]
    by_cases hsize : len = storeObjectSize
    swap
    · refine iff_of_false (not_decided_of_untouched fun junk r hr => ?_) fun hf => hsize hf.1
      simp only [readOutcome, unwrapSecureObject, if_pos hsize] at hr
      split_ifs at hr
      rw [← Option.some.inj hr]
    subst hsize
    by_cases hcheck : checkSecureStorageKey crc32 block = 0
    swap
    · refine iff_of_false (not_decided_of_untouched fun junk r hr => ?_) fun hf => hcheck hf.2.1
      rw [readOutcome_object hlen, if_neg hcheck] at hr
      rw [← Option.some.inj hr]
    by_cases hfit : 100 + u32 block 96 ≤ secBlkSize
    swap
    · refine iff_of_false (fun hall => ?_) fun hf => hfit hf.2.2.1
      obtain ⟨r, hr, -⟩ := hall fun _ => 0
      rw [readOutcome_object hlen, if_pos hcheck, if_neg fun hc => hfit hc.1] at hr
      cases hr
    have hsp : StoredProtected crc32 s k ↔ u32 block 80 = storeWriteProtectMagic := by
      simp only [StoredProtected, hblock, Option.some.injEq, exists_eq_left', hcheck, true_and]
    have hpay : (objectPayload block).length = u32 block 96 := length_objectPayload hlen hfit
    have hroom : ∀ junk, u32 block 96 ≤ (junkBlock junk).length := by
      intro junk
      simp only [junkBlock, List.length_map, List.length_range]
      omega
    rw [← hpay, ← forall_looksProtected_iff, hpay]
    simp only [hcheck, hfit, true_and]
    refine forall_congr' fun junk => ?_
    rw [readOutcome_object hlen, if_pos hcheck, if_pos ⟨hfit, hroom junk⟩, hsp]
    simp only [Option.some.injEq, exists_eq_left']

/-- When `malloc` fails the test sees nothing but uninitialised memory. -/
lemma wp_refusesWrite_failing {junk : ℕ → UInt8} (hinit : s.secureStorageInited = true)
    (hprobe : probeNameInMap s.secureStorageMap a = some (some (k, len))) :
    wp perform (fun _ c _ => c = ⟨false, 0, junk, true⟩) (refusesWrite crc32 a)
      (fun refused _ _ => refused = decide (LooksProtected (junkBlock junk))) h s := by
  refine wp_refusesWrite_read hinit hprobe ?_
  rintro c rfl
  unfold sunxiSecureObjectRead sunxiSecureStorageRead
  rw [wp_bind]
  refine wp_step fun _ _ => ⟨_, _, rfl, ?_⟩
  rw [hinit, if_neg (by simp)]
  refine wp_step fun c' hc' => ⟨_, _, rfl, ?_⟩
  rw [hc', if_pos (by simp), wp_pure, if_pos (by decide), wp_pure]

end Condition

/-- **What protects an item.**  In an open session, for a name that the map has and as long as no
system call fails, every write of the name is refused or not by the `write_protect` field of the
stored object, if and only if `FieldDecides` holds of the stored block.  With system calls that may
fail no block is decided by its field. -/
theorem writeProtection_iff (crc32 : Bytes → UInt32) (s : Store) (a : Bytes) (k : ℕ) (len : ℤ)
    (hinit : s.secureStorageInited = true)
    (hprobe : probeNameInMap s.secureStorageMap a = some (some (k, len))) :
    (DecidedByField crc32 (fun c => c.ok = true) s a k ↔ FieldDecides crc32 s k len) ∧
      ¬ DecidedByField crc32 (fun _ => True) s a k := by
  refine ⟨(decidedByField_iff hinit hprobe).trans forall_readOutcome_iff, fun hdec => ?_⟩
  refine not_forall_looksProtected (P := StoredProtected crc32 s k) fun junk => ?_
  obtain ⟨refused, c, hrun, -, hiff, -⟩ := hdec [] true (fun _ => ⟨false, 0, junk, true⟩) fun _ => trivial
  have hrefused := wp_of_run (G := fun c => c = ⟨false, 0, junk, true⟩)
    (wp_refusesWrite_failing hinit hprobe) (fun _ => rfl) hrun
  rw [← hiff, hrefused, decide_eq_true_eq]

/-! ## An item that protects itself -/

/-- A payload with both marks at the offsets they have in an object. -/
def markedPayload : Bytes := le32 storeObjectMagic ++ zeros 76 ++ le32 storeWriteProtectMagic

/-- The object of this payload, and the store after it has been written under the name `a`. -/
def markedObject : Bytes :=
  objectBody markedPayload [97] (zeros secBlkSize) ++
    le32 (Framework.crc32 (objectBody markedPayload [97] (zeros secBlkSize))).toNat ++
    (zeros secBlkSize).drop storeObjectSize

def markedStore : Store :=
  { written { openStore with
      secureStorageMap := appendName openStore.secureStorageMap [] [97] } 1 markedObject with
    mapDirty := true }

lemma wrap_markedPayload :
    wrapSecureObject Framework.crc32 markedPayload [97] (zeros secBlkSize) = some markedObject := by
  rw [wrapSecureObject, if_neg (by simp [markedPayload, maxStoreLen])]
  rfl

/-- It is reached by one write. -/
lemma writeStep_markedStore : WriteStep Framework.crc32 openStore markedStore := by
  have hwp : wp perform AllOk (sunxiSecureObjectWrite Framework.crc32 [97] markedPayload)
      (fun _ _ s' => s' = markedStore) true openStore := by
    refine wp_sunxiSecureObjectWrite_new_ok mapOf_openStore (by decide) rfl (Or.inr (Or.inl rfl)) rfl
      (by simp) (by simp [markedPayload, maxStoreLen]) fun obj hobj => ?_
    obtain rfl : markedObject = obj := Option.some.inj (wrap_markedPayload.symm.trans hobj)
    rfl
  obtain ⟨r, c', hrun, hst⟩ := wp_run (G := fun c => c.ok = true) (c := ⟨true, smooth, openStore⟩)
    hwp fun _ => rfl
  exact ⟨true, smooth, [97], markedPayload, r, c', by decide, hrun, hst.symm⟩

lemma probe_markedStore :
    probeNameInMap markedStore.secureStorageMap [97] = some (some (1, (storeObjectSize : ℤ))) := by
  have hmap : MapOf markedStore.secureStorageMap [[97]] := by
    have happend := mapOf_openStore.appendName (a := [97]) (by decide) rfl (by simp)
    simpa [markedStore] using happend
  rw [probeNameInMap_mapOf hmap (by decide)]
  rfl

lemma storedBlock_markedStore :
    storedBlock Framework.crc32 markedStore 1 = some markedObject := by
  have hlen : markedObject.length = secBlkSize := length_wrap (by simp) wrap_markedPayload
  have hitem := @item_written Framework.crc32
    { openStore with secureStorageMap := appendName openStore.secureStorageMap [] [97] } 1 _
    hlen (checkSecureStorageKey_wrap (by simp) wrap_markedPayload)
  rw [storedBlock, if_pos ⟨by decide, Or.inr (Or.inl (by simp [markedStore, openStore, blankStore]))⟩]
  exact hitem

lemma looksProtected_markedPayload : LooksProtected markedPayload := by
  constructor
  · have hform : markedPayload =
        [] ++ le32 storeObjectMagic ++ (zeros 76 ++ le32 storeWriteProtectMagic) := rfl
    rw [hform]
    exact u32_append_le32 rfl (by decide)
  · have hform : markedPayload =
        (le32 storeObjectMagic ++ zeros 76) ++ le32 storeWriteProtectMagic ++ [] := by
      simp [markedPayload]
    rw [hform]
    exact u32_append_le32 (by simp) (by decide)

/-- A wrapped object is not protected. -/
lemma u32_wrap_writeProtect {src name tagt block : Bytes} {crc32 : Bytes → UInt32}
    (hwrap : wrapSecureObject crc32 src name tagt = some block) : u32 block 80 = 0 := by
  obtain ⟨-, rfl⟩ := wrapSecureObject_eq hwrap
  have hform : ∃ post : Bytes, objectBody src name tagt ++
      le32 (crc32 (objectBody src name tagt)).toNat ++ tagt.drop storeObjectSize =
      (le32 storeObjectMagic ++ le32 0 ++ strncpy name 64 ++ le32 0 ++
        le32 sunxiSecstoreVersion) ++ le32 0 ++ post := by
    simp only [objectBody, List.append_assoc, List.append_cancel_left_eq, exists_eq']
  obtain ⟨post, hpost⟩ := hform
  rw [hpost]
  exact u32_append_le32 (by simp [length_strncpy]) (by decide)

lemma objectPayload_wrap {src name block : Bytes} {crc32 : Bytes → UInt32}
    (hwrap : wrapSecureObject crc32 src name (zeros secBlkSize) = some block) :
    objectPayload block = src := by
  rw [objectPayload, loadedObject_wrap hwrap, u32_wrap_actualLen (by simp) hwrap,
    slice_wrap_data (by simp) hwrap]

/-- **An item that protects itself.**  After one write, to an empty map, of a payload that has both
marks at the offsets of an object's header, the item is not write protected, yet every further write
of its name is refused. -/
theorem writeProtection_by_payload :
    WriteStep Framework.crc32 openStore markedStore ∧
      probeNameInMap markedStore.secureStorageMap [97] = some (some (1, (storeObjectSize : ℤ))) ∧
      ¬ StoredProtected Framework.crc32 markedStore 1 ∧
      ¬ DecidedByField Framework.crc32 (fun c => c.ok = true) markedStore [97] 1 := by
  have hfield : u32 markedObject 80 ≠ storeWriteProtectMagic := by
    rw [u32_wrap_writeProtect wrap_markedPayload]
    decide
  refine ⟨writeStep_markedStore, probe_markedStore, ?_, ?_⟩
  · rintro ⟨block, hblock, -, hprot⟩
    obtain rfl := Option.some.inj (storedBlock_markedStore.symm.trans hblock)
    exact hfield hprot
  · have hinit : markedStore.secureStorageInited = true := by simp [markedStore, openStore]
    rw [(decidedByField_iff hinit probe_markedStore).trans forall_readOutcome_iff]
    rintro ⟨-, block, hblock, -, -, hif⟩
    obtain rfl := Option.some.inj (storedBlock_markedStore.symm.trans hblock)
    rw [if_neg hfield, objectPayload_wrap wrap_markedPayload] at hif
    obtain ⟨i, x, -, hx, hne⟩ := hif
    exact hne ((looksProtected_iff _).mp looksProtected_markedPayload i x hx)

/-- There the failure of the property is the failure of the condition. -/
theorem writeProtection_iff_marked :
    DecidedByField Framework.crc32 (fun c => c.ok = true) markedStore [97] 1 ↔
      FieldDecides Framework.crc32 markedStore 1 storeObjectSize :=
  (writeProtection_iff Framework.crc32 markedStore [97] 1 storeObjectSize
    (by simp [markedStore, openStore]) probe_markedStore).1

end Softwinner.SecureStorage
