import Softwinner.SecureStorage.Object

/-!
# Items of the boot device

`nv_read` and `nv_write` hide which device holds the secure items.  This file gives them one
specification for both devices, in terms of three notions:

* `item s id`, what an undisturbed read of an object item finds, if anything;
* `HoldsMap crc32 d s m`, that the map item of device `d` is `m` (in both copies, on eMMC);
* `written s id b`, the store after a completed write, and `Touched id s s'`, that a write of
  item `id` has happened in any way at all.

The laws come in two strengths.  Those in `_ok` ask that the system calls succeed, and the
result is determined.  The others say what is left when reads and writes fail.
-/

namespace Softwinner.SecureStorage

open Framework Prog

variable (crc32 : Bytes → UInt32)

/-! ## Views of the flash -/

/-- The boot type names a device the library knows. -/
def Known (t : ℤ) : Prop := t = flashTypeNand ∨ t = flashTypeSd1 ∨ t = flashTypeSd2

instance (t : ℤ) : Decidable (Known t) := inferInstanceAs (Decidable (_ ∨ _ ∨ _))

/-- The first of two copies that passes the object check. -/
def readPair (c0 c1 : Bytes) : Option Bytes :=
  if checkSecureStorageKey crc32 c0 = 0 then some c0
  else if checkSecureStorageKey crc32 c1 = 0 then some c1
  else none

/-- What an undisturbed `nv_read` of an object item finds. -/
def item (s : Store) (id : ℕ) : Option Bytes :=
  if s.flashBootType = flashTypeNand then some (nandItem s id)
  else readPair crc32 (copy0 s id) (copy1 s id)

/-- The map item of the device `d` is `m`. -/
structure HoldsMap (d : ℤ) (s : Store) (m : Bytes) : Prop where
  nand : d = flashTypeNand → nandItem s 0 = m
  emmc : d = flashTypeSd1 ∨ d = flashTypeSd2 → copy0 s 0 = m ∧ copy1 s 0 = m
  /-- A map is read back only if it passes its check, or has no magic (and is then the same in
  both copies). -/
  check : checkSecureStorageMap crc32 m = 0 ∨ checkSecureStorageMap crc32 m = 2
  length : m.length = secBlkSize

/-- The store after a completed write. -/
def written (s : Store) (id : ℕ) (b : Bytes) : Store :=
  if s.flashBootType = flashTypeNand then
    { s with nand := fun i => if i = id then pwrite (s.nand i) 0 b else s.nand i }
  else sdWritten s id b b

section Written

variable (s : Store) (id : ℕ) (b : Bytes)

@[simp] lemma written_secureStorageMap :
    (written s id b).secureStorageMap = s.secureStorageMap := by
  unfold written
  split_ifs <;> rfl

@[simp] lemma written_secureStorageInited :
    (written s id b).secureStorageInited = s.secureStorageInited := by
  unfold written
  split_ifs <;> rfl

@[simp] lemma written_flashBootType : (written s id b).flashBootType = s.flashBootType := by
  unfold written
  split_ifs <;> rfl

@[simp] lemma written_cmdline : (written s id b).cmdline = s.cmdline := by
  unfold written
  split_ifs <;> rfl

@[simp] lemma written_socInfo : (written s id b).socInfo = s.socInfo := by
  unfold written
  split_ifs <;> rfl

end Written

/-- Nothing but item `id` of the flash differs. -/
structure Touched (id : ℕ) (s s' : Store) : Prop where
  globals : s' = { s with emmc := s'.emmc, nand := s'.nand }
  nand : ∀ j, j ≠ id → nandItem s' j = nandItem s j
  emmc : ∀ j, j ≠ id → copy0 s' j = copy0 s j ∧ copy1 s' j = copy1 s j

/-- The device that `get_flash_type` selects: the boot argument, or what was selected
before. -/
def bootDevice (s : Store) : ℤ :=
  match findKey bootTypeKey (s.cmdline.take 1024) with
  | some c => atol [c]
  | none => s.flashBootType

variable {crc32} {Ok : Op → Choice → Store → Prop} {h : Bool} {s s' : Store} {id : ℕ}
  {b buf m : Bytes} {d : ℤ}

lemma length_item (hitem : item crc32 s id = some b) : b.length = secBlkSize := by
  unfold item readPair at hitem
  split_ifs at hitem
  · rw [← Option.some.inj hitem, length_nandItem]
  · rw [← Option.some.inj hitem, length_copy0]
  · rw [← Option.some.inj hitem, length_copy1]

/-! ## Frame laws -/

lemma touched_sdWritten {w0 w1 : Bytes} (h0 : w0.length ≤ secBlkSize)
    (h1 : w1.length ≤ secBlkSize) : Touched id s (sdWritten s id w0 w1) :=
  ⟨rfl, fun _ _ => rfl, fun _ hj => copies_sdWritten_other hj h0 h1⟩

lemma touched_nand (w : Bytes) :
    Touched id s { s with nand := fun i => if i = id then pwrite (s.nand i) 0 w else s.nand i } := by
  refine ⟨rfl, fun j hj => ?_, fun _ _ => ⟨rfl, rfl⟩⟩
  unfold nandItem
  simp only [if_neg hj]

lemma touched_written (hb : b.length = secBlkSize) : Touched id s (written s id b) := by
  unfold written
  split_ifs
  · exact touched_nand b
  · exact touched_sdWritten (Nat.le_of_eq hb) (Nat.le_of_eq hb)

lemma Touched.item_eq (ht : Touched id s s') {j : ℕ} (hj : j ≠ id) :
    item crc32 s' j = item crc32 s j := by
  have hboot : s'.flashBootType = s.flashBootType := by rw [ht.globals]
  obtain ⟨h0, h1⟩ := ht.emmc j hj
  unfold item
  rw [hboot, ht.nand j hj, h0, h1]

lemma Touched.holdsMap (ht : Touched id s s') (hid : id ≠ 0) (hm : HoldsMap crc32 d s m) :
    HoldsMap crc32 d s' m := by
  refine ⟨fun hd => ?_, fun hd => ?_, hm.check, hm.length⟩
  · rw [ht.nand 0 hid.symm]
    exact hm.nand hd
  · obtain ⟨h0, h1⟩ := ht.emmc 0 hid.symm
    rw [h0, h1]
    exact hm.emmc hd

/-- The globals do not matter for what the flash holds. -/
lemma HoldsMap.of_flash (hm : HoldsMap crc32 d s m) (he : s'.emmc = s.emmc)
    (hn : s'.nand = s.nand) : HoldsMap crc32 d s' m := by
  refine ⟨fun hd => ?_, fun hd => ?_, hm.check, hm.length⟩
  · rw [← hm.nand hd]
    unfold nandItem
    rw [hn]
  · obtain ⟨h0, h1⟩ := hm.emmc hd
    rw [← h0]
    constructor
    · unfold copy0
      rw [he]
    · rw [h0, ← h1]
      unfold copy1
      rw [he]

lemma item_of_flash (hboot : s'.flashBootType = s.flashBootType) (he : s'.emmc = s.emmc)
    (hn : s'.nand = s.nand) : item crc32 s' id = item crc32 s id := by
  unfold item nandItem copy0 copy1
  rw [hboot, he, hn]

/-! ## What a completed write stores -/

lemma nandItem_written (hnand : s.flashBootType = flashTypeNand) (hb : b.length = secBlkSize) :
    nandItem (written s id b) id = b := by
  unfold written nandItem
  simp only [if_pos hnand, if_true]
  rw [← hb, pread_pwrite_same]

lemma item_written (hb : b.length = secBlkSize) (hcheck : checkSecureStorageKey crc32 b = 0) :
    item crc32 (written s id b) id = some b := by
  unfold item
  rw [written_flashBootType]
  by_cases hnand : s.flashBootType = flashTypeNand
  · rw [if_pos hnand, nandItem_written hnand hb]
  · rw [if_neg hnand]
    unfold written
    rw [if_neg hnand, copy0_sdWritten_self hb, readPair, if_pos hcheck]

lemma holdsMap_written (hb : b.length = secBlkSize)
    (hcheck : checkSecureStorageMap crc32 b = 0) :
    HoldsMap crc32 s.flashBootType (written s 0 b) b := by
  refine ⟨fun hd => nandItem_written hd hb, fun hd => ?_, Or.inl hcheck, hb⟩
  have hnand : s.flashBootType ≠ flashTypeNand := by
    rcases hd with hd | hd
    · rw [hd]
      decide
    · rw [hd]
      decide
  unfold written
  rw [if_neg hnand]
  exact ⟨copy0_sdWritten_self hb, copy1_sdWritten_self hb (Nat.le_of_eq hb)⟩

/-! ## `nv_write` -/

/-- Whatever fails, a write touches its own item only, and it returns 0 only when it is
complete. -/
lemma wp_nvWrite {Q : ℤ → Bool → Store → Prop} (hb : b.length = secBlkSize)
    (hfail : ∀ s', Touched id s s' → Q (-1) h s') (hok : Q 0 h (written s id b)) :
    wp perform Ok (nvWrite id b) Q h s := by
  have hself : Touched id s s := ⟨rfl, fun _ _ => rfl, fun _ _ => ⟨rfl, rfl⟩⟩
  unfold nvWrite
  refine wp_step fun _ _ => ⟨_, _, rfl, ?_⟩
  by_cases hnand : s.flashBootType = flashTypeNand
  · rw [if_pos hnand]
    unfold nandWrite
    split_ifs
    · exact hfail s hself
    refine wp_step fun _ _ => ⟨_, _, rfl, ?_⟩
    split_ifs
    · exact hfail s hself
    refine wp_step fun c _ => ⟨_, _, rfl, ?_⟩
    cases hc : c.ok with
    | true =>
      rw [if_pos rfl]
      have heq : c.written b = b := by rw [Choice.written, if_pos hc]
      rw [heq]
      unfold written at hok
      rw [if_pos hnand] at hok
      exact hok
    | false => exact hfail _ (touched_nand _)
  · rw [if_neg hnand]
    split_ifs
    · refine wp_mono wp_sdWrite ?_
      rintro r h' s' ⟨rfl, w0, w1, hw0, hw1, rfl, ⟨rfl, rfl, rfl⟩ | rfl⟩
      · unfold written at hok
        rw [if_neg hnand] at hok
        exact hok
      · exact hfail _ (touched_sdWritten (hb ▸ hw0.length_le) (hb ▸ hw1.length_le))
    · exact hfail s hself

/-- No admitted choice makes a write of item `id` fail. -/
def WritesOk (Ok : Op → Choice → Store → Prop) (id : ℕ) (s : Store) : Prop :=
  ∀ op c s', Touched id s s' → Ok op c s' → op = .malloc ∨ op.stores id = true → c.ok = true

lemma writesOk_allOk (id : ℕ) (s : Store) : WritesOk AllOk id s := fun _ _ _ _ hc _ => hc

lemma wp_nvWrite_ok {Q : ℤ → Bool → Store → Prop} (hOk : WritesOk Ok id s)
    (hknown : Known s.flashBootType) (hid : id ≤ maxSecureStorageMaxItem)
    (hb : b.length ≤ secBlkSize) (hok : Q 0 h (written s id b)) :
    wp perform Ok (nvWrite id b) Q h s := by
  have hself : Touched id s s := ⟨rfl, fun _ _ => rfl, fun _ _ => ⟨rfl, rfl⟩⟩
  unfold nvWrite
  refine wp_step fun _ _ => ⟨_, _, rfl, ?_⟩
  unfold written at hok
  by_cases hnand : s.flashBootType = flashTypeNand
  · rw [if_pos hnand] at hok ⊢
    unfold nandWrite
    rw [if_neg (by omega)]
    refine wp_step fun c hc => ⟨_, _, rfl, ?_⟩
    rw [hOk _ c s hself hc (Or.inl rfl), if_neg (by simp)]
    refine wp_step fun c hc => ⟨_, _, rfl, ?_⟩
    have hstored : c.ok = true := hOk _ c s hself hc (Or.inr (by simp [Op.stores]))
    rw [if_pos hstored]
    simp only [Choice.written, hstored, if_true]
    exact hok
  · rw [if_neg hnand] at hok ⊢
    rw [if_pos (hknown.resolve_left hnand)]
    refine wp_sdWrite_ok hid (fun op c w0 hw0 => hOk op c _ (touched_sdWritten ?_ (by simp))) hok
    rcases hw0 with rfl | rfl
    · simp
    · exact hb

/-! ## `nv_read` -/

/-- A read leaves the store alone, whatever fails. -/
lemma wp_nvRead_frame {Q : ℤ × Bytes → Bool → Store → Prop}
    (hQ : ∀ r b', b'.length = buf.length → Q (r, b') h s) :
    wp perform Ok (nvRead crc32 id buf) Q h s := by
  have hread : ∀ (off : ℕ) (b' : Bytes) {R : ℤ × Bytes → Bool → Store → Prop},
      (∀ r b'', b''.length = b'.length → R (r, b'') h s) →
      wp perform Ok (sdReadAt off id b') R h s :=
    fun off b' R hR => wp_sdReadAt (hR _ _ rfl) (hR _ _ (by simp))
  unfold nvRead
  refine wp_step fun _ _ => ⟨_, _, rfl, ?_⟩
  split_ifs with hnand hsd hid
  · unfold nandRead
    split_ifs
    · exact hQ _ _ rfl
    refine wp_step fun _ _ => ⟨_, _, rfl, ?_⟩
    split_ifs
    · exact hQ _ _ rfl
    refine wp_step fun c _ => ⟨_, _, rfl, ?_⟩
    cases c.ok with
    | false => exact hQ _ _ rfl
    | true => exact hQ _ _ (by simp)
  · subst hid
    have hbackup : ∀ (have0 : Bool) (b0 b' : Bytes), b0.length = buf.length →
        b'.length = buf.length → wp perform Ok (sdReadMapBackup crc32 0 b' have0 b0) Q h s := by
      intro have0 b0 b' hb0 hb'
      unfold sdReadMapBackup
      rw [wp_bind]
      refine hread _ _ fun r b'' hb'' => ?_
      have hlen : b''.length = buf.length := by rw [hb'', length_zeros, hb']
      simp only
      split_ifs
      all_goals first | exact hQ _ _ hlen | exact hQ _ _ hb0
    unfold sdReadMap
    refine wp_step fun _ _ => ⟨_, _, rfl, ?_⟩
    refine wp_step fun _ _ => ⟨_, _, rfl, ?_⟩
    split_ifs
    · exact hQ _ _ rfl
    refine wp_step fun _ _ => ⟨_, _, rfl, ?_⟩
    rw [wp_bind]
    refine hread _ _ fun r b' hb' => ?_
    simp only
    split_ifs
    · exact hQ _ _ hb'
    · exact hbackup _ _ _ hb' hb'
    · exact hbackup _ _ _ (by simp) hb'
  · unfold sdReadKey
    rw [wp_bind]
    refine hread _ _ fun r b' hb' => ?_
    simp only
    split_ifs
    · exact hQ _ _ hb'
    unfold sdReadKeyBackup
    rw [wp_bind]
    refine hread _ _ fun r b'' hb'' => ?_
    have hlen : b''.length = buf.length := by rw [hb'', length_zeros, hb']
    simp only
    split_ifs
    · exact hQ _ _ hlen
    · exact hQ _ _ hlen
  · exact hQ _ _ rfl

/-- There is no copy of an item behind the last. -/
lemma wp_sdReadKey_beyond {Q : ℤ × Bytes → Bool → Store → Prop}
    (hid : maxSecureStorageMaxItem < id) (hnone : ∀ b', Q (-1, b') h s) :
    wp perform Ok (sdReadKey crc32 id buf) Q h s := by
  unfold sdReadKey sdRead sdReadAt
  rw [wp_bind, if_pos hid, wp_pure]
  simp only
  rw [if_neg (by simp)]
  unfold sdReadKeyBackup sdReadBackup sdReadAt
  rw [wp_bind, if_pos hid, wp_pure]
  simp only
  rw [if_neg (by simp)]
  exact hnone _

/-- An undisturbed read of an object item. -/
lemma wp_nvRead_item_ok {Q : ℤ × Bytes → Bool → Store → Prop} (hOk : ReadsOk Ok s)
    (hknown : Known s.flashBootType) (hid : id ≠ 0 ∧ id ≤ maxSecureStorageMaxItem) (hbuf : buf.length = secBlkSize)
    (hsome : ∀ b, item crc32 s id = some b → Q (0, b) h s)
    (hnone : ∀ b', item crc32 s id = none → Q (-1, b') h s) :
    wp perform Ok (nvRead crc32 id buf) Q h s := by
  unfold nvRead
  refine wp_step fun _ _ => ⟨_, _, rfl, ?_⟩
  unfold item at hsome hnone
  by_cases hnand : s.flashBootType = flashTypeNand
  · rw [if_pos hnand] at hsome ⊢
    unfold nandRead
    rw [if_neg (by omega)]
    refine wp_step fun c hc => ⟨_, _, rfl, ?_⟩
    rw [hOk _ c hc rfl, if_neg (by simp)]
    refine wp_step fun c hc => ⟨_, _, rfl, ?_⟩
    rw [if_pos (hOk _ c hc rfl), hbuf]
    exact hsome _ rfl
  · rw [if_neg hnand] at hsome hnone ⊢
    rw [if_pos (hknown.resolve_left hnand), if_neg hid.1]
    unfold readPair at hsome hnone
    refine wp_sdReadKey_ok crc32 hOk hid.2 hbuf (fun h0 => hsome _ (if_pos h0)) fun h0 => ?_
    rw [if_neg h0] at hsome hnone
    by_cases h1 : checkSecureStorageKey crc32 (copy1 s id) = 0
    · rw [if_pos h1]
      exact hsome _ (if_pos h1)
    · rw [if_neg h1]
      exact hnone _ (if_neg h1)

/-- An undisturbed read of the map. -/
lemma wp_nvRead_map_ok {Q : ℤ × Bytes → Bool → Store → Prop} (hOk : ReadsOk Ok s)
    (hknown : Known s.flashBootType) (hm : HoldsMap crc32 s.flashBootType s m) (hbuf : buf.length = secBlkSize)
    (hok : Q (0, m) h s) : wp perform Ok (nvRead crc32 0 buf) Q h s := by
  unfold nvRead
  refine wp_step fun _ _ => ⟨_, _, rfl, ?_⟩
  by_cases hnand : s.flashBootType = flashTypeNand
  · rw [if_pos hnand]
    unfold nandRead
    rw [if_neg (by omega)]
    refine wp_step fun c hc => ⟨_, _, rfl, ?_⟩
    rw [hOk _ c hc rfl, if_neg (by simp)]
    refine wp_step fun c hc => ⟨_, _, rfl, ?_⟩
    have heq : pread (s.nand 0) 0 buf.length = m := by
      rw [hbuf]
      exact hm.nand hnand
    rw [if_pos (hOk _ c hc rfl), heq]
    exact hok
  · obtain ⟨h0, h1⟩ := hm.emmc (hknown.resolve_left hnand)
    rw [if_neg hnand, if_pos (hknown.resolve_left hnand), if_pos rfl]
    refine wp_sdReadMap_ok crc32 hOk (by decide) hbuf ?_ (fun _ => by rw [h0]; exact hok)
      (fun _ => by rw [h1]; exact hok)
    rcases hm.check with hc | hc
    · exact Or.inl (h0.symm ▸ hc)
    · exact Or.inr (Or.inr ⟨h0.symm ▸ hc, h1.trans h0.symm⟩)

/-- No admitted choice makes a read of the first copy of the map fail. -/
def ReadsFirst (Ok : Op → Choice → Store → Prop) (buf : Bytes) (s : Store) : Prop :=
  ∀ op c, Ok op c s → op = .malloc ∨ op = .sdRead (sdOffset 0) buf.length → c.ok = true

lemma wp_sdReadFirst {Q : ℤ × Bytes → Bool → Store → Prop}
    (hfail : ¬ ReadsFirst Ok buf s → Q (-1, buf) h s)
    (hok : Q (0, pread s.emmc (sdOffset 0) buf.length) h s) :
    wp perform Ok (sdRead 0 buf) Q h s := by
  unfold sdRead sdReadAt
  rw [if_neg (by decide)]
  refine wp_step fun c hc => ⟨_, _, rfl, ?_⟩
  split_ifs with hbad
  · exact hfail fun hall => by simp [hall _ c hc (Or.inl rfl)] at hbad
  refine wp_step fun c hc => ⟨_, _, rfl, ?_⟩
  cases hc' : c.ok with
  | false => exact hfail fun hall => by simp [hall _ c hc (Or.inr rfl)] at hc'
  | true => exact hok

/-- A read of the map that may fail.  It never invents a map, unless the first copy of a map
without magic cannot be read: then the code goes on with uninitialised memory. -/
lemma wp_nvRead_map {Q : ℤ × Bytes → Bool → Store → Prop}
    (hm : HoldsMap crc32 s.flashBootType s m) (hbuf : buf.length = secBlkSize)
    (hOk : checkSecureStorageMap crc32 m ≠ 0 → ReadsFirst Ok buf s)
    (hfail : ∀ b', b'.length = secBlkSize → Q (-1, b') h s)
    (hok : Known s.flashBootType → Q (0, m) h s) :
    wp perform Ok (nvRead crc32 0 buf) Q h s := by
  unfold nvRead
  refine wp_step fun _ _ => ⟨_, _, rfl, ?_⟩
  split_ifs with hnand hsd hid
  · unfold nandRead
    rw [if_neg (by omega)]
    refine wp_step fun _ _ => ⟨_, _, rfl, ?_⟩
    split_ifs
    · exact hfail _ hbuf
    refine wp_step fun c _ => ⟨_, _, rfl, ?_⟩
    have heq : pread (s.nand 0) 0 buf.length = m := by
      rw [hbuf]
      exact hm.nand hnand
    cases c.ok with
    | false => exact hfail _ hbuf
    | true =>
      simp only [if_true, heq]
      exact hok (Or.inl hnand)
  · obtain ⟨h0, h1⟩ := hm.emmc hsd
    -- the backup alone: it is the map, or a map without magic that equals the first copy
    have hbackup : ∀ (have0 : Bool) (b0 b' : Bytes), b'.length = secBlkSize →
        (checkSecureStorageMap crc32 m = 0 ∨ have0 = true ∧ b0 = m) →
        wp perform Ok (sdReadMapBackup crc32 0 b' have0 b0) Q h s := by
      intro have0 b0 b' hb' hcase
      unfold sdReadMapBackup
      rw [wp_bind]
      refine wp_sdReadAt ?_ ?_
      · simp only
        rw [if_pos (by decide)]
        exact hfail _ (by rw [length_zeros, hb'])
      · have heq : pread s.emmc (sdBackupOffset 0) (zeros b'.length).length = m := by
          rw [length_zeros, hb']
          exact h1
        simp only [heq]
        rw [if_neg (by decide)]
        rcases hcase with hc | ⟨rfl, rfl⟩
        · rw [if_pos hc]
          exact hok (Or.inr hsd)
        · rcases hm.check with hc | hc
          · rw [if_pos hc]
            exact hok (Or.inr hsd)
          · rw [if_neg (by rw [hc]; decide), if_pos hc, if_pos ⟨rfl, rfl⟩]
            exact hok (Or.inr hsd)
    unfold sdReadMap
    refine wp_step fun _ _ => ⟨_, _, rfl, ?_⟩
    refine wp_step fun _ _ => ⟨_, _, rfl, ?_⟩
    split_ifs
    · exact hfail _ hbuf
    refine wp_step fun _ _ => ⟨_, _, rfl, ?_⟩
    rw [wp_bind]
    refine wp_sdReadFirst ?_ ?_
    · intro hbad
      have hcheck : checkSecureStorageMap crc32 m = 0 := by
        by_contra hne
        exact hbad (hOk hne)
      simp only
      rw [if_neg (by simp), if_neg (by simp)]
      exact hbackup _ _ _ hbuf (Or.inl hcheck)
    · have heq : pread s.emmc (sdOffset 0) buf.length = m := by
        rw [hbuf]
        exact h0
      simp only [heq]
      rcases hm.check with hc | hc
      · rw [if_pos ⟨trivial, hc⟩]
        exact hok (Or.inr hsd)
      · rw [if_neg (by simp [hc]), if_pos ⟨trivial, hc⟩]
        exact hbackup _ _ _ hm.length (Or.inr ⟨rfl, rfl⟩)
  · exact absurd rfl hid
  · exact hfail _ hbuf

/-! ## Blank devices -/

/-- The environment in which every system call succeeds. -/
def smooth : ℕ → Choice := fun _ => ⟨true, 0, fun _ => 0, true⟩

instance : Nonempty Choice := ⟨smooth 0⟩

/-- A device that boots from an all-zero eMMC, before the first session. -/
def blankStore : Store where
  secureStorageMap := zeros secBlkSize
  secureStorageInited := false
  mapDirty := false
  flashBootType := flashTypeSd1
  cmdline := []
  socInfo := true
  emmc := fun _ => 0
  nand := fun _ _ => 0

lemma checkSecureStorageMap_zeros (n : ℕ) : checkSecureStorageMap crc32 (zeros n) = 2 := by
  rw [checkSecureStorageMap, u32_zeros, if_pos (by decide)]

lemma pread_blankStore (off n : ℕ) : pread blankStore.emmc off n = zeros n := by
  apply List.ext_getElem?
  intro i
  rw [getElem?_pread, zeros, List.getElem?_replicate]
  rfl

lemma holdsMap_blankStore : HoldsMap crc32 flashTypeSd1 blankStore (zeros secBlkSize) :=
  ⟨fun hd => absurd hd (by decide), fun _ => ⟨pread_blankStore _ _, pread_blankStore _ _⟩,
    Or.inr (checkSecureStorageMap_zeros _), by simp⟩

end Softwinner.SecureStorage
