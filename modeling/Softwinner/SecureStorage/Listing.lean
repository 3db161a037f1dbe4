import Softwinner.SecureStorage.Isolation

/-!
# What a caller of the secure store can rely on

Between two calls `sec_mutex` is free and the library is in one of two modes.  Usually the
session is closed and the map is on the flash.  After a map write that failed the session is
still open: the map in memory is the valid one, it is dirty, and the flash may hold anything.
`Lists s names` covers both.  `InSession s names base` is the state of a caller between
`sunxi_secure_storage_init` and `sunxi_secure_storage_exit`: `names` are in the map in memory,
and `base` is what the flash still lists if nothing has been written yet.

The specifications below say how the calls move between the two, for any failures; `Moved`
carries what they leave alone.
-/

namespace Softwinner.SecureStorage

open Framework Prog

variable (crc32 : Bytes → UInt32)

/-- What an undisturbed read of item `k` of the boot device finds, before the device has been
selected, too. -/
def deviceItem (s : Store) (k : ℕ) : Option Bytes :=
  item crc32 { s with flashBootType := bootDevice s } k

/-- The map on the flash loads as a table of `names`. -/
def FlashLists (s : Store) (names : List Bytes) : Prop :=
  ∃ m, HoldsMap crc32 (bootDevice s) s m ∧ MapOf (loadedMap crc32 m) names

/-- The mutex is free and the library knows `names`. -/
structure Lists (s : Store) (names : List Bytes) : Prop where
  length : s.secureStorageMap.length = secBlkSize
  boot : Known s.flashBootType → s.flashBootType = bootDevice s
  closed : s.secureStorageInited = false → s.mapDirty = false ∧ FlashLists crc32 s names
  opened : s.secureStorageInited = true →
    s.mapDirty = true ∧ Known s.flashBootType ∧ MapOf s.secureStorageMap names

/-- The mutex is held between `init` and `exit`. -/
structure InSession (s : Store) (names base : List Bytes) : Prop where
  inited : s.secureStorageInited = true
  known : Known s.flashBootType
  boot : s.flashBootType = bootDevice s
  map : MapOf s.secureStorageMap names
  clean : s.mapDirty = false → FlashLists crc32 s base

/-- The same device, with the same items except the map and `k`. -/
structure Moved (k : ℕ) (s s' : Store) : Prop where
  device : bootDevice s' = bootDevice s
  socInfo : s'.socInfo = s.socInfo
  items : ∀ j, j ≠ 0 → j ≠ k → deviceItem crc32 s' j = deviceItem crc32 s j

variable {crc32} {Ok : Op → Choice → Store → Prop} {s s' s'' : Store} {names base : List Bytes}
  {a p : Bytes} {k : ℕ}

/-! ## Frames -/

lemma Moved.refl (k : ℕ) (s : Store) : Moved crc32 k s s := ⟨rfl, rfl, fun _ _ _ => rfl⟩

lemma Moved.trans (h₁ : Moved crc32 k s s') (h₂ : Moved crc32 k s' s'') :
    Moved crc32 k s s'' := by
  refine ⟨h₂.device.trans h₁.device, h₂.socInfo.trans h₁.socInfo, fun j hj hjk => ?_⟩
  rw [h₂.items j hj hjk, h₁.items j hj hjk]

lemma Moved.mono (h : Moved crc32 0 s s') (k : ℕ) : Moved crc32 k s s' :=
  ⟨h.device, h.socInfo, fun j hj _ => h.items j hj hj⟩

/-- Items depend on the selected device and the flash only. -/
lemma deviceItem_of_flash (hdev : bootDevice s' = bootDevice s) (he : s'.emmc = s.emmc)
    (hn : s'.nand = s.nand) (j : ℕ) : deviceItem crc32 s' j = deviceItem crc32 s j := by
  unfold deviceItem
  exact item_of_flash hdev he hn

lemma moved_of_flash (hdev : bootDevice s' = bootDevice s) (hsoc : s'.socInfo = s.socInfo)
    (he : s'.emmc = s.emmc) (hn : s'.nand = s.nand) : Moved crc32 0 s s' :=
  ⟨hdev, hsoc, fun j _ _ => deviceItem_of_flash hdev he hn j⟩

lemma Touched.bootDevice_eq (ht : Touched k s s') : bootDevice s' = bootDevice s := by
  have hcmd : s'.cmdline = s.cmdline := by rw [ht.globals]
  have hboot : s'.flashBootType = s.flashBootType := by rw [ht.globals]
  exact bootDevice_of_eq hcmd hboot

lemma moved_of_touched (ht : Touched k s s') : Moved crc32 k s s' := by
  have hsoc : s'.socInfo = s.socInfo := by rw [ht.globals]
  have hdev := ht.bootDevice_eq
  refine ⟨hdev, hsoc, fun j _ hjk => ?_⟩
  obtain ⟨h0, h1⟩ := ht.emmc j hjk
  have hnand := ht.nand j hjk
  unfold nandItem at hnand
  unfold copy0 at h0
  unfold copy1 at h1
  simp only [deviceItem, item, nandItem, copy0, copy1, hdev, hnand, h0, h1]

/-- In a session the device is the selected one. -/
lemma InSession.item_eq (hs : InSession crc32 s names base) (j : ℕ) :
    item crc32 s j = deviceItem crc32 s j := by
  unfold deviceItem item nandItem copy0 copy1
  rw [hs.boot]

lemma FlashLists.of_flash (hf : FlashLists crc32 s names) (hdev : bootDevice s' = bootDevice s)
    (he : s'.emmc = s.emmc) (hn : s'.nand = s.nand) : FlashLists crc32 s' names := by
  obtain ⟨m, hm, hmap⟩ := hf
  refine ⟨m, ?_, hmap⟩
  rw [hdev]
  exact hm.of_flash he hn

lemma FlashLists.of_touched (hf : FlashLists crc32 s names) (ht : Touched k s s') (hk : k ≠ 0) :
    FlashLists crc32 s' names := by
  obtain ⟨m, hm, hmap⟩ := hf
  refine ⟨m, ?_, hmap⟩
  rw [ht.bootDevice_eq]
  exact ht.holdsMap hk hm

/-- Where there is secure storage, what is listed is determined. -/
lemma FlashLists.unique {names' : List Bytes} (hf : FlashLists crc32 s names)
    (hf' : FlashLists crc32 s names') (hknown : Known (bootDevice s)) : names = names' := by
  obtain ⟨m, hm, hmap⟩ := hf
  obtain ⟨m', hm', hmap'⟩ := hf'
  have hmm : m = m' := by
    rcases hknown with hd | hd
    · exact (hm.nand hd).symm.trans (hm'.nand hd)
    · exact (hm.emmc hd).1.symm.trans (hm'.emmc hd).1
  subst hmm
  exact hmap.unique hmap'

lemma Lists.unique {names' : List Bytes} (hL : Lists crc32 s names) (hL' : Lists crc32 s names')
    (hknown : Known (bootDevice s)) : names = names' := by
  by_cases hopen : s.secureStorageInited = true
  · exact (hL.opened hopen).2.2.unique (hL'.opened hopen).2.2
  · rw [Bool.not_eq_true] at hopen
    exact (hL.closed hopen).2.unique (hL'.closed hopen).2 hknown

/-! ## Opening -/

/-- No admitted choice makes a system call fail while the map is being loaded. -/
def Opens (Ok : Op → Choice → Store → Prop) : Prop :=
  ∀ s, s.secureStorageInited = false → ReadsOk Ok s

/-- While the flash holds a map without magic, its first copy can be read. -/
def OpensBlank (crc32 : Bytes → UInt32) (Ok : Op → Choice → Store → Prop) : Prop :=
  ∀ s m, s.secureStorageInited = false → HoldsMap crc32 (bootDevice s) s m →
    checkSecureStorageMap crc32 m ≠ 0 → ReadsFirst Ok s.secureStorageMap s

lemma Opens.blank (hOk : Opens Ok) : OpensBlank crc32 Ok := by
  intro s m hclosed _ _ op c hc hop
  refine hOk s hclosed op c hc ?_
  rcases hop with rfl | rfl
  · rfl
  · rfl

/-- Whatever `get_flash_type` has stored, and whatever a read has left in the map. -/
lemma Lists.reselect (hL : Lists crc32 s names) (hclosed : s.secureStorageInited = false) {b : ℤ}
    {map' : Bytes} (hb : b = s.flashBootType ∨ b = bootDevice s)
    (hlen : map'.length = secBlkSize) :
    Lists crc32 { s with flashBootType := b, secureStorageMap := map' } names ∧
      Moved crc32 0 s { s with flashBootType := b, secureStorageMap := map' } := by
  have hdev : bootDevice { s with flashBootType := b, secureStorageMap := map' } =
      bootDevice s := by
    rcases hb with hb | hb
    · exact bootDevice_of_eq rfl hb
    · exact bootDevice_selected rfl hb
  obtain ⟨hclean, hflash⟩ := hL.closed hclosed
  refine ⟨⟨hlen, fun hknown => ?_, fun _ => ⟨hclean, hflash.of_flash hdev rfl rfl⟩,
    fun hopen => ?_⟩, moved_of_flash hdev rfl rfl rfl⟩
  · rw [hdev]
    rcases hb with rfl | rfl
    · exact hL.boot hknown
    · rfl
  · exact absurd (hclosed.symm.trans hopen) (by decide)

/-- The session that an opening starts. -/
lemma Lists.inSession (hL : Lists crc32 s names) (hclosed : s.secureStorageInited = false)
    {m : Bytes} (hmap : MapOf (loadedMap crc32 m) names)
    (hknown : Known (bootDevice s)) (hs' : s' = { s with
      flashBootType := bootDevice s, secureStorageMap := loadedMap crc32 m,
      secureStorageInited := true }) :
    InSession crc32 s' names names ∧ s'.mapDirty = s.mapDirty ∧ Moved crc32 0 s s' := by
  subst hs'
  have hdev : bootDevice { s with
      flashBootType := bootDevice s, secureStorageMap := loadedMap crc32 m,
      secureStorageInited := true } = bootDevice s := bootDevice_selected rfl rfl
  refine ⟨⟨rfl, hknown, hdev.symm, hmap, fun _ => ?_⟩, rfl, moved_of_flash hdev rfl rfl rfl⟩
  exact (hL.closed hclosed).2.of_flash hdev rfl rfl

/-- Opening. -/
lemma wp_init_lists {Q : ℤ → Bool → Store → Prop} (hL : Lists crc32 s names)
    (hblank : OpensBlank crc32 Ok)
    (hfail : (Opens Ok → ¬ Known (bootDevice s)) → ∀ s', Lists crc32 s' names →
      Moved crc32 0 s s' → Q (-1) false s')
    (hok : ∀ s', InSession crc32 s' names names → s'.mapDirty = s.mapDirty →
      Moved crc32 0 s s' → Q 0 true s') :
    wp perform Ok (sunxiSecureStorageInit crc32) Q false s := by
  by_cases hopen : s.secureStorageInited = true
  · obtain ⟨hdirty, hknown, hmap⟩ := hL.opened hopen
    refine wp_sunxiSecureStorageInit_open hopen (hok s ?_ rfl (.refl 0 s))
    refine ⟨hopen, hknown, hL.boot hknown, hmap, fun hclean => ?_⟩
    exact absurd (hclean.symm.trans hdirty) (by decide)
  · rw [Bool.not_eq_true] at hopen
    obtain ⟨m, hm, hmap⟩ := (hL.closed hopen).2
    have hgo : ∀ hknown : Known (bootDevice s), Q 0 true { s with
        flashBootType := bootDevice s, secureStorageMap := loadedMap crc32 m,
        secureStorageInited := true } := by
      intro hknown
      obtain ⟨hin, hdirty, hmoved⟩ := hL.inSession hopen hmap hknown rfl
      exact hok _ hin hdirty hmoved
    by_cases hOk : Opens Ok
    · refine wp_sunxiSecureStorageInit_ok (fun _ => hOk _ hopen) hopen hL.length hm hgo ?_
      intro hunknown
      obtain ⟨hL', hmoved⟩ := hL.reselect hopen (Or.inr rfl) hL.length
      exact hfail (fun _ => hunknown) _ hL' hmoved
    · refine wp_sunxiSecureStorageInit hopen hL.length hm hL.boot ?_ ?_ hgo
      · intro hcheck b hb
        have hdev : bootDevice { s with flashBootType := b } = bootDevice s := by
          rcases hb with hb | hb
          · exact bootDevice_of_eq rfl hb
          · exact bootDevice_selected rfl hb
        exact hblank { s with flashBootType := b } m hopen
          (hdev.symm ▸ hm.of_flash rfl rfl) hcheck
      · intro b map' hb hlen
        obtain ⟨hL', hmoved⟩ := hL.reselect hopen hb hlen
        exact hfail (fun hOk' => absurd hOk' hOk) _ hL' hmoved

/-- A device without secure storage, or without memory, is refused at once. -/
lemma wp_nvRead_refused {h : Bool} {buf : Bytes} {Q : ℤ × Bytes → Bool → Store → Prop}
    (hwhy : ¬ Known s.flashBootType ∨ ∀ c, Ok .malloc c s → c.ok = false) (hQ : Q (-1, buf) h s) :
    wp perform Ok (nvRead crc32 0 buf) Q h s := by
  unfold nvRead
  refine wp_step fun _ _ => ⟨_, _, rfl, ?_⟩
  split_ifs with hnand hsd hid
  · unfold nandRead
    rw [if_neg (by omega)]
    refine wp_step fun c hc => ⟨_, _, rfl, ?_⟩
    rcases hwhy with hno | hno
    · exact absurd (Or.inl hnand) hno
    · rw [hno c hc, if_pos (by simp)]
      exact hQ
  · unfold sdReadMap
    refine wp_step fun _ _ => ⟨_, _, rfl, ?_⟩
    refine wp_step fun c hc => ⟨_, _, rfl, ?_⟩
    rcases hwhy with hno | hno
    · exact absurd (Or.inr hsd) hno
    · rw [hno c hc, if_pos (by simp)]
      exact hQ
  · exact absurd rfl hid
  · exact hQ

lemma wp_init_refused {Q : ℤ → Bool → Store → Prop} (hL : Lists crc32 s names)
    (hclosed : s.secureStorageInited = false)
    (hwhy : ¬ Known (bootDevice s) ∨ ∀ c s', Ok .malloc c s' → c.ok = false)
    (hQ : ∀ s', Lists crc32 s' names → Moved crc32 0 s s' → Q (-1) false s') :
    wp perform Ok (sunxiSecureStorageInit crc32) Q false s := by
  unfold sunxiSecureStorageInit
  refine ⟨rfl, ?_⟩
  refine wp_step fun _ _ => ⟨_, _, rfl, ?_⟩
  rw [hclosed, if_neg (by simp), wp_bind]
  refine wp_getFlashType fun _ b hb => ?_
  refine wp_step fun _ _ => ⟨_, _, rfl, ?_⟩
  rw [wp_bind]
  refine wp_nvRead_refused ?_ ?_
  · rcases hwhy with hno | hno
    · refine Or.inl fun hknown => hno ?_
      rcases hb with rfl | rfl
      · exact hL.boot hknown ▸ hknown
      · exact hknown
    · exact Or.inr fun c hc => hno c _ hc
  · refine wp_step fun _ _ => ⟨_, _, rfl, ?_⟩
    rw [if_pos rfl]
    obtain ⟨hL', hmoved⟩ := hL.reselect hclosed hb hL.length
    exact ⟨rfl, hQ _ hL' hmoved⟩

/-! ## Closing -/

lemma InSession.length (hs : InSession crc32 s names base) :
    s.secureStorageMap.length = secBlkSize := hs.map.length

lemma InSession.of_clean (hs : InSession crc32 s names base) (hclean : s.mapDirty = false) :
    Lists crc32 { s with secureStorageInited := false, mapDirty := false } base ∧
      Moved crc32 0 s { s with secureStorageInited := false, mapDirty := false } := by
  have hdev : bootDevice { s with secureStorageInited := false, mapDirty := false } =
      bootDevice s := bootDevice_of_eq rfl rfl
  refine ⟨⟨hs.length, fun _ => ?_, fun _ => ⟨rfl, (hs.clean hclean).of_flash hdev rfl rfl⟩,
    fun hopen => nomatch hopen⟩, moved_of_flash hdev rfl rfl rfl⟩
  exact hs.boot.trans hdev.symm

/-- The map is on the flash, and the session closed. -/
lemma InSession.closedDirty (hs : InSession crc32 s names base) :
    Lists crc32 (closedDirty crc32 s) names ∧ Moved crc32 0 s (closedDirty crc32 s) := by
  have hlen : (sealedMap crc32 s.secureStorageMap).length = secBlkSize :=
    length_sealedMap hs.length
  have hcheck : checkSecureStorageMap crc32 (sealedMap crc32 s.secureStorageMap) = 0 :=
    checkSecureStorageMap_sealedMap hs.length
  have hflash : FlashLists crc32 (SecureStorage.closedDirty crc32 s) names := by
    refine ⟨sealedMap crc32 s.secureStorageMap, ?_, ?_⟩
    · rw [bootDevice_closedDirty, ← hs.boot]
      exact holdsMap_closedDirty hs.length
    · rw [loadedMap_of_check hcheck]
      exact hs.map.sealedMap
  refine ⟨⟨?_, fun _ => ?_, fun _ => ⟨rfl, hflash⟩, fun hopen => ?_⟩, ?_⟩
  · simpa [SecureStorage.closedDirty] using hlen
  · rw [bootDevice_closedDirty, ← hs.boot]
    simp [SecureStorage.closedDirty]
  · cases hopen
  · refine (moved_of_flash rfl rfl rfl rfl : Moved crc32 0 s
      { s with secureStorageMap := sealedMap crc32 s.secureStorageMap }).trans ?_
    refine (moved_of_touched (touched_written hlen)).trans ?_
    exact moved_of_flash (bootDevice_of_eq rfl rfl) rfl rfl rfl

/-- The map write has failed: the session stays open, with the mutex free. -/
lemma InSession.left_open (hs : InSession crc32 s names base) (hdirty : s.mapDirty = true)
    (ht : Touched 0 { s with secureStorageMap := sealedMap crc32 s.secureStorageMap } s') :
    Lists crc32 s' names ∧ Moved crc32 0 s s' := by
  have hmap : s'.secureStorageMap = sealedMap crc32 s.secureStorageMap := by rw [ht.globals]
  have hboot : s'.flashBootType = s.flashBootType := by rw [ht.globals]
  have hinited : s'.secureStorageInited = s.secureStorageInited := by rw [ht.globals]
  have hd : s'.mapDirty = s.mapDirty := by rw [ht.globals]
  have hdev : bootDevice s' = bootDevice s := ht.bootDevice_eq
  refine ⟨⟨?_, fun _ => ?_, fun hclosed => ?_, fun _ => ⟨hd.trans hdirty, ?_, ?_⟩⟩, ?_⟩
  · rw [hmap]
    exact length_sealedMap hs.length
  · rw [hboot, hdev, hs.boot]
  · rw [hinited, hs.inited] at hclosed
    cases hclosed
  · rw [hboot]
    exact hs.known
  · rw [hmap]
    exact hs.map.sealedMap
  · exact (moved_of_flash rfl rfl rfl rfl : Moved crc32 0 s
      { s with secureStorageMap := sealedMap crc32 s.secureStorageMap }).trans (moved_of_touched ht)

/-- Closing. -/
lemma wp_exit_lists {Q : ℤ → Bool → Store → Prop} (hs : InSession crc32 s names base)
    (hclean : s.mapDirty = false → ∀ s', Lists crc32 s' base → s'.secureStorageInited = false →
      Moved crc32 0 s s' → Q 0 false s')
    (hdirty : s.mapDirty = true → ∀ s', Lists crc32 s' names → s'.secureStorageInited = false →
      Moved crc32 0 s s' → Q 0 false s')
    (hfail : s.mapDirty = true → ¬ (∀ s', WritesOk Ok 0 s') → ∀ s', Lists crc32 s' names →
      Moved crc32 0 s s' → Q (-1) false s') :
    wp perform Ok (sunxiSecureStorageExit crc32 0) Q true s := by
  refine wp_sunxiSecureStorageExit hs.inited hs.length hs.known ?_ ?_ ?_
  · intro hd hw s' ht
    obtain ⟨hL, hmoved⟩ := hs.left_open hd ht
    exact hfail hd hw s' hL hmoved
  · intro hd
    obtain ⟨hL, hmoved⟩ := hs.closedDirty
    exact hdirty hd _ hL rfl hmoved
  · intro hc
    obtain ⟨hL, hmoved⟩ := hs.of_clean hc
    exact hclean hc _ hL rfl hmoved

lemma wp_exit_lists_ok {Q : ℤ → Bool → Store → Prop} (hs : InSession crc32 s names base)
    (hbase : s.mapDirty = false → base = names)
    (hQ : ∀ s', Lists crc32 s' names → s'.secureStorageInited = false → Moved crc32 0 s s' →
      Q 0 false s') :
    wp perform AllOk (sunxiSecureStorageExit crc32 0) Q true s := by
  refine wp_exit_lists hs ?_ (fun _ => hQ) fun _ hw => absurd (fun s' => writesOk_allOk 0 s') hw
  intro hc s' hL
  rw [hbase hc] at hL
  exact hQ s' hL

/-! ## The test for support -/

lemma wp_support_lists {Q : ℤ → Bool → Store → Prop} (hL : Lists crc32 s names)
    (hblank : OpensBlank crc32 Ok)
    (hfail : (Opens Ok → s.socInfo = true → ¬ Known (bootDevice s)) → ∀ s', Lists crc32 s' names →
      Moved crc32 0 s s' → Q (-1) false s')
    (hok : s.socInfo = true → Known (bootDevice s) → ∀ s', Lists crc32 s' names →
      Moved crc32 0 s s' → Q 0 false s') :
    wp perform Ok (secureStorageSupport crc32) Q false s := by
  unfold secureStorageSupport
  refine wp_step fun _ _ => ⟨_, _, rfl, ?_⟩
  by_cases hsoc : s.socInfo = true
  · rw [hsoc, if_neg (by simp), wp_bind]
    refine wp_init_lists hL hblank ?_ ?_
    · intro hwhy s' hL' hmoved
      rw [if_pos (by decide)]
      exact hfail (fun hOk _ => hwhy hOk) s' hL' hmoved
    · intro s' hs' _ hmoved
      have hknown : Known (bootDevice s) := by
        rw [← hmoved.device, ← hs'.boot]
        exact hs'.known
      rw [if_neg (by decide), wp_bind]
      refine wp_exit_lists hs' ?_ ?_ ?_
      · intro _ s'' hL'' _ hmoved'
        exact hok hsoc hknown s'' hL'' (hmoved.trans hmoved')
      · intro _ s'' hL'' _ hmoved'
        exact hok hsoc hknown s'' hL'' (hmoved.trans hmoved')
      · intro _ _ s'' hL'' hmoved'
        exact hok hsoc hknown s'' hL'' (hmoved.trans hmoved')
  · rw [Bool.not_eq_true] at hsoc
    rw [hsoc, if_pos (by simp)]
    exact hfail (fun _ hsoc' => absurd (hsoc.symm.trans hsoc') (by decide)) s hL (.refl 0 s)

/-- Support is denied without the device file, on an unknown device, and without memory. -/
lemma wp_support_refused {Q : ℤ → Bool → Store → Prop} (hL : Lists crc32 s names)
    (hwhy : s.socInfo = false ∨ ¬ Known (bootDevice s) ∨
      s.secureStorageInited = false ∧ ∀ c s', Ok .malloc c s' → c.ok = false)
    (hQ : ∀ s', Lists crc32 s' names → Moved crc32 0 s s' → Q (-1) false s') :
    wp perform Ok (secureStorageSupport crc32) Q false s := by
  unfold secureStorageSupport
  refine wp_step fun _ _ => ⟨_, _, rfl, ?_⟩
  by_cases hsoc : s.socInfo = true
  swap
  · rw [if_pos (by simpa using hsoc)]
    exact hQ s hL (.refl 0 s)
  have hclosed : s.secureStorageInited = false := by
    rcases hwhy with hno | hno | ⟨hclosed, -⟩
    · exact absurd (hno.symm.trans hsoc) (by decide)
    · by_contra hopen
      rw [Bool.not_eq_false] at hopen
      have hknown := (hL.opened hopen).2.1
      exact hno (hL.boot hknown ▸ hknown)
    · exact hclosed
  have hrest : ¬ Known (bootDevice s) ∨ ∀ c s', Ok .malloc c s' → c.ok = false := by
    rcases hwhy with hno | hno | ⟨-, hno⟩
    · exact absurd (hno.symm.trans hsoc) (by decide)
    · exact Or.inl hno
    · exact Or.inr hno
  rw [hsoc, if_neg (by simp), wp_bind]
  refine wp_init_refused hL hclosed hrest fun s' hL' hmoved => ?_
  rw [if_pos (by decide)]
  exact hQ s' hL' hmoved

/-! ## Writing in a session -/

lemma InSession.slot (hs : InSession crc32 s names base) {m' : Bytes} {names' : List Bytes}
    (hsl : Slot s.secureStorageMap names a k m' names') (ha : ItemName a) :
    InSession crc32 { s with secureStorageMap := m' } names' base := by
  have hdev : bootDevice { s with secureStorageMap := m' } = bootDevice s :=
    bootDevice_of_eq rfl rfl
  refine ⟨hs.inited, hs.known, hs.boot.trans hdev.symm, hsl.mapOf hs.map ha, fun hclean => ?_⟩
  exact (hs.clean hclean).of_flash hdev rfl rfl

lemma InSession.touched (hs : InSession crc32 s names base) (ht : Touched k s s') (hk : k ≠ 0) :
    InSession crc32 s' names base := by
  have hmap : s'.secureStorageMap = s.secureStorageMap := by rw [ht.globals]
  have hboot : s'.flashBootType = s.flashBootType := by rw [ht.globals]
  have hinited : s'.secureStorageInited = s.secureStorageInited := by rw [ht.globals]
  have hd : s'.mapDirty = s.mapDirty := by rw [ht.globals]
  refine ⟨hinited.trans hs.inited, ?_, ?_, ?_, fun hclean => ?_⟩
  · rw [hboot]
    exact hs.known
  · rw [hboot, ht.bootDevice_eq]
    exact hs.boot
  · rw [hmap]
    exact hs.map
  · exact (hs.clean (hd.symm.trans hclean)).of_touched ht hk

lemma InSession.dirty (hs : InSession crc32 s names base) :
    InSession crc32 { s with mapDirty := true } names base := by
  have hdev : bootDevice { s with mapDirty := true } = bootDevice s := bootDevice_of_eq rfl rfl
  exact ⟨hs.inited, hs.known, hs.boot.trans hdev.symm, hs.map, fun hclean => nomatch hclean⟩

/-- The session after a completed block write. -/
lemma InSession.block_written (hs : InSession crc32 s names base) (ha : ItemName a)
    {m' obj : Bytes} {names' : List Bytes}
    (hsl : Slot s.secureStorageMap names a k m' names')
    (hwrap : wrapSecureObject crc32 p a (zeros secBlkSize) = some obj)
    (hs' : s' = { written { s with secureStorageMap := m' } k obj with mapDirty := true }) :
    InSession crc32 s' names' base ∧ Moved crc32 k s s' ∧ deviceItem crc32 s' k = some obj := by
  subst hs'
  have hk : k ≠ 0 := by
    have hpos := (hsl.index hs.map).1
    omega
  have hlen : obj.length = secBlkSize := length_wrap (by simp) hwrap
  have hmoved : Moved crc32 0 s { s with secureStorageMap := m' } := moved_of_flash rfl rfl rfl rfl
  have hafter : InSession crc32 { written { s with secureStorageMap := m' } k obj with
      mapDirty := true } names' base :=
    ((hs.slot hsl ha).touched (touched_written hlen) hk).dirty
  refine ⟨hafter, ?_, ?_⟩
  · refine (hmoved.mono k).trans ((moved_of_touched (touched_written hlen)).trans ?_)
    refine Moved.mono ?_ k
    exact moved_of_flash (bootDevice_of_eq rfl rfl) rfl rfl rfl
  · rw [← hafter.item_eq]
    exact (item_of_flash rfl rfl rfl).trans
      (item_written hlen (checkSecureStorageKey_wrap (by simp) hwrap))

/-- `sunxi_secure_object_write` in a session, whatever fails. -/
lemma wp_objectWrite_session {h : Bool} {Q : ℤ → Bool → Store → Prop}
    (hs : InSession crc32 s names base) (ha : ItemName a)
    (hfault : indexOf names a ≠ none → ∀ c s', ¬ Ok .fault c s')
    (hsame : Refuses s names a p ∨ indexOf names a ≠ none → Q (-1) h s)
    (hfail : ∀ k m' names' s', Slot s.secureStorageMap names a k m' names' →
      ¬ WritesOk Ok k { s with secureStorageMap := m' } →
      InSession crc32 s' names' base → s'.mapDirty = s.mapDirty → Moved crc32 k s s' →
      Q (-1) h s')
    (hok : ∀ k m' names' s' obj, Slot s.secureStorageMap names a k m' names' →
      wrapSecureObject crc32 p a (zeros secBlkSize) = some obj →
      InSession crc32 s' names' base → s'.mapDirty = true → Moved crc32 k s s' →
      deviceItem crc32 s' k = some obj → Q 0 h s') :
    wp perform Ok (sunxiSecureObjectWrite crc32 a p) Q h s := by
  refine wp_sunxiSecureObjectWrite hs.map ha ?_ (fun hr => hsame (Or.inl hr)) ?_
  · intro hfound _ _ _
    exact wp_sunxiSecureObjectRead_frame (hfault hfound)
      fun _ => ⟨rfl, rfl, fun _ => hsame (Or.inr hfound)⟩
  · intro _ obj hwrap k m' names' hsl
    have hmax : maxSecureStorageMaxItem = 32 := rfl
    obtain ⟨hpos, hle, -⟩ := hsl.index hs.map
    have hlen : obj.length = secBlkSize := length_wrap (by simp) hwrap
    have hdone : Q 0 h { written { s with secureStorageMap := m' } k obj with mapDirty := true } := by
      obtain ⟨hin, hmoved, hitem⟩ := hs.block_written ha hsl hwrap rfl
      exact hok k m' names' _ obj hsl hwrap hin rfl hmoved hitem
    by_cases hw : WritesOk Ok k { s with secureStorageMap := m' }
    · exact wp_nvWrite_ok hw hs.known (by omega) (Nat.le_of_eq hlen)
        ⟨fun hr => absurd rfl hr, fun _ => hdone⟩
    · refine wp_nvWrite hlen (fun s' ht => ⟨fun _ => ?_, fun hr => absurd hr (by decide)⟩)
        ⟨fun hr => absurd rfl hr, fun _ => hdone⟩
      have hd : s'.mapDirty = s.mapDirty := by rw [ht.globals]
      have hmoved : Moved crc32 0 s { s with secureStorageMap := m' } :=
        moved_of_flash rfl rfl rfl rfl
      exact hfail k m' names' s' hsl hw ((hs.slot hsl ha).touched ht (by omega)) hd
        ((hmoved.mono k).trans (moved_of_touched ht))

/-! ## Reading in a session -/

/-- The payload that item `k` of the boot device holds. -/
def devicePayload (crc32 : Bytes → UInt32) (s : Store) (k : ℕ) : Option Bytes :=
  (deviceItem crc32 s k).bind fun block => payloadOf crc32 (loadedObject block)

lemma devicePayload_wrap {obj : Bytes} (hitem : deviceItem crc32 s k = some obj)
    (hwrap : wrapSecureObject crc32 p a (zeros secBlkSize) = some obj) :
    devicePayload crc32 s k = some p := by
  rw [devicePayload, hitem, Option.bind_some, loadedObject_wrap hwrap]
  exact payloadOf_wrap hwrap

lemma Moved.payload_eq (hmoved : Moved crc32 k s s') {j : ℕ} (hj : j ≠ 0) (hjk : j ≠ k) :
    devicePayload crc32 s' j = devicePayload crc32 s j := by
  rw [devicePayload, devicePayload, hmoved.items j hj hjk]

lemma unwrap_of_payload {block buf : Bytes} {dl : ℤ}
    (hpay : payloadOf crc32 (loadedObject block) = some p) (hfit : p.length ≤ buf.length) :
    unwrapSecureObject crc32 (loadedObject block) storeObjectSize buf dl =
      some ⟨0, p ++ buf.drop p.length, p.length⟩ := by
  have hread : readValue crc32 (some block) buf dl = payloadValue p buf :=
    readValue_of_payload hpay
  rw [payloadValue, if_pos hfit, readValue] at hread
  cases hun : unwrapSecureObject crc32 (loadedObject block) storeObjectSize buf dl with
  | none =>
    rw [hun] at hread
    cases hread
  | some r =>
    rw [hun] at hread
    injection hread with hread
    rw [hread]

/-- A read in a session, when the block a name leads to holds a payload that fits. -/
lemma wp_objectRead_session {h : Bool} {buf : Bytes} {dl : ℤ} {Q : ReadOut → Bool → Store → Prop}
    (hOk : ReadsOk Ok s) (hs : InSession crc32 s names base) (ha : ItemName a)
    (hsome : ∀ k, indexOf names a = some k → ∃ p, devicePayload crc32 s k = some p ∧
      p.length ≤ buf.length ∧ Q ⟨0, p ++ buf.drop p.length, p.length⟩ h s)
    (hnone : indexOf names a = none → Q ⟨-1, buf, dl⟩ h s) :
    wp perform Ok (sunxiSecureObjectRead crc32 a buf dl) Q h s := by
  have hblock : blockOf crc32 s names a = (indexOf names a).bind (deviceItem crc32 s) := by
    unfold blockOf
    cases indexOf names a with
    | none => rfl
    | some k => exact hs.item_eq k
  unfold sunxiSecureObjectRead
  rw [wp_bind]
  refine wp_sunxiSecureStorageRead_ok hOk hs.inited hs.known hs.map ha ?_ ?_
  · intro block hb
    rw [hblock] at hb
    cases hidx : indexOf names a with
    | none =>
      rw [hidx] at hb
      cases hb
    | some k =>
      rw [hidx, Option.bind_some] at hb
      obtain ⟨p, hpay, hfit, hQ⟩ := hsome k hidx
      rw [devicePayload, hb, Option.bind_some] at hpay
      simp only
      rw [if_neg (by decide), unwrap_of_payload hpay hfit]
      exact hQ
  · intro hb b
    rw [hblock] at hb
    rw [if_pos (by simp)]
    cases hidx : indexOf names a with
    | none => exact hnone hidx
    | some k =>
      obtain ⟨p, hpay, -⟩ := hsome k hidx
      rw [hidx, Option.bind_some] at hb
      rw [devicePayload, hb] at hpay
      cases hpay

/-- A write of a listed name whose block can be read and written. -/
lemma wp_objectWrite_listed {h : Bool} {q : Bytes} {Q : ℤ → Bool → Store → Prop}
    (hs : InSession crc32 s names base) (ha : ItemName a) (hk : indexOf names a = some k)
    (hOk : ReadsOk Ok s) (hw : WritesOk Ok k s) (hpay : devicePayload crc32 s k = some q)
    (hfit : q.length ≤ secBlkSize)
    (hprot : ∀ c : Choice, Ok (.uninit secBlkSize) c s →
      ¬ LooksProtected (q ++ ((List.range secBlkSize).map c.junk).drop q.length))
    (hp : p.length ≤ maxStoreLen)
    (hok : ∀ s' obj, wrapSecureObject crc32 p a (zeros secBlkSize) = some obj →
      InSession crc32 s' names base → s'.mapDirty = true → Moved crc32 k s s' →
      deviceItem crc32 s' k = some obj → Q 0 h s') :
    wp perform Ok (sunxiSecureObjectWrite crc32 a p) Q h s := by
  have hmax : maxSecureStorageMaxItem = 32 := rfl
  refine wp_sunxiSecureObjectWrite hs.map ha ?_ ?_ ?_
  · intro _ _ c hc
    refine wp_objectRead_session hOk hs ha ?_ ?_
    · intro k' hk'
      obtain rfl := Option.some.inj (hk.symm.trans hk')
      refine ⟨q, hpay, ?_, rfl, rfl, fun hlooks => absurd hlooks (hprot c hc)⟩
      simpa using hfit
    · intro hnone
      exact nomatch hk.symm.trans hnone
  · rintro (hclosed | hlong | ⟨hnone, -⟩)
    · exact absurd (hclosed.symm.trans hs.inited) (by decide)
    · omega
    · exact nomatch hk.symm.trans hnone
  · intro _ obj hwrap k' m' names' hsl
    have hlen : obj.length = secBlkSize := length_wrap (by simp) hwrap
    obtain ⟨hin, hmoved, hitem⟩ := hs.block_written ha hsl hwrap rfl
    obtain ⟨-, hle, -⟩ := hsl.index hs.map
    cases hsl with
    | added hnone _ => exact nomatch hk.symm.trans hnone
    | found hk' =>
      obtain rfl := Option.some.inj (hk.symm.trans hk')
      exact wp_nvWrite_ok hw hs.known (by omega) (Nat.le_of_eq hlen)
        ⟨fun hr => absurd rfl hr, fun _ => hok _ obj hwrap hin rfl hmoved hitem⟩

end Softwinner.SecureStorage
