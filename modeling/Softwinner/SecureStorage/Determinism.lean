import Softwinner.SecureStorage.Session

/-!
# What the map read depends on

`sd_read_map` keeps the first copy of the map in a buffer from `malloc` and remembers in
`have_map_copy0` that it did, but only the branch that fills the buffer sets the flag, and the
branch that uses both runs also without it.  This file compares two runs that find the same
flash and meet the same failures, and differ only in what uninitialised memory holds.

`mapRead` is the result of a run as a function of everything the run consults.  From it,
`sdReadMap_fixed_iff` says exactly when two runs agree: always, unless the backup has no magic
and the first copy was either not read or has a bad crc.  In that case the map that
`sunxi_secure_storage_init` installs can be the uninitialised buffer itself.

The outcomes of the system calls are counted from the start of the run.  In `sd_read_map` these
are the flag (0), `malloc` (1), the buffer (2), the two calls for the first copy (3 and 4), and
then the two calls for the backup.
-/

namespace Softwinner.SecureStorage

open Framework Prog

variable (crc32 : Bytes → UInt32)

/-- The first copy of the map is read. -/
def readsCopy0 (ok : ℕ → Bool) : Bool := ok 3 && ok 4

/-- The backup of the map is read; the read of the first copy makes one call less when its
`malloc` fails. -/
def readsCopy1 (ok : ℕ → Bool) : Bool := if ok 3 then ok 5 && ok 6 else ok 4 && ok 5

/-- The result of `sd_read_map` where the backup counts. -/
def backupRead (s : Store) (ok : ℕ → Bool) (haveMapCopy0 : Bool) (mapCopy0Buf : Bytes) :
    ℤ × Bytes :=
  if readsCopy1 ok = false then (-1, zeros secBlkSize)
  else if checkSecureStorageMap crc32 (copy1 s 0) = 0 then (0, copy1 s 0)
  else if checkSecureStorageMap crc32 (copy1 s 0) = 2 then
    if haveMapCopy0 ∧ mapCopy0Buf = copy1 s 0 then (0, copy1 s 0) else (1, mapCopy0Buf)
  else (1, copy1 s 0)

/-- The result of `sd_read_map`, from the outcomes of its calls and the contents of its
uninitialised memory. -/
def mapRead (s : Store) (ok : ℕ → Bool) (buf : Bytes) (flag junk : Bytes) : ℤ × Bytes :=
  if ok 1 = false then (-1, buf)
  else if readsCopy0 ok ∧ checkSecureStorageMap crc32 (copy0 s 0) = 0 then (0, copy0 s 0)
  else if readsCopy0 ok ∧ checkSecureStorageMap crc32 (copy0 s 0) = 2 then
    backupRead crc32 s ok true (copy0 s 0)
  else backupRead crc32 s ok (decide (u32 flag 0 ≠ 0)) junk

/-- The uninitialised memory is not consulted. -/
def MapSettled (s : Store) (ok : ℕ → Bool) : Prop :=
  ok 1 = false ∨
    (readsCopy0 ok = true ∧ (checkSecureStorageMap crc32 (copy0 s 0) = 0 ∨
      checkSecureStorageMap crc32 (copy0 s 0) = 2)) ∨
    readsCopy1 ok = false ∨ checkSecureStorageMap crc32 (copy1 s 0) ≠ 2

instance (s : Store) (ok : ℕ → Bool) : Decidable (MapSettled crc32 s ok) :=
  inferInstanceAs (Decidable (_ ∨ _))

section Run

variable {crc32} {h : Bool} {s : Store} {env : ℕ → Choice} {buf : Bytes}

/-- The configuration after the two calls for one copy. -/
def afterCopy (env : ℕ → Choice) (h : Bool) (s : Store) : Conf Choice Store :=
  ⟨h, fun n => if (env 0).ok then env (n + 2) else env (n + 1), s⟩

lemma yields_sdReadAt {off : ℕ} {Q : ℤ × Bytes → Conf Choice Store → Prop}
    (hbuf : buf.length = secBlkSize)
    (hok : ((env 0).ok && (env 1).ok) = true → Q (0, pread s.emmc off secBlkSize) (afterCopy env h s))
    (hfail : ((env 0).ok && (env 1).ok) = false → Q (-1, buf) (afterCopy env h s)) :
    Yields perform (sdReadAt off 0 buf) ⟨h, env, s⟩ Q := by
  unfold sdReadAt
  rw [if_neg (by omega)]
  refine yields_step rfl ?_
  unfold afterCopy at hok hfail
  cases h0 : (env 0).ok with
  | false =>
    simp only [h0, Bool.false_and, Bool.false_eq_true, if_false] at hfail
    exact yields_pure (hfail trivial)
  | true =>
    refine yields_step rfl ?_
    have hlater : (later env 1 0).ok = (env 1).ok := rfl
    rw [hbuf, hlater]
    simp only [h0, Bool.true_and, if_true] at hok hfail
    cases h1 : (env 1).ok with
    | false => exact yields_pure (hfail h1)
    | true => exact yields_pure (hok h1)

/-- The backup's part, from the call for its aligned buffer on. -/
lemma yields_sdReadMapBackup {have0 : Bool} {b0 : Bytes} (hbuf : buf.length = secBlkSize)
    (ok : ℕ → Bool) (hok : readsCopy1 ok = ((env 0).ok && (env 1).ok)) :
    Yields perform (sdReadMapBackup crc32 0 buf have0 b0) ⟨h, env, s⟩ fun r c =>
      r = backupRead crc32 s ok have0 b0 ∧ c.held = h ∧ c.st = s := by
  unfold sdReadMapBackup sdReadBackup backupRead
  rw [hbuf, hok]
  refine yields_bind (R := fun r c => (((env 0).ok && (env 1).ok) = true ∧ r = (0, copy1 s 0) ∨
    ((env 0).ok && (env 1).ok) = false ∧ r = (-1, zeros secBlkSize)) ∧ c = afterCopy env h s)
    (yields_sdReadAt (by simp) (fun hr => ⟨Or.inl ⟨hr, rfl⟩, rfl⟩)
      fun hr => ⟨Or.inr ⟨hr, rfl⟩, rfl⟩) ?_
  rintro r c ⟨⟨hread, rfl⟩ | ⟨hread, rfl⟩, rfl⟩
  · simp only [hread, ne_eq, not_true, if_false, Bool.true_eq_false]
    split_ifs
    all_goals exact yields_pure ⟨rfl, rfl, rfl⟩
  · simp only [hread, ne_eq, if_true]
    rw [if_pos (by decide)]
    exact yields_pure ⟨rfl, rfl, rfl⟩

/-- A run returns `mapRead` and changes nothing. -/
lemma yields_sdReadMap (env : ℕ → Choice) (hbuf : buf.length = secBlkSize) :
    Yields perform (sdReadMap crc32 0 buf) ⟨h, env, s⟩ fun r c =>
      r = mapRead crc32 s (fun n => (env n).ok) buf ((List.range 4).map (env 0).junk)
        ((List.range secBlkSize).map (env 2).junk) ∧ c.held = h ∧ c.st = s := by
  unfold sdReadMap sdRead mapRead
  refine yields_step rfl (yields_step rfl ?_)
  by_cases h1 : (env 1).ok = true
  swap
  · rw [Bool.not_eq_true] at h1
    rw [if_pos (show (!(later env 1 0).ok) = true by simp [later, h1]), if_pos h1]
    exact yields_pure ⟨rfl, rfl, rfl⟩
  rw [if_neg (show ¬ (!(later env 1 0).ok) = true by simp [later, h1]), if_neg (by simp [h1])]
  have hbackup : ∀ (b' : Bytes) (have0 : Bool) (b0 : Bytes), b'.length = secBlkSize →
      Yields perform (sdReadMapBackup crc32 0 b' have0 b0) (afterCopy (later env 3) h s)
        fun r c => r = backupRead crc32 s (fun n => (env n).ok) have0 b0 ∧ c.held = h ∧ c.st = s := by
    intro b' have0 b0 hb'
    refine yields_sdReadMapBackup hb' _ ?_
    simp only [readsCopy1, later]
    cases (env 3).ok with
    | false => rfl
    | true => rfl
  refine yields_step rfl ?_
  refine yields_bind (R := fun r c =>
    (((env 3).ok && (env 4).ok) = true ∧ r = (0, copy0 s 0) ∨
      ((env 3).ok && (env 4).ok) = false ∧ r = (-1, buf)) ∧ c = afterCopy (later env 3) h s)
    (yields_sdReadAt hbuf (fun hr => ⟨Or.inl ⟨hr, rfl⟩, rfl⟩)
      fun hr => ⟨Or.inr ⟨hr, rfl⟩, rfl⟩) ?_
  rintro r c ⟨⟨hread, rfl⟩ | ⟨hread, rfl⟩, rfl⟩
  · simp only [readsCopy0, hread, true_and]
    by_cases h0 : checkSecureStorageMap crc32 (copy0 s 0) = 0
    · rw [if_pos h0, if_pos h0]
      exact yields_pure ⟨rfl, rfl, rfl⟩
    rw [if_neg h0, if_neg h0]
    by_cases h2 : checkSecureStorageMap crc32 (copy0 s 0) = 2
    · rw [if_pos h2, if_pos h2]
      exact hbackup _ _ _ (by simp)
    · rw [if_neg h2, if_neg h2, hbuf]
      exact hbackup _ _ _ (by simp)
  · simp only [readsCopy0, hread, Bool.false_eq_true, false_and, if_false]
    rw [if_neg (by simp), if_neg (by simp), hbuf]
    exact hbackup _ _ _ hbuf

/-! ## Opening a session -/

/-- The device that `sunxi_secure_storage_init` reads the map from. -/
def mapDevice (s : Store) (ok : ℕ → Bool) : ℤ := if ok 1 then bootDevice s else s.flashBootType

/-- The calls that `sunxi_secure_storage_init` makes before it reads the map: a found boot
argument is stored. -/
def callsBeforeMap (s : Store) (ok : ℕ → Bool) : ℕ :=
  if ok 1 ∧ (findKey bootTypeKey (s.cmdline.take 1024)).isSome then 5 else 4

lemma yields_getFlashType : Yields perform getFlashType ⟨h, env, s⟩ fun _ c =>
    c = ⟨h, later env (if (env 0).ok ∧ (findKey bootTypeKey (s.cmdline.take 1024)).isSome then 2
      else 1), { s with flashBootType := if (env 0).ok then bootDevice s else s.flashBootType }⟩ := by
  unfold getFlashType getInfoFromCmdline bootDevice
  refine yields_bind (R := fun r c => r = (if (env 0).ok then
    findKey bootTypeKey (s.cmdline.take 1024) else none) ∧ c = ⟨h, later env 1, s⟩) ?_ ?_
  · refine yields_step rfl ?_
    cases (env 0).ok with
    | false => exact yields_pure ⟨rfl, rfl⟩
    | true => exact yields_pure ⟨rfl, rfl⟩
  rintro r c ⟨rfl, rfl⟩
  cases (env 0).ok with
  | false => exact yields_pure rfl
  | true =>
    cases findKey bootTypeKey (s.cmdline.take 1024) with
    | none => exact yields_pure rfl
    | some x => exact yields_step rfl (yields_pure rfl)

/-- What the read of the map gives, whichever device holds it. -/
def deviceMapRead (crc32 : Bytes → UInt32) (s : Store) (d : ℤ) (ok : ℕ → Bool) (flag junk : Bytes) :
    ℤ × Bytes :=
  if d = flashTypeNand then
    if ok 0 && ok 1 then (0, nandItem s 0) else (-1, s.secureStorageMap)
  else if d = flashTypeSd1 ∨ d = flashTypeSd2 then mapRead crc32 s ok s.secureStorageMap flag junk
  else (-1, s.secureStorageMap)

lemma yields_sunxiSecstorageRead_map (hlen : s.secureStorageMap.length = secBlkSize) :
    Yields perform (sunxiSecstorageRead crc32 0 s.secureStorageMap) ⟨h, env, s⟩ fun r c =>
      r = deviceMapRead crc32 s s.flashBootType (fun n => (env (n + 1)).ok)
        ((List.range 4).map (env 1).junk) ((List.range secBlkSize).map (env 3).junk) ∧
      c.held = h ∧ c.st = s := by
  unfold sunxiSecstorageRead nvRead deviceMapRead
  refine yields_step rfl ?_
  by_cases hnand : s.flashBootType = flashTypeNand
  · rw [if_pos hnand, if_pos hnand]
    unfold nandRead nandItem
    rw [if_neg (by omega), hlen]
    refine yields_step rfl ?_
    by_cases h0 : (env 1).ok = true
    · rw [if_neg (show ¬ (!(later env 1 0).ok) = true by simp [later, h0])]
      refine yields_step rfl ?_
      by_cases h1 : (env 2).ok = true
      · simp only [later, h0, h1, Nat.zero_add, Bool.and_self, if_true]
        exact yields_pure ⟨rfl, rfl, rfl⟩
      · simp only [later, h1, Nat.zero_add, Bool.and_false, Bool.false_eq_true, if_false]
        exact yields_pure ⟨rfl, rfl, rfl⟩
    · rw [if_pos (show (!(later env 1 0).ok) = true by simp [later, h0])]
      simp only [h0, Nat.zero_add, Bool.false_and, Bool.false_eq_true, if_false]
      exact yields_pure ⟨rfl, rfl, rfl⟩
  · rw [if_neg hnand, if_neg hnand]
    by_cases hsd : s.flashBootType = flashTypeSd1 ∨ s.flashBootType = flashTypeSd2
    · rw [if_pos hsd, if_pos hsd, if_pos rfl]
      exact yields_sdReadMap _ hlen
    · rw [if_neg hsd, if_neg hsd]
      exact yields_pure ⟨rfl, rfl, rfl⟩

/-- A run of `sunxi_secure_storage_init` on a closed session. -/
lemma yields_sunxiSecureStorageInit (env : ℕ → Choice)
    (hlen : s.secureStorageMap.length = secBlkSize) (hclosed : s.secureStorageInited = false) :
    Yields perform (sunxiSecureStorageInit crc32) ⟨false, env, s⟩ fun r c =>
      ∃ m : ℤ × Bytes, m = deviceMapRead crc32 s (mapDevice s fun n => (env n).ok)
          (fun n => (env (n + callsBeforeMap s fun n => (env n).ok)).ok)
          ((List.range 4).map (env (callsBeforeMap s fun n => (env n).ok)).junk)
          ((List.range secBlkSize).map (env (2 + callsBeforeMap s fun n => (env n).ok)).junk) ∧
        if m.1 = -1 then r = -1
        else r = 0 ∧ c.st.secureStorageMap = loadedMap crc32 m.2 := by
  unfold sunxiSecureStorageInit
  refine yields_acquire (yields_step rfl ?_)
  rw [hclosed, if_neg (by simp)]
  refine yields_bind yields_getFlashType ?_
  rintro _ c rfl
  refine yields_step rfl ?_
  refine yields_bind (yields_sunxiSecstorageRead_map (s := { s with flashBootType := _ }) hlen) ?_
  rintro m ⟨h', env', s'⟩ ⟨hm, rfl, rfl⟩
  refine yields_step rfl ?_
  have hm' : m = deviceMapRead crc32 s (mapDevice s fun n => (env n).ok)
      (fun n => (env (n + callsBeforeMap s fun n => (env n).ok)).ok)
      ((List.range 4).map (env (callsBeforeMap s fun n => (env n).ok)).junk)
      ((List.range secBlkSize).map (env (2 + callsBeforeMap s fun n => (env n).ok)).junk) := by
    rw [hm]
    unfold callsBeforeMap
    by_cases hkey : (env 1).ok = true ∧ (findKey bootTypeKey (s.cmdline.take 1024)).isSome = true
    · have hkey' : (later env 1 0).ok = true ∧
          (findKey bootTypeKey (s.cmdline.take 1024)).isSome = true := hkey
      rw [if_pos hkey, if_pos hkey']
      rfl
    · have hkey' : ¬ ((later env 1 0).ok = true ∧
          (findKey bootTypeKey (s.cmdline.take 1024)).isSome = true) := hkey
      rw [if_neg hkey, if_neg hkey']
      rfl
  by_cases hret : m.1 = -1
  · rw [if_pos hret]
    exact yields_release (yields_pure ⟨m, hm', by rw [if_pos hret]⟩)
  · rw [if_neg hret]
    exact yields_step rfl (yields_step rfl (yields_pure ⟨m, hm', by rw [if_neg hret]; exact ⟨rfl, rfl⟩⟩))

end Run

/-! ## Two runs -/

/-- For this pattern of outcomes, `sd_read_map` is a function of the flash: two runs return the
same code and, unless it is `-1`, leave the same bytes. -/
def MapReadFixed (s : Store) (ok : ℕ → Bool) (buf : Bytes) : Prop :=
  ∀ h env env', (∀ n, (env n : Choice).ok = ok n) → (∀ n, (env' n : Choice).ok = ok n) →
    Yields perform (sdReadMap crc32 0 buf) ⟨h, env, s⟩ fun r _ =>
      Yields perform (sdReadMap crc32 0 buf) ⟨h, env', s⟩ fun r' _ =>
        r.1 = r'.1 ∧ (r.1 ≠ -1 → r.2 = r'.2)

/-- The same of the map that `sunxi_secure_storage_init` installs. -/
def InitFixed (s : Store) (ok : ℕ → Bool) : Prop :=
  ∀ env env', (∀ n, (env n : Choice).ok = ok n) → (∀ n, (env' n : Choice).ok = ok n) →
    Yields perform (sunxiSecureStorageInit crc32) ⟨false, env, s⟩ fun r c =>
      Yields perform (sunxiSecureStorageInit crc32) ⟨false, env', s⟩ fun r' c' =>
        r = r' ∧ (r ≠ -1 → c.st.secureStorageMap = c'.st.secureStorageMap)

/-- The session is open already, or the map is not on eMMC, or its read is settled. -/
def InitSettled (s : Store) (ok : ℕ → Bool) : Prop :=
  s.secureStorageInited = false → mapDevice s ok = flashTypeSd1 ∨ mapDevice s ok = flashTypeSd2 →
    MapSettled crc32 s fun n => ok (n + callsBeforeMap s ok)

section TwoRuns

variable {crc32} {s : Store} {ok : ℕ → Bool} {buf flag flag' junk junk' : Bytes}

lemma mapRead_settled (hs : MapSettled crc32 s ok) :
    mapRead crc32 s ok buf flag junk = mapRead crc32 s ok buf flag' junk' := by
  unfold mapRead backupRead
  rcases hs with h1 | ⟨hr, h0 | h0⟩ | hr | hc
  · rw [if_pos h1, if_pos h1]
  · simp only [hr, h0, and_self, if_true]
  · simp only [hr, h0, and_self, if_true]
  · simp only [if_pos hr]
  · simp only [if_neg hc]

/-- Otherwise the buffer from `malloc` is handed on as it is. -/
lemma mapRead_unsettled (hs : ¬ MapSettled crc32 s ok) :
    (mapRead crc32 s ok buf flag junk).1 ≠ -1 ∧ (mapRead crc32 s ok buf flag junk).2 = junk := by
  unfold MapSettled at hs
  push Not at hs
  obtain ⟨h1, h0, hr, hc⟩ := hs
  unfold mapRead backupRead
  rw [if_neg h1, if_neg fun h => (h0 h.1).1 h.2, if_neg fun h => (h0 h.1).2 h.2, if_neg hr,
    if_neg (by rw [hc]; decide), if_pos hc]
  split_ifs with heq
  · exact ⟨by simp, heq.2.symm⟩
  · exact ⟨by simp, rfl⟩

/-- Uninitialised memory that holds one byte throughout. -/
def filled (ok : ℕ → Bool) (x : UInt8) : ℕ → Choice := fun n => ⟨ok n, 0, fun _ => x, true⟩

/-- A block of that memory. -/
def filledBlock (x : UInt8) : Bytes := (List.range secBlkSize).map fun _ => x

lemma getD_filledBlock {x : UInt8} {i : ℕ} (hi : i < secBlkSize) :
    (filledBlock x).getD i 0 = x := by
  simp [filledBlock, hi]

lemma filledBlock_ne : filledBlock 0 ≠ filledBlock 1 := by
  intro heq
  have hget := congrArg (fun b => b.getD 0 0) heq
  simp only [getD_filledBlock (show 0 < secBlkSize by decide)] at hget
  exact absurd hget (by decide)

/-- A block of zeros is taken for an empty map, a block of ones for a map. -/
lemma loadedMap_filledBlock_ne :
    loadedMap crc32 (filledBlock 0) ≠ loadedMap crc32 (filledBlock 1) := by
  have hcheck : ∀ x : UInt8, x = 0 ∨ x = 1 →
      checkSecureStorageMap crc32 (filledBlock x) = 2 := by
    intro x hx
    rw [checkSecureStorageMap, if_pos]
    unfold u32
    rw [getD_filledBlock (by decide), getD_filledBlock (by decide), getD_filledBlock (by decide),
      getD_filledBlock (by decide)]
    rcases hx with rfl | rfl
    · decide
    · decide
  unfold loadedMap
  rw [hcheck 0 (Or.inl rfl), hcheck 1 (Or.inr rfl), getD_filledBlock (by decide),
    getD_filledBlock (by decide)]
  rw [if_neg (by decide), if_pos rfl, if_pos (Or.inr rfl), if_neg (by decide), if_pos rfl,
    if_neg (by decide)]
  intro heq
  have hget := congrArg (fun b => b.getD 0 0) heq
  simp only [getD_zeros, getD_filledBlock (show 0 < secBlkSize by decide)] at hget
  exact absurd hget (by decide)

lemma mapReadFixed_iff (hbuf : buf.length = secBlkSize) :
    MapReadFixed crc32 s ok buf ↔ MapSettled crc32 s ok := by
  constructor
  · intro hfix
    by_contra hs
    obtain ⟨r, c, hrun, r', c', hrun', -, hsame⟩ :=
      hfix true (filled ok 0) (filled ok 1) (fun _ => rfl) fun _ => rfl
    obtain ⟨hr, -⟩ := (yields_sdReadMap _ hbuf).of_run hrun
    obtain ⟨hr', -⟩ := (yields_sdReadMap _ hbuf).of_run hrun'
    have hne : r.1 ≠ -1 := hr ▸ (mapRead_unsettled hs).1
    have hbuf0 : r.2 = filledBlock 0 := hr ▸ (mapRead_unsettled hs).2
    have hbuf1 : r'.2 = filledBlock 1 := hr' ▸ (mapRead_unsettled hs).2
    exact filledBlock_ne (hbuf0.symm.trans ((hsame hne).trans hbuf1))
  · intro hs h env env' henv henv'
    obtain ⟨r, c, hrun, hr, -⟩ := yields_sdReadMap (h := h) (s := s) env hbuf
    obtain ⟨r', c', hrun', hr', -⟩ :=
      yields_sdReadMap (h := h) (s := s) env' hbuf
    have heq : r = r' := by
      rw [hr, hr', funext henv, funext henv']
      exact mapRead_settled hs
    exact ⟨r, c, hrun, r', c', hrun', by rw [heq], fun _ => by rw [heq]⟩

lemma deviceMapRead_emmc {d : ℤ} (hd : d = flashTypeSd1 ∨ d = flashTypeSd2) :
    deviceMapRead crc32 s d ok flag junk = mapRead crc32 s ok s.secureStorageMap flag junk := by
  have hnand : d ≠ flashTypeNand := by
    rcases hd with rfl | rfl
    · decide
    · decide
  unfold deviceMapRead
  rw [if_neg hnand, if_pos hd]

lemma deviceMapRead_settled {d : ℤ}
    (hs : d = flashTypeSd1 ∨ d = flashTypeSd2 → MapSettled crc32 s ok) :
    deviceMapRead crc32 s d ok flag junk = deviceMapRead crc32 s d ok flag' junk' := by
  by_cases hd : d = flashTypeSd1 ∨ d = flashTypeSd2
  · rw [deviceMapRead_emmc hd, deviceMapRead_emmc hd]
    exact mapRead_settled (hs hd)
  · unfold deviceMapRead
    rw [if_neg hd, if_neg hd]

lemma initFixed_iff (hlen : s.secureStorageMap.length = secBlkSize) :
    InitFixed crc32 s ok ↔ InitSettled crc32 s ok := by
  constructor
  · intro hfix hclosed hsd
    by_contra hs
    obtain ⟨r, c, hrun, r', c', hrun', -, hsame⟩ :=
      hfix (filled ok 0) (filled ok 1) (fun _ => rfl) fun _ => rfl
    -- each run installs what its uninitialised buffer holds
    have hinstall : ∀ {x : UInt8} {r : ℤ} {c : Conf Choice Store},
        (sunxiSecureStorageInit crc32).run perform ⟨false, filled ok x, s⟩ = .ok (r, c) →
        r ≠ -1 ∧ c.st.secureStorageMap = loadedMap crc32 (filledBlock x) := by
      intro x r c hrun
      obtain ⟨m, hm, hr⟩ := (yields_sunxiSecureStorageInit _ hlen hclosed).of_run hrun
      have hm' : m.1 ≠ -1 ∧ m.2 = filledBlock x := by
        rw [hm]
        change (deviceMapRead crc32 s (mapDevice s ok) _ _ _).1 ≠ -1 ∧
          (deviceMapRead crc32 s (mapDevice s ok) _ _ _).2 = _
        rw [deviceMapRead_emmc hsd]
        exact mapRead_unsettled hs
      rw [if_neg hm'.1] at hr
      exact ⟨by rw [hr.1]; decide, by rw [hr.2, hm'.2]⟩
    obtain ⟨hne, hmap0⟩ := hinstall hrun
    have hmap1 := (hinstall hrun').2
    exact loadedMap_filledBlock_ne (hmap0.symm.trans ((hsame hne).trans hmap1))
  · intro hs env env' henv henv'
    cases hinit : s.secureStorageInited with
    | true =>
      have hopen : ∀ env : ℕ → Choice, Yields perform (sunxiSecureStorageInit crc32)
          ⟨false, env, s⟩ fun r c => r = 0 ∧ c.st.secureStorageMap = s.secureStorageMap := by
        intro env
        unfold sunxiSecureStorageInit
        refine yields_acquire (yields_step rfl ?_)
        rw [if_pos hinit]
        exact yields_step rfl (yields_pure ⟨rfl, rfl⟩)
      obtain ⟨r, c, hrun, rfl, hc⟩ := hopen env
      obtain ⟨r', c', hrun', rfl, hc'⟩ := hopen env'
      exact ⟨0, c, hrun, 0, c', hrun', rfl, fun _ => hc.trans hc'.symm⟩
    | false =>
      obtain ⟨r, c, hrun, m, hm, hr⟩ :=
        yields_sunxiSecureStorageInit env hlen hinit
      obtain ⟨r', c', hrun', m', hm', hr'⟩ :=
        yields_sunxiSecureStorageInit env' hlen hinit
      have heq : m = m' := by
        rw [hm, hm']
        simp only [henv, henv']
        exact deviceMapRead_settled (hs hinit)
      subst heq
      refine ⟨r, c, hrun, r', c', hrun', ?_⟩
      split_ifs at hr hr'
      · exact ⟨hr.trans hr'.symm, fun hne => absurd hr hne⟩
      · exact ⟨hr.1.trans hr'.1.symm, fun _ => hr.2.trans hr'.2.symm⟩

end TwoRuns

/-- **The map read and uninitialised memory.**  For every flash content and every pattern of
failures, `sd_read_map` is a function of the two exactly when it does not consult uninitialised
memory: its `malloc` failed, or the first copy was read and is good or has no magic, or the backup
was not read, or the backup has its magic.  The map that `sunxi_secure_storage_init` installs is a
function of them exactly when this holds of the read it makes, if it makes one from eMMC. -/
theorem sdReadMap_fixed_iff (crc32 : Bytes → UInt32) (s : Store) (ok : ℕ → Bool) (buf : Bytes)
    (hbuf : buf.length = secBlkSize) (hlen : s.secureStorageMap.length = secBlkSize) :
    (MapReadFixed crc32 s ok buf ↔ MapSettled crc32 s ok) ∧
      (InitFixed crc32 s ok ↔ InitSettled crc32 s ok) :=
  ⟨mapReadFixed_iff hbuf, initFixed_iff hlen⟩

lemma check_copy1_blankStore (crc32 : Bytes → UInt32) :
    checkSecureStorageMap crc32 (copy1 blankStore 0) = 2 := by
  have hcopy : copy1 blankStore 0 = zeros secBlkSize :=
    ((@holdsMap_blankStore crc32).emmc (Or.inl rfl)).2
  rw [hcopy, checkSecureStorageMap_zeros]

/-- On a blank eMMC without read errors the map is determined. -/
theorem sdReadMap_fixed_iff_blank :
    MapReadFixed Framework.crc32 blankStore (fun _ => true) (zeros secBlkSize) := by
  have hcopy : copy0 blankStore 0 = zeros secBlkSize :=
    ((@holdsMap_blankStore Framework.crc32).emmc (Or.inl rfl)).1
  refine (sdReadMap_fixed_iff Framework.crc32 blankStore (fun _ => true) (zeros secBlkSize)
    (by simp) (by simp [blankStore])).1.mpr (Or.inr (Or.inl ⟨rfl, Or.inr ?_⟩))
  rw [hcopy, checkSecureStorageMap_zeros]

/-- On a blank eMMC one read error on the first copy is enough: `sd_read_map` and the map
that `sunxi_secure_storage_init` installs depend on uninitialised memory. -/
theorem sdReadMap_not_fixed :
    ¬ MapReadFixed Framework.crc32 blankStore (fun n => n != 4) (zeros secBlkSize) ∧
      ¬ InitFixed Framework.crc32 blankStore (fun n => n != 8) := by
  constructor
  · rw [mapReadFixed_iff (by simp)]
    rintro (h | ⟨h, -⟩ | h | h)
    · cases h
    · cases h
    · cases h
    · exact h (check_copy1_blankStore Framework.crc32)
  · rw [initFixed_iff (by simp [blankStore])]
    intro hs
    rcases hs rfl (Or.inl rfl) with h | ⟨h, -⟩ | h | h
    · cases h
    · cases h
    · cases h
    · exact h (check_copy1_blankStore Framework.crc32)

end Softwinner.SecureStorage
