import Mathlib.Logic.Relation
import Softwinner.Framework.Crc32
import Softwinner.SecureStorage.Device

/-!
# What the two copies of an eMMC item are good for

`_sd_write` stores every item twice and the reading functions fall back from the first copy
to the backup.  This file settles what that redundancy buys.

* **Damage.**  After any sequence of completed writes, an adversary may replace one copy of
  every item by content that fails its check; `nv_read` still returns the last block written
  (`nvRead_of_damaged`).  Items and the map take different fallback procedures, and the copies
  of different items never overlap.
* **Interruption.**  A call may also be cut off at any byte.  One such cut is harmless
  (`tearsSafely_of_equal`), but a call cut off after its first copy leaves the copies different,
  nothing repairs them, and a second cut inside the first copy then exposes the stale or torn
  backup: `sdWrite_interrupted` says exactly which calls are safe, and
  `stale_backup_exposed` is a run of two calls that ends with the object of two writes ago.

Both results are about the code's own runs: completed calls are runs of `sdWrite`, cut-off
ones are its `cutoff`s.
-/

namespace Softwinner.SecureStorage

open Framework Prog

variable (crc32 : Bytes → UInt32)

/-! ## Reading an item -/

/-- Every undisturbed `sd_read_key` of item `id` succeeds and returns `b`. -/
def ReadsKey (s : Store) (id : ℕ) (b : Bytes) : Prop :=
  ∀ (h : Bool) (env : ℕ → Choice) (buf : Bytes), (∀ n, (env n).ok = true) →
    buf.length = secBlkSize →
    ∃ c', (sdReadKey crc32 id buf).run perform ⟨h, env, s⟩ = .ok ((0, b), c')

/-- Every undisturbed `nv_read` of item `id` returns 0 and `b`. -/
def ReadsItem (s : Store) (id : ℕ) (b : Bytes) : Prop :=
  ∀ (h : Bool) (env : ℕ → Choice) (buf : Bytes), (∀ n, (env n).ok = true) →
    buf.length = secBlkSize →
    ∃ c', (nvRead crc32 id buf).run perform ⟨h, env, s⟩ = .ok ((0, b), c')

variable {crc32} {id : ℕ} {s s' : Store} {v b : Bytes}

lemma readsKey_iff (hid : id ≤ maxSecureStorageMaxItem) :
    ReadsKey crc32 s id b ↔ readPair crc32 (copy0 s id) (copy1 s id) = some b := by
  have hrun : ∀ (h : Bool) (env : ℕ → Choice) (buf : Bytes), (∀ n, (env n).ok = true) →
      buf.length = secBlkSize →
      ∃ r c', (sdReadKey crc32 id buf).run perform ⟨h, env, s⟩ = .ok (r, c') ∧
        ∀ b, r = (0, b) ↔ readPair crc32 (copy0 s id) (copy1 s id) = some b := by
    intro h env buf henv hbuf
    refine wp_run (G := fun c => c.ok = true)
      (Q := fun r _ _ => ∀ b, r = (0, b) ↔
        readPair crc32 (copy0 s id) (copy1 s id) = some b) ?_ henv
    refine wp_sdReadKey_ok crc32 (readsOk_allOk _) hid hbuf ?_ ?_
    · intro h0 b
      rw [readPair, if_pos h0]
      simp
    · intro h0 b
      rw [readPair, if_neg h0]
      by_cases h1 : checkSecureStorageKey crc32 (copy1 s id) = 0
      · rw [if_pos h1, if_pos h1]
        simp
      · rw [if_neg h1, if_neg h1]
        simp
  constructor
  · intro hread
    obtain ⟨r, c', hr, hiff⟩ := hrun false smooth (zeros secBlkSize) (fun _ => rfl) (by simp)
    obtain ⟨c'', hc⟩ := hread false smooth (zeros secBlkSize) (fun _ => rfl) (by simp)
    rw [hr] at hc
    injection hc with hc
    injection hc with hret hconf
    exact (hiff b).mp hret
  · intro hpair h env buf henv hbuf
    obtain ⟨r, c', hr, hiff⟩ := hrun h env buf henv hbuf
    rw [(hiff b).mpr hpair] at hr
    exact ⟨c', hr⟩

/-! ## Interrupted writes -/

/-- The choices of a call that is cut off in its `n`-th operation: everything before it
succeeds, and of the write it interrupts `k` bytes have reached the medium. -/
def interrupted (n k : ℕ) : ℕ → Choice := fun i => ⟨decide (i + 1 < n), k, fun _ => 0, true⟩

/-- A call of `_sd_write(id, v)`, complete or cut off. -/
inductive SdCall (id : ℕ) (v : Bytes) (s : Store) : Store → Prop
  | complete {h : Bool} {env : ℕ → Choice} {c' : Conf Choice Store}
      (henv : ∀ n, (env n).ok = true)
      (hrun : (sdWrite id v).run perform ⟨h, env, s⟩ = .ok (0, c')) : SdCall id v s c'.st
  | cutoff {h : Bool} {s' : Store} (n k : ℕ)
      (hcut : (sdWrite id v).cutoff perform n ⟨h, interrupted n k, s⟩ = some s') :
      SdCall id v s s'

/-- What a call, complete or cut off, leaves of the two copies. -/
lemma SdCall.cases (hid : id ≤ maxSecureStorageMaxItem) (hcall : SdCall id v s s') :
    s' = sdWritten s id v v ∨ (∃ k, s' = sdWritten s id (v.take k) []) ∨
      ∃ k, s' = sdWritten s id v (v.take k) := by
  have hnone : s = sdWritten s id (v.take 0) [] := by
    unfold sdWritten
    rw [List.take_zero, pwrite_nil, pwrite_nil]
  cases hcall with
  | @complete h env c' henv hrun =>
    left
    exact wp_of_run (G := fun c => c.ok = true) (Q := fun _ _ s' => s' = sdWritten s id v v)
      (wp_sdWrite_ok hid (fun _ _ _ _ hc _ => hc) rfl) henv hrun
  | @cutoff h s' n k hcut =>
    have hle : ¬ id > maxSecureStorageMaxItem := by omega
    unfold sdWrite at hcut
    rw [if_neg hle] at hcut
    -- the operations are: allocate, write the first copy, write the backup
    match n, hcut with
    | 0, hcut =>
      injection hcut with hcut
      exact Or.inr (Or.inl ⟨0, hcut ▸ hnone⟩)
    | 1, hcut =>
      injection hcut with hcut
      exact Or.inr (Or.inl ⟨0, hcut ▸ hnone⟩)
    | 2, hcut =>
      injection hcut with hcut
      refine Or.inr (Or.inl ⟨k, ?_⟩)
      rw [← hcut]
      unfold sdWritten
      rw [pwrite_nil]
      rfl
    | 3, hcut =>
      injection hcut with hcut
      exact Or.inr (Or.inr ⟨k, hcut.symm⟩)
    | n + 4, hcut =>
      injection hcut with hcut
      exact Or.inl hcut.symm

/-- A call in a run: it writes a valid object, and a copy that ends up neither wholly old nor
wholly new fails the check. -/
structure SdStep (crc32 : Bytes → UInt32) (id : ℕ) (v : Bytes) (s s' : Store) : Prop where
  call : SdCall id v s s'
  length : v.length = secBlkSize
  valid : checkSecureStorageKey crc32 v = 0
  torn0 : copy0 s' id ≠ copy0 s id → copy0 s' id ≠ v →
    checkSecureStorageKey crc32 (copy0 s' id) ≠ 0
  torn1 : copy1 s' id ≠ copy1 s id → copy1 s' id ≠ v →
    checkSecureStorageKey crc32 (copy1 s' id) ≠ 0

/-- After the call, reading gives the object it gave before or the object written. -/
def KeepsObject (crc32 : Bytes → UInt32) (id : ℕ) (v : Bytes) (s s' : Store) : Prop :=
  ∃ b b', ReadsKey crc32 s id b ∧ ReadsKey crc32 s' id b' ∧ (b' = b ∨ b' = v)

/-- If the call tears the first copy, then the backup is intact and holds the object that
reading gives, or the one being written. -/
def TearsSafely (crc32 : Bytes → UInt32) (id : ℕ) (v : Bytes) (s s' : Store) : Prop :=
  copy0 s' id ≠ copy0 s id → copy0 s' id ≠ v →
    checkSecureStorageKey crc32 (copy1 s id) = 0 ∧
      (ReadsKey crc32 s id (copy1 s id) ∨ copy1 s id = v)

lemma SdStep.copies (hid : id ≤ maxSecureStorageMaxItem) (hstep : SdStep crc32 id v s s') :
    copy0 s' id = v ∨ copy1 s' id = copy1 s id := by
  have hlen := hstep.length
  rcases hstep.call.cases hid with rfl | ⟨k, rfl⟩ | ⟨k, rfl⟩
  · exact Or.inl (copy0_sdWritten_self hlen)
  · right
    have h1 : copy1 (sdWritten s id (v.take k) (v.take 0)) id = v.take 0 ++ (copy1 s id).drop 0 :=
      copy1_sdWritten_take hlen (by rw [List.length_take]; omega) 0
    simpa using h1
  · exact Or.inl (copy0_sdWritten_self hlen)

/-- One call from a readable state keeps the object exactly when it tears safely. -/
lemma SdStep.keepsObject_iff (hid : id ≤ maxSecureStorageMaxItem)
    (hstep : SdStep crc32 id v s s') (hb : ReadsKey crc32 s id b) :
    KeepsObject crc32 id v s s' ↔ TearsSafely crc32 id v s s' := by
  have hpair := (readsKey_iff hid).mp hb
  by_cases hnew : copy0 s' id = v
  · -- the first copy is complete: it is what reading finds
    have hread : ReadsKey crc32 s' id v := by
      rw [readsKey_iff hid, readPair, hnew, if_pos hstep.valid]
    exact ⟨fun _ _ hne => absurd hnew hne, fun _ => ⟨b, v, hb, hread, Or.inr rfl⟩⟩
  have hback : copy1 s' id = copy1 s id := (hstep.copies hid).resolve_left hnew
  by_cases hold : copy0 s' id = copy0 s id
  · -- nothing has changed
    have hread : ReadsKey crc32 s' id b := by
      rw [readsKey_iff hid, hold, hback]
      exact hpair
    exact ⟨fun _ hne => absurd hold hne, fun _ => ⟨b, b, hb, hread, Or.inl rfl⟩⟩
  -- the first copy is torn: reading depends on the backup alone
  have hread : ∀ b', ReadsKey crc32 s' id b' ↔
      checkSecureStorageKey crc32 (copy1 s id) = 0 ∧ b' = copy1 s id := by
    intro b'
    rw [readsKey_iff hid, readPair, if_neg (hstep.torn0 hold hnew), hback]
    by_cases h1 : checkSecureStorageKey crc32 (copy1 s id) = 0
    · rw [if_pos h1]
      simp [h1, eq_comm]
    · rw [if_neg h1]
      simp [h1]
  constructor
  · rintro ⟨b₀, b', hb₀, hb', hcase⟩ _ _
    obtain ⟨h1, rfl⟩ := (hread b').mp hb'
    refine ⟨h1, ?_⟩
    rcases hcase with h | h
    · exact Or.inl (h ▸ hb₀)
    · exact Or.inr h
  · intro hsafe
    obtain ⟨h1, hcase⟩ := hsafe hold hnew
    refine ⟨b, copy1 s id, hb, (hread _).mpr ⟨h1, rfl⟩, ?_⟩
    rcases hcase with h | h
    · left
      have hpair' := (readsKey_iff hid).mp h
      rw [hpair] at hpair'
      exact (Option.some.inj hpair').symm
    · exact Or.inr h

/-- The run lemma: while every call tears safely, the item stays readable. -/
lemma readable_of_run (hid : id ≤ maxSecureStorageMaxItem) {s₀ : Store} {x : Bytes}
    (h0 : copy0 s₀ id = x) (hx : checkSecureStorageKey crc32 x = 0)
    (hrun : Relation.ReflTransGen
      (fun s s' => ∃ v, SdStep crc32 id v s s' ∧ TearsSafely crc32 id v s s') s₀ s) :
    ∃ b, ReadsKey crc32 s id b := by
  induction hrun with
  | refl =>
    refine ⟨x, ?_⟩
    rw [readsKey_iff hid, readPair, h0, if_pos hx]
  | tail _ hlast ih =>
    obtain ⟨b, hb⟩ := ih
    obtain ⟨v, hstep, hsafe⟩ := hlast
    obtain ⟨_, b', _, hb', _⟩ := (hstep.keepsObject_iff hid hb).mpr hsafe
    exact ⟨b', hb'⟩

/-- Equal copies, as at the start and after every completed call, make any tear safe. -/
lemma tearsSafely_of_equal (hid : id ≤ maxSecureStorageMaxItem)
    (heq : copy0 s id = copy1 s id) (hb : ReadsKey crc32 s id b) :
    TearsSafely crc32 id v s s' := by
  intro _ _
  have hpair := (readsKey_iff hid).mp hb
  rw [readPair, heq] at hpair
  have h1 : checkSecureStorageKey crc32 (copy1 s id) = 0 := by
    by_contra hne
    rw [if_neg hne, if_neg hne] at hpair
    simp at hpair
  rw [if_pos h1] at hpair
  exact ⟨h1, Or.inl (Option.some.inj hpair ▸ hb)⟩

/-- **Interrupted writes.**  Start with a valid first copy and make any sequence of calls,
each complete or cut off at any byte, as long as a call that tears the first copy finds in the
backup the object that reading gives.  Then every call keeps the object; a call that finds
equal copies always does; and the first call that does not tear safely is one that does not
keep the object. -/
theorem sdWrite_interrupted (crc32 : Bytes → UInt32) (id : ℕ) (hid : 1 ≤ id ∧ id ≤ 31)
    (s₀ : Store) (hx : checkSecureStorageKey crc32 (copy0 s₀ id) = 0) (s : Store)
    (hrun : Relation.ReflTransGen
      (fun s s' => ∃ v, SdStep crc32 id v s s' ∧ TearsSafely crc32 id v s s') s₀ s)
    (v : Bytes) (s' : Store) (hstep : SdStep crc32 id v s s') :
    (KeepsObject crc32 id v s s' ↔ TearsSafely crc32 id v s s') ∧
      (copy0 s id = copy1 s id → KeepsObject crc32 id v s s') := by
  have hid' : id ≤ maxSecureStorageMaxItem := by
    unfold maxSecureStorageMaxItem
    omega
  obtain ⟨b, hb⟩ := readable_of_run hid' rfl hx hrun
  have hiff := hstep.keepsObject_iff hid' hb
  exact ⟨hiff, fun heq => hiff.mpr (tearsSafely_of_equal hid' heq hb)⟩

/-! ### Two cuts in a row -/

section Stale

/-- The object with the one-byte payload `x`, named `k`. -/
def sampleObject (x : UInt8) : Bytes :=
  objectBody [x] [107] (zeros secBlkSize) ++
    le32 (Framework.crc32 (objectBody [x] [107] (zeros secBlkSize))).toNat ++
    (zeros secBlkSize).drop storeObjectSize

lemma wrap_sampleObject (x : UInt8) :
    wrapSecureObject Framework.crc32 [x] [107] (zeros secBlkSize) = some (sampleObject x) := by
  unfold wrapSecureObject
  rw [if_neg (by simp [maxStoreLen])]
  rfl

lemma length_sampleObject (x : UInt8) : (sampleObject x).length = secBlkSize :=
  length_wrap (by simp) (wrap_sampleObject x)

lemma check_sampleObject (x : UInt8) :
    checkSecureStorageKey Framework.crc32 (sampleObject x) = 0 :=
  checkSecureStorageKey_wrap (by simp) (wrap_sampleObject x)

lemma crc32_sampleObject_ne {x y : UInt8} (hxy : x ≠ y) :
    Framework.crc32 (objectBody [x] [107] (zeros secBlkSize)) ≠
      Framework.crc32 (objectBody [y] [107] (zeros secBlkSize)) := by
  have hform : ∃ pre post : Bytes, ∀ z : UInt8,
      objectBody [z] [107] (zeros secBlkSize) = pre ++ z :: post :=
    ⟨le32 storeObjectMagic ++ le32 0 ++ strncpy [107] 64 ++ le32 0 ++
        le32 sunxiSecstoreVersion ++ le32 0 ++ zeros 4 ++ slice (zeros secBlkSize) 88 8 ++ le32 1,
      slice (zeros secBlkSize) 101 (maxStoreLen - 1),
      fun z => by simp only [objectBody, List.length_singleton, List.append_assoc,
        List.singleton_append]⟩
  obtain ⟨pre, post, hform⟩ := hform
  rw [hform x, hform y]
  exact crc32_ne_of_byte pre post hxy

/-- A first copy cut off in front of its `crc`. -/
def tornObject (x y : UInt8) : Bytes := (sampleObject y).take 3172 ++ (sampleObject x).drop 3172

lemma check_tornObject {x y : UInt8} (hxy : x ≠ y) :
    checkSecureStorageKey Framework.crc32 (tornObject x y) ≠ 0 := by
  have hlen : ((sampleObject y).take 3172).length = 3172 := by
    rw [List.length_take, length_sampleObject]
    rfl
  have htake : (tornObject x y).take 3172 = objectBody [y] [107] (zeros secBlkSize) := by
    unfold tornObject
    rw [List.take_append_of_le_length (by omega), List.take_take, Nat.min_self]
    exact take_wrap (by simp) (wrap_sampleObject y)
  have hcrc : u32 (tornObject x y) 3172 =
      (Framework.crc32 (objectBody [x] [107] (zeros secBlkSize))).toNat := by
    rw [← u32_wrap_crc (by simp) (wrap_sampleObject x)]
    apply u32_congr
    intro i _
    unfold tornObject
    rw [List.getElem?_append_right (by omega), List.getElem?_drop, hlen,
      show 3172 + (3172 + i - 3172) = 3172 + i by omega]
  rw [checkSecureStorageKey, hcrc, htake]
  split_ifs with hmagic hne
  · decide
  · decide
  · exact absurd (UInt32.toNat_inj.mp (not_not.mp hne)) (crc32_sampleObject_ne hxy)

/-- Both copies of item 1 are the object `x`. -/
def twoCopies (x : UInt8) : Store := sdWritten blankStore 1 (sampleObject x) (sampleObject x)

lemma copy0_twoCopies (x : UInt8) : copy0 (twoCopies x) 1 = sampleObject x :=
  copy0_sdWritten_self (length_sampleObject x)

lemma copy1_twoCopies (x : UInt8) : copy1 (twoCopies x) 1 = sampleObject x :=
  copy1_sdWritten_self (length_sampleObject x) (Nat.le_of_eq (length_sampleObject x))

/-- A call for the object `x` that is cut off after `k` bytes of its first copy. -/
lemma sdCall_cut0 (s : Store) (x : UInt8) (k : ℕ) :
    SdCall 1 (sampleObject x) s (sdWritten s 1 ((sampleObject x).take k) []) := by
  refine SdCall.cutoff (h := false) 2 k ?_
  unfold sdWritten
  rw [pwrite_nil]
  rfl

lemma copy1_cut0 (s : Store) (x : UInt8) (k : ℕ) :
    copy1 (sdWritten s 1 ((sampleObject x).take k) []) 1 = copy1 s 1 := by
  have hk : copy1 (sdWritten s 1 ((sampleObject x).take k) ((sampleObject x).take 0)) 1 =
      (sampleObject x).take 0 ++ (copy1 s 1).drop 0 :=
    copy1_sdWritten_take (length_sampleObject x)
      (by rw [List.length_take, length_sampleObject]; omega) 0
  simpa using hk

/-- One cut from equal copies is harmless: the object before it is still there. -/
theorem sdWrite_interrupted_once :
    KeepsObject Framework.crc32 1 (sampleObject 2) (twoCopies 1)
      (sdWritten (twoCopies 1) 1 ((sampleObject 2).take 3172) []) := by
  have h0 : copy0 (sdWritten (twoCopies 1) 1 ((sampleObject 2).take 3172) []) 1 =
      tornObject 1 2 := by
    rw [copy0_sdWritten_take (length_sampleObject 2), copy0_twoCopies]
    rfl
  refine (sdWrite_interrupted Framework.crc32 1 (by decide) (twoCopies 1) ?_ (twoCopies 1)
    Relation.ReflTransGen.refl _ _ ⟨sdCall_cut0 _ 2 3172, length_sampleObject 2,
      check_sampleObject 2, ?_, ?_⟩).2 ?_
  · rw [copy0_twoCopies]
    exact check_sampleObject 1
  · intro _ _
    rw [h0]
    exact check_tornObject (by decide)
  · intro hne
    exact absurd (copy1_cut0 _ _ _) hne
  · rw [copy0_twoCopies, copy1_twoCopies]

/-- Two calls, the first cut off between the copies and the second inside the first copy, end
with the object of the write before both: neither the one read in between nor the one being
written. -/
theorem stale_backup_exposed :
    ¬ ∀ (id : ℕ), 1 ≤ id ∧ id ≤ 31 → ∀ (s₀ : Store) (x : Bytes),
      copy0 s₀ id = x → copy1 s₀ id = x → checkSecureStorageKey Framework.crc32 x = 0 →
      ∀ s, Relation.ReflTransGen (fun s s' => ∃ v, SdStep Framework.crc32 id v s s') s₀ s →
      ∀ v s', SdStep Framework.crc32 id v s s' → KeepsObject Framework.crc32 id v s s' := by
  intro hall
  -- first copy 0 becomes 2, then it is torn between 2 and 3; the backup stays 1
  let s₁ := sdWritten (twoCopies 1) 1 ((sampleObject 2).take secBlkSize) []
  let s₂ := sdWritten s₁ 1 ((sampleObject 3).take 3172) []
  have hfull : (sampleObject 2).take secBlkSize = sampleObject 2 :=
    List.take_of_length_le (Nat.le_of_eq (length_sampleObject 2))
  have h10 : copy0 s₁ 1 = sampleObject 2 := by
    rw [copy0_sdWritten_take (length_sampleObject 2), hfull,
      List.drop_eq_nil_of_le (by simp), List.append_nil]
  have h11 : copy1 s₁ 1 = sampleObject 1 := (copy1_cut0 _ 2 secBlkSize).trans (copy1_twoCopies 1)
  have h20 : copy0 s₂ 1 = tornObject 2 3 := by
    rw [copy0_sdWritten_take (length_sampleObject 3), h10]
    rfl
  have h21 : copy1 s₂ 1 = sampleObject 1 := (copy1_cut0 s₁ 3 3172).trans h11
  have step1 : SdStep Framework.crc32 1 (sampleObject 2) (twoCopies 1) s₁ :=
    ⟨sdCall_cut0 _ 2 secBlkSize, length_sampleObject 2, check_sampleObject 2,
      fun _ hne => absurd h10 hne, fun hne _ => absurd (copy1_cut0 _ 2 secBlkSize) hne⟩
  have step2 : SdStep Framework.crc32 1 (sampleObject 3) s₁ s₂ :=
    ⟨sdCall_cut0 s₁ 3 3172, length_sampleObject 3, check_sampleObject 3,
      fun _ _ => h20 ▸ check_tornObject (by decide),
      fun hne _ => absurd (copy1_cut0 s₁ 3 3172) hne⟩
  obtain ⟨b, b', hb, hb', hcase⟩ := hall 1 (by decide) (twoCopies 1) (sampleObject 1)
    (copy0_twoCopies 1) (copy1_twoCopies 1) (check_sampleObject 1) s₁
    (Relation.ReflTransGen.single ⟨_, step1⟩) _ _ step2
  have hid : 1 ≤ maxSecureStorageMaxItem := by decide
  rw [readsKey_iff hid, readPair, h10, if_pos (check_sampleObject 2)] at hb
  rw [readsKey_iff hid, readPair, h20, if_neg (check_tornObject (by decide)), h21,
    if_pos (check_sampleObject 1)] at hb'
  have hne : ∀ x : UInt8, x ≠ 1 → sampleObject 1 ≠ sampleObject x := by
    intro x hx heq
    have h1 := slice_wrap_data (by simp) (wrap_sampleObject 1)
    have h2 := slice_wrap_data (by simp) (wrap_sampleObject x)
    rw [heq] at h1
    exact hx (List.singleton_inj.mp (h2.symm.trans h1))
  rcases hcase with hc | hc
  · exact hne 2 (by decide) (Option.some.inj (hb'.trans (hc ▸ hb.symm)))
  · exact hne 3 (by decide) (Option.some.inj (hb'.trans (hc ▸ rfl)))

end Stale

/-! ## Damaged copies -/

/-- A block that may be written to item `id`: a map with correct magic and crc for item 0, a
valid object for the items 1 to 31. -/
def GoodItem (crc32 : Bytes → UInt32) (id : ℕ) (b : Bytes) : Prop :=
  b.length = secBlkSize ∧
    (id = 0 ∧ checkSecureStorageMap crc32 b = 0 ∨
      (1 ≤ id ∧ id ≤ 31) ∧ checkSecureStorageKey crc32 b = 0)

/-- The content of item `id` fails the check that item is read with. -/
def FailsCheck (crc32 : Bytes → UInt32) (id : ℕ) (b : Bytes) : Prop :=
  if id = 0 then checkSecureStorageMap crc32 b ≠ 0 else checkSecureStorageKey crc32 b ≠ 0

/-- A sequence of completed `nv_write` calls, from one store to another. -/
inductive ItemWrites (crc32 : Bytes → UInt32) (s₀ : Store) : List (ℕ × Bytes) → Store → Prop
  | nil : ItemWrites crc32 s₀ [] s₀
  | snoc {ws : List (ℕ × Bytes)} {s : Store} {id : ℕ} {b : Bytes} {h : Bool}
      {env : ℕ → Choice} {c' : Conf Choice Store} (hws : ItemWrites crc32 s₀ ws s)
      (hgood : GoodItem crc32 id b)
      (hrun : (nvWrite id b).run perform ⟨h, env, s⟩ = .ok (0, c')) :
      ItemWrites crc32 s₀ (ws ++ [(id, b)]) c'.st

/-- The last block written to an item. -/
def lastWritten (ws : List (ℕ × Bytes)) (id : ℕ) : Option Bytes :=
  ws.foldl (fun last w => if w.1 = id then some w.2 else last) none

/-- `s'` is `s` with at most one copy of each item replaced, by content that fails its
check. -/
structure Damaged (crc32 : Bytes → UInt32) (s s' : Store) : Prop where
  device : s' = { s with emmc := s'.emmc }
  one : ∀ id ≤ 31, copy0 s' id = copy0 s id ∨ copy1 s' id = copy1 s id
  bad0 : ∀ id ≤ 31, copy0 s' id ≠ copy0 s id → FailsCheck crc32 id (copy0 s' id)
  bad1 : ∀ id ≤ 31, copy1 s' id ≠ copy1 s id → FailsCheck crc32 id (copy1 s' id)

/-- The eMMC is the boot device. -/
def OnEmmc (s : Store) : Prop :=
  s.flashBootType = flashTypeSd1 ∨ s.flashBootType = flashTypeSd2

lemma lastWritten_snoc (ws : List (ℕ × Bytes)) (w : ℕ × Bytes) (id : ℕ) :
    lastWritten (ws ++ [w]) id = if w.1 = id then some w.2 else lastWritten ws id := by
  simp [lastWritten, List.foldl_append]

lemma onEmmc_ne_nand (hdev : OnEmmc s) : s.flashBootType ≠ flashTypeNand := by
  rcases hdev with h | h
  · rw [h]
    decide
  · rw [h]
    decide

/-- Whatever its outcome, `nv_write` only touches prefixes of the item's two copies. -/
lemma nvWrite_emmc (hdev : OnEmmc s) {h : Bool} {env : ℕ → Choice} {r : ℤ}
    {c' : Conf Choice Store} (hrun : (nvWrite id b).run perform ⟨h, env, s⟩ = .ok (r, c')) :
    ∃ w0 w1, w0 <+: b ∧ w1 <+: b ∧ c'.st = sdWritten s id w0 w1 ∧
      (r = 0 → w0 = b ∧ w1 = b) := by
  have hwp : wp perform (fun _ _ _ => True) (nvWrite id b) (fun r _ s' =>
      ∃ w0 w1, w0 <+: b ∧ w1 <+: b ∧ s' = sdWritten s id w0 w1 ∧
        (r = 0 → w0 = b ∧ w1 = b)) h s := by
    unfold nvWrite
    refine wp_step fun _ _ => ⟨_, _, rfl, ?_⟩
    rw [if_neg (onEmmc_ne_nand hdev), if_pos (show _ ∨ _ from hdev)]
    refine wp_mono wp_sdWrite ?_
    rintro r _ s' ⟨-, w0, w1, hw0, hw1, hs', hr⟩
    refine ⟨w0, w1, hw0, hw1, hs', fun h0 => ?_⟩
    rcases hr with ⟨-, hfull⟩ | hneg
    · exact hfull
    · exact absurd (h0.symm.trans hneg) (by decide)
  exact wp_of_run (G := fun _ => True) hwp (fun _ => trivial) hrun

/-- The run lemma: after completed writes both copies of every written item are its last
block, which is one the item accepts. -/
lemma ItemWrites.copies {s₀ : Store} {ws : List (ℕ × Bytes)} (hdev : OnEmmc s₀)
    (hws : ItemWrites crc32 s₀ ws s) :
    OnEmmc s ∧ ∀ id b, lastWritten ws id = some b →
      copy0 s id = b ∧ copy1 s id = b ∧ GoodItem crc32 id b := by
  induction hws with
  | nil => exact ⟨hdev, fun id b hlast => by simp [lastWritten] at hlast⟩
  | @snoc ws s j blk h env c' hprev hgood hrun ih =>
    obtain ⟨hdev', hcopies⟩ := ih
    obtain ⟨w0, w1, -, -, hst, hfull⟩ := nvWrite_emmc hdev' hrun
    obtain ⟨rfl, rfl⟩ := hfull rfl
    refine ⟨by rw [hst]; exact hdev', ?_⟩
    intro i b' hlast
    rw [lastWritten_snoc] at hlast
    rw [hst]
    by_cases hji : j = i
    · subst hji
      rw [if_pos rfl] at hlast
      obtain rfl := Option.some.inj hlast
      exact ⟨copy0_sdWritten_self hgood.1,
        copy1_sdWritten_self hgood.1 (Nat.le_of_eq hgood.1), hgood⟩
    · rw [if_neg hji] at hlast
      obtain ⟨h0, h1, hg⟩ := hcopies i b' hlast
      have hother := @copies_sdWritten_other s j _ _ i (fun h => hji h.symm)
        (Nat.le_of_eq hgood.1) (Nat.le_of_eq hgood.1)
      exact ⟨hother.1.trans h0, hother.2.trans h1, hg⟩

/-- An item of which one copy is intact is read back. -/
lemma readsItem_of_intact (hdev : OnEmmc s) (hgood : GoodItem crc32 id b)
    (hcopy : copy0 s id = b ∨ FailsCheck crc32 id (copy0 s id) ∧ copy1 s id = b) :
    ReadsItem crc32 s id b := by
  intro h env buf henv hbuf
  have hwp : wp perform (fun _ c _ => c.ok = true) (nvRead crc32 id buf)
      (fun r _ _ => r = (0, b)) h s := by
    unfold nvRead
    refine wp_step fun _ _ => ⟨_, _, rfl, ?_⟩
    rw [if_neg (onEmmc_ne_nand hdev), if_pos (show _ ∨ _ from hdev)]
    rcases hgood.2 with ⟨rfl, hmap⟩ | ⟨hid, hkey⟩
    · rw [if_pos rfl]
      rcases hcopy with h0 | ⟨hbad, h1⟩
      · exact wp_sdReadMap_ok crc32 (readsOk_allOk _) (by decide) hbuf (Or.inl (h0 ▸ hmap))
          (fun _ => by rw [h0]) (fun hne => absurd (h0 ▸ hmap) hne)
      · rw [FailsCheck, if_pos rfl] at hbad
        exact wp_sdReadMap_ok crc32 (readsOk_allOk _) (by decide) hbuf (Or.inr (Or.inl (h1 ▸ hmap)))
          (fun h0 => absurd h0 hbad) (fun _ => by rw [h1])
    · rw [if_neg (by omega)]
      have hmax : id ≤ maxSecureStorageMaxItem := by
        unfold maxSecureStorageMaxItem
        omega
      rcases hcopy with h0 | ⟨hbad, h1⟩
      · exact wp_sdReadKey_ok crc32 (readsOk_allOk _) hmax hbuf (fun _ => by rw [h0])
          (fun hne => absurd (h0 ▸ hkey) hne)
      · rw [FailsCheck, if_neg (by omega)] at hbad
        refine wp_sdReadKey_ok crc32 (readsOk_allOk _) hmax hbuf (fun h0 => absurd h0 hbad) (fun _ => ?_)
        rw [h1, if_pos hkey]
  obtain ⟨r, c', hrun, rfl⟩ := wp_run (G := fun c => c.ok = true) (c := ⟨h, env, s⟩) hwp henv
  exact ⟨c', hrun⟩

/-- **Damage to one copy.**  After any sequence of completed writes and the replacement of at
most one copy of every item by content that fails its check, every item written so far reads
back as the last block written to it; and a write, whatever its outcome, never changes a copy
of another item. -/
theorem nvRead_of_damaged (crc32 : Bytes → UInt32) (s₀ s s' : Store) (ws : List (ℕ × Bytes))
    (hdev : OnEmmc s₀) (hws : ItemWrites crc32 s₀ ws s) (hdam : Damaged crc32 s s') :
    (∀ id b, lastWritten ws id = some b → ReadsItem crc32 s' id b) ∧
      ∀ (t : Store) (j i : ℕ) (blk : Bytes) (h : Bool) (env : ℕ → Choice) (r : ℤ)
        (c' : Conf Choice Store), OnEmmc t → blk.length = secBlkSize →
        (nvWrite j blk).run perform ⟨h, env, t⟩ = .ok (r, c') → i ≠ j →
        copy0 c'.st i = copy0 t i ∧ copy1 c'.st i = copy1 t i := by
  obtain ⟨hdevs, hcopies⟩ := hws.copies hdev
  constructor
  · intro id b hlast
    obtain ⟨h0, h1, hgood⟩ := hcopies id b hlast
    have hid : id ≤ 31 := by
      rcases hgood.2 with ⟨rfl, -⟩ | ⟨hid, -⟩
      · omega
      · exact hid.2
    have hdev' : OnEmmc s' := by
      rw [hdam.device]
      exact hdevs
    apply readsItem_of_intact hdev' hgood
    by_cases hkept : copy0 s' id = copy0 s id
    · exact Or.inl (hkept.trans h0)
    · exact Or.inr ⟨hdam.bad0 id hid hkept, ((hdam.one id hid).resolve_left hkept).trans h1⟩
  · intro t j i blk h env r c' hdevt hlen hrun hne
    obtain ⟨w0, w1, hw0, hw1, hst, -⟩ := nvWrite_emmc hdevt hrun
    rw [hst]
    exact copies_sdWritten_other hne (hlen ▸ hw0.length_le) (hlen ▸ hw1.length_le)

/-- The first copy of a written item is blanked; the item still reads back. -/
theorem nvRead_of_blanked_copy :
    ReadsItem Framework.crc32 (sdWritten (twoCopies 1) 1 (zeros secBlkSize) []) 1
      (sampleObject 1) := by
  have hws : ItemWrites Framework.crc32 blankStore ([] ++ [(1, sampleObject 1)])
      (twoCopies 1) :=
    @ItemWrites.snoc _ _ _ _ _ _ false smooth ⟨false, smooth, twoCopies 1⟩ ItemWrites.nil
      ⟨length_sampleObject 1, Or.inr ⟨by decide, check_sampleObject 1⟩⟩ rfl
  have hback : copy1 (sdWritten (twoCopies 1) 1 (zeros secBlkSize) []) 1 =
      copy1 (twoCopies 1) 1 := by
    have hk : copy1 (sdWritten (twoCopies 1) 1 (zeros secBlkSize) ((sampleObject 1).take 0)) 1 =
        (sampleObject 1).take 0 ++ (copy1 (twoCopies 1) 1).drop 0 :=
      copy1_sdWritten_take (length_sampleObject 1) (by simp) 0
    simpa using hk
  have hblank : FailsCheck Framework.crc32 1 (zeros secBlkSize) := by
    rw [FailsCheck, if_neg (by decide), checkSecureStorageKey, if_pos]
    · decide
    · rw [u32_zeros]
      decide
  have hother : ∀ id, id ≠ 1 →
      copy0 (sdWritten (twoCopies 1) 1 (zeros secBlkSize) []) id = copy0 (twoCopies 1) id ∧
        copy1 (sdWritten (twoCopies 1) 1 (zeros secBlkSize) []) id = copy1 (twoCopies 1) id :=
    fun id hne => copies_sdWritten_other hne (by simp) (by simp)
  have hlast : lastWritten ([] ++ [(1, sampleObject 1)]) 1 = some (sampleObject 1) := by
    rw [lastWritten_snoc, if_pos (by rfl)]
  refine (nvRead_of_damaged Framework.crc32 blankStore (twoCopies 1) _ _ (Or.inl rfl) hws
    ⟨rfl, ?_, ?_, ?_⟩).1 1 (sampleObject 1) hlast
  · intro id _
    by_cases hid : id = 1
    · right
      rw [hid]
      exact hback
    · exact Or.inl (hother id hid).1
  · intro id _ hne
    by_cases hid : id = 1
    · have h0 : copy0 (sdWritten (twoCopies 1) 1 (zeros secBlkSize) []) 1 = zeros secBlkSize :=
        copy0_sdWritten_self (length_zeros secBlkSize)
      rw [hid, h0]
      exact hblank
    · exact absurd (hother id hid).1 hne
  · intro id _ hne
    by_cases hid : id = 1
    · rw [hid] at hne
      exact absurd hback hne
    · exact absurd (hother id hid).2 hne

end Softwinner.SecureStorage
