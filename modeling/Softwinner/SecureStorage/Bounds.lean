import Softwinner.SecureStorage.Concurrency
import Softwinner.SecureStorage.Protection

/-!
# Lengths on the way of a read

The length of a value passes through four places: the text of the map entry, the copy of the
block, the header of the object, and the buffer of the caller.  `unwrap_secure_object` copies as
many bytes as the header says.  It is not told the size of the buffer it copies to, and it does not
compare the number with the size of the object it copies from.

`Bounded` is what a caller relies on.  `readBounds_iff` says exactly for which flash contents, maps
and names both interfaces keep to it, whatever system calls fail.  For the private store the
condition is about `strcpy`, which copies a value up to its NUL.
-/

namespace Softwinner.SecureStorage

open Framework Prog

variable (crc32 : Bytes → UInt32)

/-- The buffer keeps its size, and a length that is returned without an error fits it. -/
structure Bounded (r : ReadOut) (buf : Bytes) : Prop where
  buffer : r.buffer.length = buf.length
  dataLen : 0 ≤ r.ret → r.dataLen ≤ buf.length

/-- Whatever system calls fail, a read of `a` by `sunxi_secure_object_read` returns; an access
outside the block, the map or the caller's buffer would stop the run. -/
def ObjectReadBounded (s : Store) (a buf : Bytes) : Prop :=
  ∀ (h : Bool) (env : ℕ → Choice) (dl : ℤ),
    Yields perform (sunxiSecureObjectRead crc32 a buf dl) ⟨h, env, s⟩ fun r _ => Bounded r buf

/-- The same for `private_data_read`, where the private partition reports its failures. -/
def DataReadBounded (x : ApiState) (a buf : Bytes) : Prop :=
  ∀ (env : ℕ → Choice) (dl : ℤ), (∀ n, (env n).Reported) →
    Yields performApi (privateDataRead crc32 a buf dl) ⟨false, env, x⟩ fun r _ => Bounded r buf

/-! ## The exact conditions -/

/-- A read of item `k` can deliver the block `b`: on eMMC either copy, as any read may fail. -/
def Delivers (s : Store) (k : ℕ) (b : Bytes) : Prop :=
  k ≤ maxSecureStorageMaxItem ∧
    (s.flashBootType = flashTypeNand ∧ b = nandItem s k ∨
      (s.flashBootType = flashTypeSd1 ∨ s.flashBootType = flashTypeSd2) ∧
        (b = copy0 s k ∨ b = copy1 s k) ∧ checkSecureStorageKey crc32 b = 0)

/-- A block under an entry of length `len`, for a buffer of `n` bytes.  A negative length becomes
a huge `size_t`, and the length of a valid object is bounded by the block and by the buffer. -/
def BlockFits (b : Bytes) (len : ℤ) (n : ℕ) : Prop :=
  0 ≤ len ∧ (len = storeObjectSize → checkSecureStorageKey crc32 b = 0 →
    100 + u32 b 96 ≤ secBlkSize ∧ u32 b 96 ≤ n)

/-- In an open session, the lookup stays inside the map and every block it leads to fits. -/
def ObjectFits (s : Store) (a : Bytes) (n : ℕ) : Prop :=
  s.secureStorageInited = true →
    probeNameInMap s.secureStorageMap a ≠ none ∧
      ∀ k len, probeNameInMap s.secureStorageMap a = some (some (k, len)) →
        ∀ b, Delivers crc32 s k b → BlockFits crc32 b len n

/-- `secure_storage_support` and then `sunxi_secure_storage_init`, with which every read of the
data interface begins. -/
def openSecure : Sec ℤ := do
  if (← secureStorageSupport crc32) = 0 then sunxiSecureStorageInit crc32 else return -1

/-- The session in which a read that starts in `s` can look up its name. -/
def OpensTo (s s' : Store) : Prop :=
  ∃ (env : ℕ → Choice) (c : Conf Choice Store),
    (openSecure crc32).run perform ⟨false, env, s⟩ = .ok (0, c) ∧ c.st = s'

/-- The private store's value of `a` is copied inside a buffer of `n` bytes: it is not copied at
all, or it is a string that is shorter than the buffer. -/
def PrivateFits (t : EnvStore) (a : Bytes) (n : ℕ) : Prop :=
  n < valueSize ∨ t.userData.take 5 ≠ envMagic ∨ firstUnused t.userData = true ∨
    i32 t.userData 8 ≤ 0 ∨
    ∃ j found, scanRecords t.userData a (i32 t.userData 8) userDataParameterMaxCount 0 =
      some (j, found) ∧
      (found = true → ∃ v, cstr (t.userData.drop (recordOffset j + 32)) = some v ∧ v.length < n)

/-! ## One object -/

section Object

variable {crc32} {Ok : Op → Choice → Store → Prop} {h : Bool} {s : Store} {a buf b : Bytes}
  {k : ℕ} {len dl : ℤ}

lemma Delivers.length (hb : Delivers crc32 s k b) : b.length = secBlkSize := by
  rcases hb.2 with ⟨-, rfl⟩ | ⟨-, rfl | rfl, -⟩
  · exact length_nandItem s k
  · exact length_copy0 s k
  · exact length_copy1 s k

/-- Reading a block when anything may fail. -/
lemma wp_nvRead_delivers {Q : ℤ × Bytes → Bool → Store → Prop} (hk : 1 ≤ k)
    (hbuf : buf.length = secBlkSize) (hfail : ∀ b', Q (-1, b') h s)
    (hok : ∀ b, Delivers crc32 s k b → Q (0, b) h s) :
    wp perform Ok (nvRead crc32 k buf) Q h s := by
  unfold nvRead
  refine wp_step fun _ _ => ⟨_, _, rfl, ?_⟩
  split_ifs with hnand hsd hzero
  · unfold nandRead
    split_ifs with hmax
    · exact hfail _
    refine wp_step fun _ _ => ⟨_, _, rfl, ?_⟩
    split_ifs
    · exact hfail _
    refine wp_step fun c _ => ⟨_, _, rfl, ?_⟩
    cases c.ok with
    | false => exact hfail _
    | true => exact hok _ ⟨by omega, Or.inl ⟨hnand, by rw [hbuf]; rfl⟩⟩
  · omega
  · by_cases hmax : k ≤ maxSecureStorageMaxItem
    swap
    · exact wp_sdReadKey_beyond (Nat.lt_of_not_le hmax) hfail
    have hbackup : ∀ b' : Bytes, b'.length = secBlkSize →
        wp perform Ok (sdReadKeyBackup crc32 k b') Q h s := by
      intro b' hb'
      unfold sdReadKeyBackup sdReadBackup
      rw [wp_bind]
      refine wp_sdReadAt ?_ ?_
      · simp only
        rw [if_neg (by simp)]
        exact hfail _
      · rw [length_zeros, hb']
        simp only
        split_ifs with hcheck
        · exact hok _ ⟨hmax, Or.inr ⟨hsd, Or.inr rfl, hcheck.2⟩⟩
        · exact hfail _
    unfold sdReadKey sdRead
    rw [wp_bind]
    refine wp_sdReadAt ?_ ?_
    · simp only
      rw [if_neg (by simp)]
      exact hbackup _ hbuf
    · rw [hbuf]
      simp only
      split_ifs with hcheck
      · exact hok _ ⟨hmax, Or.inr ⟨hsd, Or.inl rfl, hcheck.2⟩⟩
      · exact hbackup _ (by simp)
  · exact hfail _

/-- Reads of the first copy of item `k` on eMMC. -/
def Op.readsFirst (k : ℕ) : Op → Bool
  | .sdRead offset _ => offset == sdOffset k
  | _ => false

/-- Nothing fails but the reads of the first copy of item `k`, and these only if `second` is
set. -/
def Picks (k : ℕ) (second : Bool) : Op → Choice → Store → Prop :=
  fun op c _ => c.ok = !(second && op.readsFirst k)

lemma exists_picks (second : Bool) (op : Op) (s : Store) : ∃ c, True ∧ Picks k second op c s :=
  ⟨⟨!(second && op.readsFirst k), 0, fun _ => 0, true⟩, trivial, rfl⟩

/-- Every block that can be delivered is delivered in some way. -/
lemma wp_nvRead_picks {Q : ℤ × Bytes → Bool → Store → Prop} {second : Bool}
    (hOk : ∀ op c, Ok op c s → Picks k second op c s) (hk : 1 ≤ k)
    (hbuf : buf.length = secBlkSize) (hb : Delivers crc32 s k b)
    (hsecond : second = true ↔ b ≠ copy0 s k) (hok : Q (0, b) h s) :
    wp perform Ok (nvRead crc32 k buf) Q h s := by
  obtain ⟨hmax, ⟨hnand, rfl⟩ | ⟨hsd, hcopy, hcheck⟩⟩ := hb
  · unfold nvRead
    refine wp_step fun _ _ => ⟨_, _, rfl, ?_⟩
    rw [if_pos hnand]
    unfold nandRead
    rw [if_neg (by omega)]
    refine wp_step fun c hc => ⟨_, _, rfl, ?_⟩
    have hmalloc : c.ok = true := by
      rw [hOk _ c hc]
      simp [Op.readsFirst]
    rw [if_neg (by simp [hmalloc])]
    refine wp_step fun c hc => ⟨_, _, rfl, ?_⟩
    have hread : c.ok = true := by
      rw [hOk _ c hc]
      simp [Op.readsFirst]
    rw [if_pos hread, hbuf]
    exact hok
  have hmalloc : ∀ c, Ok .malloc c s → c.ok = true := by
    intro c hc
    rw [hOk _ c hc]
    simp [Op.readsFirst]
  have hnand : s.flashBootType ≠ flashTypeNand := by
    rcases hsd with hsd | hsd
    · rw [hsd]
      decide
    · rw [hsd]
      decide
  unfold nvRead
  refine wp_step fun _ _ => ⟨_, _, rfl, ?_⟩
  rw [if_neg hnand, if_pos hsd, if_neg (by omega)]
  unfold sdReadKey sdRead sdReadAt
  rw [if_neg (by omega), wp_bind]
  refine wp_step fun c hc => ⟨_, _, rfl, ?_⟩
  rw [hmalloc c hc, if_neg (by simp)]
  refine wp_step fun c hc => ⟨_, _, rfl, ?_⟩
  have hfirst : c.ok = !second := by
    rw [hOk _ c hc]
    simp [Op.readsFirst]
  rw [hfirst, hbuf]
  by_cases heq : b = copy0 s k
  · have hno : second = false := by
      rw [← Bool.not_eq_true, hsecond]
      exact not_not.mpr heq
    rw [hno]
    change wp perform Ok (if (0 : ℤ) = 0 ∧ checkSecureStorageKey crc32 (copy0 s k) = 0 then _ else _)
      Q h s
    rw [if_pos ⟨rfl, heq ▸ hcheck⟩]
    rw [heq] at hok
    exact hok
  have hyes : second = true := hsecond.mpr heq
  have hcopy1 : b = copy1 s k := hcopy.resolve_left heq
  rw [hyes]
  change wp perform Ok (if (-1 : ℤ) = 0 ∧ checkSecureStorageKey crc32 buf = 0 then _
    else sdReadKeyBackup crc32 k buf) Q h s
  rw [if_neg (by simp)]
  unfold sdReadKeyBackup sdReadBackup sdReadAt
  rw [if_neg (by omega), wp_bind]
  refine wp_step fun c hc => ⟨_, _, rfl, ?_⟩
  rw [hmalloc c hc, if_neg (by simp)]
  refine wp_step fun c hc => ⟨_, _, rfl, ?_⟩
  have hbackup : c.ok = true := by
    have hoff : sdBackupOffset k ≠ sdOffset k := by
      unfold sdBackupOffset sdOffset sdmmcItemSize sdmmcSectorSize
      omega
    rw [hOk _ c hc]
    simp [Op.readsFirst, hoff]
  rw [hbackup, length_zeros, hbuf]
  change wp perform Ok (if (0 : ℤ) = 0 ∧ checkSecureStorageKey crc32 (copy1 s k) = 0 then _ else _)
    Q h s
  rw [if_pos ⟨rfl, hcopy1 ▸ hcheck⟩]
  rw [hcopy1] at hok
  exact hok

/-- A block that fits is exactly one that is unwrapped without an access outside. -/
lemma readOutcome_ne_none_iff (dl : ℤ) (hlen : b.length = secBlkSize) :
    readOutcome crc32 (some b) len buf dl ≠ none ↔ BlockFits crc32 b len buf.length := by
  unfold readOutcome BlockFits
  simp only
  by_cases hneg : len < 0
  · rw [if_pos hneg]
    exact ⟨fun hne => absurd rfl hne, fun hfit => absurd hfit.1 (Int.not_le.mpr hneg)⟩
  rw [if_neg hneg]
  by_cases hobj : len = storeObjectSize
  · subst hobj
    rw [loadedPart_storeObjectSize, unwrapSecureObject_loadedObject hlen]
    split_ifs with hcheck hfit
    · simp [hcheck, hfit]
    · exact ⟨fun hne => absurd rfl hne, fun hall => absurd (hall.2 rfl hcheck) hfit⟩
    · simp [hcheck]
  · rw [unwrapSecureObject, if_pos hobj]
    simp [hobj, Int.not_lt.mp hneg]

lemma bounded_of_readOutcome {r : ReadOut} (hlen : b.length = secBlkSize)
    (hr : readOutcome crc32 (some b) len buf dl = some r) : Bounded r buf := by
  unfold readOutcome at hr
  simp only at hr
  split_ifs at hr
  by_cases hobj : len = storeObjectSize
  · subst hobj
    rw [loadedPart_storeObjectSize, unwrapSecureObject_loadedObject hlen] at hr
    split_ifs at hr with hcheck hfit
    · obtain rfl := Option.some.inj hr
      refine ⟨?_, fun _ => Int.ofNat_le.mpr hfit.2⟩
      rw [length_patch]
      rw [length_objectPayload hlen hfit.1]
      omega
    · obtain rfl := Option.some.inj hr
      exact ⟨rfl, fun hret => absurd hret (by simp)⟩
  · rw [unwrapSecureObject, if_pos hobj] at hr
    obtain rfl := Option.some.inj hr
    exact ⟨rfl, fun hret => absurd hret (by simp)⟩

/-- A read of a closed session, or of a name that the map does not have. -/
lemma wp_sunxiSecureObjectRead_missing {Q : ReadOut → Bool → Store → Prop}
    (hfault : s.secureStorageInited = true → probeNameInMap s.secureStorageMap a = none →
      ∀ c s', ¬ Ok .fault c s')
    (hmiss : ∀ x, s.secureStorageInited = true →
      probeNameInMap s.secureStorageMap a ≠ some (some x))
    (hQ : Q ⟨-1, buf, dl⟩ h s) :
    wp perform Ok (sunxiSecureObjectRead crc32 a buf dl) Q h s := by
  have hstore : wp perform Ok (sunxiSecureStorageRead crc32 a (zeros secBlkSize) 0)
      (fun r h' s' => h' = h ∧ s' = s ∧ r.ret ≠ 0) h s := by
    unfold sunxiSecureStorageRead
    refine wp_step fun _ _ => ⟨_, _, rfl, ?_⟩
    by_cases hinit : s.secureStorageInited = true
    swap
    · rw [if_pos (by simpa using hinit)]
      exact ⟨rfl, rfl, by decide⟩
    rw [if_neg (by simpa using hinit)]
    refine wp_step fun _ _ => ⟨_, _, rfl, ?_⟩
    split_ifs
    · exact ⟨rfl, rfl, by decide⟩
    refine wp_step fun _ _ => ⟨_, _, rfl, ?_⟩
    refine wp_step fun _ _ => ⟨_, _, rfl, ?_⟩
    rw [wp_bind]
    refine wp_orFault (fun x hx => ?_) (hfault hinit)
    cases x with
    | none => exact ⟨rfl, rfl, by decide⟩
    | some x => exact absurd hx (hmiss x hinit)
  unfold sunxiSecureObjectRead
  refine wp_bind_of hstore ?_
  rintro r h' s' ⟨rfl, rfl, hr⟩
  rw [if_pos hr]
  exact hQ

/-- The condition is enough, whatever fails. -/
lemma wp_sunxiSecureObjectRead_fits (hfits : ObjectFits crc32 s a buf.length) :
    wp perform Ok (sunxiSecureObjectRead crc32 a buf dl)
      (fun r h' s' => Bounded r buf ∧ h' = h ∧ s' = s) h s := by
  have hfail : Bounded ⟨-1, buf, dl⟩ buf := ⟨rfl, fun hret => absurd hret (by simp)⟩
  by_cases hmiss : ∀ x, s.secureStorageInited = true →
      probeNameInMap s.secureStorageMap a ≠ some (some x)
  · exact wp_sunxiSecureObjectRead_missing (fun hinit hnone => absurd hnone (hfits hinit).1) hmiss
      ⟨hfail, rfl, rfl⟩
  push Not at hmiss
  obtain ⟨⟨k, len⟩, hinit, hprobe⟩ := hmiss
  refine wp_sunxiSecureObjectRead_nvRead hinit hprobe (fun _ _ _ => ⟨hfail, rfl, rfl⟩)
    fun b₀ hb₀ => ?_
  refine wp_nvRead_delivers (probeNameInMap_pos hprobe) hb₀ ?_ ?_
  · intro b'
    refine ⟨rfl, rfl, ?_⟩
    rw [if_neg (by simp)]
    exact ⟨hfail, rfl, rfl⟩
  · intro b hb
    have hsome := (readOutcome_ne_none_iff dl hb.length).mpr
      ((hfits hinit).2 k len hprobe b hb)
    refine ⟨rfl, rfl, ?_⟩
    rw [if_pos rfl]
    exact ⟨hb.length, fun r hr => ⟨bounded_of_readOutcome hb.length hr, rfl, rfl⟩,
      fun hnone => absurd hnone hsome⟩

lemma objectReadBounded_of_fits (hfits : ObjectFits crc32 s a buf.length) :
    ObjectReadBounded crc32 s a buf := by
  intro h env dl
  have hwp : wp perform AnyOk (sunxiSecureObjectRead crc32 a buf dl)
      (fun r h' s' => Bounded r buf ∧ h' = h ∧ s' = s) h s := wp_sunxiSecureObjectRead_fits hfits
  obtain ⟨r, c, hrun, hr, -⟩ := wp_run (G := fun _ => True) (c := ⟨h, env, s⟩) hwp fun _ => trivial
  exact ⟨r, c, hrun, hr⟩

lemma perform_fault {c : Choice} {s' : Store} : ¬ perform .fault c s' ≠ none := fun hne => hne rfl

/-- The condition is necessary even for a read that only returns. -/
lemma objectFits_of_returns (dl : ℤ)
    (hall : ∀ env, Yields perform (sunxiSecureObjectRead crc32 a buf dl) ⟨h, env, s⟩
      fun _ _ => True) : ObjectFits crc32 s a buf.length := by
  intro hinit
  constructor
  · intro hnone
    -- with nothing failing, the lookup is reached
    have hwp : wp perform (fun op c s => AllOk op c s ∧ perform op c s ≠ none)
        (sunxiSecureObjectRead crc32 a buf dl) (fun _ _ _ => False) h s := by
      unfold sunxiSecureObjectRead sunxiSecureStorageRead
      rw [wp_bind]
      refine wp_step fun _ _ => ⟨_, _, rfl, ?_⟩
      rw [hinit, if_neg (by simp)]
      refine wp_step fun c hc => ⟨_, _, rfl, ?_⟩
      rw [hc.1, if_neg (by simp)]
      refine wp_step fun _ _ => ⟨_, _, rfl, ?_⟩
      refine wp_step fun _ _ => ⟨_, _, rfl, ?_⟩
      rw [hnone, wp_bind]
      exact wp_orFault (fun x hx => absurd hx (by simp)) fun _ _ _ hc => perform_fault hc.2
    obtain ⟨r, c', -, hfalse⟩ := exists_return (G := fun _ => True) ⟨smooth 0, trivial⟩
      (fun _ _ => ⟨smooth 0, trivial, rfl⟩) (fun env _ => hall env) hwp
    exact hfalse
  · intro k len hprobe b hb
    rw [← readOutcome_ne_none_iff dl hb.length]
    have hwp : wp perform (fun op c s => Picks k (decide (b ≠ copy0 s k)) op c s ∧
          perform op c s ≠ none) (sunxiSecureObjectRead crc32 a buf dl)
        (fun _ _ _ => readOutcome crc32 (some b) len buf dl ≠ none) h s := by
      refine wp_sunxiSecureObjectRead_nvRead hinit hprobe ?_ fun b₀ hb₀ => ?_
      · intro c hc hok
        have htrue : c.ok = true := by
          rw [hc.1]
          simp [Op.readsFirst]
        exact absurd (htrue.symm.trans hok) (by decide)
      refine wp_nvRead_picks (fun _ _ hc => hc.1) (probeNameInMap_pos hprobe) hb₀ hb (by simp) ?_
      refine ⟨rfl, rfl, ?_⟩
      rw [if_pos rfl]
      refine ⟨hb.length, fun r hr => ?_, fun _ _ _ hc => perform_fault hc.2⟩
      rw [hr]
      exact Option.some_ne_none r
    obtain ⟨r, c', -, hne⟩ := exists_return (G := fun _ => True) ⟨smooth 0, trivial⟩
      (fun op s => exists_picks _ op s) (fun env _ => hall env) hwp
    exact hne

lemma objectReadBounded_iff :
    ObjectReadBounded crc32 s a buf ↔ ObjectFits crc32 s a buf.length := by
  refine ⟨fun hbound => ?_, objectReadBounded_of_fits⟩
  refine objectFits_of_returns (h := true) 0 fun env => ?_
  obtain ⟨r, c, hrun, -⟩ := hbound true env 0
  exact ⟨r, c, hrun, trivial⟩

end Object

/-! ## The private store -/

section Private

variable {Ok : EnvOp → Choice → EnvStore → Prop} {h : Bool} {t : EnvStore} {a : Bytes} {n : ℕ}
  {dl : ℤ}

lemma strnlen_le (b : Bytes) (n : ℕ) : strnlen b n ≤ n :=
  Nat.le_trans (List.takeWhile_prefix _).length_le (List.length_take_le n b)

/-- The copy of a C string into a zeroed buffer. -/
lemma strcpyAt_zeros_iff {src : Bytes} :
    strcpyAt (zeros n) 0 src ≠ none ↔ ∃ v, cstr src = some v ∧ v.length < n := by
  unfold strcpyAt store
  cases cstr src with
  | none => simp
  | some v =>
    have hlen : 0 + (v ++ [0]).length ≤ (zeros n).length ↔ v.length < n := by
      rw [List.length_append, List.length_singleton, length_zeros]
      omega
    simp only [Option.bind_some, hlen, Option.some.injEq, exists_eq_left']
    split_ifs with hfit
    · simp [hfit]
    · simp [hfit]

lemma checkEnvParameter_ne_none_iff (hn : valueSize ≤ n) :
    checkEnvParameter t.userData a (zeros n) ≠ none ↔ PrivateFits t a n := by
  unfold checkEnvParameter PrivateFits
  split_ifs with hmagic hunused hcount
  · simp [hmagic]
  · simp [hunused]
  · simp only [Nat.not_lt.mpr hn, hmagic, hunused, Int.not_le.mpr hcount, false_or]
    cases hscan : scanRecords t.userData a (i32 t.userData 8) userDataParameterMaxCount 0 with
    | none => simp
    | some x =>
      obtain ⟨j, found⟩ := x
      cases found with
      | false => simp
      | true =>
        simp only [ne_eq, Option.map_eq_none_iff, Option.some.injEq, Prod.mk.injEq]
        rw [← ne_eq, strcpyAt_zeros_iff]
        simp
  · simp [Int.not_lt.mp hcount]

lemma length_checkEnvParameter {buf out : Bytes} {ret : ℤ}
    (hcheck : checkEnvParameter t.userData a buf = some (ret, out)) : out.length = buf.length := by
  unfold checkEnvParameter at hcheck
  split_ifs at hcheck
  · obtain ⟨-, rfl⟩ := Prod.mk.inj (Option.some.inj hcheck)
    rfl
  · obtain ⟨-, rfl⟩ := Prod.mk.inj (Option.some.inj hcheck)
    rfl
  · cases hscan : scanRecords t.userData a (i32 t.userData 8) userDataParameterMaxCount 0 with
    | none =>
      rw [hscan] at hcheck
      cases hcheck
    | some x =>
      rw [hscan] at hcheck
      obtain ⟨j, found⟩ := x
      cases found with
      | false =>
        obtain ⟨-, rfl⟩ := Prod.mk.inj (Option.some.inj hcheck)
        rfl
      | true =>
        simp only [Option.map_eq_some_iff, Prod.mk.injEq] at hcheck
        obtain ⟨out', hcopy, -, rfl⟩ := hcheck
        unfold strcpyAt at hcopy
        obtain ⟨v, -, hstore⟩ := Option.bind_eq_some_iff.mp hcopy
        exact length_store hstore
  · obtain ⟨-, rfl⟩ := Prod.mk.inj (Option.some.inj hcheck)
    rfl

/-- A read of the private store that fits, whatever is reported to fail. -/
lemma wp_sunxiPrivateStoreRead_fits (hfits : PrivateFits t a n) :
    wp performEnv (fun _ c _ => c.Reported) (sunxiPrivateStoreRead a (zeros n) dl)
      (fun r _ _ => Bounded r (zeros n)) h t := by
  have hfail : ∀ b : Bytes, b.length = n → Bounded ⟨-1, b, dl⟩ (zeros n) :=
    fun b hb => ⟨by simp [hb], fun hret => absurd hret (by simp)⟩
  unfold sunxiPrivateStoreRead
  split_ifs with hn
  · exact hfail _ (by simp)
  rw [length_zeros, Nat.not_lt] at hn
  refine wp_step fun _ _ => ⟨_, _, rfl, ?_⟩
  split_ifs
  · exact hfail _ (by simp)
  refine wp_step fun c hc => ⟨_, _, rfl, ?_⟩
  cases hok : c.ok with
  | false =>
    have hseen : c.seen = true := hc.resolve_left (by simp [hok])
    simp only [hseen, Bool.false_eq_true, if_false, if_true]
    exact hfail _ (by simp)
  | true =>
    cases hcheck : checkEnvParameter t.userData a (zeros n) with
    | none => exact absurd hcheck ((checkEnvParameter_ne_none_iff hn).mpr hfits)
    | some x =>
      obtain ⟨ret, out⟩ := x
      have hlen := length_checkEnvParameter hcheck
      rw [length_zeros] at hlen
      simp only [if_true, hcheck]
      change wp performEnv _ (if ret = 0 then _ else _) _ h t
      split_ifs
      · refine ⟨by simp [hlen], fun _ => ?_⟩
        have hle := strnlen_le out valueSize
        rw [length_zeros]
        exact Int.ofNat_le.mpr (Nat.le_trans hle hn)
      · exact hfail _ hlen

/-- An undisturbed read of the private store that returns has fitted. -/
lemma wp_sunxiPrivateStoreRead_returned (hok : ∀ op c t', Ok op c t' → c.ok = true)
    (hfault : ∀ c t', ¬ Ok .fault c t') :
    wp performEnv Ok (sunxiPrivateStoreRead a (zeros n) dl) (fun _ _ _ => PrivateFits t a n)
      h t := by
  unfold sunxiPrivateStoreRead
  split_ifs with hn
  · rw [length_zeros] at hn
    exact Or.inl hn
  rw [length_zeros, Nat.not_lt] at hn
  refine wp_step fun c hc => ⟨_, _, rfl, ?_⟩
  rw [hok _ c t hc, if_neg (by simp)]
  refine wp_step fun c hc => ⟨_, _, rfl, ?_⟩
  rw [hok _ c t hc]
  cases hcheck : checkEnvParameter t.userData a (zeros n) with
  | none =>
    simp only [if_true, hcheck]
    exact fun c' hc' => absurd hc' (hfault c' t)
  | some x =>
    obtain ⟨ret, out⟩ := x
    have hfits : PrivateFits t a n := by
      rw [← checkEnvParameter_ne_none_iff hn, hcheck]
      exact Option.some_ne_none _
    simp only [if_true, hcheck]
    change wp performEnv Ok (if ret = 0 then _ else _) _ h t
    split_ifs
    · exact hfits
    · exact hfits

end Private

/-! ## The data interface -/

section Data

variable {crc32} {Ok : Op → Choice → Store → Prop} {s : Store} {t : EnvStore} {a buf : Bytes}
  {n : ℕ} {dl : ℤ}

/-- What `private_data_read` does in an open session. -/
def readOpened (crc32 : Bytes → UInt32) (itemName buffer : Bytes) (dataLen : ℤ) : Sec ReadOut := do
  let r ← sunxiSecureObjectRead crc32 itemName buffer dataLen
  if r.ret < 0 then
    let _ ← sunxiSecureStorageExit crc32 0
    return ⟨-1, r.buffer, r.dataLen⟩
  if (← sunxiSecureStorageExit crc32 0) < 0 then return ⟨-1, r.buffer, r.dataLen⟩
  return ⟨0, r.buffer, r.dataLen⟩

lemma readSecure_eq : readSecure crc32 a buf dl = openSecure crc32 >>= fun r =>
    if r < 0 then pure ⟨-1, buf, dl⟩ else readOpened crc32 a buf dl := by
  unfold readSecure openSecure
  rw [Prog.bind_assoc]
  refine bind_congr fun r => ?_
  split_ifs
  · rfl
  · rfl

/-- Opening returns with the mutex held exactly when it succeeds. -/
lemma wp_openSecure : wp perform Ok (openSecure crc32) (fun r h s' => r < 0 ∧ h = false ∨
    r = 0 ∧ h = true ∧ s'.secureStorageInited = true) false s := by
  have hsupport : wp perform Ok (secureStorageSupport crc32) (fun _ h _ => h = false) false s := by
    unfold secureStorageSupport
    refine wp_step fun _ _ => ⟨_, _, rfl, ?_⟩
    split_ifs
    · rfl
    refine wp_bind_of wp_init_inited ?_
    rintro r h s' (⟨rfl, rfl⟩ | ⟨rfl, rfl, hinit⟩)
    · rw [if_pos (by decide)]
      rfl
    · rw [if_neg (by decide)]
      exact wp_bind_of (wp_exit_released hinit) fun _ h' _ hh => hh
  unfold openSecure
  refine wp_bind_of hsupport ?_
  rintro r h s' rfl
  split_ifs
  · refine wp_mono wp_init_inited ?_
    rintro r h s' (⟨rfl, rfl⟩ | ⟨rfl, rfl, hinit⟩)
    · exact Or.inl ⟨by decide, rfl⟩
    · exact Or.inr ⟨rfl, rfl, hinit⟩
  · exact Or.inl ⟨by decide, rfl⟩

/-- The secure half of a read keeps its bounds if every session it can open does. -/
lemma yields_readSecure (hfits : ∀ s', OpensTo crc32 s s' → ObjectFits crc32 s' a buf.length)
    (env : ℕ → Choice) :
    Yields perform (readSecure crc32 a buf dl) ⟨false, env, s⟩ fun r c =>
      Bounded r buf ∧ c.held = false := by
  have hfail : Bounded ⟨-1, buf, dl⟩ buf := ⟨rfl, fun hret => absurd hret (by simp)⟩
  rw [readSecure_eq]
  obtain ⟨r, ⟨h', env', s'⟩, hrun, hr⟩ := wp_run (G := fun _ => True) (c := ⟨false, env, s⟩)
    (wp_openSecure) fun _ => trivial
  refine yields_bind (R := fun r' c' => r' = r ∧ c' = ⟨h', env', s'⟩) ⟨r, _, hrun, rfl, rfl⟩ ?_
  rintro _ _ ⟨rfl, rfl⟩
  rcases hr with ⟨hneg, hheld⟩ | ⟨rfl, hheld, hinit⟩
  · rw [if_pos hneg]
    exact yields_pure ⟨hfail, hheld⟩
  rw [if_neg (by decide)]
  simp only at hheld hinit
  subst hheld
  have hwp : wp perform AnyOk (readOpened crc32 a buf dl) (fun r h _ => Bounded r buf ∧ h = false)
      true s' := by
    unfold readOpened
    refine wp_bind_of (wp_sunxiSecureObjectRead_fits (hfits s' ⟨env, _, hrun, rfl⟩)) ?_
    rintro r h' s₂ ⟨hr, rfl, rfl⟩
    have hkept : Bounded ⟨-1, r.buffer, r.dataLen⟩ buf :=
      ⟨hr.buffer, fun hret => absurd hret (by simp)⟩
    split_ifs with hneg
    · exact wp_bind_of (wp_exit_released hinit) fun _ h' _ hh => ⟨hkept, hh⟩
    refine wp_bind_of (wp_exit_released hinit) fun _ h' _ hh => ?_
    split_ifs
    · exact ⟨hkept, hh⟩
    · exact ⟨⟨hr.buffer, fun _ => hr.dataLen (Int.not_lt.mp hneg)⟩, hh⟩
  obtain ⟨r, c, hrun', hr, hh⟩ := wp_run (G := fun _ => True) (c := ⟨true, env', s'⟩) hwp
    fun _ => trivial
  exact ⟨r, c, hrun', hr, hh⟩

/-- The conditions are enough. -/
lemma dataReadBounded_of_fits
    (hfits : ∀ s', OpensTo crc32 s s' → ObjectFits crc32 s' a buf.length)
    (hpriv : PrivateFits t a buf.length) : DataReadBounded crc32 (s, t) a buf := by
  intro env dl henv
  unfold privateDataRead
  have hsec : Yields perform (readSecure crc32 a buf dl) ⟨_, env, s⟩ _ := yields_readSecure hfits env
  have hyields : Yields performApi (sec (readSecure crc32 a buf dl)) ⟨_, env, s, t⟩ _ :=
    yields_liftLeft hsec
  obtain ⟨r, ⟨h', env', s', t'⟩, hrun₁, ⟨hr, -⟩, rfl⟩ := hyields
  have henv' : ∀ n, (env' n).Reported := env_of_run (G := Choice.Reported) henv hrun₁
  refine yields_bind (R := fun r₁ c => r₁ = r ∧ c = ⟨h', env', s', t'⟩) ⟨r, _, hrun₁, rfl, rfl⟩ ?_
  rintro r₁ _ ⟨rfl, rfl⟩
  split_ifs
  · exact yields_pure hr
  have hwp : wp performApi (fun _ c _ => c.Reported)
      (priv (sunxiPrivateStoreRead a (zeros buf.length) r₁.dataLen))
      (fun r _ _ => Bounded r (zeros buf.length)) h' (s', t') :=
    wp_liftRight (wp_sunxiPrivateStoreRead_fits hpriv)
  obtain ⟨r', c', hrun, hr'⟩ := wp_run (G := Choice.Reported)
    (c := (⟨h', env', s', t'⟩ : Conf Choice ApiState)) hwp henv'
  refine ⟨r', c', hrun, ?_, fun hret => ?_⟩
  · rw [hr'.buffer, length_zeros]
  · have hle := hr'.dataLen hret
    rw [length_zeros] at hle
    exact hle

/-- A read of which no session comes about, or no read of the map. -/
lemma wp_readSecure_failing (hOk : ∀ c s, Ok .malloc c s → c.ok = false) :
    wp perform Ok (readSecure crc32 a buf dl) (fun r _ _ => r.ret = -1) false s := by
  rw [readSecure_eq]
  refine wp_bind_of wp_openSecure ?_
  rintro r h s' (⟨hneg, -⟩ | ⟨rfl, rfl, hinit⟩)
  · rw [if_pos hneg]
    rfl
  rw [if_neg (by decide)]
  have hread : wp perform Ok (sunxiSecureObjectRead crc32 a buf dl)
      (fun r h' s'' => r.ret = -1 ∧ h' = true ∧ s'' = s') true s' := by
    unfold sunxiSecureObjectRead sunxiSecureStorageRead
    rw [wp_bind]
    refine wp_step fun _ _ => ⟨_, _, rfl, ?_⟩
    rw [hinit, if_neg (by simp)]
    refine wp_step fun c hc => ⟨_, _, rfl, ?_⟩
    rw [hOk c s' hc, if_pos (by simp)]
    exact ⟨rfl, rfl, rfl⟩
  unfold readOpened
  refine wp_bind_of hread ?_
  rintro r h' s₂ ⟨hret, rfl, rfl⟩
  rw [if_pos (by rw [hret]; decide)]
  exact wp_bind_of (wp_exit_released hinit) fun _ _ _ _ => rfl

/-- The conditions are necessary. -/
lemma fits_of_dataReadBounded (hbound : DataReadBounded crc32 (s, t) a buf) :
    (∀ s', OpensTo crc32 s s' → ObjectFits crc32 s' a buf.length) ∧
      PrivateFits t a buf.length := by
  constructor
  · rintro s' ⟨env₀, c, hopen, rfl⟩
    have hsec : ∀ env, Yields perform (openSecure crc32 >>= fun r =>
        if r < 0 then pure ⟨-1, buf, 0⟩ else readOpened crc32 a buf 0) ⟨false, env, s⟩
        fun _ _ => True := by
      intro env
      rw [← readSecure_eq]
      -- the secure store does not depend on what the partition reports
      refine Yields.of_map (f := fun c => { c with seen := true }) (fun op c s => ?_)
        (hbound _ 0 fun _ => Or.inr rfl).left.of_liftLeft
      cases op <;> rfl
    refine objectFits_of_returns (h := c.held) 0 fun env => ?_
    exact (Yields.of_bind hsec hopen env).left
  · -- the secure store fails and the private store does not
    let Ok : ApiOp → Choice → ApiState → Prop := fun op c _ => c.ok = op.isRight
    have hadm : ∀ op x, ∃ c : Choice, c.Reported ∧ Ok op c x :=
      fun op _ => ⟨⟨op.isRight, 0, fun _ => 0, true⟩, Or.inr rfl, rfl⟩
    have hwp : wp performApi (fun op c x => Ok op c x ∧ performApi op c x ≠ none)
        (privateDataRead crc32 a buf 0) (fun _ _ _ => PrivateFits t a buf.length) false (s, t) := by
      unfold privateDataRead
      rw [wp_bind]
      refine wp_liftLeft (wp_mono (wp_readSecure_failing fun c s' hc => hc.1) ?_)
      intro r h' s' hret
      rw [if_neg (by rw [hret]; decide)]
      refine wp_liftRight (wp_sunxiPrivateStoreRead_returned (fun op c t' hc => hc.1) ?_)
      exact fun c t' hc => hc.2 rfl
    obtain ⟨r, c, -, hfits⟩ := exists_return ⟨smooth 0, Or.inl rfl⟩ hadm
      (fun env henv => hbound env 0 henv) hwp
    exact hfits

end Data

/-- **Read bounds.**  Whatever system calls fail, a read by name keeps inside the map, the block and
the caller's buffer, and returns a length that fits the buffer, if and only if `ObjectFits` holds.
For the data interface, where the partition reports its failures, it has to hold in every session
that the read can open, and the value of the private store has to fit as well. -/
theorem readBounds_iff (crc32 : Bytes → UInt32) (s : Store) (t : EnvStore) (a buf : Bytes) :
    (ObjectReadBounded crc32 s a buf ↔ ObjectFits crc32 s a buf.length) ∧
      (DataReadBounded crc32 (s, t) a buf ↔
        (∀ s', OpensTo crc32 s s' → ObjectFits crc32 s' a buf.length) ∧
          PrivateFits t a buf.length) :=
  ⟨objectReadBounded_iff, fits_of_dataReadBounded,
    fun hfits => dataReadBounded_of_fits hfits.1 hfits.2⟩

/-! ## A value that is longer than the buffer -/

lemma Delivers.of_storedBlock {crc32 : Bytes → UInt32} {s : Store} {k : ℕ} {b : Bytes}
    (hb : storedBlock crc32 s k = some b) (hcheck : checkSecureStorageKey crc32 b = 0) :
    Delivers crc32 s k b := by
  unfold storedBlock at hb
  split_ifs at hb with hcond
  refine ⟨hcond.1, ?_⟩
  unfold item readPair at hb
  split_ifs at hb with hnand h0 h1
  · exact Or.inl ⟨hnand, (Option.some.inj hb).symm⟩
  · exact Or.inr ⟨hcond.2.resolve_left hnand, Or.inl (Option.some.inj hb).symm, hcheck⟩
  · exact Or.inr ⟨hcond.2.resolve_left hnand, Or.inr (Option.some.inj hb).symm, hcheck⟩

/-- A payload of 84 bytes, stored by one write, is read into a buffer of one byte. -/
theorem readBounds_overrun :
    WriteStep Framework.crc32 openStore markedStore ∧
      ¬ ∀ (s : Store) (t : EnvStore) (a buf : Bytes), ObjectReadBounded Framework.crc32 s a buf ∧
        DataReadBounded Framework.crc32 (s, t) a buf := by
  refine ⟨writeStep_markedStore, fun hall => ?_⟩
  have hread := (hall markedStore erasedEnv [97] [0]).1
  have hcheck : checkSecureStorageKey Framework.crc32 markedObject = 0 :=
    checkSecureStorageKey_wrap (by simp) wrap_markedPayload
  obtain ⟨-, hblock⟩ := objectReadBounded_iff.mp hread (by simp [markedStore, openStore])
  obtain ⟨-, hlen⟩ := hblock 1 storeObjectSize probe_markedStore markedObject
    (.of_storedBlock storedBlock_markedStore hcheck)
  have hshort := (hlen rfl hcheck).2
  rw [u32_wrap_actualLen (by simp) wrap_markedPayload] at hshort
  exact absurd hshort (by simp [markedPayload])

end Softwinner.SecureStorage
