import Mathlib.Data.List.TakeWhile
import Softwinner.SecureStorage.Listing
import Softwinner.SecureStorage.PrivateStore

/-!
# The data interface

`libsec_storage/api.c`.  `private_data_write` stores a value in the private partition and then,
on devices that support it, in the secure store; `private_data_read` asks the secure store first
and the private partition when that fails.

The two stores share the return codes and nothing else, so a program of the interface is over
the sum of their operations and the product of their states.  `buffer` of a write stands for the
`length` bytes it passes, as in the layers below.

The value takes two ways: through a C string into the partition, and through `length` bytes of
a zero-padded copy into a secure object.  `privateData_round_trip` says which values come back
from both.
-/

namespace Softwinner.SecureStorage

open Framework Prog

/-- The operations of both stores. -/
abbrev ApiOp := Op ⊕ EnvOp

abbrev ApiOp.Res : ApiOp → Type := Sum.elim Op.Res EnvOp.Res

/-- The programs of the data interface. -/
abbrev Api := Prog ApiOp ApiOp.Res

abbrev ApiState := Store × EnvStore

abbrev performApi : Perform ApiOp ApiOp.Res Choice ApiState := Prog.sum perform performEnv

/-- A call into the secure store. -/
def sec {α : Type} (p : Sec α) : Api α := p.liftLeft EnvOp.Res

/-- A call into the private store. -/
def priv {α : Type} (p : Env α) : Api α := p.liftRight Op.Res

section Programs

variable (crc32 : Bytes → UInt32)

/-- The second half of `private_data_write`, behind the private store. -/
def writeSecure (itemName buffer : Bytes) : Sec ℤ := do
  if (← secureStorageSupport crc32) = 0 then
    if (← sunxiSecureStorageInit crc32) < 0 then return -1
    if (← sunxiSecureObjectWrite crc32 itemName buffer) < 0 then
      let _ ← sunxiSecureStorageExit crc32 0
      return -1
    if (← sunxiSecureStorageExit crc32 0) < 0 then return -1
    return 0
  else return 0

/-- `buffer_bak`: the value up to its first NUL, in a zeroed block. -/
def bufferBak (buffer : Bytes) : Bytes :=
  patch (zeros secBlkSize) 0 (strncpy buffer buffer.length)

/-- `none` is a null pointer. -/
def privateDataWrite (itemName buffer : Option Bytes) : Api ℤ :=
  match itemName, buffer with
  | some itemName, some buffer => do
    if buffer.length > secBlkSize then return -1
    if (← priv (sunxiPrivateStoreWrite itemName (bufferBak buffer))) < 0 then return -1
    sec (writeSecure crc32 itemName ((bufferBak buffer).take buffer.length))
  | _, _ => return -1

/-- The first half of `private_data_read`; the return code is 0 where the function returns, and
-1 where it goes to `Next`. -/
def readSecure (itemName buffer : Bytes) (dataLen : ℤ) : Sec ReadOut := do
  if (← secureStorageSupport crc32) = 0 then
    if (← sunxiSecureStorageInit crc32) < 0 then return ⟨-1, buffer, dataLen⟩
    let r ← sunxiSecureObjectRead crc32 itemName buffer dataLen
    if r.ret < 0 then
      let _ ← sunxiSecureStorageExit crc32 0
      return ⟨-1, r.buffer, r.dataLen⟩
    if (← sunxiSecureStorageExit crc32 0) < 0 then return ⟨-1, r.buffer, r.dataLen⟩
    return ⟨0, r.buffer, r.dataLen⟩
  else return ⟨-1, buffer, dataLen⟩

def privateDataRead (itemName buffer : Bytes) (dataLen : ℤ) : Api ReadOut := do
  let r ← sec (readSecure crc32 itemName buffer dataLen)
  if r.ret = 0 then return r
  priv (sunxiPrivateStoreRead itemName (zeros buffer.length) r.dataLen)

end Programs

/-! ## Undisturbed reads -/

section Reads

variable {crc32 : Bytes → UInt32} {s : Store} {t : EnvStore} {names : List Bytes} {n w : Bytes}

/-- The device has secure storage. -/
def Supports (s : Store) : Prop := s.socInfo = true ∧ Known (bootDevice s)

instance (s : Store) : Decidable (Supports s) := inferInstanceAs (Decidable (_ ∧ _))

/-- The value that the secure store has for a name. -/
def secureValue (crc32 : Bytes → UInt32) (s : Store) (names : List Bytes) (n : Bytes) :
    Option Bytes :=
  if Supports s then (indexOf names n).bind (devicePayload crc32 s) else none

/-- The block that `n` leads to holds a payload of at most 127 bytes. -/
def Readable (crc32 : Bytes → UInt32) (s : Store) (names : List Bytes) (n : Bytes) : Prop :=
  Supports s → ∀ k, indexOf names n = some k → ∃ p, devicePayload crc32 s k = some p ∧ p.length ≤ 127

lemma Moved.supports_iff {s' : Store} {k : ℕ} (hmoved : Moved crc32 k s s') :
    Supports s' ↔ Supports s := by
  rw [Supports, Supports, hmoved.socInfo, hmoved.device]

lemma secureValue_eq {k : ℕ} (hsup : Supports s) (hk : indexOf names n = some k) :
    secureValue crc32 s names n = devicePayload crc32 s k := by
  rw [secureValue, if_pos hsup, hk, Option.bind_some]

/-- The secure half of an undisturbed read. -/
lemma wp_readSecure_ok {buf : Bytes} {dl : ℤ} {Q : ReadOut → Bool → Store → Prop}
    (hL : Lists crc32 s names) (hn : ItemName n) (hread : Readable crc32 s names n)
    (hbuf : valueSize ≤ buf.length)
    (hsome : ∀ p s', secureValue crc32 s names n = some p → Lists crc32 s' names →
      Q ⟨0, p ++ buf.drop p.length, p.length⟩ false s')
    (hnone : ∀ s', secureValue crc32 s names n = none → Lists crc32 s' names →
      Q ⟨-1, buf, dl⟩ false s') :
    wp perform AllOk (readSecure crc32 n buf dl) Q false s := by
  have hsize : valueSize = 128 := rfl
  have hopens : Opens AllOk := fun s _ => readsOk_allOk s
  unfold readSecure
  rw [wp_bind]
  refine wp_support_lists hL hopens.blank ?_ ?_
  · intro hwhy s' hL' _
    rw [if_neg (by decide)]
    refine hnone s' ?_ hL'
    rw [secureValue, if_neg]
    rintro ⟨hsoc, hknown⟩
    exact hwhy hopens hsoc hknown
  · intro hsoc hknown s₁ hL₁ hmoved₁
    have hsup : Supports s := ⟨hsoc, hknown⟩
    rw [if_pos rfl, wp_bind]
    refine wp_init_lists hL₁ hopens.blank ?_ ?_
    · intro hwhy
      exact absurd (hmoved₁.device.symm ▸ hknown) (hwhy hopens)
    · intro s₂ hs₂ _ hmoved₂
      have hmoved := hmoved₁.trans hmoved₂
      rw [if_neg (by decide), wp_bind]
      refine wp_objectRead_session (readsOk_allOk s₂) hs₂ hn ?_ ?_
      · intro k hk
        obtain ⟨p, hp, hplen⟩ := hread hsup k hk
        have hpos := (indexOf_le hk).1
        refine ⟨p, ?_, by omega, ?_⟩
        · rw [hmoved.payload_eq (by omega) (by omega)]
          exact hp
        · rw [if_neg (by simp), wp_bind]
          refine wp_exit_lists_ok hs₂ (fun _ => rfl) fun s₃ hL₃ _ _ => ?_
          rw [if_neg (by decide)]
          exact hsome p s₃ ((secureValue_eq hsup hk).trans hp) hL₃
      · intro hk
        rw [if_pos (by simp), wp_bind]
        refine wp_exit_lists_ok hs₂ (fun _ => rfl) fun s₃ hL₃ _ _ => ?_
        refine hnone s₃ ?_ hL₃
        rw [secureValue, if_pos hsup, hk, Option.bind_none]

/-- Undisturbed reads of the partition give `o`. -/
def PrivateReads (t : EnvStore) (n : Bytes) (o : Option Bytes) : Prop :=
  ∀ buf dl, wp performEnv (fun _ c _ => c.ok = true) (sunxiPrivateStoreRead n buf dl)
    (fun r _ _ => r = privateValue o buf dl) false t

/-- A reader's view of an outcome: the value at the front of the buffer and its length, or a
failure. -/
def Shows (r : ReadOut) : Option Bytes → Prop
  | some v => r.ret = 0 ∧ r.dataLen = v.length ∧ r.buffer.take v.length = v
  | none => r.ret = -1

/-- Every undisturbed run of the reading program `p`, into a buffer that both stores accept,
returns `w` and its length. -/
def Returns {Op σ : Type} {Res : Op → Type} (P : Perform Op Res Choice σ)
    (p : Bytes → ℤ → Prog Op Res ReadOut) (s : σ) (w : Bytes) : Prop :=
  ∀ (env : ℕ → Choice) (buf : Bytes) (dl : ℤ), (∀ i, (env i).ok = true) →
    valueSize ≤ buf.length → ∃ buf' c',
      (p buf dl).run P ⟨false, env, s⟩ = .ok (⟨0, buf', w.length⟩, c') ∧ buf'.take w.length = w

/-- `private_data_read` of `n` returns `w`. -/
def ReturnsValue (crc32 : Bytes → UInt32) (x : ApiState) (n w : Bytes) : Prop :=
  Returns performApi (privateDataRead crc32 n) x w

/-- The secure half alone returns `w`. -/
def SecureHolds (crc32 : Bytes → UInt32) (s : Store) (n w : Bytes) : Prop :=
  Returns perform (readSecure crc32 n) s w

lemma returns_iff {Op σ : Type} {Res : Op → Type} {P : Perform Op Res Choice σ}
    {p : Bytes → ℤ → Prog Op Res ReadOut} {s : σ} {o : Option Bytes}
    (hp : ∀ buf dl, valueSize ≤ buf.length →
      wp P (fun _ c _ => c.ok = true) (p buf dl) (fun r _ _ => Shows r o) false s) :
    Returns P p s w ↔ o = some w := by
  constructor
  · intro hret
    have hlen : valueSize ≤ (zeros valueSize).length := by simp
    obtain ⟨buf', c', hrun, htake⟩ := hret smooth (zeros valueSize) 0 (fun _ => rfl) hlen
    have hshow := wp_of_run (G := fun c => c.ok = true) (c := ⟨false, smooth, s⟩)
      (hp (zeros valueSize) 0 hlen) (fun _ => rfl) hrun
    cases o with
    | none => exact absurd hshow (by simp [Shows])
    | some v =>
      obtain ⟨-, hdl, hv⟩ := hshow
      have hvw : w.length = v.length := Int.natCast_inj.mp hdl
      simp only at hv
      rw [← hvw, htake] at hv
      rw [hv]
  · rintro rfl env buf dl henv hlen
    obtain ⟨r, c', hrun, hret, hdl, hbuf⟩ := wp_run (G := fun c => c.ok = true)
      (c := ⟨false, env, s⟩) (hp buf dl hlen) henv
    refine ⟨r.buffer, c', ?_, hbuf⟩
    rw [hrun, ← hret, ← hdl]

lemma shows_secure {buf : Bytes} {v : Bytes} :
    Shows ⟨0, v ++ buf.drop v.length, v.length⟩ (some v) := by
  refine ⟨rfl, rfl, ?_⟩
  simp

lemma secureHolds_iff (hL : Lists crc32 s names) (hn : ItemName n)
    (hread : Readable crc32 s names n) :
    SecureHolds crc32 s n w ↔ secureValue crc32 s names n = some w := by
  refine returns_iff fun buf dl hbuf => ?_
  refine wp_readSecure_ok hL hn hread hbuf ?_ ?_
  · intro p s' hp _
    rw [hp]
    exact shows_secure
  · intro s' hp _
    rw [hp]
    rfl

/-- What the code returns: the secure store's value, if it has one. -/
lemma returnsValue_iff {o : Option Bytes} (hL : Lists crc32 s names) (hn : ItemName n)
    (hread : Readable crc32 s names n) (hpriv : PrivateReads t n o) :
    ReturnsValue crc32 (s, t) n w ↔ (secureValue crc32 s names n).or o = some w := by
  refine returns_iff fun buf dl hbuf => ?_
  unfold privateDataRead
  rw [wp_bind]
  refine wp_liftLeft ?_
  refine wp_readSecure_ok hL hn hread hbuf ?_ ?_
  · intro p s' hp _
    rw [if_pos rfl, hp]
    exact shows_secure
  · intro s' hp _
    rw [if_neg (by simp), hp, Option.none_or]
    refine wp_liftRight (wp_mono (hpriv _ _) ?_)
    rintro r h' t' rfl
    unfold privateValue
    rw [if_neg (by rw [length_zeros]; omega)]
    cases o with
    | none => rfl
    | some v =>
      refine ⟨rfl, rfl, ?_⟩
      simp

end Reads

/-! ## The two ways of a value -/

section Values

variable {b : Bytes}

/-- The C string in a value. -/
def cvalue (b : Bytes) : Bytes := b.takeWhile (· != 0)

lemma length_cvalue_le (b : Bytes) : (cvalue b).length ≤ b.length :=
  (List.takeWhile_prefix _).length_le

lemma not_mem_cvalue (b : Bytes) : (0 : UInt8) ∉ cvalue b := by
  intro hmem
  have hne := List.mem_takeWhile_imp hmem
  simp at hne

lemma cvalue_eq_self : cvalue b = b ↔ (0 : UInt8) ∉ b := by
  constructor
  · intro heq
    rw [← heq]
    exact not_mem_cvalue b
  · intro hno
    refine List.takeWhile_eq_self_iff.mpr fun c hc => ?_
    rw [bne_iff_ne]
    rintro rfl
    exact hno hc

lemma envValue_cvalue (hb : b.length ≤ 127) : EnvValue (cvalue b) :=
  ⟨Nat.le_trans (length_cvalue_le b) hb, not_mem_cvalue b⟩

lemma strncpy_length (b : Bytes) :
    strncpy b b.length = cvalue b ++ zeros (b.length - (cvalue b).length) := by
  rw [strncpy, List.take_length]
  rfl

lemma strncpy_eq_self (hno : (0 : UInt8) ∉ b) : strncpy b b.length = b := by
  rw [strncpy_length, cvalue_eq_self.mpr hno, Nat.sub_self]
  simp [zeros]

lemma bufferBak_eq (b : Bytes) :
    bufferBak b = strncpy b b.length ++ zeros (secBlkSize - b.length) := by
  rw [bufferBak, patch, List.take_zero, List.nil_append, length_strncpy, Nat.zero_add, drop_zeros]

/-- The payload of the secure object. -/
lemma take_bufferBak (b : Bytes) : (bufferBak b).take b.length = strncpy b b.length := by
  have hlen : (strncpy b b.length).length = b.length := length_strncpy _ _
  rw [bufferBak_eq, List.take_append_of_le_length (Nat.le_of_eq hlen.symm),
    List.take_of_length_le (Nat.le_of_eq hlen)]

/-- The string of the private record. -/
lemma cstr_bufferBak (hb : b.length < secBlkSize) : cstr (bufferBak b) = some (cvalue b) := by
  have hle := length_cvalue_le b
  have hzero : zeros (b.length - (cvalue b).length) ++ zeros (secBlkSize - b.length) =
      0 :: zeros (secBlkSize - (cvalue b).length - 1) := by
    rw [← zeros_succ, zeros, zeros, zeros, List.replicate_append_replicate]
    congr 1
    omega
  rw [bufferBak_eq, strncpy_length, List.append_assoc, hzero]
  exact cstr_append_nul (not_mem_cvalue b)

end Values

/-! ## First writes -/

section FirstWrite

variable {crc32 : Bytes → UInt32} {s : Store} {t : EnvStore} {names : List Bytes} {a b v src : Bytes}

/-- Reads of the first record; a name that looks erased makes it invisible. -/
lemma wp_sunxiPrivateStoreWrite_first {h : Bool} {Q : ℤ → Bool → EnvStore → Prop}
    (hmagic : t.userData.take 5 ≠ envMagic) (ha : ShortName a) (hv : EnvValue v)
    (hsrc : cstr src = some v)
    (hQ : ∀ t', PrivateReads t' a (if ffs 8 <+: a then none else some v) →
      (¬ ffs 8 <+: a → TableOf t'.userData [(a, v)]) → Q 0 h t') :
    wp performEnv (fun _ c _ => c.ok = true) (sunxiPrivateStoreWrite a src) Q h t := by
  have htable : ∀ (t' : EnvStore) (buf' : Bytes), t'.userData = buf' →
      modifyEnvParameter t.userData a src = some buf' → ¬ ffs 8 <+: a →
      TableOf t'.userData [(a, v)] := by
    intro t' buf' hdata hmod hvis
    obtain ⟨buf₁, hmod₁, htable⟩ := modifyEnvParameter_fresh hmagic ⟨ha, hvis⟩ hv hsrc
    obtain rfl := Option.some.inj (hmod.symm.trans hmod₁)
    rw [hdata]
    exact htable
  have hreads : ∀ (t' : EnvStore) (buf' : Bytes), t'.userData = buf' →
      modifyEnvParameter t.userData a src = some buf' →
      PrivateReads t' a (if ffs 8 <+: a then none else some v) := by
    intro t' buf' hdata hmod buf dl
    by_cases hvis : ffs 8 <+: a
    · obtain ⟨buf₁, hmod₁, -, hmag, -, hname, -⟩ := modifyEnvParameter_first hmagic ha hv hsrc
      obtain rfl := Option.some.inj (hmod.symm.trans hmod₁)
      rw [if_pos hvis]
      have hcheck : ∀ value, checkEnvParameter t'.userData a value = some (-1, value) := by
        intro value
        rw [checkEnvParameter, hdata, if_neg (not_not.mpr hmag),
          if_pos ((firstUnused_of_nameAt hname).mpr hvis)]
      unfold sunxiPrivateStoreRead privateValue
      by_cases hbuf : buf.length < valueSize
      · rw [if_pos hbuf, if_pos hbuf]
        rfl
      rw [if_neg hbuf, if_neg hbuf]
      refine wp_step fun c hc => ⟨_, _, rfl, ?_⟩
      rw [hc, if_neg (by simp)]
      refine wp_step fun c hc => ⟨_, _, rfl, ?_⟩
      simp only [hc, if_true, hcheck]
      rfl
    · have hfind : find [(a, v)] a = some v := by
        simp [find, recordIndex, userDataParameterMaxCount]
      rw [if_neg hvis, ← hfind]
      exact wp_sunxiPrivateStoreRead_ok
        (Holds.finds (Or.inr (htable t' buf' hdata hmod hvis)) ha.noNul) rfl
  obtain ⟨buf', hmod, hlen, -⟩ := modifyEnvParameter_first hmagic ha hv hsrc
  unfold sunxiPrivateStoreWrite
  refine wp_step fun c hc => ⟨_, _, rfl, ?_⟩
  rw [hc, if_neg (by simp)]
  refine wp_step fun c hc => ⟨_, _, rfl, ?_⟩
  simp only [hc, if_true, hmod]
  refine wp_step fun c hc => ⟨_, _, rfl, ?_⟩
  rw [if_pos (by simp [hc])]
  have hdata : (t.write (c.written buf')).userData = buf' := by
    simp only [Choice.written, hc, if_true]
    exact EnvStore.userData_write hlen
  exact hQ _ (hreads _ buf' hdata hmod) (htable _ buf' hdata hmod)

/-- An undisturbed secure write of a new name. -/
lemma wp_writeSecure_new_ok {p : Bytes} {Q : ℤ → Bool → Store → Prop} (hL : Lists crc32 s names)
    (ha : ItemName a) (hnew : indexOf names a = none) (hroom : names.length < 31)
    (hp : p.length ≤ maxStoreLen)
    (hsup : Supports s → ∀ s', Supports s' → s'.secureStorageInited = false →
      Lists crc32 s' (names ++ [a]) → devicePayload crc32 s' (names.length + 1) = some p → Q 0 false s')
    (hun : ¬ Supports s → ∀ s', ¬ Supports s' → Lists crc32 s' names → Q 0 false s') :
    wp perform AllOk (writeSecure crc32 a p) Q false s := by
  have hopens : Opens AllOk := fun s _ => readsOk_allOk s
  unfold writeSecure
  rw [wp_bind]
  refine wp_support_lists hL hopens.blank ?_ ?_
  · intro hwhy s' hL' hmoved
    have hno : ¬ Supports s := fun hs => hwhy hopens hs.1 hs.2
    rw [if_neg (by decide)]
    exact hun hno s' (hmoved.supports_iff.not.mpr hno) hL'
  · intro hsoc hknown s₁ hL₁ hmoved₁
    have hS : Supports s := ⟨hsoc, hknown⟩
    rw [if_pos rfl, wp_bind]
    refine wp_init_lists hL₁ hopens.blank ?_ ?_
    · intro hwhy
      exact absurd (hmoved₁.device.symm ▸ hknown) (hwhy hopens)
    · intro s₂ hs₂ _ hmoved₂
      have hmoved := hmoved₁.trans hmoved₂
      rw [if_neg (by decide), wp_bind]
      refine wp_objectWrite_session hs₂ ha (fun hne => absurd hnew hne) ?_ ?_ ?_
      · rintro ((hclosed | hlong | hfull) | hne)
        · exact absurd (hclosed.symm.trans hs₂.inited) (by decide)
        · omega
        · omega
        · exact absurd hnew hne
      · intro k m' names' s' _ hbad
        exact absurd (writesOk_allOk _ _) hbad
      · intro k m' names' s₃ obj hsl hwrap hs₃ hdirty hmoved₃ hitem
        rw [if_neg (by decide), wp_bind]
        refine wp_exit_lists_ok hs₃ (fun hclean => absurd (hclean.symm.trans hdirty) (by decide)) ?_
        intro s₄ hL₄ hclosed₄ hmoved₄
        rw [if_neg (by decide)]
        cases hsl with
        | found hk => exact nomatch hnew.symm.trans hk
        | added _ _ =>
          have hall := (hmoved.mono _).trans (hmoved₃.trans (hmoved₄.mono _))
          refine hsup hS s₄ (hall.supports_iff.mpr hS) hclosed₄ hL₄ ?_
          rw [hmoved₄.payload_eq (by omega) (by omega)]
          exact devicePayload_wrap hitem hwrap

/-- Erased stores, before the first call of a process. -/
structure Erased (crc32 : Bytes → UInt32) (s : Store) : Prop extends Fresh crc32 false s where
  clean : s.mapDirty = false
  boot : Known s.flashBootType → s.flashBootType = bootDevice s

lemma Erased.lists (hs : Erased crc32 s) : Lists crc32 s [] := by
  obtain ⟨m, hm, hempty⟩ := hs.empty
  refine ⟨hs.length, hs.boot, fun _ => ⟨hs.clean, m, hm, .of_empty hm.length hempty⟩, fun hopen => ?_⟩
  exact absurd (hs.closed.symm.trans hopen) (by decide)

/-- What the stores hold after a first write. -/
structure FirstWritten (crc32 : Bytes → UInt32) (s s' : Store) (t' : EnvStore) (a b : Bytes) :
    Prop where
  partition : PrivateReads t' a (if ffs 8 <+: a then none else some (cvalue b))
  table : ¬ ffs 8 <+: a → TableOf t'.userData [(a, cvalue b)]
  secure : Supports s → Supports s' ∧ s'.secureStorageInited = false ∧ Lists crc32 s' [a] ∧
    devicePayload crc32 s' 1 = some (strncpy b b.length)
  unsupported : ¬ Supports s → ¬ Supports s' ∧ Lists crc32 s' []

/-- An undisturbed first write returns 0, with the mutex free. -/
lemma wp_privateDataWrite_first (hs : Erased crc32 s) (ha : ItemName a) (hlen : a.length ≤ 31)
    (hb : b.length ≤ 127) :
    wp performApi (fun _ c _ => c.ok = true) (privateDataWrite crc32 (some a) (some b))
      (fun r h' x => r = 0 ∧ h' = false ∧ FirstWritten crc32 s x.1 x.2 a b) false
      (s, erasedEnv) := by
  have hblk : secBlkSize = 4096 := rfl
  have hmax : maxStoreLen = 3072 := rfl
  have hmagic : erasedEnv.userData.take 5 ≠ envMagic := by
    have herased : Holds erasedEnv.userData [] := PrivateInv.holds (Or.inl ⟨rfl, rfl⟩)
    rcases herased with ⟨-, -, hne⟩ | htable
    · exact hne
    · exact absurd rfl htable.nonempty
  unfold privateDataWrite
  simp only
  rw [if_neg (by omega), wp_bind]
  refine wp_liftRight ?_
  refine wp_sunxiPrivateStoreWrite_first hmagic ⟨hlen, ha.noNul⟩ (envValue_cvalue hb)
    (cstr_bufferBak (by omega)) fun t' hreads htable => ?_
  rw [if_neg (by decide)]
  refine wp_liftLeft ?_
  rw [take_bufferBak]
  refine wp_writeSecure_new_ok hs.lists ha (indexOf_nil a) (by simp)
    (by rw [length_strncpy]; omega) ?_ ?_
  · intro hsup s' hsup' hclosed' hL' hpay
    exact ⟨rfl, rfl, hreads, htable, fun _ => ⟨hsup', hclosed', hL', hpay⟩,
      fun hno => absurd hsup hno⟩
  · intro hno s' hno' hL'
    exact ⟨rfl, rfl, hreads, htable, fun hsup => absurd hsup hno, fun _ => ⟨hno', hL'⟩⟩

lemma indexOf_singleton (a : Bytes) : indexOf [a] a = some 1 := by
  rw [indexOf_cons, if_pos List.prefix_rfl]

/-- The value that comes back. -/
lemma FirstWritten.returnsValue_iff {s' : Store} {t' : EnvStore} {w : Bytes}
    (hw : FirstWritten crc32 s s' t' a b) (ha : ItemName a) (hb : b.length ≤ 127) :
    ReturnsValue crc32 (s', t') a w ↔
      if Supports s then strncpy b b.length = w else ¬ ffs 8 <+: a ∧ cvalue b = w := by
  by_cases hsup : Supports s
  · obtain ⟨hsup', -, hL', hpay⟩ := hw.secure hsup
    have hval : secureValue crc32 s' [a] a = some (strncpy b b.length) :=
      (secureValue_eq hsup' (indexOf_singleton a)).trans hpay
    have hread : Readable crc32 s' [a] a := by
      intro _ k hk
      obtain rfl := Option.some.inj ((indexOf_singleton a).symm.trans hk)
      exact ⟨_, hpay, by rw [length_strncpy]; exact hb⟩
    rw [SecureStorage.returnsValue_iff hL' ha hread hw.partition, if_pos hsup, hval, Option.some_or,
      Option.some.injEq]
  · obtain ⟨hno', hL'⟩ := hw.unsupported hsup
    have hval : secureValue crc32 s' [] a = none := by rw [secureValue, if_neg hno']
    have hread : Readable crc32 s' [] a := fun hsup' => absurd hsup' hno'
    rw [SecureStorage.returnsValue_iff hL' ha hread hw.partition, if_neg hsup, hval, Option.none_or]
    by_cases hvis : ffs 8 <+: a
    · simp [hvis]
    · simp [hvis]

/-- After an undisturbed write of `b` under `a` to erased stores that returns 0, an undisturbed
read returns the bytes of `b` and their number. -/
def RoundTrips (crc32 : Bytes → UInt32) (s : Store) (a b : Bytes) : Prop :=
  ∀ (env : ℕ → Choice) (c' : Conf Choice ApiState), (∀ i, (env i).ok = true) →
    (privateDataWrite crc32 (some a) (some b)).run performApi ⟨false, env, s, erasedEnv⟩ =
      .ok (0, c') → c'.held = false ∧ ReturnsValue crc32 c'.st a b

lemma roundTrips_iff (hs : Erased crc32 s) (ha : ItemName a) (hlen : a.length ≤ 31)
    (hb : b.length ≤ 127) :
    RoundTrips crc32 s a b ↔
      if Supports s then strncpy b b.length = b else ¬ ffs 8 <+: a ∧ cvalue b = b := by
  have hwp := wp_privateDataWrite_first hs ha hlen hb
  constructor
  · intro htrip
    obtain ⟨r, c', hrun, rfl, -, hw⟩ := wp_run (G := fun c : Choice => c.ok = true)
      (c := (⟨false, smooth, (s, erasedEnv)⟩ : Conf Choice ApiState)) hwp fun _ => rfl
    exact (hw.returnsValue_iff ha hb).mp (htrip smooth c' (fun _ => rfl) hrun).2
  · intro hcond env c' henv hrun
    obtain ⟨-, hheld, hw⟩ := wp_of_run (G := fun c : Choice => c.ok = true)
      (c := (⟨false, env, (s, erasedEnv)⟩ : Conf Choice ApiState)) hwp henv hrun
    exact ⟨hheld, (hw.returnsValue_iff ha hb).mpr hcond⟩

/-- **The round trip of a value.**  A name of 1 to 31 bytes and a value of at most 127 bytes
come back unchanged from both kinds of devices if and only if the value has no NUL and the name
does not look like an unused record. -/
theorem privateData_round_trip (crc32 : Bytes → UInt32) (s₁ s₂ : Store) (h₁ : Erased crc32 s₁)
    (hsup : Supports s₁) (h₂ : Erased crc32 s₂) (hno : ¬ Supports s₂) (a b : Bytes)
    (ha : ItemName a) (hlen : a.length ≤ 31) (hb : b.length ≤ 127) :
    (RoundTrips crc32 s₁ a b ∧ RoundTrips crc32 s₂ a b) ↔ (0 : UInt8) ∉ b ∧ ¬ ffs 8 <+: a := by
  rw [roundTrips_iff h₁ ha hlen hb, roundTrips_iff h₂ ha hlen hb, if_pos hsup, if_neg hno,
    cvalue_eq_self]
  constructor
  · rintro ⟨-, hvis, hnul⟩
    exact ⟨hnul, hvis⟩
  · rintro ⟨hnul, hvis⟩
    exact ⟨strncpy_eq_self hnul, hvis, hnul⟩

/-- Blank devices with and without the device file of secure storage. -/
def blankDevice (socInfo : Bool) : Store := { blankStore with socInfo := socInfo }

lemma erased_blankDevice (soc : Bool) : Erased crc32 (blankDevice soc) := by
  refine ⟨⟨rfl, rfl, by simp [blankDevice, blankStore], zeros secBlkSize, ?_, ?_⟩, rfl, fun _ => rfl⟩
  · exact holdsMap_blankStore.of_flash rfl rfl
  · exact Or.inl ⟨checkSecureStorageMap_zeros _, Or.inr (getD_zeros _ _)⟩

lemma supports_blankDevice : Supports (blankDevice true) := ⟨rfl, Or.inr (Or.inl rfl)⟩

lemma not_supports_blankDevice : ¬ Supports (blankDevice false) := fun hsup => nomatch hsup.1

/-- The value `v` under the name `n`. -/
theorem privateData_round_trip_plain : RoundTrips Framework.crc32 (blankDevice true) [110] [118] ∧
    RoundTrips Framework.crc32 (blankDevice false) [110] [118] :=
  (privateData_round_trip Framework.crc32 (blankDevice true) (blankDevice false)
    (erased_blankDevice true) supports_blankDevice (erased_blankDevice false)
    not_supports_blankDevice [110] [118] (by decide) (by decide) (by decide)).mpr
    ⟨by decide, by rw [ffs]; decide⟩

/-- The value `x`, NUL, `y` does not come back: not even where secure storage is supported. -/
theorem privateData_loses_nul :
    ¬ ∀ (s : Store) (a b : Bytes), Erased Framework.crc32 s → ItemName a → a.length ≤ 31 →
      b.length ≤ 127 → RoundTrips Framework.crc32 s a b := by
  intro hall
  have htrip := hall (blankDevice true) [110] [120, 0, 121] (erased_blankDevice true) (by decide)
    (by decide) (by decide)
  rw [roundTrips_iff (erased_blankDevice true) (by decide) (by decide) (by decide),
    if_pos supports_blankDevice, strncpy_length] at htrip
  have hlast := congrArg (fun l => l[2]?) htrip
  rw [zeros] at hlast
  exact absurd hlast (by decide)

end FirstWrite

end Softwinner.SecureStorage
