import Softwinner.Framework.Crc32
import Softwinner.SecureStorage.Session

/-!
# Read after write, and what it does to other names

The contract one would expect of `sunxi_secure_object_write`: when a write of `a` returns 0, a
read of `a` gives the payload back, and reads of every other name are as before.  The first
half holds.  The second does not, because both scanners of the map compare `strlen(item_name)`
bytes and thus take a stored name for any of its prefixes: after a write of `ab`, a read of `a`
finds it.

`secureObjectWrite_isolation` is the exact statement.  In every state that calls of
`sunxi_secure_storage_init`, `sunxi_secure_object_write` and `sunxi_secure_storage_exit` can
reach from an empty map, a write of `a` keeps its contract towards `b` if and only if the
lookups of the two names before the write do not meet in one item (unless it already holds the
payload), and `b` is not a prefix of `a` when neither is found.
-/

namespace Softwinner.SecureStorage

open Framework Prog

variable {crc32 : Bytes → UInt32}

/-! ## Payloads of blocks -/

/-- The payload of an object, if it is one. -/
def payloadOf (crc32 : Bytes → UInt32) (obj : Bytes) : Option Bytes :=
  if u32 obj 0 = storeObjectMagic ∧ u32 obj 3172 = (crc32 (obj.take 3172)).toNat ∧
      100 + u32 obj 96 ≤ obj.length then some (slice obj 100 (u32 obj 96))
  else none

/-- The payload that item `k` holds. -/
def storedPayload (crc32 : Bytes → UInt32) (s : Store) (k : ℕ) : Option Bytes :=
  (item crc32 s k).bind fun block => payloadOf crc32 (loadedObject block)

/-- What reading the payload `p` gives: it is stored at the front of the caller's buffer,
whose size the code does not check. -/
def payloadValue (p buf : Bytes) : Except Halt ReadOut :=
  if p.length ≤ buf.length then .ok ⟨0, p ++ buf.drop p.length, p.length⟩ else .error .undefined

lemma payloadOf_wrap {src name block : Bytes}
    (hwrap : wrapSecureObject crc32 src name (zeros secBlkSize) = some block) :
    payloadOf crc32 block = some src := by
  have hz : (zeros secBlkSize).length = secBlkSize := by simp
  have hmax : maxStoreLen = 3072 := rfl
  have hblk : secBlkSize = 4096 := rfl
  have hlen := (wrapSecureObject_eq hwrap).1
  rw [payloadOf, u32_wrap_magic hwrap, u32_wrap_crc hz hwrap, take_wrap hz hwrap,
    u32_wrap_actualLen hz hwrap, length_wrap hz hwrap, slice_wrap_data hz hwrap,
    if_pos ⟨rfl, rfl, by omega⟩]

lemma readValue_of_payload {block p buf : Bytes} {dl : ℤ}
    (hp : payloadOf crc32 (loadedObject block) = some p) :
    readValue crc32 (some block) buf dl = payloadValue p buf := by
  unfold payloadOf at hp
  split_ifs at hp with hvalid
  obtain ⟨hmagic, hcrc, hroom⟩ := hvalid
  have hslice : slice (loadedObject block) 100 (u32 (loadedObject block) 96) = p :=
    Option.some.inj hp
  have hlen : p.length = u32 (loadedObject block) 96 := by
    rw [← hslice]
    exact length_slice hroom
  have hpatch : patch buf 0 p = p ++ buf.drop p.length := by
    simp [patch]
  simp only [readValue, unwrapSecureObject, payloadValue]
  rw [if_neg (by simp), if_neg (not_not.mpr hmagic), if_neg (not_not.mpr hcrc), hslice, ← hlen]
  by_cases hfit : p.length ≤ buf.length
  · rw [if_pos ⟨by omega, hfit⟩, if_pos hfit, hpatch]
  · rw [if_neg fun h => hfit h.2, if_neg hfit]

/-- A read gives `p` in every buffer exactly when `p` is the stored payload. -/
lemma readValue_eq_iff {o : Option Bytes} {p : Bytes} :
    (∀ buf dl, readValue crc32 o buf dl = payloadValue p buf) ↔
      o.bind (fun block => payloadOf crc32 (loadedObject block)) = some p := by
  constructor
  · intro hall
    -- a buffer that is long enough shows the whole payload
    have hbig := hall (zeros (p.length + secBlkSize)) 0
    rw [payloadValue, if_pos (by rw [length_zeros]; omega)] at hbig
    cases o with
    | none => simp [readValue] at hbig
    | some block =>
      simp only [Option.bind_some]
      simp only [readValue, unwrapSecureObject] at hbig
      by_cases hmagic : u32 (loadedObject block) 0 = storeObjectMagic
      swap
      · rw [if_neg (by simp), if_pos hmagic] at hbig
        simp at hbig
      by_cases hcrc : u32 (loadedObject block) 3172 =
          (crc32 ((loadedObject block).take 3172)).toNat
      swap
      · rw [if_neg (by simp), if_neg (not_not.mpr hmagic), if_pos hcrc] at hbig
        simp at hbig
      rw [if_neg (by simp), if_neg (not_not.mpr hmagic), if_neg (not_not.mpr hcrc)] at hbig
      by_cases hroom : 100 + u32 (loadedObject block) 96 ≤ (loadedObject block).length ∧
          u32 (loadedObject block) 96 ≤ (zeros (p.length + secBlkSize)).length
      swap
      · rw [if_neg hroom] at hbig
        simp at hbig
      rw [if_pos hroom] at hbig
      simp only [Except.ok.injEq, ReadOut.mk.injEq, true_and, Int.natCast_inj] at hbig
      obtain ⟨hbuf, hlen⟩ := hbig
      have hslen : (slice (loadedObject block) 100 (u32 (loadedObject block) 96)).length =
          p.length := by
        rw [length_slice hroom.1, hlen]
      rw [payloadOf, if_pos ⟨hmagic, hcrc, hroom.1⟩]
      have hpre : patch (zeros (p.length + secBlkSize)) 0
          (slice (loadedObject block) 100 (u32 (loadedObject block) 96)) =
          slice (loadedObject block) 100 (u32 (loadedObject block) 96) ++
            (zeros (p.length + secBlkSize)).drop p.length := by
        simp [patch, hslen]
      rw [hpre] at hbuf
      rw [List.append_inj_left hbuf hslen]
  · intro hp buf dl
    cases o with
    | none => simp at hp
    | some block => exact readValue_of_payload hp

/-! ## Reachable states -/

/-- A map item without entries: erased, or written as such. -/
def EmptyMap (crc32 : Bytes → UInt32) (m : Bytes) : Prop :=
  checkSecureStorageMap crc32 m = 2 ∧ (m.getD 0 0 = 0xff ∨ m.getD 0 0 = 0) ∨
    checkSecureStorageMap crc32 m = 0 ∧ m.take mapDataSize = zeros mapDataSize

/-- Before the first session, on a device whose map is empty. -/
structure Fresh (crc32 : Bytes → UInt32) (h : Bool) (s : Store) : Prop where
  free : h = false
  closed : s.secureStorageInited = false
  length : s.secureStorageMap.length = secBlkSize
  empty : ∃ m, HoldsMap crc32 (bootDevice s) s m ∧ EmptyMap crc32 m

/-- One call of the session interface that returns, with every system call succeeding.  The
state is the mutex and the store; `init` in an open session does not return. -/
inductive SessionStep (crc32 : Bytes → UInt32) : Bool × Store → Bool × Store → Prop
  | init {h : Bool} {s : Store} {env : ℕ → Choice} {r : ℤ} {c' : Conf Choice Store}
      (henv : ∀ n, (env n).ok = true)
      (hrun : (sunxiSecureStorageInit crc32).run perform ⟨h, env, s⟩ = .ok (r, c')) :
      SessionStep crc32 (h, s) (c'.held, c'.st)
  | write {h : Bool} {s : Store} {env : ℕ → Choice} {r : ℤ} {c' : Conf Choice Store}
      {a p : Bytes} (henv : ∀ n, (env n).ok = true) (ha : ItemName a)
      (hrun : (sunxiSecureObjectWrite crc32 a p).run perform ⟨h, env, s⟩ = .ok (r, c')) :
      SessionStep crc32 (h, s) (c'.held, c'.st)
  | exit {h : Bool} {s : Store} {env : ℕ → Choice} {r : ℤ} {c' : Conf Choice Store} {mode : ℤ}
      (henv : ∀ n, (env n).ok = true)
      (hrun : (sunxiSecureStorageExit crc32 mode).run perform ⟨h, env, s⟩ = .ok (r, c')) :
      SessionStep crc32 (h, s) (c'.held, c'.st)

/-- What holds between two calls: the mutex is held in open sessions only, the flash of the
boot device holds a map that loads, and an open session has one in memory. -/
structure SessionInv (crc32 : Bytes → UInt32) (h : Bool) (s : Store) : Prop where
  held : h = s.secureStorageInited
  length : s.secureStorageMap.length = secBlkSize
  flash : ∃ m names, HoldsMap crc32 (bootDevice s) s m ∧ MapOf (loadedMap crc32 m) names
  session : s.secureStorageInited = true → s.flashBootType = bootDevice s ∧
    Known s.flashBootType ∧ ∃ names, MapOf s.secureStorageMap names

section Invariant

variable {h : Bool} {s : Store}

lemma bootDevice_of_eq {s' : Store} (hcmd : s'.cmdline = s.cmdline)
    (hboot : s'.flashBootType = s.flashBootType) : bootDevice s' = bootDevice s := by
  unfold bootDevice
  rw [hcmd, hboot]

lemma bootDevice_closedDirty : bootDevice (closedDirty crc32 s) = bootDevice s :=
  bootDevice_of_eq (by simp [closedDirty]) (by simp [closedDirty])

/-- Selecting the boot device again does not change it. -/
lemma bootDevice_selected {s' : Store} (hcmd : s'.cmdline = s.cmdline)
    (hboot : s'.flashBootType = bootDevice s) : bootDevice s' = bootDevice s := by
  unfold bootDevice at hboot ⊢
  rw [hcmd]
  cases hkey : findKey bootTypeKey (s.cmdline.take 1024) with
  | some c => rfl
  | none =>
    rw [hkey] at hboot
    exact hboot

lemma MapOf.of_empty {m : Bytes} (hlen : m.length = secBlkSize) (hempty : EmptyMap crc32 m) :
    MapOf (loadedMap crc32 m) [] := by
  unfold loadedMap
  rcases hempty with ⟨hcheck, hfirst⟩ | ⟨hcheck, hzero⟩
  · rw [hcheck, if_neg (by decide), if_pos rfl, if_pos hfirst]
    refine mapOf_nil (by simp) ?_
    rw [take_zeros]
    rfl
  · rw [hcheck, if_neg (by decide), if_neg (by decide)]
    exact mapOf_nil hlen hzero

lemma Fresh.inv (hfresh : Fresh crc32 h s) : SessionInv crc32 h s := by
  obtain ⟨m, hm, hempty⟩ := hfresh.empty
  exact ⟨hfresh.free.trans hfresh.closed.symm, hfresh.length, ⟨m, [], hm, .of_empty hm.length hempty⟩,
    fun hopen => absurd (hfresh.closed.symm.trans hopen) (by decide)⟩

/-! ### Every call keeps the invariant -/

lemma SessionInv.init (hinv : SessionInv crc32 h s) {env : ℕ → Choice} {r : ℤ}
    {c' : Conf Choice Store} (henv : ∀ n, (env n).ok = true)
    (hrun : (sunxiSecureStorageInit crc32).run perform ⟨h, env, s⟩ = .ok (r, c')) :
    SessionInv crc32 c'.held c'.st := by
  cases hopen : s.secureStorageInited with
  | true =>
    -- the mutex is held by the session that is open
    have hheld : h = true := hinv.held.trans hopen
    subst hheld
    cases hrun
  | false =>
    have hfree : h = false := hinv.held.trans hopen
    subst hfree
    obtain ⟨m, names, hm, hnames⟩ := hinv.flash
    have hwp : wp perform AllOk (sunxiSecureStorageInit crc32)
        (fun _ h' s' => SessionInv crc32 h' s') false s := by
      refine wp_sunxiSecureStorageInit_ok (fun _ => readsOk_allOk _) hopen hinv.length hm ?_ ?_
      · intro hknown
        have hdev : bootDevice { s with flashBootType := bootDevice s } = bootDevice s :=
          bootDevice_selected rfl rfl
        refine ⟨rfl, hnames.length, ⟨m, names, ?_, hnames⟩, fun _ => ⟨?_, hknown, names, hnames⟩⟩
        · exact hdev.symm ▸ hm.of_flash rfl rfl
        · exact hdev.symm
      · intro _
        have hdev : bootDevice { s with flashBootType := bootDevice s } = bootDevice s :=
          bootDevice_selected rfl rfl
        refine ⟨hopen.symm, hinv.length, ⟨m, names, ?_, hnames⟩, fun hopen' => ?_⟩
        · rw [hdev]
          exact hm.of_flash rfl rfl
        · exact absurd (hopen.symm.trans hopen') (by decide)
    have hpost := wp_of_run (G := fun c => c.ok = true) hwp henv hrun
    exact hpost

/-- What a write that returns 0 has done. -/
lemma SessionInv.written_of_run (hinv : SessionInv crc32 h s) {env : ℕ → Choice}
    {c' : Conf Choice Store} {a p : Bytes} (ha : ItemName a)
    (hrun : (sunxiSecureObjectWrite crc32 a p).run perform ⟨h, env, s⟩ = .ok (0, c')) :
    s.secureStorageInited = true ∧ ∃ obj names k m' names',
      wrapSecureObject crc32 p a (zeros secBlkSize) = some obj ∧
      MapOf s.secureStorageMap names ∧ Slot s.secureStorageMap names a k m' names' ∧
      c'.st = { written { s with secureStorageMap := m' } k obj with mapDirty := true } := by
  by_cases hopen : s.secureStorageInited = true
  · obtain ⟨-, -, names, hmap⟩ := hinv.session hopen
    have hwp : wp perform NoFault (sunxiSecureObjectWrite crc32 a p) (fun r _ s' => r = 0 →
        ∃ obj names k m' names', wrapSecureObject crc32 p a (zeros secBlkSize) = some obj ∧
          MapOf s.secureStorageMap names ∧ Slot s.secureStorageMap names a k m' names' ∧
          s' = { written { s with secureStorageMap := m' } k obj with mapDirty := true }) h s := by
      refine wp_sunxiSecureObjectWrite hmap ha ?_ (fun _ hr => absurd hr (by decide)) ?_
      · intro _ _ _ _
        exact wp_sunxiSecureObjectRead_frame (fun _ _ hno => hno rfl)
          fun _ => ⟨rfl, rfl, fun _ hr => absurd hr (by decide)⟩
      intro _ obj hwrap k m' names' hsl
      refine wp_nvWrite (length_wrap (by simp) hwrap)
        (fun s' _ => ⟨fun _ hr => absurd hr (by decide), fun hr => absurd hr (by decide)⟩)
        ⟨fun hr => absurd rfl hr, fun _ _ => ⟨obj, names, k, m', names', hwrap, hmap, hsl, rfl⟩⟩
    exact ⟨hopen, wp_of_returned hwp (fun _ _ _ _ => noFault_of_some) hrun rfl⟩
  · -- a closed session refuses every write, whatever its map looks like
    have hwp : wp perform NoFault (sunxiSecureObjectWrite crc32 a p) (fun r _ _ => r ≠ 0) h s :=
      wp_sunxiSecureObjectWrite_closed (Bool.not_eq_true _ ▸ hopen) (by decide)
    exact absurd rfl (wp_of_returned hwp (fun _ _ _ _ => noFault_of_some) hrun)

lemma SessionInv.write (hinv : SessionInv crc32 h s) {env : ℕ → Choice} {r : ℤ}
    {c' : Conf Choice Store} {a p : Bytes} (ha : ItemName a)
    (hrun : (sunxiSecureObjectWrite crc32 a p).run perform ⟨h, env, s⟩ = .ok (r, c')) :
    SessionInv crc32 c'.held c'.st := by
  obtain ⟨m, L, hm, hL⟩ := hinv.flash
  have hwp : wp perform NoFault (sunxiSecureObjectWrite crc32 a p)
      (fun _ h' s' => SessionInv crc32 h' s') h s := by
    cases hopen : s.secureStorageInited with
    | false => exact wp_sunxiSecureObjectWrite_closed hopen hinv
    | true =>
      obtain ⟨hdev, hknown, names, hmap⟩ := hinv.session hopen
      refine wp_sunxiSecureObjectWrite hmap ha ?_ (fun _ => hinv) ?_
      · intro _ _ _ _
        exact wp_sunxiSecureObjectRead_frame (fun _ _ hno => hno rfl)
          fun _ => ⟨rfl, rfl, fun _ => hinv⟩
      intro _ obj hwrap k m' names' hsl
      have hm' : MapOf m' names' := hsl.mapOf hmap ha
      have hk : k ≠ 0 := by
        have hpos := (hsl.index hmap).1
        omega
      have hkeep : ∀ (s' : Store) (d : Bool), Touched k { s with secureStorageMap := m' } s' →
          SessionInv crc32 h { s' with mapDirty := d } := by
        intro s' d ht
        have hbefore : HoldsMap crc32 (bootDevice s) { s with secureStorageMap := m' } m :=
          hm.of_flash rfl rfl
        have hflash := ht.holdsMap hk hbefore
        have hcmd : s'.cmdline = s.cmdline := by rw [ht.globals]
        have hboot : s'.flashBootType = s.flashBootType := by rw [ht.globals]
        have hdevice : bootDevice { s' with mapDirty := d } = bootDevice s :=
          bootDevice_of_eq hcmd hboot
        have hmem : s'.secureStorageMap = m' := by rw [ht.globals]
        have hstill : s'.secureStorageInited = s.secureStorageInited := by rw [ht.globals]
        refine ⟨hinv.held.trans hstill.symm, ?_, ⟨m, L, ?_, hL⟩, fun _ => ⟨?_, ?_, names', ?_⟩⟩
        · exact hmem.symm ▸ hm'.length
        · exact hdevice.symm ▸ hflash.of_flash rfl rfl
        · exact hboot.trans (hdev.trans hdevice.symm)
        · exact hboot.symm ▸ hknown
        · exact hmem.symm ▸ hm'
      refine wp_nvWrite (length_wrap (by simp) hwrap) (fun s' ht => ⟨fun _ => ?_, fun hr => ?_⟩)
        ⟨fun hr => absurd rfl hr, fun _ => ?_⟩
      · exact hkeep s' s'.mapDirty ht
      · exact absurd hr (by decide)
      · exact hkeep _ true (touched_written (length_wrap (by simp) hwrap))
  have hpost := wp_of_returned hwp (fun _ _ _ _ => noFault_of_some) hrun
  exact hpost

lemma SessionInv.exit (hinv : SessionInv crc32 h s) {env : ℕ → Choice} {r mode : ℤ}
    {c' : Conf Choice Store} (henv : ∀ n, (env n).ok = true)
    (hrun : (sunxiSecureStorageExit crc32 mode).run perform ⟨h, env, s⟩ = .ok (r, c')) :
    SessionInv crc32 c'.held c'.st := by
  have hwp : wp perform AllOk (sunxiSecureStorageExit crc32 mode)
      (fun _ h' s' => SessionInv crc32 h' s') h s := by
    cases hopen : s.secureStorageInited with
    | false =>
      unfold sunxiSecureStorageExit
      refine wp_step fun _ _ => ⟨_, _, rfl, ?_⟩
      rw [hopen, if_pos (by simp)]
      exact hinv
    | true =>
      obtain ⟨hdev, hknown, names, hmap⟩ := hinv.session hopen
      obtain ⟨m, L, hm, hL⟩ := hinv.flash
      rw [hinv.held, hopen]
      refine wp_sunxiSecureStorageExit_ok hopen hknown ?_ ?_
      · intro _
        have hlen : (sealedMap crc32 s.secureStorageMap).length = secBlkSize :=
          length_sealedMap hinv.length
        have hcheck : checkSecureStorageMap crc32 (sealedMap crc32 s.secureStorageMap) = 0 :=
          checkSecureStorageMap_sealedMap hinv.length
        refine ⟨rfl, by simpa [closedDirty] using hlen,
          ⟨sealedMap crc32 s.secureStorageMap, names, ?_, ?_⟩, fun hopen' => nomatch hopen'⟩
        · rw [bootDevice_closedDirty, ← hdev]
          exact holdsMap_closedDirty hinv.length
        · rw [loadedMap_of_check hcheck]
          exact hmap.sealedMap
      · intro _ _
        exact ⟨rfl, hinv.length, ⟨m, L, hm.of_flash rfl rfl, hL⟩, fun hopen' => nomatch hopen'⟩
  have hpost := wp_of_run (G := fun c => c.ok = true) hwp henv hrun
  exact hpost

lemma SessionInv.step {x y : Bool × Store} (hinv : SessionInv crc32 x.1 x.2)
    (hstep : SessionStep crc32 x y) : SessionInv crc32 y.1 y.2 := by
  cases hstep with
  | init henv hrun => exact hinv.init henv hrun
  | write _ ha hrun => exact hinv.write ha hrun
  | exit henv hrun => exact hinv.exit henv hrun

/-- The run lemma. -/
lemma sessionInv_of_run {x y : Bool × Store} (hinv : SessionInv crc32 x.1 x.2)
    (hrun : Relation.ReflTransGen (SessionStep crc32) x y) : SessionInv crc32 y.1 y.2 := by
  induction hrun with
  | refl => exact hinv
  | tail _ hlast ih => exact ih.step hlast

end Invariant

/-! ## Isolation -/

/-- Every undisturbed read of `a` into a buffer that is long enough returns `p` and its
length. -/
def ReadsObject (crc32 : Bytes → UInt32) (s : Store) (a p : Bytes) : Prop :=
  ∀ (h : Bool) (env : ℕ → Choice) (buf : Bytes) (dl : ℤ), (∀ n, (env n).ok = true) →
    p.length ≤ buf.length → ∃ c',
      (sunxiSecureObjectRead crc32 a buf dl).run perform ⟨h, env, s⟩ =
        .ok (⟨0, p ++ buf.drop p.length, p.length⟩, c')

/-- Undisturbed reads of `b` have the same outcome in both stores. -/
def SameRead (crc32 : Bytes → UInt32) (s s' : Store) (b : Bytes) : Prop :=
  ∀ (h : Bool) (env env' : ℕ → Choice) (buf : Bytes) (dl : ℤ), (∀ n, (env n).ok = true) →
    (∀ n, (env' n).ok = true) →
    ((sunxiSecureObjectRead crc32 b buf dl).run perform ⟨h, env', s'⟩).map Prod.fst =
      ((sunxiSecureObjectRead crc32 b buf dl).run perform ⟨h, env, s⟩).map Prod.fst

/-- The lookups of `a` and `b` do not meet: not in one item, unless it already holds `p`; and
not in the entry that a new name `a` is going to have. -/
def Apart (crc32 : Bytes → UInt32) (s : Store) (a b p : Bytes) : Prop :=
  (∀ k len len', probeNameInMap s.secureStorageMap a = some (some (k, len)) →
    probeNameInMap s.secureStorageMap b = some (some (k, len')) →
      storedPayload crc32 s k = some p) ∧
  (probeNameInMap s.secureStorageMap a = some none →
    probeNameInMap s.secureStorageMap b = some none → ¬ b <+: a)

section Contract

variable {h : Bool} {s s' : Store} {a b p : Bytes}

lemma sameRead_iff {names names' : List Bytes} (hb : ItemName b)
    (hopen : s.secureStorageInited = true) (hknown : Known s.flashBootType)
    (hmap : MapOf s.secureStorageMap names) (hopen' : s'.secureStorageInited = true)
    (hknown' : Known s'.flashBootType) (hmap' : MapOf s'.secureStorageMap names') :
    SameRead crc32 s s' b ↔ ∀ buf dl, readValue crc32 (blockOf crc32 s' names' b) buf dl =
      readValue crc32 (blockOf crc32 s names b) buf dl := by
  constructor
  · intro hsame buf dl
    have hrun := hsame false smooth smooth buf dl (fun _ => rfl) fun _ => rfl
    rwa [run_sunxiSecureObjectRead (fun _ => rfl) hopen hknown hmap hb,
      run_sunxiSecureObjectRead (fun _ => rfl) hopen' hknown' hmap' hb] at hrun
  · intro hval h env env' buf dl henv henv'
    rw [run_sunxiSecureObjectRead henv hopen hknown hmap hb,
      run_sunxiSecureObjectRead henv' hopen' hknown' hmap' hb]
    exact hval buf dl

lemma readsObject_of_block {names : List Bytes} {obj : Bytes} (ha : ItemName a)
    (hopen : s.secureStorageInited = true) (hknown : Known s.flashBootType)
    (hmap : MapOf s.secureStorageMap names) (hblock : blockOf crc32 s names a = some obj)
    (hpay : payloadOf crc32 (loadedObject obj) = some p) : ReadsObject crc32 s a p := by
  intro h env buf dl henv hlen
  have hrun : ((sunxiSecureObjectRead crc32 a buf dl).run perform ⟨h, env, s⟩).map Prod.fst =
      .ok ⟨0, p ++ buf.drop p.length, p.length⟩ := by
    rw [run_sunxiSecureObjectRead henv hopen hknown hmap ha, hblock, readValue_of_payload hpay,
      payloadValue, if_pos hlen]
  cases hres : (sunxiSecureObjectRead crc32 a buf dl).run perform ⟨h, env, s⟩ with
  | error e =>
    rw [hres] at hrun
    cases hrun
  | ok x =>
    rw [hres] at hrun
    injection hrun with hx
    exact ⟨x.2, by rw [← hx]⟩

lemma apart_iff {names : List Bytes} (hmap : MapOf s.secureStorageMap names) (ha : ItemName a)
    (hb : ItemName b) : Apart crc32 s a b p ↔
      (∀ k, indexOf names a = some k → indexOf names b = some k → storedPayload crc32 s k = some p) ∧
        (indexOf names a = none → indexOf names b = none → ¬ b <+: a) := by
  unfold Apart
  rw [probeNameInMap_mapOf hmap ha, probeNameInMap_mapOf hmap hb]
  cases indexOf names a with
  | none => simp
  | some i =>
    cases indexOf names b with
    | none => simp
    | some j =>
      simp only [Option.map_some, Option.some.injEq, Prod.mk.injEq, reduceCtorEq, false_imp_iff,
        and_true]
      constructor
      · intro hall k hi hj
        exact hall k _ _ ⟨hi, rfl⟩ ⟨hj, rfl⟩
      · rintro hall k len len' ⟨hi, -⟩ ⟨hj, -⟩
        exact hall k hi hj

/-- The step lemma: from any state with the invariant, a write that returns 0 keeps its
contract exactly when the two names are apart. -/
lemma SessionInv.isolation (hinv : SessionInv crc32 h s) (ha : ItemName a) (hb : ItemName b)
    {env : ℕ → Choice} {c' : Conf Choice Store}
    (hrun : (sunxiSecureObjectWrite crc32 a p).run perform ⟨h, env, s⟩ = .ok (0, c')) :
    ReadsObject crc32 c'.st a p ∧ (SameRead crc32 s c'.st b ↔ Apart crc32 s a b p) := by
  obtain ⟨hopen, obj, names, k, m', names', hwrap, hmap, hsl, hst⟩ := hinv.written_of_run ha hrun
  obtain ⟨-, hknown, -⟩ := hinv.session hopen
  have hlen : obj.length = secBlkSize := length_wrap (by simp) hwrap
  have hmap' : MapOf c'.st.secureStorageMap names' := by
    rw [hst]
    simpa using hsl.mapOf hmap ha
  have hopen' : c'.st.secureStorageInited = true := by
    rw [hst]
    simpa using hopen
  have hknown' : Known c'.st.flashBootType := by
    rw [hst]
    simpa using hknown
  have hpay : payloadOf crc32 (loadedObject obj) = some p := by
    rw [loadedObject_wrap hwrap]
    exact payloadOf_wrap hwrap
  have hnew : item crc32 c'.st k = some obj := by
    rw [hst]
    exact (item_of_flash rfl rfl rfl).trans
      (item_written hlen (checkSecureStorageKey_wrap (by simp) hwrap))
  have hold : ∀ j, j ≠ k → item crc32 c'.st j = item crc32 s j := by
    intro j hj
    rw [hst]
    exact (item_of_flash rfl rfl rfl).trans
      (((touched_written hlen).item_eq hj).trans (item_of_flash rfl rfl rfl))
  have hblockA : blockOf crc32 c'.st names' a = some obj := by
    rw [blockOf, (hsl.index hmap).2.2]
    exact hnew
  refine ⟨readsObject_of_block ha hopen' hknown' hmap' hblockA hpay, ?_⟩
  rw [sameRead_iff hb hopen hknown hmap hopen' hknown' hmap']
  have hobj : ∀ buf dl, readValue crc32 (some obj) buf dl = payloadValue p buf :=
    fun buf dl => readValue_of_payload hpay
  rw [apart_iff hmap ha hb]
  cases hsl with
  | @found k hk =>
    cases hj : indexOf names b with
    | none => simp [blockOf, hj, hk]
    | some j =>
      by_cases hjk : j = k
      · -- both names lead to the block just written
        subst hjk
        simp only [blockOf, hj, Option.bind_some, hnew, hk]
        constructor
        · intro hall
          refine ⟨fun k' hk' _ => ?_, fun hnone => nomatch hnone⟩
          obtain rfl := Option.some.inj hk'
          exact readValue_eq_iff.mp fun buf dl => (hall buf dl).symm.trans (hobj buf dl)
        · intro hapart buf dl
          rw [hobj, readValue_eq_iff.mpr (hapart.1 j rfl rfl) buf dl]
      · simp only [blockOf, hj, Option.bind_some, hold j hjk, hk]
        refine iff_of_true (fun _ _ => trivial) ⟨fun k' hk' hj' => ?_, fun hnone => nomatch hnone⟩
        exact absurd ((Option.some.inj hj').trans (Option.some.inj hk').symm) hjk
  | added hnone hroom =>
    cases hj : indexOf names b with
    | some j =>
      have hle := indexOf_le hj
      have hsame : blockOf crc32 c'.st (names ++ [a]) b = blockOf crc32 s names b := by
        rw [blockOf, blockOf, indexOf_append, hj]
        exact hold j (by omega)
      simp only [hsame, hnone]
      exact iff_of_true (fun _ _ => trivial) ⟨fun k' hk' => (nomatch hk'), fun _ hj' => nomatch hj'⟩
    | none =>
      have hbefore : blockOf crc32 s names b = none := by
        rw [blockOf, hj]
        rfl
      have hafter : blockOf crc32 c'.st (names ++ [a]) b = if b <+: a then some obj else none := by
        rw [blockOf, indexOf_append, hj]
        by_cases hpre : b <+: a
        · rw [if_pos hpre, if_pos hpre]
          exact hnew
        · rw [if_neg hpre, if_neg hpre]
          rfl
      rw [hbefore, hafter]
      by_cases hpre : b <+: a
      · -- the entry of `a` is found for `b`, too
        rw [if_pos hpre]
        refine iff_of_false (fun hall => ?_) fun hapart => hapart.2 hnone rfl hpre
        have hbig := hall (zeros p.length) 0
        rw [hobj, payloadValue, if_pos (by simp)] at hbig
        injection hbig with hbig
        have hret : (0 : ℤ) = -1 := congrArg ReadOut.ret hbig
        exact absurd hret (by decide)
      · rw [if_neg hpre]
        refine iff_of_true (fun _ _ => rfl) ⟨fun k' hk' => ?_, fun _ _ => hpre⟩
        exact nomatch hnone.symm.trans hk'

/-- **Read after write.**  Take any state reachable from an empty map.  A write of `a` that
returns 0 makes `a` read back as the payload and leaves reads of `b` as they were if and only
if the lookups of the two names are apart before it. -/
theorem secureObjectWrite_isolation (crc32 : Bytes → UInt32) (h₀ h : Bool) (s₀ s : Store)
    (hfresh : Fresh crc32 h₀ s₀)
    (hreach : Relation.ReflTransGen (SessionStep crc32) (h₀, s₀) (h, s)) (a b p : Bytes)
    (ha : ItemName a) (hb : ItemName b) (env : ℕ → Choice) (c' : Conf Choice Store)
    (hrun : (sunxiSecureObjectWrite crc32 a p).run perform ⟨h, env, s⟩ = .ok (0, c')) :
    (ReadsObject crc32 c'.st a p ∧ SameRead crc32 s c'.st b) ↔ Apart crc32 s a b p := by
  have hinv : SessionInv crc32 h s := sessionInv_of_run (x := (h₀, s₀)) (y := (h, s)) hfresh.inv hreach
  obtain ⟨hread, hiff⟩ := hinv.isolation ha hb hrun
  rw [and_iff_right hread]
  exact hiff

end Contract

/-! ### Two names that meet -/

section Prefix

lemma fresh_blankStore : Fresh crc32 false blankStore :=
  ⟨rfl, rfl, by simp [blankStore], zeros secBlkSize, holdsMap_blankStore,
    Or.inl ⟨checkSecureStorageMap_zeros _, Or.inr (getD_zeros _ _)⟩⟩

lemma loadedMap_zeros : loadedMap crc32 (zeros secBlkSize) = zeros secBlkSize := by
  unfold loadedMap
  rw [checkSecureStorageMap_zeros, if_neg (by decide), if_pos rfl,
    if_pos (Or.inr (getD_zeros _ _))]

lemma sessionStep_open : SessionStep crc32 (false, blankStore) (true, openStore) := by
  have hknown : Known (bootDevice blankStore) := Or.inr (Or.inl rfl)
  have hwp : wp perform AllOk (sunxiSecureStorageInit crc32)
      (fun _ h' s' => h' = true ∧ s' = openStore) false blankStore := by
    refine wp_sunxiSecureStorageInit_ok (fun _ => readsOk_allOk _) rfl (by simp [blankStore]) holdsMap_blankStore
      (fun _ => ⟨rfl, ?_⟩) fun hun => absurd hknown hun
    rw [loadedMap_zeros]
    rfl
  obtain ⟨r, c', hrun, hheld, hst⟩ := wp_run (G := fun c => c.ok = true)
    (c := ⟨false, smooth, blankStore⟩) hwp fun _ => rfl
  have hstep := SessionStep.init (fun _ => rfl) hrun
  rwa [hheld, hst] at hstep

/-- `a` and `b` are apart in an empty map. -/
theorem secureObjectWrite_isolation_two : ∃ c',
    (sunxiSecureObjectWrite Framework.crc32 [97] [1]).run perform ⟨true, smooth, openStore⟩ =
      .ok (0, c') ∧
    ReadsObject Framework.crc32 c'.st [97] [1] ∧ SameRead Framework.crc32 openStore c'.st [98] := by
  obtain ⟨c', hrun⟩ := exists_write_openStore Framework.crc32
    (show ItemName [97] by decide) (show [1].length ≤ maxStoreLen by decide)
  refine ⟨c', hrun, (secureObjectWrite_isolation Framework.crc32 false true blankStore openStore
    fresh_blankStore (.single sessionStep_open) [97] [98] [1] (by decide) (by decide) smooth c'
    hrun).mpr ?_⟩
  rw [apart_iff mapOf_openStore (by decide) (by decide)]
  refine ⟨fun k hk _ => ?_, fun _ _ => by decide⟩
  cases hk

/-- After a write of `ab` to an empty map, a read of `a` finds it. -/
theorem secureObjectWrite_finds_longer :
    ¬ ∀ (h₀ h : Bool) (s₀ s : Store), Fresh Framework.crc32 h₀ s₀ →
      Relation.ReflTransGen (SessionStep Framework.crc32) (h₀, s₀) (h, s) →
      ∀ a b p : Bytes, ItemName a → ItemName b → a ≠ b → p.length ≤ maxStoreLen →
      ∀ (env : ℕ → Choice) (c' : Conf Choice Store), (∀ n, (env n).ok = true) →
      (sunxiSecureObjectWrite Framework.crc32 a p).run perform ⟨h, env, s⟩ = .ok (0, c') →
      ReadsObject Framework.crc32 c'.st a p ∧ SameRead Framework.crc32 s c'.st b := by
  intro hall
  obtain ⟨c', hrun⟩ := exists_write_openStore Framework.crc32
    (show ItemName [97, 98] by decide) (show [1].length ≤ maxStoreLen by decide)
  have hreach : Relation.ReflTransGen (SessionStep Framework.crc32) (false, blankStore)
      (true, openStore) := .single sessionStep_open
  have hinv : SessionInv Framework.crc32 true openStore :=
    sessionInv_of_run fresh_blankStore.inv hreach
  have hsame := (hall false true blankStore openStore fresh_blankStore hreach
    [97, 98] [97] [1] (by decide) (by decide) (by decide) (by decide) smooth c' (fun _ => rfl)
    hrun).2
  rw [(hinv.isolation (by decide) (by decide) hrun).2,
    apart_iff mapOf_openStore (by decide) (by decide)] at hsame
  exact hsame.2 rfl rfl (by decide)

end Prefix

end Softwinner.SecureStorage
