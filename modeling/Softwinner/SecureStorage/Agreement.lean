import Softwinner.SecureStorage.Api

/-!
# Agreement of the two stores

The comment above `private_data_read` promises the value of the private partition, and the one
of the secure store only where the partition has none.  The code asks the secure store first.
As long as the two stores agree on every name that both have, nobody can tell; but
`private_data_write` updates them one after the other without a way back.

`privateData_agreement` is about whole runs of writes with failing system calls.  The stores
keep agreeing, and reads therefore keep the documented order, when no call is one that parts
them: `WriteOk` says which failures are harmless, and `Alone` that the block written is not
another name's.  A failure of the partition has to be one that the code reports: a failed `lseek`
and a short count pass for success.  On a device without secure storage there is nothing to part,
and nothing is asked of a call.  `privateData_order_broken` shows what one failed allocation does
otherwise.
-/

namespace Softwinner.SecureStorage

open Framework Prog

/-! ## Secure writes with failures -/

section SecureWrites

variable {crc32 : Bytes → UInt32} {Ok : Op → Choice → Store → Prop} {s s' : Store}
  {names names' : List Bytes} {a p q : Bytes} {k : ℕ}

/-- A secure write of a name that is not listed.  While the map is clean, a block that cannot be
written is forgotten together with its entry. -/
lemma wp_writeSecure_new {Q : ℤ → Bool → Store → Prop} (hL : Lists crc32 s names)
    (ha : ItemName a) (hnew : indexOf names a = none) (hblank : OpensBlank crc32 Ok)
    (hw : ∀ k s', k ≠ 0 → s'.mapDirty = true → WritesOk Ok k s')
    (hkeep : ∀ r s' k, names.length < k → Lists crc32 s' names → Moved crc32 k s s' →
      Q r false s')
    (hadd : ∀ r s', names.length < 31 → Lists crc32 s' (names ++ [a]) →
      Moved crc32 (names.length + 1) s s' →
      devicePayload crc32 s' (names.length + 1) = some p → Q r false s') :
    wp perform Ok (writeSecure crc32 a p) Q false s := by
  have hlt : names.length < names.length + 1 := Nat.lt_succ_self _
  unfold writeSecure
  rw [wp_bind]
  refine wp_support_lists hL hblank ?_ ?_
  · intro _ s' hL' hmoved
    rw [if_neg (by decide)]
    exact hkeep 0 s' _ hlt hL' (hmoved.mono _)
  intro _ _ s₁ hL₁ hmoved₁
  rw [if_pos rfl, wp_bind]
  refine wp_init_lists hL₁ hblank ?_ ?_
  · intro _ s' hL' hmoved
    rw [if_pos (by decide)]
    exact hkeep (-1) s' _ hlt hL' ((hmoved₁.trans hmoved).mono _)
  intro s₂ hs₂ _ hmoved₂
  have hmoved := hmoved₁.trans hmoved₂
  rw [if_neg (by decide), wp_bind]
  refine wp_objectWrite_session hs₂ ha (fun hne => absurd hnew hne) ?_ ?_ ?_
  · intro _
    have hdone : ∀ s', Lists crc32 s' names → Moved crc32 0 s₂ s' → Q (-1) false s' :=
      fun s' hL' hm => hkeep (-1) s' _ hlt hL' ((hmoved.trans hm).mono _)
    rw [if_pos (by decide), wp_bind]
    refine wp_exit_lists hs₂ (fun _ s' hL' _ => hdone s' hL') (fun _ s' hL' _ => hdone s' hL')
      fun _ _ => hdone
  · intro k m' names' s₃ hsl hbad hs₃ hdirty₃ hmoved₃
    have hpos := (hsl.index hs₂.map).1
    -- the write was allowed to fail, so the map is clean
    have hclean : s₂.mapDirty = false := by
      by_contra hd
      rw [Bool.not_eq_false] at hd
      exact hbad (hw k _ (by omega) hd)
    have hclean₃ : s₃.mapDirty = false := hdirty₃.trans hclean
    have hno : s₃.mapDirty ≠ true := by
      rw [hclean₃]
      decide
    rw [if_pos (by decide), wp_bind]
    refine wp_exit_lists hs₃ ?_ (fun hd => absurd hd hno) fun hd => absurd hd hno
    intro _ s₄ hL₄ _ hmoved₄
    cases hsl with
    | found hk => exact nomatch hnew.symm.trans hk
    | added _ _ =>
      exact hkeep (-1) s₄ _ hlt hL₄ ((hmoved.mono _).trans (hmoved₃.trans (hmoved₄.mono _)))
  · intro k m' names' s₃ obj hsl hwrap hs₃ hdirty₃ hmoved₃ hitem
    have hno : s₃.mapDirty ≠ false := by
      rw [hdirty₃]
      decide
    cases hsl with
    | found hk => exact nomatch hnew.symm.trans hk
    | added _ hroom =>
      have hdone : ∀ r s', Lists crc32 s' (names ++ [a]) → Moved crc32 0 s₃ s' → Q r false s' := by
        intro r s' hL' hm
        refine hadd r s' hroom hL' ((hmoved.mono _).trans (hmoved₃.trans (hm.mono _))) ?_
        rw [hm.payload_eq (by omega) (by omega)]
        exact devicePayload_wrap hitem hwrap
      rw [if_neg (by decide), wp_bind]
      refine wp_exit_lists hs₃ (fun hc => absurd hc hno) ?_ ?_
      · intro _ s' hL' _ hm
        rw [if_neg (by decide)]
        exact hdone 0 s' hL' hm
      · intro _ _ s' hL' hm
        rw [if_pos (by decide)]
        exact hdone (-1) s' hL' hm

/-- A secure write of a listed name, of which only the map write may fail. -/
lemma wp_writeSecure_listed {Q : ℤ → Bool → Store → Prop} (hL : Lists crc32 s names)
    (hsup : Supports s) (ha : ItemName a) (hk : indexOf names a = some k)
    (hOk : ∀ s', ReadsOk Ok s') (hw : ∀ s', WritesOk Ok k s')
    (hq : devicePayload crc32 s k = some q) (hqlen : q.length ≤ 127)
    (hprot : ∀ c s', Ok (.uninit secBlkSize) c s' →
      ¬ LooksProtected (q ++ ((List.range secBlkSize).map c.junk).drop q.length))
    (hp : p.length ≤ maxStoreLen)
    (hset : ∀ r s', ((∀ s', WritesOk Ok 0 s') → r = 0 ∧ s'.secureStorageInited = false) →
      Lists crc32 s' names → Moved crc32 k s s' → devicePayload crc32 s' k = some p →
      Q r false s') :
    wp perform Ok (writeSecure crc32 a p) Q false s := by
  have hopens : Opens Ok := fun s' _ => hOk s'
  have hpos := (indexOf_le hk).1
  have hblk : secBlkSize = 4096 := rfl
  unfold writeSecure
  rw [wp_bind]
  refine wp_support_lists hL hopens.blank ?_ ?_
  · intro hwhy
    exact absurd hsup.2 (hwhy hopens hsup.1)
  intro _ hknown s₁ hL₁ hmoved₁
  rw [if_pos rfl, wp_bind]
  refine wp_init_lists hL₁ hopens.blank ?_ ?_
  · intro hwhy
    exact absurd (hmoved₁.device.symm ▸ hknown) (hwhy hopens)
  intro s₂ hs₂ _ hmoved₂
  have hmoved := hmoved₁.trans hmoved₂
  have hq₂ : devicePayload crc32 s₂ k = some q := by
    rw [hmoved.payload_eq (by omega) (by omega)]
    exact hq
  rw [if_neg (by decide), wp_bind]
  refine wp_objectWrite_listed hs₂ ha hk (hOk s₂) (hw s₂) hq₂ (by omega)
    (fun c hc => hprot c s₂ hc) hp ?_
  intro s₃ obj hwrap hs₃ hdirty₃ hmoved₃ hitem
  have hno : s₃.mapDirty ≠ false := by
    rw [hdirty₃]
    decide
  have hdone : ∀ r s', ((∀ s', WritesOk Ok 0 s') → r = 0 ∧ s'.secureStorageInited = false) →
      Lists crc32 s' names → Moved crc32 0 s₃ s' → Q r false s' := by
    intro r s' hr hL' hm
    refine hset r s' hr hL' ((hmoved.mono k).trans (hmoved₃.trans (hm.mono k))) ?_
    rw [hm.payload_eq (by omega) (by omega)]
    exact devicePayload_wrap hitem hwrap
  rw [if_neg (by decide), wp_bind]
  refine wp_exit_lists hs₃ (fun hc => absurd hc hno) ?_ ?_
  · intro _ s' hL' hclosed hm
    rw [if_neg (by decide)]
    exact hdone 0 s' (fun _ => ⟨rfl, hclosed⟩) hL' hm
  · intro _ hw' s' hL' hm
    rw [if_pos (by decide)]
    exact hdone (-1) s' (fun hall => absurd hall hw') hL' hm

lemma refused_of_not_supports {Ok : Op → Choice → Store → Prop} (hno : ¬ Supports s) :
    s.socInfo = false ∨ ¬ Known (bootDevice s) ∨
      s.secureStorageInited = false ∧ ∀ c s', Ok .malloc c s' → c.ok = false := by
  by_cases hsoc : s.socInfo = true
  · exact Or.inr (Or.inl fun hknown => hno ⟨hsoc, hknown⟩)
  · exact Or.inl (by simpa using hsoc)

/-- Nothing is written where support is denied, whatever fails. -/
lemma wp_writeSecure_refused {Q : ℤ → Bool → Store → Prop} (hL : Lists crc32 s names)
    (hno : ¬ Supports s)
    (hQ : ∀ s', Lists crc32 s' names → Moved crc32 0 s s' → Q 0 false s') :
    wp perform Ok (writeSecure crc32 a p) Q false s := by
  unfold writeSecure
  rw [wp_bind]
  refine wp_support_refused hL (refused_of_not_supports hno) fun s' hL' hmoved => ?_
  rw [if_neg (by decide)]
  exact hQ s' hL' hmoved

end SecureWrites

/-! ## Calls that keep the stores together -/

/-- A name that both stores accept. -/
structure ApiName (a : Bytes) : Prop where
  item : ItemName a
  env : EnvName a

/-- The choices that are harmless for the secure store in a write of `a`, when it lists `names`
before the call. -/
def SecureOk (crc32 : Bytes → UInt32) (s₀ : Store) (names : List Bytes) (a : Bytes) (op : Op)
    (c : Choice) (s : Store) : Prop :=
  match indexOf names a with
  | none =>
    -- a dirty map will be written with the entry of `a`, so its block has to be there
    (s.mapDirty = true → op = .malloc ∨ (∃ k, k ≠ 0 ∧ op.stores k = true) → c.ok = true) ∧
    -- a map without magic is taken from uninitialised memory when its first copy is unreadable
    (∀ m, s.secureStorageInited = false → HoldsMap crc32 (bootDevice s) s m →
      checkSecureStorageMap crc32 m ≠ 0 →
      op = .malloc ∨ op = .sdRead (sdOffset 0) s.secureStorageMap.length → c.ok = true)
  | some k =>
    (op.stores 0 = true ∨ c.ok = true) ∧
    -- the old value, on top of what is on the stack, is not taken for a protected object
    (op = .uninit secBlkSize → ∀ q, devicePayload crc32 s₀ k = some q →
      ¬ LooksProtected (q ++ ((List.range secBlkSize).map c.junk).drop q.length))

/-- The choices that are harmless in a write of `a` from `s₀`.  Everything in the partition may
fail, except that a failure of `env_read` or `env_write` has to be reported, and that a failed write
must not have stored a part. -/
def WriteOk (crc32 : Bytes → UInt32) (s₀ : Store) (a : Bytes) : ApiOp → Choice → ApiState → Prop
  | .inl op, c, x => ∀ names, Lists crc32 s₀ names → SecureOk crc32 s₀ names a op c x.1
  | .inr .envRead, c, _ => c.Reported
  | .inr (.envWrite _), c, _ => c.ok = true ∨ c.seen = true ∧ c.cut = 0
  | .inr _, _, _ => True

/-- No other name that the partition has a value for leads to the block that a write of `a`
writes. -/
def Alone (crc32 : Bytes → UInt32) (x : ApiState) (a : Bytes) : Prop :=
  ∀ names, Lists crc32 x.1 names → ∀ n v, n ≠ a → ItemName n → ReadsValue x.2 n v →
    (∀ k, indexOf names a = some k → indexOf names n ≠ some k) ∧
    (indexOf names a = none → indexOf names n = none → ¬ n <+: a)

/-- One call of `private_data_write` that returns. -/
def WriteCall (crc32 : Bytes → UInt32) (a b : Bytes) (env : ℕ → Choice) (x y : ApiState) : Prop :=
  ∃ r c', (privateDataWrite crc32 (some a) (some b)).run performApi ⟨false, env, x⟩ = .ok (r, c') ∧
    y = c'.st

/-- A call that keeps the stores together: any, on a device without secure storage. -/
def AgreeStep (crc32 : Bytes → UInt32) (x y : ApiState) : Prop :=
  ∃ (a b : Bytes) (env : ℕ → Choice), WriteCall crc32 a b env x y ∧
    (Supports x.1 → ApiName a ∧ EnvValue b ∧ Alone crc32 x a ∧
      (privateDataWrite crc32 (some a) (some b)).Admits performApi (WriteOk crc32 x.1 a)
        ⟨false, env, x⟩)

/-- The documented order: a read returns what the partition has, and what the secure store has
only if that is nothing. -/
def DocumentedOrder (crc32 : Bytes → UInt32) (x : ApiState) (n : Bytes) : Prop :=
  ∀ w, ReturnsValue crc32 x n w ↔
    ReadsValue x.2 n w ∨ (∀ v, ¬ ReadsValue x.2 n v) ∧ SecureHolds crc32 x.1 n w

/-- The stores of a device with secure storage agree: where the secure store finds a block, it is a
short value, and the one of the partition if that has any. -/
structure Agree (crc32 : Bytes → UInt32) (x : ApiState) (names : List Bytes) (recs : Records) :
    Prop where
  supports : Supports x.1
  lists : Lists crc32 x.1 names
  holds : Holds x.2.userData recs
  items : ∀ n v, find recs n = some v → ItemName n
  agree : ∀ n k, ItemName n → indexOf names n = some k →
    ∃ p, devicePayload crc32 x.1 k = some p ∧ p.length ≤ 127 ∧ ∀ v, find recs n = some v → p = v

/-- What a run keeps.  Where there is no secure storage, nothing is asked of the partition. -/
def Together (crc32 : Bytes → UInt32) (x : ApiState) : Prop :=
  (∃ names recs, Agree crc32 x names recs) ∨ ¬ Supports x.1 ∧ ∃ names, Lists crc32 x.1 names

section Agreement

variable {crc32 : Bytes → UInt32} {s s' : Store} {t t' : EnvStore} {x : ApiState}
  {names names' : List Bytes} {recs : Records} {a b n w : Bytes}

lemma Agree.readable (hx : Agree crc32 x names recs) (hn : ItemName n) :
    Readable crc32 x.1 names n := by
  intro _ k hk
  obtain ⟨p, hp, hlen, -⟩ := hx.agree n k hn hk
  exact ⟨p, hp, hlen⟩

lemma privateReads_of_finds {o : Option Bytes} (hfinds : Finds t.userData n o) :
    PrivateReads t n o :=
  fun _ _ => wp_sunxiPrivateStoreRead_ok hfinds rfl

/-- Stores that agree are read in the documented order. -/
lemma Agree.documentedOrder_item (hx : Agree crc32 x names recs) (hn : ItemName n) :
    DocumentedOrder crc32 x n := by
  intro w
  have hret : ReturnsValue crc32 x n w ↔ (secureValue crc32 x.1 names n).or (find recs n) = some w :=
    returnsValue_iff hx.lists hn (hx.readable hn)
      (privateReads_of_finds (hx.holds.finds hn.noNul))
  have hsec : SecureHolds crc32 x.1 n w ↔ secureValue crc32 x.1 names n = some w :=
    secureHolds_iff hx.lists hn (hx.readable hn)
  have hpriv : ∀ v, ReadsValue x.2 n v ↔ find recs n = some v :=
    fun v => readsValue_iff (hx.holds.finds hn.noNul)
  simp only [hret, hsec, hpriv]
  cases hs : secureValue crc32 x.1 names n with
  | none =>
    rw [Option.none_or]
    simp
  | some p =>
    rw [Option.some_or]
    cases hf : find recs n with
    | none => simp
    | some v =>
      -- both have a value, and it is the same
      have hpv : p = v := by
        unfold secureValue at hs
        split_ifs at hs with hsup
        cases hk : indexOf names n with
        | none =>
          rw [hk] at hs
          cases hs
        | some k =>
          obtain ⟨q, hq, -, hall⟩ := hx.agree n k hn hk
          rw [hk, Option.bind_some, hq] at hs
          rw [← Option.some.inj hs]
          exact hall v hf
      simp [hpv]

/-- A name that the partition does not have is left to the secure store. -/
lemma returnsValue_iff_secureHolds (hfinds : Finds t.userData n none) :
    ReturnsValue crc32 (s, t) n w ↔ SecureHolds crc32 s n w := by
  have hrun : ∀ env buf dl, (sec (readSecure crc32 n buf dl)).run performApi ⟨false, env, s, t⟩ =
      ((readSecure crc32 n buf dl).run perform ⟨false, env, s⟩).map fun r =>
        (r.1, ⟨r.2.held, r.2.env, r.2.st, t⟩) := fun env buf dl => run_liftLeft _ false env s t
  constructor
  · intro hret env buf dl henv hlen
    obtain ⟨buf', c', hret, htake⟩ := hret env buf dl henv hlen
    rw [privateDataRead, run_bind, hrun] at hret
    cases hread : (readSecure crc32 n buf dl).run perform ⟨false, env, s⟩ with
    | error e =>
      rw [hread] at hret
      cases hret
    | ok x =>
      rw [hread] at hret
      simp only [Except.map] at hret
      split_ifs at hret
      · obtain ⟨hx, -⟩ := Prod.mk.inj (Except.ok.inj hret)
        exact ⟨buf', x.2, by rw [← hx], htake⟩
      · have hwp : wp performApi (fun _ c _ => c.ok = true)
            (priv (sunxiPrivateStoreRead n (zeros buf.length) x.1.dataLen))
            (fun r _ _ => r = privateValue none (zeros buf.length) x.1.dataLen)
            x.2.held (x.2.st, t) := wp_liftRight (wp_sunxiPrivateStoreRead_ok hfinds rfl)
        have hr := wp_of_run (G := fun c => c.ok = true)
          (c := (⟨x.2.held, x.2.env, x.2.st, t⟩ : Conf Choice ApiState)) hwp
          (env_of_run (G := fun c : Choice => c.ok = true) henv hread) hret
        have hcode := congrArg ReadOut.ret hr
        unfold privateValue at hcode
        split_ifs at hcode
        · exact absurd hcode (by simp)
        · exact absurd hcode (by simp)
  · intro hsec env buf dl henv hlen
    obtain ⟨buf', c', hread, htake⟩ := hsec env buf dl henv hlen
    refine ⟨buf', ⟨c'.held, c'.env, c'.st, t⟩, ?_, htake⟩
    rw [privateDataRead, run_bind, hrun, hread]
    rfl

lemma Agree.documentedOrder (hx : Agree crc32 x names recs) (hn : (0 : UInt8) ∉ n) :
    DocumentedOrder crc32 x n := by
  by_cases hitem : ItemName n
  · exact hx.documentedOrder_item hitem
  · -- nothing is stored under such a name
    have hnone : find recs n = none := by
      cases hfind : find recs n with
      | none => rfl
      | some v => exact absurd (hx.items n v hfind) hitem
    have hfinds := hx.holds.finds hn
    rw [hnone] at hfinds
    intro w
    have hreads : ∀ v, ¬ ReadsValue x.2 n v := fun v hv => nomatch (readsValue_iff hfinds).mp hv
    have hret : ReturnsValue crc32 x n w ↔ SecureHolds crc32 x.1 n w :=
      returnsValue_iff_secureHolds hfinds
    rw [hret, or_iff_right (hreads w), and_iff_right hreads]

lemma Agree.items_put (hx : Agree crc32 x names recs) (ha : ItemName a) :
    ∀ n v, find (put recs a b) n = some v → ItemName n := by
  intro n v hv
  by_cases hna : n = a
  · rwa [hna]
  · rw [find_put_other hna] at hv
    exact hx.items n v hv

/-- The name stays unlisted. -/
lemma Agree.kept {k : ℕ} (hx : Agree crc32 (s, t) names recs) (ha : ItemName a)
    (hL : Lists crc32 s' names) (hmoved : Moved crc32 k s s') (hlt : names.length < k)
    (hnew : indexOf names a = none) (ht : Holds t'.userData (put recs a b)) :
    Agree crc32 (s', t') names (put recs a b) := by
  refine ⟨hmoved.supports_iff.mpr hx.supports, hL, ht, hx.items_put ha, fun n j hn hj => ?_⟩
  obtain ⟨hpos, hle⟩ := indexOf_le hj
  obtain ⟨p, hp, hlen, hall⟩ := hx.agree n j hn hj
  refine ⟨p, ?_, hlen, fun v hv => hall v ?_⟩
  · rw [hmoved.payload_eq (by omega) (by omega)]
    exact hp
  · have hna : n ≠ a := by
      rintro rfl
      exact nomatch hnew.symm.trans hj
    rwa [find_put_other hna] at hv

/-- The block of the name holds the value now. -/
lemma Agree.stored {k : ℕ} (hx : Agree crc32 (s, t) names recs) (ha : ItemName a)
    (halone : Alone crc32 (s, t) a)
    (hentry : (indexOf names a = some k ∧ names' = names) ∨
      (indexOf names a = none ∧ k = names.length + 1 ∧ names' = names ++ [a]))
    (hL : Lists crc32 s' names') (hmoved : Moved crc32 k s s')
    (hpay : devicePayload crc32 s' k = some b) (hb : b.length ≤ 127)
    (ht : Holds t'.userData (put recs a b)) : Agree crc32 (s', t') names' (put recs a b) := by
  refine ⟨hmoved.supports_iff.mpr hx.supports, hL, ht, hx.items_put ha, fun n j hn hj => ?_⟩
  have hpos := (indexOf_le hj).1
  have hself : indexOf names' a = some k := by
    rcases hentry with ⟨hk, rfl⟩ | ⟨hnone, rfl, rfl⟩
    · exact hk
    · rw [indexOf_append, hnone, if_pos List.prefix_rfl]
      rfl
  have hold : j ≠ k → indexOf names n = some j := by
    intro hjk
    rcases hentry with ⟨-, rfl⟩ | ⟨-, rfl, rfl⟩
    · exact hj
    · rw [indexOf_append] at hj
      cases hidx : indexOf names n with
      | some i =>
        rw [hidx] at hj
        exact hj
      | none =>
        rw [hidx, Option.none_or] at hj
        split_ifs at hj
        exact absurd (Option.some.inj hj).symm hjk
  by_cases hjk : j = k
  · subst hjk
    refine ⟨b, hpay, hb, fun v hv => ?_⟩
    by_cases hna : n = a
    · subst hna
      exact (eq_of_find_put hv).symm
    · -- another name of the partition would share the block
      rw [find_put_other hna] at hv
      have hreads : ReadsValue t n v := (readsValue_iff (hx.holds.finds hn.noNul)).mpr hv
      obtain ⟨hfound, hadded⟩ := halone names hx.lists n v hna hn hreads
      rcases hentry with ⟨hk, rfl⟩ | ⟨hnone, rfl, rfl⟩
      · exact absurd hj (hfound j hk)
      · rw [indexOf_append] at hj
        cases hidx : indexOf names n with
        | some i =>
          have hle := (indexOf_le hidx).2
          rw [hidx] at hj
          have heq : i = names.length + 1 := Option.some.inj hj
          omega
        | none =>
          rw [hidx, Option.none_or] at hj
          split_ifs at hj with hpre
          exact absurd hpre (hadded hnone hidx)
  · obtain ⟨p, hp, hlen, hall⟩ := hx.agree n j hn (hold hjk)
    refine ⟨p, ?_, hlen, fun v hv => hall v ?_⟩
    · rw [hmoved.payload_eq (by omega) hjk]
      exact hp
    · have hna : n ≠ a := by
        rintro rfl
        exact hjk (Option.some.inj (hj.symm.trans hself))
      rwa [find_put_other hna] at hv

/-! ### The choices of one call -/

lemma Op.stores_of_reads {op : Op} (hop : op.writes = false) (k : ℕ) : op.stores k = false := by
  cases op with
  | sdWrite => cases hop
  | nandWrite => cases hop
  | _ => rfl

lemma Op.stores_unique {op : Op} {j k : ℕ} (hjk : j ≠ k) (hop : op.stores j = true) :
    op.stores k = false := by
  cases op with
  | sdWrite off buf =>
    simp only [Op.stores, Bool.or_eq_true, beq_iff_eq, Bool.or_eq_false_iff, beq_eq_false_iff_ne,
      sdOffset_eq, sdBackupOffset_eq] at hop ⊢
    omega
  | nandWrite i buf =>
    simp only [Op.stores, beq_iff_eq, beq_eq_false_iff_ne] at hop ⊢
    omega
  | _ => cases hop

section Choices

variable {k : ℕ}

lemma secureOk_new (hnew : indexOf names a = none) :
    OpensBlank crc32 (SecureOk crc32 s names a) ∧
      ∀ k s', k ≠ 0 → s'.mapDirty = true → WritesOk (SecureOk crc32 s names a) k s' := by
  have hunfold : ∀ op c s', SecureOk crc32 s names a op c s' →
      (s'.mapDirty = true → op = .malloc ∨ (∃ k, k ≠ 0 ∧ op.stores k = true) → c.ok = true) ∧
      (∀ m, s'.secureStorageInited = false → HoldsMap crc32 (bootDevice s') s' m →
        checkSecureStorageMap crc32 m ≠ 0 →
        op = .malloc ∨ op = .sdRead (sdOffset 0) s'.secureStorageMap.length → c.ok = true) := by
    intro op c s' hc
    rw [SecureOk, hnew] at hc
    exact hc
  constructor
  · intro s' m hclosed hm hcheck op c hc hop
    exact (hunfold op c s' hc).2 m hclosed hm hcheck hop
  · intro k s' hk hdirty op c s'' ht hc hop
    have hdirty' : s''.mapDirty = true := by
      rw [ht.globals]
      exact hdirty
    refine (hunfold op c s'' hc).1 hdirty' ?_
    rcases hop with hop | hop
    · exact Or.inl hop
    · exact Or.inr ⟨k, hk, hop⟩

lemma secureOk_listed (hk : indexOf names a = some k) {op : Op} {c : Choice}
    (hc : SecureOk crc32 s names a op c s') :
    (op.stores 0 = true ∨ c.ok = true) ∧
    (op = .uninit secBlkSize → ∀ q, devicePayload crc32 s k = some q →
      ¬ LooksProtected (q ++ ((List.range secBlkSize).map c.junk).drop q.length)) := by
  rw [SecureOk, hk] at hc
  exact hc

lemma readsOk_listed (hk : indexOf names a = some k) (s' : Store) :
    ReadsOk (SecureOk crc32 s names a) s' := by
  intro op c hc hop
  have hno := Op.stores_of_reads hop 0
  exact (secureOk_listed hk hc).1.resolve_left (by simp [hno])

lemma writesOk_listed (hk : indexOf names a = some k) (s' : Store) :
    WritesOk (SecureOk crc32 s names a) k s' := by
  have hpos := (indexOf_le hk).1
  intro op c s'' _ hc hop
  refine (secureOk_listed hk hc).1.resolve_left ?_
  rcases hop with rfl | hop
  · simp [Op.stores]
  · simp [Op.stores_unique (show k ≠ 0 by omega) hop]

end Choices

/-- The step lemma: one call whose choices are harmless. -/
lemma Agree.wp_privateDataWrite (hx : Agree crc32 (s, t) names recs) (ha : ApiName a)
    (hb : EnvValue b) (halone : Alone crc32 (s, t) a) :
    wp performApi (WriteOk crc32 s a) (privateDataWrite crc32 (some a) (some b))
      (fun _ _ y => ∃ names' recs', Agree crc32 y names' recs') false (s, t) := by
  have hblk : secBlkSize = 4096 := rfl
  have hmax : maxStoreLen = 3072 := rfl
  have hshort := hb.short
  have hsrc : cstr (bufferBak b) = some b := by
    rw [cstr_bufferBak (by omega), cvalue_eq_self.mpr hb.noNul]
  unfold privateDataWrite
  simp only
  rw [if_neg (by omega), wp_bind]
  refine wp_liftRight ?_
  refine wp_sunxiPrivateStoreWrite (fun _ _ hc => hc) (fun _ _ _ hc => hc) hx.holds ha.env hb hsrc
    ?_ ?_
  · intro t' ht'
    rw [if_pos (by decide)]
    refine ⟨names, recs, hx.supports, hx.lists, ?_, hx.items, hx.agree⟩
    rw [ht']
    exact hx.holds
  intro t' htable
  rw [if_neg (by decide), take_bufferBak, strncpy_eq_self hb.noNul]
  refine wp_liftLeft ?_
  -- the names listed before the call are known, so the choices are those of `SecureOk`
  suffices hsec : wp perform (SecureOk crc32 s names a) (writeSecure crc32 a b)
      (fun _ _ s' => ∃ names' recs', Agree crc32 (s', t') names' recs') false s from
    wp_restrict (fun op c s' hc => hc names hx.lists) hsec
  cases hidx : indexOf names a with
  | none =>
    obtain ⟨hblank, hw⟩ : OpensBlank crc32 (SecureOk crc32 s names a) ∧
        ∀ k s', k ≠ 0 → s'.mapDirty = true → WritesOk (SecureOk crc32 s names a) k s' :=
      secureOk_new hidx
    refine wp_writeSecure_new hx.lists ha.item hidx hblank hw ?_ ?_
    · intro r s' k hlt hL hmoved
      exact ⟨names, _, hx.kept ha.item hL hmoved hlt hidx (Or.inr htable)⟩
    · intro r s' _ hL hmoved hpay
      exact ⟨_, _, hx.stored ha.item halone (Or.inr ⟨hidx, rfl, rfl⟩) hL hmoved hpay hshort
        (Or.inr htable)⟩
  | some k =>
    obtain ⟨q, hq, hqlen, -⟩ := hx.agree a k ha.item hidx
    refine wp_writeSecure_listed hx.lists hx.supports ha.item hidx (readsOk_listed hidx)
      (writesOk_listed hidx) hq hqlen (fun c s' hc => (secureOk_listed hidx hc).2 rfl q hq)
      (by omega) ?_
    intro r s' _ hL hmoved hpay
    exact ⟨_, _, hx.stored ha.item halone (Or.inl ⟨hidx, rfl⟩) hL hmoved hpay hshort
      (Or.inr htable)⟩

/-! ### Devices without secure storage -/

/-- A private write of any name and value that returns. -/
lemma wp_sunxiPrivateStoreWrite_returned {Ok : EnvOp → Choice → EnvStore → Prop} {h : Bool}
    {src : Bytes} {Q : ℤ → Bool → EnvStore → Prop} (hfault : ∀ c t', ¬ Ok .fault c t')
    (hQ : ∀ r t', Q r h t') : wp performEnv Ok (sunxiPrivateStoreWrite a src) Q h t := by
  unfold sunxiPrivateStoreWrite
  refine wp_step fun _ _ => ⟨_, _, rfl, ?_⟩
  split_ifs
  · exact hQ _ _
  refine wp_step fun _ _ => ⟨_, _, rfl, ?_⟩
  split
  · exact hQ _ _
  next priBuf _ =>
    cases modifyEnvParameter priBuf a src with
    | none => exact fun c hc => absurd hc (hfault c t)
    | some buf =>
      refine wp_step fun _ _ => ⟨_, _, rfl, ?_⟩
      split_ifs
      · exact hQ _ _
      · exact hQ _ _

lemma wp_privateDataWrite_refused {names : List Bytes} (hL : Lists crc32 s names)
    (hno : ¬ Supports s) :
    wp performApi (fun op c x => performApi op c x ≠ none) (privateDataWrite crc32 (some a) (some b))
      (fun _ _ y => ¬ Supports y.1 ∧ Lists crc32 y.1 names) false (s, t) := by
  unfold privateDataWrite
  simp only
  split_ifs
  · exact ⟨hno, hL⟩
  rw [wp_bind]
  refine wp_liftRight (wp_sunxiPrivateStoreWrite_returned (fun _ _ hc => hc rfl) fun r t' => ?_)
  split_ifs
  · exact ⟨hno, hL⟩
  · refine wp_liftLeft (wp_writeSecure_refused hL hno fun s' hL' hmoved => ?_)
    exact ⟨fun hsup => hno (hmoved.supports_iff.mp hsup), hL'⟩

/-- The secure half of a read finds nothing. -/
lemma wp_readSecure_refused {Ok : Op → Choice → Store → Prop} {buf : Bytes} {dl : ℤ}
    (hL : Lists crc32 s names) (hno : ¬ Supports s) :
    wp perform Ok (readSecure crc32 n buf dl) (fun r h _ => r = ⟨-1, buf, dl⟩ ∧ h = false)
      false s := by
  unfold readSecure
  rw [wp_bind]
  refine wp_support_refused hL (refused_of_not_supports hno) fun s' _ _ => ?_
  rw [if_neg (by decide)]
  exact ⟨rfl, rfl⟩

/-- A read goes on to the partition. -/
lemma wp_privateDataRead_refused {Ok : ApiOp → Choice → ApiState → Prop} {buf : Bytes} {dl : ℤ}
    {Q : ReadOut → Bool → ApiState → Prop} (hL : Lists crc32 s names) (hno : ¬ Supports s)
    (hread : ∀ s', wp performEnv (fun op c t' => Ok (.inr op) c (s', t'))
      (sunxiPrivateStoreRead n (zeros buf.length) dl) (fun r h t' => Q r h (s', t')) false t) :
    wp performApi Ok (privateDataRead crc32 n buf dl) Q false (s, t) := by
  unfold privateDataRead
  rw [wp_bind]
  refine wp_liftLeft (wp_mono (wp_readSecure_refused hL hno) ?_)
  rintro _ _ s' ⟨rfl, rfl⟩
  rw [if_neg (by simp)]
  exact wp_liftRight (hread s')

/-- Without secure storage a read is one of the partition, whatever that holds. -/
lemma documentedOrder_refused (hL : Lists crc32 s names) (hno : ¬ Supports s) :
    DocumentedOrder crc32 (s, t) n := by
  intro w
  have hsec : ¬ SecureHolds crc32 s n w := by
    rw [SecureHolds, returns_iff (o := none) fun buf dl _ => wp_mono (wp_readSecure_refused hL hno) ?_]
    · exact nofun
    · rintro _ _ _ ⟨rfl, -⟩
      rfl
  rw [or_iff_left fun h => hsec h.2]
  by_cases hfound : ∃ out, checkEnvParameter t.userData n (zeros valueSize) = some (0, out)
  · obtain ⟨out, hout⟩ := hfound
    obtain ⟨v, hfinds⟩ := finds_of_found hout
    rw [readsValue_iff hfinds, ReturnsValue, returns_iff (o := some v) fun buf dl hbuf => ?_]
    refine wp_privateDataRead_refused hL hno fun s' => wp_sunxiPrivateStoreRead_ok hfinds ?_
    unfold privateValue
    rw [if_neg (by rw [length_zeros]; omega)]
    refine ⟨rfl, rfl, ?_⟩
    simp
  · -- a buffer of the least size shows that there is no value
    have hlen : valueSize ≤ (zeros valueSize).length := by simp
    constructor
    · intro hret
      obtain ⟨buf', c', hrun, -⟩ := hret smooth (zeros valueSize) 0 (fun _ => rfl) hlen
      have hwp : wp performApi (fun op c x => c.ok = true ∧ performApi op c x ≠ none)
          (privateDataRead crc32 n (zeros valueSize) 0) (fun r _ _ => r.ret ≠ 0) false (s, t) := by
        refine wp_privateDataRead_refused hL hno fun s' => ?_
        have hdefined : ∀ op c t', performEnv op c t' = none →
            performApi (.inr op) c (s', t') = none := by
          intro op c t' hnone
          change ((performEnv op c t').map fun x => (x.1, s', x.2)) = none
          rw [hnone]
          rfl
        refine wp_restrict (fun op c t' hc => ⟨hc.1, fun hnone => hc.2 (hdefined op c t' hnone)⟩)
          (wp_mono wp_sunxiPrivateStoreRead_found ?_)
        rw [length_zeros]
        exact fun r _ _ hr h0 => hfound (hr h0)
      exact absurd rfl (wp_of_returned (c := (⟨false, smooth, s, t⟩ : Conf Choice ApiState)) hwp
        (fun _ _ _ r hr => ⟨rfl, by simp [hr]⟩) hrun)
    · intro hreads
      obtain ⟨c', hrun⟩ := hreads false smooth (zeros valueSize) 0 (fun _ => rfl) hlen
      exact absurd (wp_of_returned (c := ⟨false, smooth, t⟩) wp_sunxiPrivateStoreRead_found
        (fun _ _ _ r hr => ⟨rfl, by simp [hr]⟩) hrun rfl) hfound

/-! ### Runs -/

lemma Together.step {y : ApiState} (hx : Together crc32 x) (hstep : AgreeStep crc32 x y) :
    Together crc32 y := by
  obtain ⟨a, b, env, ⟨r, c', hrun, rfl⟩, hok⟩ := hstep
  obtain ⟨s, t⟩ := x
  rcases hx with ⟨names, recs, hx⟩ | ⟨hno, names, hL⟩
  · obtain ⟨ha, hb, halone, hadm⟩ := hok hx.supports
    have hpost := wp_of_admits (hx.wp_privateDataWrite ha hb halone) hadm hrun
    exact Or.inl hpost
  · have hpost := wp_of_returned (c := (⟨false, env, s, t⟩ : Conf Choice ApiState))
      (wp_privateDataWrite_refused hL hno) (fun _ _ _ r hr => by simp [hr]) hrun
    exact Or.inr ⟨hpost.1, names, hpost.2⟩

lemma together_of_run {y : ApiState} (hx : Together crc32 x)
    (hrun : Relation.ReflTransGen (AgreeStep crc32) x y) : Together crc32 y := by
  induction hrun with
  | refl => exact hx
  | tail _ hlast ih => exact ih.step hlast

lemma Erased.agree (hs : Erased crc32 s) (hsup : Supports s) :
    Agree crc32 (s, erasedEnv) [] [] := by
  refine ⟨hsup, hs.lists, PrivateInv.holds (Or.inl ⟨rfl, rfl⟩), fun n v hv => ?_,
    fun n k _ hk => ?_⟩
  · cases hv
  · cases hk

lemma Erased.together (hs : Erased crc32 s) : Together crc32 (s, erasedEnv) := by
  by_cases hsup : Supports s
  · exact Or.inl ⟨[], [], hs.agree hsup⟩
  · exact Or.inr ⟨hsup, [], hs.lists⟩

/-- **Agreement of the two stores.**  In every run of writes from erased stores, with failures
wherever they do not part the stores, reads of every name follow the documented order at every
point. -/
theorem privateData_agreement (crc32 : Bytes → UInt32) (s : Store) (hs : Erased crc32 s)
    (x : ApiState) (hrun : Relation.ReflTransGen (AgreeStep crc32) (s, erasedEnv) x) (n : Bytes)
    (hn : (0 : UInt8) ∉ n) : DocumentedOrder crc32 x n := by
  rcases together_of_run hs.together hrun with ⟨names, recs, hx⟩ | ⟨hno, names, hL⟩
  · exact hx.documentedOrder hn
  · exact documentedOrder_refused hL hno

/-! ### A first call -/

lemma not_readsValue_erasedEnv (hn : (0 : UInt8) ∉ n) (v : Bytes) : ¬ ReadsValue erasedEnv n v := by
  rw [readsValue_iff ((PrivateInv.holds (Or.inl ⟨rfl, rfl⟩)).finds hn)]
  exact fun hfind => nomatch hfind

/-- Some calls keep the stores together: every undisturbed first call does. -/
lemma exists_agreeStep_first (hs : Erased crc32 s) (hsup : Supports s) (ha : ApiName a)
    (hb : EnvValue b) : ∃ y, AgreeStep crc32 (s, erasedEnv) y := by
  have halone : Alone crc32 (s, erasedEnv) a :=
    fun _ _ n v _ hn hreads => absurd hreads (not_readsValue_erasedEnv hn.noNul v)
  have hOk : ∀ op x, ∃ c, WriteOk crc32 s a op c x := by
    intro op x
    refine ⟨⟨true, 0, fun _ => 0, true⟩, ?_⟩
    cases op with
    | inl op =>
      intro names hL
      obtain rfl : names = [] := hL.unique hs.lists hsup.2
      rw [SecureOk, indexOf_nil]
      exact ⟨fun _ _ => rfl, fun _ _ _ _ _ => rfl⟩
    | inr op =>
      cases op with
      | envRead | envWrite => exact Or.inl rfl
      | malloc | fault => trivial
  obtain ⟨env, r, c', hrun, hadm, -⟩ :=
    exists_run_of_wp ((hs.agree hsup).wp_privateDataWrite ha hb halone) hOk
  exact ⟨c'.st, a, b, env, ⟨r, c', hrun, rfl⟩, fun _ => ⟨ha, hb, halone, hadm⟩⟩

lemma apiName_sample : ApiName [110] := by
  refine ⟨by decide, ⟨⟨by decide, by decide⟩, ?_⟩⟩
  rw [ffs]
  decide

/-- After a first call under the name `n`. -/
theorem privateData_agreement_first :
    ∃ y, AgreeStep Framework.crc32 (blankDevice true, erasedEnv) y ∧
      DocumentedOrder Framework.crc32 y [110] := by
  obtain ⟨y, hy⟩ := exists_agreeStep_first (erased_blankDevice true) supports_blankDevice apiName_sample
    (show EnvValue [118] from ⟨by decide, by decide⟩)
  exact ⟨y, hy, privateData_agreement Framework.crc32 _ (erased_blankDevice true) y (.single hy)
    [110] (by decide)⟩

/-! ### A failed allocation -/

/-- The second write of a name, while the secure store is out of memory: the partition takes the
new value, the call returns, and the secure store keeps the old one. -/
lemma wp_privateDataWrite_noMemory {v : Bytes} (hL : Lists crc32 s [a])
    (hclosed : s.secureStorageInited = false) (htable : TableOf t.userData [(a, v)])
    (ha : ApiName a) (hb : EnvValue b) :
    wp performApi (fun op c _ => c.ok = op.isRight) (privateDataWrite crc32 (some a) (some b))
      (fun _ _ y => Lists crc32 y.1 [a] ∧ Moved crc32 0 s y.1 ∧ TableOf y.2.userData [(a, b)])
      false (s, t) := by
  have hblk : secBlkSize = 4096 := rfl
  have hshort := hb.short
  have hsrc : cstr (bufferBak b) = some b := by
    rw [cstr_bufferBak (by omega), cvalue_eq_self.mpr hb.noNul]
  have hput : put [(a, v)] a b = [(a, b)] := by
    simp [put, recordIndex, userDataParameterMaxCount]
  unfold privateDataWrite
  simp only
  rw [if_neg (by omega), wp_bind]
  refine wp_liftRight ?_
  refine wp_sunxiPrivateStoreWrite_ok (Or.inr htable) ha.env hb hsrc fun t' ht' => ?_
  rw [hput] at ht'
  rw [if_neg (by decide)]
  refine wp_liftLeft ?_
  unfold writeSecure
  rw [wp_bind]
  refine wp_support_refused hL (Or.inr (Or.inr ⟨hclosed, fun c _ hc => hc⟩)) fun s' hL' hmoved => ?_
  rw [if_neg (by decide)]
  exact ⟨hL', hmoved, ht'⟩

/-- After `x` has been written under `n`, and then `y` while an allocation fails, a read
returns `x` although the partition holds `y`. -/
theorem privateData_order_broken :
    ¬ ∀ (s : Store), Erased Framework.crc32 s → ∀ x : ApiState,
      Relation.ReflTransGen (fun x y => ∃ (a b : Bytes) (env : ℕ → Choice), ApiName a ∧ EnvValue b ∧
        WriteCall Framework.crc32 a b env x y) (s, erasedEnv) x →
      ∀ n, ItemName n → DocumentedOrder Framework.crc32 x n := by
  intro hall
  have hvis : ¬ ffs 8 <+: ([110] : Bytes) := apiName_sample.env.visible
  -- the first call, undisturbed
  obtain ⟨r₁, c₁, hrun₁, -, -, hw⟩ := wp_run (G := fun c : Choice => c.ok = true)
    (c := (⟨false, smooth, (blankDevice true, erasedEnv)⟩ : Conf Choice ApiState))
    (wp_privateDataWrite_first (erased_blankDevice true) apiName_sample.item (by decide)
      (show ([120] : Bytes).length ≤ 127 by decide)) fun _ => rfl
  obtain ⟨hsup₁, hclosed₁, hL₁, hpay₁⟩ := hw.secure supports_blankDevice
  -- the second call, with every system call of the secure store failing
  have hOk : ∀ (op : ApiOp) (_ : ApiState), ∃ c : Choice, c.ok = op.isRight :=
    fun op _ => ⟨⟨op.isRight, 0, fun _ => 0, true⟩, rfl⟩
  obtain ⟨env₂, r₂, c₂, hrun₂, -, hL₂, hmoved₂, htable₂⟩ := exists_run_of_wp
    (wp_privateDataWrite_noMemory hL₁ hclosed₁ (hw.table hvis) apiName_sample
      (show EnvValue [121] from ⟨by decide, by decide⟩)) hOk
  have hreach : Relation.ReflTransGen (fun x y => ∃ (a b : Bytes) (env : ℕ → Choice), ApiName a ∧
      EnvValue b ∧ WriteCall Framework.crc32 a b env x y) (blankDevice true, erasedEnv) c₂.st := by
    refine (Relation.ReflTransGen.single ?_).tail
      ⟨[110], [121], env₂, apiName_sample, ⟨by decide, by decide⟩, r₂, c₂, hrun₂, rfl⟩
    exact ⟨[110], [120], smooth, apiName_sample, ⟨by decide, by decide⟩, r₁, c₁, hrun₁, rfl⟩
  have hsecure : secureValue Framework.crc32 c₂.st.1 [[110]] [110] = some [120] := by
    rw [secureValue_eq (hmoved₂.supports_iff.mpr hsup₁) (indexOf_singleton _),
      hmoved₂.payload_eq (by decide) (by decide), hpay₁, strncpy_eq_self (by decide)]
  have hread : Readable Framework.crc32 c₂.st.1 [[110]] [110] := by
    intro hsup k hk
    rw [secureValue_eq hsup hk] at hsecure
    exact ⟨_, hsecure, by decide⟩
  have hfind : find [([110], [121])] [110] = some [121] := by decide
  have hpriv : ReadsValue c₂.st.2 [110] [121] := by
    rw [readsValue_iff (Holds.finds (Or.inr htable₂) (by decide))]
    exact hfind
  have horder := (hall _ (erased_blankDevice true) _ hreach [110] (by decide) [121]).mpr (Or.inl hpriv)
  have hvalue := (returnsValue_iff hL₂ (by decide) hread
    (privateReads_of_finds (Holds.finds (Or.inr htable₂) (by decide)))).mp horder
  rw [hsecure] at hvalue
  exact absurd hvalue (by decide)

end Agreement

end Softwinner.SecureStorage
