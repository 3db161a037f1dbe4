import Softwinner.Framework.Runs
import Softwinner.SecureStorage.Protection

/-!
# Writes that fail

`sunxi_secure_storage_write` enters a new name into the map in memory before it writes the block,
and does not take the entry back when the block write fails.  The map is then dirty without the
flag saying so; the next write that succeeds sets the flag, and `sunxi_secure_storage_exit`
persists an entry whose block was never written.

A session here is a sequence of writes with any names, payloads and failures.  Next to the store
it records the names whose writes were completed, and `replay` is the map that these alone produce.
`objectWrite_atomic_iff` says that a failed write leaves the map as it was in every call of a
sequence exactly when no call that changes the map fails to write its block, and that the map is
then, in memory and after closing, the replay.
-/

namespace Softwinner.SecureStorage

open Framework Prog

variable (crc32 : Bytes → UInt32)

/-! ## Insertions -/

section Fill

variable {m m' a : Bytes} {n : ℕ} {k : ℤ}

/-- The call's insertion changes the map: it adds an entry, or takes the map for rubbish and
wipes it. -/
def Inserts (m a : Bytes) : Prop :=
  ∃ k m', fillNameInMap m a storeObjectSize = some (k, m') ∧ m' ≠ m

/-- A map changes only for an item that can be stored. -/
lemma fillNameInMap_changed (hfill : fillNameInMap m a n = some (k, m')) (hne : m' ≠ m) :
    1 ≤ k ∧ k ≤ 31 := by
  unfold fillNameInMap at hfill
  split at hfill
  · cases hfill
  · exact absurd (Prod.mk.inj (Option.some.inj hfill)).2.symm hne
  · obtain ⟨x, -, hx⟩ := Option.map_eq_some_iff.mp hfill
    obtain ⟨rfl, -⟩ := Prod.mk.inj hx
    omega
  · split_ifs at hfill with hidx
    · exact absurd (Prod.mk.inj (Option.some.inj hfill)).2.symm hne
    · obtain ⟨x, -, hx⟩ := Option.map_eq_some_iff.mp hfill
      obtain ⟨rfl, -⟩ := Prod.mk.inj hx
      have hpos := (fillScan_free ‹_›).1
      omega

lemma length_fillNameInMap (hlen : m.length = secBlkSize)
    (hfill : fillNameInMap m a n = some (k, m')) : m'.length = secBlkSize := by
  unfold fillNameInMap at hfill
  split at hfill
  · cases hfill
  · rwa [← (Prod.mk.inj (Option.some.inj hfill)).2]
  · obtain ⟨x, hx, hk⟩ := Option.map_eq_some_iff.mp hfill
    rw [← (Prod.mk.inj hk).2, length_store hx, length_zeros]
  · split_ifs at hfill with hidx
    · rwa [← (Prod.mk.inj (Option.some.inj hfill)).2]
    · obtain ⟨x, hx, hk⟩ := Option.map_eq_some_iff.mp hfill
      rw [← (Prod.mk.inj hk).2, length_store hx, hlen]

end Fill

/-! ## One call -/

/-- The block write that starts with the choices `env` is completed: there is a device, and the
calls that the write makes succeed. -/
def blockStored (device : ℤ) (env : ℕ → Choice) : Bool :=
  if device = flashTypeNand then (env 1).ok && (env 2).ok
  else if device = flashTypeSd1 ∨ device = flashTypeSd2 then
    (env 1).ok && (env 2).ok && (env 3).ok
  else false

section Call

variable {crc32} {h : Bool} {s : Store} {env : ℕ → Choice} {a p b m' : Bytes} {k : ℕ}

/-- What a block write returns and changes: it is complete exactly if `ok`. -/
def Wrote (s : Store) (k : ℕ) (ok : Bool) (r : ℤ) (c : Conf Choice Store) : Prop :=
  (r = 0 ∨ r = -1) ∧ c.st = { s with emmc := c.st.emmc, nand := c.st.nand } ∧
    (k ≤ maxSecureStorageMaxItem → r = if ok then 0 else -1)

lemma yields_nandWrite : Yields perform (nandWrite k b) ⟨h, env, s⟩
    (Wrote s k ((env 0).ok && (env 1).ok)) := by
  unfold nandWrite
  by_cases hk : k > maxSecureStorageMaxItem
  · rw [if_pos hk]
    exact yields_pure ⟨Or.inr rfl, rfl, fun hle => by omega⟩
  rw [if_neg hk]
  refine yields_step rfl ?_
  cases h0 : (env 0).ok with
  | false => exact yields_pure ⟨Or.inr rfl, rfl, fun _ => rfl⟩
  | true =>
    refine yields_step rfl ?_
    have hlater : (later env 1 0).ok = (env 1).ok := rfl
    rw [hlater]
    cases (env 1).ok with
    | false => exact yields_pure ⟨Or.inr rfl, rfl, fun _ => rfl⟩
    | true => exact yields_pure ⟨Or.inl rfl, rfl, fun _ => rfl⟩

lemma yields_sdWrite : Yields perform (sdWrite k b) ⟨h, env, s⟩
    (Wrote s k ((env 0).ok && (env 1).ok && (env 2).ok)) := by
  unfold sdWrite
  by_cases hk : k > maxSecureStorageMaxItem
  · rw [if_pos hk]
    exact yields_pure ⟨Or.inr rfl, rfl, fun hle => by omega⟩
  rw [if_neg hk]
  refine yields_step rfl ?_
  cases h0 : (env 0).ok with
  | false => exact yields_pure ⟨Or.inr rfl, rfl, fun _ => rfl⟩
  | true =>
    refine yields_step rfl ?_
    have hlater : (later env 1 0).ok = (env 1).ok := rfl
    rw [hlater]
    cases h1 : (env 1).ok with
    | false => exact yields_pure ⟨Or.inr rfl, rfl, fun _ => rfl⟩
    | true =>
      refine yields_step rfl ?_
      have hlast : (later (later env 1) 1 0).ok = (env 2).ok := rfl
      rw [hlast]
      cases (env 2).ok with
      | false => exact yields_pure ⟨Or.inr rfl, rfl, fun _ => rfl⟩
      | true => exact yields_pure ⟨Or.inl rfl, rfl, fun _ => rfl⟩

/-- A block write changes the flash only, and says whether it is complete. -/
lemma yields_nvWrite : Yields perform (nvWrite k b) ⟨h, env, s⟩
    (Wrote s k (blockStored s.flashBootType env)) := by
  unfold nvWrite blockStored
  refine yields_step rfl ?_
  by_cases hnand : s.flashBootType = flashTypeNand
  · simp only [if_pos hnand]
    exact yields_nandWrite
  simp only [if_neg hnand]
  by_cases hsd : s.flashBootType = flashTypeSd1 ∨ s.flashBootType = flashTypeSd2
  · simp only [if_pos hsd]
    exact yields_sdWrite
  · simp only [if_neg hsd]
    exact yields_pure ⟨Or.inr rfl, rfl, fun _ => rfl⟩

/-- `sunxi_secure_storage_write` in an open session, once the insertion is known. -/
lemma yields_sunxiSecureStorageWrite {j : ℤ} (hinit : s.secureStorageInited = true)
    (hfill : fillNameInMap s.secureStorageMap a storeObjectSize = some (j, m')) :
    Yields perform (sunxiSecureStorageWrite a b storeObjectSize) ⟨h, env, s⟩ fun r c =>
      c.st.secureStorageMap = m' ∧ c.st.secureStorageInited = true ∧ (r = 0 ∨ r = -1) ∧
      (0 ≤ j → j ≤ 31 → r = if blockStored s.flashBootType (later env 3) then 0 else -1) := by
  have hmax : maxSecureStorageMaxItem = 32 := rfl
  unfold sunxiSecureStorageWrite
  refine yields_step rfl ?_
  rw [hinit, if_neg (by simp)]
  refine yields_step rfl ?_
  rw [hfill]
  refine yields_step rfl ?_
  by_cases hj : j < 0
  · rw [if_pos hj]
    exact yields_pure ⟨rfl, hinit, Or.inr rfl, fun hpos => by omega⟩
  rw [if_neg hj]
  refine yields_bind (yields_nvWrite (s := { s with secureStorageMap := m' })) ?_
  rintro r c ⟨hr, hst, hstored⟩
  have hmem : c.st.secureStorageMap = m' ∧ c.st.secureStorageInited = true := by
    rw [hst]
    exact ⟨rfl, hinit⟩
  have hret : 0 ≤ j → j ≤ 31 → r = if blockStored s.flashBootType (later env 3) then 0 else -1 :=
    fun _ hle => hstored (by omega)
  by_cases hzero : r = 0
  · rw [if_neg (not_not.mpr hzero)]
    refine yields_step rfl (yields_pure ⟨hmem.1, hmem.2, Or.inl rfl, ?_⟩)
    rwa [hzero] at hret
  · rw [if_pos hzero]
    refine yields_pure ⟨hmem.1, hmem.2, Or.inr rfl, ?_⟩
    rwa [hr.resolve_left hzero] at hret

/-- An insertion that leaves the map's block does not return. -/
lemma sunxiSecureStorageWrite_fault {r : ℤ} {c : Conf Choice Store}
    (hinit : s.secureStorageInited = true)
    (hrun : (sunxiSecureStorageWrite a b storeObjectSize).run perform ⟨h, env, s⟩ = .ok (r, c)) :
    fillNameInMap s.secureStorageMap a storeObjectSize ≠ none := by
  intro hfill
  have hwp : wp perform NoFault (sunxiSecureStorageWrite a b storeObjectSize)
      (fun _ _ _ => False) h s := by
    unfold sunxiSecureStorageWrite
    refine wp_step fun _ _ => ⟨_, _, rfl, ?_⟩
    rw [hinit, if_neg (by simp)]
    refine wp_step fun _ _ => ⟨_, _, rfl, ?_⟩
    rw [hfill]
    exact fun _ hfault => absurd rfl hfault
  exact wp_of_returned hwp (fun _ _ _ _ => noFault_of_some) hrun

/-- What `sunxi_secure_object_write` does behind the test for write protection, when it returns. -/
lemma writeObject_cases {r : ℤ} {c : Conf Choice Store} (hinit : s.secureStorageInited = true)
    (hrun : (writeObject crc32 a p).run perform ⟨h, env, s⟩ = .ok (r, c)) :
    (maxStoreLen < p.length ∧ r = -1 ∧ c.st = s) ∨ p.length ≤ maxStoreLen ∧ ∃ j m',
      fillNameInMap s.secureStorageMap a storeObjectSize = some (j, m') ∧
      c.st.secureStorageMap = m' ∧ c.st.secureStorageInited = true ∧ (r = 0 ∨ r = -1) ∧
      (0 ≤ j → j ≤ 31 → r = if blockStored s.flashBootType (later env 3) then 0 else -1) := by
  unfold writeObject at hrun
  cases hwrap : wrapSecureObject crc32 p a (zeros secBlkSize) with
  | none =>
    rw [hwrap] at hrun
    obtain ⟨rfl, rfl⟩ := Prod.mk.inj (Except.ok.inj hrun)
    refine Or.inl ⟨?_, rfl, rfl⟩
    by_contra hle
    rw [wrapSecureObject, if_neg (by omega)] at hwrap
    cases hwrap
  | some obj =>
    rw [hwrap] at hrun
    refine Or.inr ⟨(wrapSecureObject_eq hwrap).1, ?_⟩
    cases hfill : fillNameInMap s.secureStorageMap a storeObjectSize with
    | none => exact absurd hfill (sunxiSecureStorageWrite_fault hinit hrun)
    | some x =>
      exact ⟨x.1, x.2, rfl, (yields_sunxiSecureStorageWrite hinit hfill).of_run hrun⟩

/-- The test for write protection changes nothing. -/
lemma refusesWrite_frame {refused : Bool} {c : Conf Choice Store}
    (hrun : (refusesWrite crc32 a).run perform ⟨h, env, s⟩ = .ok (refused, c)) :
    c.held = h ∧ c.st = s := by
  have hfault : ∀ c s', ¬ NoFault .fault c s' := fun _ _ hno => hno rfl
  have hwp : wp perform NoFault (refusesWrite crc32 a) (fun _ h' s' => h' = h ∧ s' = s) h s := by
    unfold refusesWrite sunxiSecureStorageProbe
    refine wp_step fun c _ => ⟨_, _, rfl, ?_⟩
    rw [wp_bind]
    refine wp_step fun _ _ => ⟨_, _, rfl, ?_⟩
    have hread : wp perform NoFault (sunxiSecureObjectRead crc32 a (junkBlock c.junk) 0 >>=
        fun so => pure (decide (LooksProtected so.buffer))) (fun _ h' s' => h' = h ∧ s' = s) h s := by
      rw [wp_bind]
      exact wp_sunxiSecureObjectRead_frame hfault fun _ => ⟨rfl, rfl⟩
    split_ifs
    · exact ⟨rfl, rfl⟩
    refine wp_step fun _ _ => ⟨_, _, rfl, ?_⟩
    rw [wp_bind]
    refine wp_orFault (fun x _ => ?_) fun _ => hfault
    cases x with
    | none => exact ⟨rfl, rfl⟩
    | some _ => exact hread
  exact wp_of_returned hwp (fun _ _ _ _ => noFault_of_some) hrun

end Call

/-! ## Sequences of calls -/

/-- A call of `sunxi_secure_object_write`, with the environment it meets. -/
structure ObjectCall where
  itemName : Bytes
  payload : Bytes
  env : ℕ → Choice

/-- An open session between two calls: the store, what the last call returned, and the names whose
writes were completed. -/
structure Session where
  store : Store
  ret : ℤ
  completed : List Bytes

/-- One call; `none` when it does not return. -/
def Session.step (σ : Session) (w : ObjectCall) : Option Session :=
  match (sunxiSecureObjectWrite crc32 w.itemName w.payload).run perform ⟨true, w.env, σ.store⟩ with
  | .ok (r, c) => some ⟨c.st, r, if r = 0 then σ.completed ++ [w.itemName] else σ.completed⟩
  | .error _ => none

/-- The map that insertions of these names, one after the other, make of `m`. -/
def replay (m : Bytes) (names : List Bytes) : Bytes :=
  names.foldl (fun m a => ((fillNameInMap m a storeObjectSize).map Prod.snd).getD m) m

/-- If the session is closed now and its map is written, the map on flash is the replay of the
completed writes; when the names have the form the map is made for, it lists only names it had at
the start and names whose block was written. -/
def Persists (m : Bytes) (σ : Session) : Prop :=
  ∀ (mode : ℤ) (env : ℕ → Choice) (c : Conf Choice Store),
    (mode ≠ 0 ∨ σ.store.mapDirty = true) →
    (sunxiSecureStorageExit crc32 mode).run perform ⟨true, env, σ.store⟩ = .ok (0, c) →
    ∃ m', HoldsMap crc32 σ.store.flashBootType c.st m' ∧
      m'.take mapDataSize = (replay m σ.completed).take mapDataSize ∧
      ∀ names₀ names, MapOf m names₀ → (∀ a ∈ σ.completed, ItemName a) → MapOf m' names →
        ∀ a ∈ names, a ∈ names₀ ∨ a ∈ σ.completed

/-- A call that returns `-1` leaves the map in memory as it was. -/
def MapKept (_ : ObjectCall) (σ σ' : Session) : Prop :=
  σ'.ret = -1 → σ'.store.secureStorageMap = σ.store.secureStorageMap

/-- If the call gets past the test for write protection with a payload that fits, and its insertion
changes the map, then the block write behind it is completed. -/
def StoresInserted (w : ObjectCall) (σ : Session) : Prop :=
  ∀ c : Conf Choice Store,
    (refusesWrite crc32 w.itemName).run perform ⟨true, w.env, σ.store⟩ = .ok (false, c) →
    w.payload.length ≤ maxStoreLen → Inserts σ.store.secureStorageMap w.itemName →
    blockStored σ.store.flashBootType (later c.env 3) = true

section Sequences

variable {crc32} {m : Bytes} {σ σ' : Session} {w : ObjectCall}

lemma Session.step_of_run {a p : Bytes} {env : ℕ → Choice} {r : ℤ} {c : Conf Choice Store}
    (hrun : (sunxiSecureObjectWrite crc32 a p).run perform ⟨true, env, σ.store⟩ = .ok (r, c)) :
    σ.step crc32 ⟨a, p, env⟩ =
      some ⟨c.st, r, if r = 0 then σ.completed ++ [a] else σ.completed⟩ := by
  simp only [Session.step, hrun]

/-- What one call can do. -/
lemma Session.step_cases (hinit : σ.store.secureStorageInited = true)
    (hstep : σ.step crc32 w = some σ') :
    (σ'.completed = if σ'.ret = 0 then σ.completed ++ [w.itemName] else σ.completed) ∧
    ∃ refused c, (refusesWrite crc32 w.itemName).run perform ⟨true, w.env, σ.store⟩ =
        .ok (refused, c) ∧
      ((refused = true ∨ maxStoreLen < w.payload.length) ∧ σ'.ret = -1 ∧ σ'.store = σ.store ∨
        refused = false ∧ w.payload.length ≤ maxStoreLen ∧ ∃ j m', fillNameInMap
            σ.store.secureStorageMap w.itemName storeObjectSize = some (j, m') ∧
          σ'.store.secureStorageMap = m' ∧ σ'.store.secureStorageInited = true ∧
          (σ'.ret = 0 ∨ σ'.ret = -1) ∧
          (0 ≤ j → j ≤ 31 →
            σ'.ret = if blockStored σ.store.flashBootType (later c.env 3) then 0 else -1)) := by
  unfold Session.step at hstep
  rw [sunxiSecureObjectWrite_eq, run_bind] at hstep
  cases hrefuse : (refusesWrite crc32 w.itemName).run perform ⟨true, w.env, σ.store⟩ with
  | error e =>
    rw [hrefuse] at hstep
    cases hstep
  | ok x =>
    obtain ⟨refused, ⟨held, env, st⟩⟩ := x
    obtain ⟨rfl, rfl⟩ := refusesWrite_frame hrefuse
    rw [hrefuse] at hstep
    cases refused with
    | true =>
      obtain rfl := Option.some.inj hstep
      exact ⟨rfl, true, _, rfl, Or.inl ⟨Or.inl rfl, rfl, rfl⟩⟩
    | false =>
      simp only [Bool.false_eq_true, if_false] at hstep
      cases hwrite : (writeObject crc32 w.itemName w.payload).run perform ⟨true, env, σ.store⟩ with
      | error e =>
        rw [hwrite] at hstep
        cases hstep
      | ok y =>
        rw [hwrite] at hstep
        obtain rfl := Option.some.inj hstep
        refine ⟨rfl, false, _, rfl, ?_⟩
        rcases writeObject_cases hinit hwrite with ⟨hlong, hr, hst⟩ | ⟨hfit, hwritten⟩
        · exact Or.inl ⟨Or.inr hlong, hr, hst⟩
        · exact Or.inr ⟨rfl, hfit, hwritten⟩

/-- The session is open and its map is the replay of the completed writes. -/
structure Session.Inv (m : Bytes) (σ : Session) : Prop where
  inited : σ.store.secureStorageInited = true
  length : σ.store.secureStorageMap.length = secBlkSize
  replayed : σ.store.secureStorageMap = replay m σ.completed

lemma replay_append (m : Bytes) (names : List Bytes) (a : Bytes) :
    replay m (names ++ [a]) =
      ((fillNameInMap (replay m names) a storeObjectSize).map Prod.snd).getD (replay m names) := by
  simp [replay]

/-- The step lemma: a call that stores what it inserts keeps the invariant, and the map if it
fails. -/
lemma Session.Inv.step (hσ : σ.Inv m) (hstores : StoresInserted crc32 w σ)
    (hstep : σ.step crc32 w = some σ') : σ'.Inv m ∧ MapKept w σ σ' := by
  obtain ⟨hcompleted, refused, c, hrefuse, ⟨-, hret, hst⟩ |
    ⟨rfl, hfit, j, m', hfill, hmap, hinit, hret, hstored⟩⟩ := Session.step_cases hσ.inited hstep
  · rw [if_neg (by rw [hret]; decide)] at hcompleted
    refine ⟨⟨?_, ?_, ?_⟩, fun _ => by rw [hst]⟩
    · rw [hst]
      exact hσ.inited
    · rw [hst]
      exact hσ.length
    · rw [hst, hcompleted]
      exact hσ.replayed
  have hlen : σ'.store.secureStorageMap.length = secBlkSize := by
    rw [hmap]
    exact length_fillNameInMap hσ.length hfill
  rcases hret with hret | hret
  · rw [if_pos hret] at hcompleted
    refine ⟨⟨hinit, hlen, ?_⟩, fun hneg => absurd (hret.symm.trans hneg) (by decide)⟩
    rw [hcompleted, replay_append, ← hσ.replayed, hfill, hmap]
    rfl
  · have hsame : m' = σ.store.secureStorageMap := by
      by_contra hne
      have hle := fillNameInMap_changed hfill hne
      have hdone := hstored (by omega) hle.2
      rw [hstores c hrefuse hfit ⟨j, m', hfill, hne⟩, if_pos rfl, hret] at hdone
      exact absurd hdone (by decide)
    rw [if_neg (by rw [hret]; decide)] at hcompleted
    refine ⟨⟨hinit, hlen, ?_⟩, fun _ => hmap.trans hsame⟩
    rw [hcompleted, hmap, hsame]
    exact hσ.replayed

/-- A call that keeps the map when it fails has stored what it inserted. -/
lemma Session.Inv.storesInserted (hσ : σ.Inv m) (hstep : σ.step crc32 w = some σ')
    (hkept : MapKept w σ σ') : StoresInserted crc32 w σ := by
  intro c hrefuse hfit hins
  obtain ⟨j, m', hfill, hne⟩ := hins
  obtain ⟨-, refused, c', hrefuse', ⟨hwhy, -⟩ |
    ⟨rfl, -, j', m'', hfill', hmap, -, -, hstored⟩⟩ := Session.step_cases hσ.inited hstep
  · obtain ⟨rfl, -⟩ := Prod.mk.inj (Except.ok.inj (hrefuse.symm.trans hrefuse'))
    rcases hwhy with htrue | hlong
    · cases htrue
    · omega
  · obtain ⟨-, rfl⟩ := Prod.mk.inj (Except.ok.inj (hrefuse.symm.trans hrefuse'))
    obtain ⟨rfl, rfl⟩ := Prod.mk.inj (Option.some.inj (hfill.symm.trans hfill'))
    have hle := fillNameInMap_changed hfill hne
    by_contra hfail
    have hret := hstored (by omega) hle.2
    rw [if_neg hfail] at hret
    exact hne (hmap.symm.trans (hkept hret))

/-! ### Closing -/

lemma wp_sunxiSecureStorageExit_written {mode : ℤ} {s : Store}
    (hlen : s.secureStorageMap.length = secBlkSize) (hwrite : mode ≠ 0 ∨ s.mapDirty = true) :
    wp perform AnyOk (sunxiSecureStorageExit crc32 mode) (fun r _ s' => r = 0 →
      HoldsMap crc32 s.flashBootType s' (sealedMap crc32 s.secureStorageMap)) true s := by
  have hmap : wp perform AnyOk (call .getMap >>= fun map =>
      call (.setMap (sealedMap crc32 map)) >>= fun _ =>
      sunxiSecstorageWrite 0 (sealedMap crc32 map) >>= fun ret =>
      if ret < 0 then (Prog.release >>= fun _ => pure (-1)) else closeSession)
      (fun r _ s' => r = 0 →
        HoldsMap crc32 s.flashBootType s' (sealedMap crc32 s.secureStorageMap)) true s := by
    refine wp_step fun _ _ => ⟨_, _, rfl, ?_⟩
    refine wp_step fun _ _ => ⟨_, _, rfl, ?_⟩
    rw [wp_bind]
    refine wp_nvWrite (length_sealedMap hlen) (fun s' _ => ?_) ?_
    · rw [if_pos (by decide)]
      exact ⟨rfl, fun hr => absurd hr (by decide)⟩
    · rw [if_neg (by decide)]
      unfold closeSession
      refine wp_step fun _ _ => ⟨_, _, rfl, ?_⟩
      refine wp_step fun _ _ => ⟨_, _, rfl, ?_⟩
      refine ⟨rfl, fun _ => ?_⟩
      exact (holdsMap_closedDirty hlen).of_flash rfl rfl
  unfold sunxiSecureStorageExit
  refine wp_step fun _ _ => ⟨_, _, rfl, ?_⟩
  split_ifs with hinit hmode
  · exact fun hr => absurd hr (by decide)
  · exact hmap
  · refine wp_step fun _ _ => ⟨_, _, rfl, ?_⟩
    rw [hwrite.resolve_left hmode]
    exact hmap

/-- With admissible names, the replay lists nothing but the names it has been given. -/
lemma mapOf_replay {names₀ names : List Bytes} (hmap : MapOf m names₀)
    (hvalid : ∀ a ∈ names, ItemName a) :
    ∃ names', MapOf (replay m names) names' ∧ ∀ a ∈ names', a ∈ names₀ ∨ a ∈ names := by
  induction names generalizing m names₀ with
  | nil => exact ⟨names₀, hmap, fun a ha => Or.inl ha⟩
  | cons a names ih =>
    have ha : ItemName a := hvalid a List.mem_cons_self
    have hrest : ∀ b ∈ names, ItemName b := fun b hb => hvalid b (List.mem_cons_of_mem _ hb)
    have hstep : ∃ names₁, MapOf (((fillNameInMap m a storeObjectSize).map Prod.snd).getD m) names₁ ∧
        ∀ b ∈ names₁, b ∈ names₀ ∨ b = a := by
      rw [fillNameInMap_mapOf hmap ha]
      cases hidx : indexOf names₀ a with
      | some k => exact ⟨names₀, hmap, fun b hb => Or.inl hb⟩
      | none =>
        have hcount := hmap.count
        by_cases hfull : names₀.length = 31
        · rw [if_pos hfull]
          exact ⟨names₀, hmap, fun b hb => Or.inl hb⟩
        · rw [if_neg hfull]
          refine ⟨names₀ ++ [a], hmap.appendName ha hidx (by omega), fun b hb => ?_⟩
          simpa using hb
    obtain ⟨names₁, hmap₁, hmem₁⟩ := hstep
    obtain ⟨names', hmap', hmem'⟩ := ih hmap₁ hrest
    refine ⟨names', hmap', fun b hb => ?_⟩
    rcases hmem' b hb with h | h
    · rcases hmem₁ b h with h | rfl
      · exact Or.inl h
      · exact Or.inr List.mem_cons_self
    · exact Or.inr (List.mem_cons_of_mem _ h)

lemma Session.Inv.persists (hσ : σ.Inv m) : Persists crc32 m σ := by
  intro mode env c hwrite hrun
  have hwp : wp perform AnyOk (sunxiSecureStorageExit crc32 mode) (fun r _ s' => r = 0 →
      HoldsMap crc32 σ.store.flashBootType s' (sealedMap crc32 σ.store.secureStorageMap)) true
      σ.store := wp_sunxiSecureStorageExit_written hσ.length hwrite
  have hholds := wp_of_run (G := fun _ => True) (c := ⟨true, env, σ.store⟩) hwp (fun _ => trivial)
    hrun rfl
  refine ⟨_, hholds, ?_, ?_⟩
  · rw [take_sealedMap hσ.length, hσ.replayed]
  · intro names₀ names hm₀ hvalid hnames a ha
    obtain ⟨names', hmap', hmem⟩ := mapOf_replay hm₀ hvalid
    have hsealed : MapOf (sealedMap crc32 σ.store.secureStorageMap) names' := by
      rw [← hσ.replayed] at hmap'
      exact hmap'.sealedMap
    rw [hnames.unique hsealed] at ha
    exact hmem a ha

/-- **Failed writes.**  Along any sequence of calls on an open session with the map `m`: every call
that returns `-1` leaves the map in memory as it was, and what closing the session would persist
comes from completed writes alone, if and only if no call that changes the map fails to write its
block. -/
theorem objectWrite_atomic_iff (crc32 : Bytes → UInt32) (m : Bytes) (σ : Session)
    (hinit : σ.store.secureStorageInited = true) (hmap : σ.store.secureStorageMap = m)
    (hlen : m.length = secBlkSize) (hnone : σ.completed = []) (calls : List ObjectCall) :
    Along (Session.step crc32) (Persists crc32 m) MapKept σ calls ↔
      Meets (Session.step crc32) (StoresInserted crc32) σ calls := by
  have hσ : σ.Inv m := ⟨hinit, hmap ▸ hlen, by rw [hnone, hmap]; rfl⟩
  exact along_iff_meets (fun h => h.persists) (fun h hok hstep => h.step hok hstep)
    (fun h hstep hkept _ => h.storesInserted hstep hkept) calls hσ

end Sequences

/-! ## An entry without a block -/

/-- The first session on a blank device, before its first call. -/
def firstSession : Session := ⟨openStore, 0, []⟩

/-- One good call on a blank device. -/
theorem objectWrite_atomic_iff_one :
    Along (Session.step Framework.crc32) (Persists Framework.crc32 (zeros secBlkSize)) MapKept
      firstSession [⟨[97], [1], smooth⟩] := by
  refine (objectWrite_atomic_iff Framework.crc32 (zeros secBlkSize) firstSession rfl rfl (by simp)
    rfl _).mpr ⟨trivial, fun σ' hstep => ⟨?_, trivial⟩⟩
  have hσ : firstSession.Inv (zeros secBlkSize) := ⟨rfl, mapOf_openStore.length, rfl⟩
  obtain ⟨c, hrun⟩ := exists_write_openStore Framework.crc32 (show ItemName [97] by decide)
    (show [1].length ≤ maxStoreLen by decide)
  refine hσ.storesInserted hstep fun hret => ?_
  obtain rfl := Option.some.inj ((Session.step_of_run (σ := firstSession) hrun).symm.trans hstep)
  exact absurd hret (by simp)

/-- Every flash write fails and stores nothing, and nothing else fails. -/
def NoFlashWrite : Op → Choice → Store → Prop :=
  fun op c _ => if op.writes then c = ⟨false, 0, fun _ => 0, true⟩ else c = smooth 0

/-- The store after a failed first write. -/
def entryOnly : Store :=
  { openStore with secureStorageMap := appendName openStore.secureStorageMap [] [97] }

lemma mapOf_entryOnly : MapOf entryOnly.secureStorageMap [[97]] := by
  have happend := mapOf_openStore.appendName (a := [97]) (by decide) rfl (by simp)
  exact happend

lemma exists_failing_write : ∃ env c,
    (sunxiSecureObjectWrite Framework.crc32 [97] [1]).run perform ⟨true, env, openStore⟩ =
      .ok (-1, c) ∧ c.st = entryOnly := by
  have hOk : ∀ op s, ∃ x, NoFlashWrite op x s := by
    intro op s
    unfold NoFlashWrite
    split_ifs
    · exact ⟨_, rfl⟩
    · exact ⟨_, rfl⟩
  have hwp : wp perform NoFlashWrite (sunxiSecureObjectWrite Framework.crc32 [97] [1])
      (fun r _ s' => r = -1 ∧ s' = entryOnly) true openStore := by
    refine wp_sunxiSecureObjectWrite mapOf_openStore (by decide) (fun hne => absurd rfl hne) ?_ ?_
    · rintro (hclosed | hlong | ⟨-, hfull⟩)
      · cases hclosed
      · exact absurd hlong (by decide)
      · cases hfull
    · intro _ obj _ k m' names' hsl
      cases hsl with
      | found hk => cases hk
      | added _ _ =>
        unfold nvWrite
        refine wp_step fun _ _ => ⟨_, _, rfl, ?_⟩
        rw [if_neg (by decide), if_pos (by decide)]
        unfold sdWrite
        rw [if_neg (by decide)]
        refine wp_step fun c hc => ⟨_, _, rfl, ?_⟩
        obtain rfl : c = smooth 0 := hc
        rw [if_neg (by decide)]
        refine wp_step fun c hc => ⟨_, _, rfl, ?_⟩
        obtain rfl : c = ⟨false, 0, fun _ => 0, true⟩ := hc
        rw [if_pos (by decide)]
        refine ⟨fun _ => ⟨rfl, ?_⟩, fun hr => absurd hr (by decide)⟩
        simp only [Choice.written, Bool.false_eq_true, if_false, List.take_zero, pwrite_nil]
        rfl
  obtain ⟨env, r, c, hrun, -, rfl, hst⟩ := exists_run_of_wp hwp hOk
  exact ⟨env, c, hrun, hst⟩

/-- **An entry without a block.**  A first write whose flash write fails returns `-1`; a second
write, of another name, succeeds, and closing the session stores a map that lists both names, while
nothing has ever been stored for the first. -/
theorem objectWrite_leaves_entry : ∃ env σ₁ σ₂ c m,
    ¬ Along (Session.step Framework.crc32) (Persists Framework.crc32 (zeros secBlkSize)) MapKept
      firstSession [⟨[97], [1], env⟩, ⟨[98], [1], smooth⟩] ∧
    firstSession.step Framework.crc32 ⟨[97], [1], env⟩ = some σ₁ ∧ σ₁.ret = -1 ∧
    σ₁.step Framework.crc32 ⟨[98], [1], smooth⟩ = some σ₂ ∧ σ₂.ret = 0 ∧
    (sunxiSecureStorageExit Framework.crc32 0).run perform ⟨true, smooth, σ₂.store⟩ = .ok (0, c) ∧
    HoldsMap Framework.crc32 flashTypeSd1 c.st m ∧ MapOf m [[97], [98]] ∧
    storedBlock Framework.crc32 c.st 1 = none := by
  obtain ⟨env, c₁, hrun₁, hst₁⟩ := exists_failing_write
  have hstep₁ := Session.step_of_run (σ := firstSession) hrun₁
  rw [hst₁, if_neg (by decide)] at hstep₁
  -- the second write, of a name that the map does not have
  have hwp₂ : wp perform AllOk (sunxiSecureObjectWrite Framework.crc32 [98] [1])
      (fun r _ s' => r = 0 ∧ ∃ obj, obj.length = secBlkSize ∧ s' = { written { entryOnly with
          secureStorageMap := appendName entryOnly.secureStorageMap [[97]] [98] } 2 obj with
        mapDirty := true }) true entryOnly :=
    wp_sunxiSecureObjectWrite_new_ok mapOf_entryOnly (by decide) rfl (Or.inr (Or.inl rfl)) (by decide)
      (by decide) (by decide) fun obj hobj => ⟨rfl, obj, length_wrap (by simp) hobj, rfl⟩
  obtain ⟨r₂, c₂, hrun₂, rfl, obj, hobj, hst₂⟩ := wp_run (G := fun c => c.ok = true)
    (c := ⟨true, smooth, entryOnly⟩) hwp₂ fun _ => rfl
  have hstep₂ := Session.step_of_run (σ := ⟨entryOnly, -1, firstSession.completed⟩) hrun₂
  have hmap₂ : MapOf c₂.st.secureStorageMap [[97], [98]] := by
    have happend := mapOf_entryOnly.appendName (a := [98]) (by decide) (by decide) (by decide)
    rw [hst₂]
    simpa using happend
  have hboot₂ : c₂.st.flashBootType = flashTypeSd1 := by
    rw [hst₂]
    simp [entryOnly, openStore, blankStore]
  have hinit₂ : c₂.st.secureStorageInited = true := by
    rw [hst₂]
    simp [entryOnly, openStore]
  -- closing
  have hwp₃ : wp perform AllOk (sunxiSecureStorageExit Framework.crc32 0)
      (fun r _ s' => r = 0 ∧ s' = closedDirty Framework.crc32 c₂.st) true c₂.st := by
    refine wp_sunxiSecureStorageExit_ok hinit₂ (Or.inr (Or.inl hboot₂)) (fun _ => ⟨rfl, rfl⟩) ?_
    intro _ hclean
    rw [hst₂] at hclean
    cases hclean
  obtain ⟨r₃, c₃, hrun₃, rfl, hst₃⟩ := wp_run (G := fun c => c.ok = true)
    (c := ⟨true, smooth, c₂.st⟩) hwp₃ fun _ => rfl
  refine ⟨env, _, _, c₃, sealedMap Framework.crc32 c₂.st.secureStorageMap, ?_, hstep₁, rfl, hstep₂,
    rfl, hrun₃, ?_, hmap₂.sealedMap, ?_⟩
  · rintro ⟨-, hall⟩
    exact appendName_ne mapOf_openStore (by decide) ((hall _ hstep₁).1 rfl)
  · rw [hst₃, ← hboot₂]
    exact holdsMap_closedDirty hmap₂.length
  · have hblank : item Framework.crc32 entryOnly 1 = none := by
      have hpread : ∀ off, pread entryOnly.emmc off secBlkSize = zeros secBlkSize :=
        fun off => pread_blankStore off secBlkSize
      have hcheck : checkSecureStorageKey Framework.crc32 (zeros secBlkSize) ≠ 0 := by
        rw [checkSecureStorageKey, u32_zeros, if_pos (by decide)]
        decide
      unfold item copy0 copy1 readPair
      rw [if_neg (by decide), hpread, hpread, if_neg hcheck, if_neg hcheck]
    have hitem₂ : item Framework.crc32 c₂.st 1 = none := by
      have htouched := @touched_written { entryOnly with
        secureStorageMap := appendName entryOnly.secureStorageMap [[97]] [98] } 2 _ hobj
      calc item Framework.crc32 c₂.st 1
          = item Framework.crc32 { entryOnly with
              secureStorageMap := appendName entryOnly.secureStorageMap [[97]] [98] } 1 := by
            rw [hst₂, ← htouched.item_eq (show (1 : ℕ) ≠ 2 by decide)]
            exact item_of_flash rfl rfl rfl
        _ = item Framework.crc32 entryOnly 1 := item_of_flash rfl rfl rfl
        _ = none := hblank
    have hitem₃ : item Framework.crc32 c₃.st 1 = none := by
      rw [hst₃, ← hitem₂]
      exact item_closedDirty hmap₂.length (by decide)
    unfold storedBlock
    rw [hitem₃, ite_self]

end Softwinner.SecureStorage
