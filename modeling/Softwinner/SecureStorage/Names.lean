import Softwinner.SecureStorage.Atomicity
import Softwinner.SecureStorage.Malformed

/-!
# Names that the map cannot hold

`sunxi_secure_storage_write` prints whatever name it is given into the map.  The lookup reads an
entry back up to its first `:` and gives up at 64 bytes, so a longer name, or one that contains a
`:`, is accepted and not found again.

Here the names are arbitrary C strings.  A run is a sequence of calls of
`sunxi_secure_storage_write` in an open session that starts with an all-zero map; next to the store
it records the names that the insertion has accepted, each with its index.  `mapNames_iff` says that
every call returns, accepted names stay where they are, entries are only added, and only `data` is
written, exactly in the runs in which every name is plain, that is short and without `:`, or meets a
full map in which no entry begins with it.  A call whose `sprintf` or `memcmp` runs over the end of
the map's block has no result here; a run with such a call is none of these.
-/

namespace Softwinner.SecureStorage

open Framework Prog

/-! ## Runs -/

/-- The strings of a map, up to the first empty one. -/
def mapEntries : Bytes → List Bytes
  | [] => []
  | c :: b =>
    if c = 0 then []
    else
      match strlen (c :: b) with
      | none => []
      | some n => (c :: b).take n :: mapEntries ((c :: b).drop (n + 1))
  termination_by b => b.length
  decreasing_by simp only [List.length_drop, List.length_cons]; omega

/-- A call of `sunxi_secure_storage_write`, with the environment it runs in.  The name is a C
string; the length is always that of a `store_object_t`. -/
structure StorageCall where
  itemName : Bytes
  noNul : (0 : UInt8) ∉ itemName
  object : Bytes
  held : Bool
  env : ℕ → Choice

/-- A session with the names that have been accepted, each with its index. -/
structure Filled where
  store : Store
  accepted : List (Bytes × ℕ)

/-- The names that are accepted after the call. -/
def Filled.record (x : Filled) (call : StorageCall) : List (Bytes × ℕ) :=
  match fillNameInMap x.store.secureStorageMap call.itemName storeObjectSize with
  | some (k, _) => if 0 ≤ k then x.accepted ++ [(call.itemName, k.toNat)] else x.accepted
  | none => x.accepted

/-- One call. -/
def Filled.step (x : Filled) (call : StorageCall) : Option Filled :=
  match (sunxiSecureStorageWrite call.itemName call.object storeObjectSize).run perform
      ⟨call.held, call.env, x.store⟩ with
  | .ok (_, c) => some ⟨c.st, x.record call⟩
  | .error _ => none

/-- Every accepted name is found, at the index it was accepted with. -/
def Filled.Found (x : Filled) : Prop :=
  ∀ a k, (a, k) ∈ x.accepted →
    probeNameInMap x.store.secureStorageMap a = some (some (k, (storeObjectSize : ℤ)))

/-- The call keeps the entries there are, and stores to `data` only. -/
def Filled.Keeps (call : StorageCall) (x x' : Filled) : Prop :=
  mapEntries x.store.secureStorageMap <+: mapEntries x'.store.secureStorageMap ∧
    ∀ stores, fillStores x.store.secureStorageMap call.itemName storeObjectSize = some stores →
      ∀ w ∈ stores, w.1 + w.2 ≤ mapDataSize

/-- The map has 31 entries, none of them begins with `a`, and the comparisons of `a` with them stay
in the block of the map: the last one starts behind the strings in front of it. -/
structure FullWithout (m a : Bytes) : Prop where
  count : (mapEntries m).length = 31
  without : ∀ e ∈ mapEntries m, ¬ a <+: e
  room : ((mapEntries m).dropLast.flatMap (· ++ [0])).length + a.length ≤ secBlkSize

/-- The name is plain, or meets a full map. -/
def Filled.Allowed (call : StorageCall) (x : Filled) : Prop :=
  PlainName call.itemName ∨ FullWithout x.store.secureStorageMap call.itemName

/-! ## Maps of plain names -/

/-- The map that the insertion of `names` makes of zeros. -/
structure Filling (m : Bytes) (names : List Bytes) : Prop where
  map : m = encode names ++ zeros (secBlkSize - (encode names).length)
  count : names.length ≤ 31
  plain : ∀ n ∈ names, PlainName n

section Lookup

variable {a m n rest : Bytes} {names : List Bytes} {k : ℕ} {len : ℤ}

/-- What an inner loop collects has no byte that it stops at. -/
lemma scanUntil_name {stop : UInt8 → Bool} {room : ℕ} {b name p : Bytes}
    (hscan : scanUntil stop room b = some (name, p)) : ∀ x ∈ name, stop x = false := by
  rw [scanUntil_eq] at hscan
  split_ifs at hscan
  obtain ⟨rfl, -⟩ := Prod.mk.inj (Option.some.inj hscan)
  intro x hx
  obtain ⟨i, hi, rfl⟩ := List.getElem_of_mem hx
  rw [List.length_take] at hi
  rw [List.getElem_take]
  exact List.not_of_lt_findIdx (by omega)

/-- One turn of the lookup hits plain names only. -/
lemma probeTurn_hit_plain (ha : (0 : UInt8) ∉ a) (hit : probeTurn a m = some (.done (some len))) :
    PlainName a := by
  unfold probeTurn at hit
  split at hit
  · cases hit
  split at hit
  · cases hit
  split at hit
  · cases hit
  rename_i name p hscan
  split at hit
  · cases hit
  rename_i hshort
  split at hit
  · cases hit
  split at hit
  · cases hit
  split at hit
  · cases hit
  · rename_i hcmp
    rw [memcmp_comm] at hcmp
    have hroom : a.length ≤ (name ++ zeros (mapKeyNameSize - name.length)).length := by
      by_contra hlong
      rw [memcmp, if_neg fun h => hlong h.1] at hcmp
      cases hcmp
    rw [memcmp_eq_decide hroom, Option.some.injEq, decide_eq_true_eq] at hcmp
    have hname : name.length < mapKeyNameSize := by omega
    rw [show mapKeyNameSize - name.length = (mapKeyNameSize - name.length - 1) + 1 by omega,
      zeros_succ, prefix_append_of_not_mem ha] at hcmp
    refine ⟨Nat.le_trans hcmp.length_le (by unfold mapKeyNameSize at hname; omega), fun hcolon => ?_, ha⟩
    have hstop := scanUntil_name hscan 58 (hcmp.subset hcolon)
    exact absurd hstop (by decide)
  · obtain ⟨n, -, hn⟩ := Option.map_eq_some_iff.mp hit
    cases hn

/-- A hit of the lookup is a plain name, whatever the map holds. -/
lemma probeFrom_hit_plain (ha : (0 : UInt8) ∉ a) : ∀ {index : ℕ},
    probeFrom a index m = some (some (k, len)) → PlainName a := by
  induction m using entry_induction with
  | _ m ih =>
    intro index hit
    rw [probeFrom_eq] at hit
    cases hturn : probeTurn a m with
    | none =>
      rw [hturn] at hit
      cases hit
    | some t =>
      rw [hturn] at hit
      cases t with
      | next n => exact ih n (probeTurn_next hturn) hit
      | done r =>
        cases r with
        | none => cases hit
        | some len' => exact probeTurn_hit_plain ha hturn

end Lookup

section Filling

variable {a m m' n rest : Bytes} {names : List Bytes} {j : ℤ} {k : ℕ}

lemma length_encode_of_filling (hcount : names.length ≤ 31) (hplain : ∀ n ∈ names, PlainName n) :
    (encode names).length ≤ 2139 := by
  have hle := length_encode_le hplain
  omega

/-- Behind the entries of a filling there is a NUL, and room for a name. -/
lemma Filling.eq_append (h : Filling m names) :
    m = encode names ++ 0 :: zeros (4095 - (encode names).length) := by
  have hle := length_encode_of_filling h.count h.plain
  have hsize : secBlkSize - (encode names).length = 4095 - (encode names).length + 1 := by
    unfold secBlkSize
    omega
  rw [h.map, hsize, zeros_succ]

lemma Filling.length (h : Filling m names) : m.length = secBlkSize := by
  have hle := length_encode_of_filling h.count h.plain
  rw [h.map, List.length_append, length_zeros]
  unfold secBlkSize
  omega

lemma mapEntries_mapEntry (hn : PlainName n) :
    mapEntries (mapEntry n storeObjectSize ++ rest) = entryText n :: mapEntries rest := by
  have hstrlen : strlen (mapEntry n storeObjectSize ++ rest) = some (n.length + 5) :=
    strlen_mapEntry hn
  have hdrop : (mapEntry n storeObjectSize ++ rest).drop (n.length + 5 + 1) = rest := drop_mapEntry
  have htake : (mapEntry n storeObjectSize ++ rest).take (n.length + 5) = entryText n := by
    have hlen : n.length + 5 = (entryText n).length := by simp [entryText]
    rw [mapEntry_append, hlen, List.take_left]
  obtain ⟨c, b, hcb, hc⟩ := hn.exists_cons rest
  rw [hcb] at hstrlen hdrop htake ⊢
  rw [mapEntries, if_neg hc, hstrlen]
  simp only
  rw [htake, hdrop]

lemma mapEntries_encode (hplain : ∀ n ∈ names, PlainName n) :
    mapEntries (encode names ++ 0 :: rest) = names.map entryText := by
  induction names with
  | nil => simp [encode, mapEntries]
  | cons n names ih =>
    have hform : encode (n :: names) ++ 0 :: rest =
        mapEntry n storeObjectSize ++ (encode names ++ 0 :: rest) := by
      simp [encode]
    rw [hform, mapEntries_mapEntry (hplain n (by simp)), ih fun b hb => hplain b (by simp [hb])]
    rfl

lemma Filling.mapEntries_eq (h : Filling m names) : mapEntries m = names.map entryText := by
  rw [h.eq_append, mapEntries_encode h.plain]

lemma Filling.probe (h : Filling m names) (ha : PlainName a) :
    probeNameInMap m a = some ((indexOf names a).map fun k => (k, (storeObjectSize : ℤ))) := by
  rw [h.eq_append, probeNameInMap, probeFrom_encode ha h.plain]
  congr 2
  funext k
  congr 1
  omega

/-- The loop of the insertion for any string: it compares with the entries as they are printed. -/
lemma fillScan_entryTexts (ha : (0 : UInt8) ∉ a) (hplain : ∀ n ∈ names, PlainName n) :
    ∀ {index : ℕ} {r : FillScan}, fillScan a index (encode names ++ 0 :: rest) = some r →
      r = match indexOf (names.map entryText) a with
        | some k => .found (index + k - 1)
        | none => .free (index + names.length) (0 :: rest) := by
  induction names with
  | nil =>
    intro index r hr
    simp only [encode, List.flatMap_nil, List.nil_append, fillScan, if_true, Option.some.injEq] at hr
    exact hr.symm
  | cons n names ih =>
    intro index r hr
    have hform : encode (n :: names) ++ 0 :: rest =
        mapEntry n storeObjectSize ++ (encode names ++ 0 :: rest) := by
      simp [encode]
    rw [hform, fillScan_entryText ha (hplain n (by simp))] at hr
    rw [List.map_cons, indexOf_cons]
    split_ifs at hr with hroom hhit
    · rw [if_pos hhit]
      exact (Option.some.inj hr).symm
    · rw [if_neg hhit, ih (fun b hb => hplain b (by simp [hb])) hr]
      cases indexOf (names.map entryText) a with
      | none => simp only [Option.map_none, List.length_cons, Nat.add_right_comm, Nat.add_assoc]
      | some k =>
        simp only [Option.map_some, FillScan.found.injEq]
        omega

/-- The loop stays in the map exactly if its last comparison does. -/
lemma fillScan_ne_none (ha : (0 : UInt8) ∉ a) (hplain : ∀ n ∈ names, PlainName n) :
    indexOf (names.map entryText) a = none → names ≠ [] → ∀ index : ℕ,
      fillScan a index (encode names ++ 0 :: rest) ≠ none ↔
        (encode names.dropLast).length + a.length ≤ (encode names ++ 0 :: rest).length := by
  induction names with
  | nil => exact fun _ hne => absurd rfl hne
  | cons n names ih =>
    intro hnone _ index
    rw [List.map_cons, indexOf_cons] at hnone
    split_ifs at hnone with hhit
    have hform : encode (n :: names) ++ 0 :: rest =
        mapEntry n storeObjectSize ++ (encode names ++ 0 :: rest) := by
      simp [encode]
    rw [hform, fillScan_entryText ha (hplain n (by simp)), if_neg hhit]
    by_cases hlast : names = []
    · subst hlast
      simp [encode, fillScan]
    · have htail := ih (fun b hb => hplain b (by simp [hb])) (Option.map_eq_none_iff.mp hnone) hlast
        (index + 1)
      have hdrop : encode (n :: names).dropLast =
          mapEntry n storeObjectSize ++ encode names.dropLast := by
        rw [List.dropLast_cons_of_ne_nil hlast]
        rfl
      rw [List.length_append] at htail
      simp only [hdrop, List.length_append]
      split_ifs with hroom
      · rw [htail]
        omega
      · constructor
        · exact fun h => absurd rfl h
        · omega

/-- The strings of a filling, each with its NUL. -/
lemma flatMap_dropLast_entryText :
    (names.map entryText).dropLast.flatMap (· ++ [0]) = encode names.dropLast := by
  rw [← List.map_dropLast, List.flatMap_map]
  congr 1
  funext n
  rw [← List.append_nil (mapEntry n storeObjectSize), mapEntry_append]

lemma fillScan_of_fill (hfill : fillNameInMap m a storeObjectSize = some (j, m')) :
    fillScan a 1 m ≠ none := by
  intro hscan
  rw [fillNameInMap, hscan] at hfill
  cases hfill

lemma Filling.fillScan_ne_none_iff (h : Filling m names) (ha : (0 : UInt8) ∉ a)
    (hnone : indexOf (names.map entryText) a = none) (hcount : names.length ≠ 0) :
    fillScan a 1 m ≠ none ↔
      ((mapEntries m).dropLast.flatMap (· ++ [0])).length + a.length ≤ secBlkSize := by
  rw [h.mapEntries_eq, flatMap_dropLast_entryText, ← h.length, h.eq_append]
  exact fillScan_ne_none ha h.plain hnone (by simpa using hcount) 1

/-- A plain name has room. -/
lemma Filling.fill_plain (h : Filling m names) (ha : PlainName a) :
    fillNameInMap m a storeObjectSize ≠ none := by
  have hle := length_encode_of_filling h.count h.plain
  have hshort := ha.short
  have hblk : secBlkSize = 4096 := rfl
  have hlen := h.length
  have hscan := fillScan_encode ha h.plain 1
    (show a.length ≤ (zeros (4095 - (encode names).length)).length by rw [length_zeros]; omega)
  rw [← h.eq_append] at hscan
  rw [fillNameInMap, hscan]
  cases indexOf names a with
  | some k => simp
  | none =>
    simp only
    split_ifs
    · simp
    · rw [store_of_le]
      · simp
      · rw [List.length_cons, length_zeros, length_mapEntry]
        omega

/-- A name that no entry begins with does not need a place in a full map, only its comparisons. -/
lemma Filling.fill_full (h : Filling m names) (ha : (0 : UInt8) ∉ a) (hfull : FullWithout m a) :
    fillNameInMap m a storeObjectSize ≠ none := by
  obtain ⟨hcount, hall, hroom⟩ := hfull
  have hnone : indexOf (names.map entryText) a = none :=
    indexOf_eq_none.mpr (h.mapEntries_eq ▸ hall)
  rw [h.mapEntries_eq, List.length_map] at hcount
  have hscan := (h.fillScan_ne_none_iff ha hnone (by omega)).mpr hroom
  obtain ⟨r, hr⟩ := Option.ne_none_iff_exists'.mp hscan
  have hend := hr
  rw [h.eq_append] at hend
  have hr' := fillScan_entryTexts ha h.plain hend
  rw [hnone] at hr'
  subst hr'
  rw [fillNameInMap, hr]
  simp only
  rw [if_pos (by omega)]
  simp

/-- How an insertion into a filling ends. -/
inductive FillEnds (m : Bytes) (names : List Bytes) (a : Bytes) : ℤ → Bytes → Prop
  | found {k : ℕ} (hk : indexOf (names.map entryText) a = some k)
      (hstores : fillStores m a storeObjectSize = some []) : FillEnds m names a k m
  | full (hnone : indexOf (names.map entryText) a = none) (hcount : names.length = 31)
      (hstores : fillStores m a storeObjectSize = some []) : FillEnds m names a (-1) m
  | added {m' : Bytes} (hnone : indexOf (names.map entryText) a = none) (hcount : names.length < 31)
      (hstore : store m (encode names).length (mapEntry a storeObjectSize) = some m')
      (hstores : fillStores m a storeObjectSize =
        some [((encode names).length, (mapEntry a storeObjectSize).length)]) :
      FillEnds m names a ((names.length : ℤ) + 1) m'

lemma Filling.ends (h : Filling m names) (ha : (0 : UInt8) ∉ a)
    (hfill : fillNameInMap m a storeObjectSize = some (j, m')) : FillEnds m names a j m' := by
  have hcount := h.count
  have hle := length_encode_of_filling h.count h.plain
  have hblk : secBlkSize = 4096 := rfl
  have hoff : m.length - (0 :: zeros (4095 - (encode names).length)).length =
      (encode names).length := by
    rw [h.length, List.length_cons, length_zeros]
    omega
  have hscan : ∀ r, fillScan a 1 m = some r → r = match indexOf (names.map entryText) a with
      | some k => .found (1 + k - 1)
      | none => .free (1 + names.length) (0 :: zeros (4095 - (encode names).length)) := by
    intro r hr
    rw [h.eq_append] at hr
    exact fillScan_entryTexts ha h.plain hr
  unfold fillNameInMap at hfill
  cases hr : fillScan a 1 m with
  | none =>
    rw [hr] at hfill
    cases hfill
  | some r =>
    rw [hr] at hfill
    obtain rfl := hscan r hr
    cases hidx : indexOf (names.map entryText) a with
    | some k =>
      rw [hidx] at hfill hr
      obtain ⟨rfl, rfl⟩ := Prod.mk.inj (Option.some.inj hfill)
      rw [Nat.add_sub_cancel_left]
      exact .found hidx (by rw [fillStores, hr, Option.map_some])
    | none =>
      rw [hidx] at hfill hr
      simp only [hoff] at hfill
      by_cases hfull : names.length = 31
      · rw [if_pos (by omega)] at hfill
        obtain ⟨rfl, rfl⟩ := Prod.mk.inj (Option.some.inj hfill)
        refine .full hidx hfull ?_
        rw [fillStores, hr, Option.map_some]
        simp only
        rw [if_pos (by omega)]
      · rw [if_neg (by omega)] at hfill
        obtain ⟨m₁, hstore, heq⟩ := Option.map_eq_some_iff.mp hfill
        obtain ⟨rfl, rfl⟩ := Prod.mk.inj heq
        rw [show ((1 + names.length : ℕ) : ℤ) = (names.length : ℤ) + 1 by omega]
        refine .added hidx (by omega) hstore ?_
        rw [fillStores, hr, Option.map_some]
        simp only [hoff]
        rw [if_neg (by omega)]

/-- A new name goes behind the entries. -/
lemma Filling.append (h : Filling m names) (ha : PlainName a) (hcount : names.length < 31)
    (hstore : store m (encode names).length (mapEntry a storeObjectSize) = some m') :
    Filling m' (names ++ [a]) := by
  have hencode : encode (names ++ [a]) = encode names ++ mapEntry a storeObjectSize := by
    simp [encode]
  unfold store at hstore
  split_ifs at hstore
  refine ⟨?_, by simp; omega, fun n hn => ?_⟩
  · have htake : m.take (encode names).length = encode names := by rw [h.map, List.take_left]
    rw [← Option.some.inj hstore, patch, htake, hencode, List.length_append]
    congr 1
    rw [h.map, List.drop_append, List.drop_eq_nil_of_le (Nat.le_add_right _ _), List.nil_append,
      drop_zeros]
    congr 1
    omega
  · rcases List.mem_append.mp hn with hn | hn
    · exact h.plain n hn
    · rw [List.mem_singleton.mp hn]
      exact ha

lemma indexOf_entryText (ha : (58 : UInt8) ∉ a) :
    indexOf (names.map entryText) a = indexOf names a := by
  induction names with
  | nil => rfl
  | cons n names ih => simp only [List.map_cons, indexOf_cons, ih, prefix_entryText ha]

end Filling

/-! ## The step lemma -/

section Step

variable {x x' : Filled} {call : StorageCall} {names : List Bytes}

lemma Filled.step_cases (hinit : x.store.secureStorageInited = true)
    (hstep : x.step call = some x') :
    x'.store.secureStorageInited = true ∧ ∃ j m',
      fillNameInMap x.store.secureStorageMap call.itemName storeObjectSize = some (j, m') ∧
      x'.store.secureStorageMap = m' ∧
      x'.accepted = if 0 ≤ j then x.accepted ++ [(call.itemName, j.toNat)] else x.accepted := by
  unfold step at hstep
  cases hrun : (sunxiSecureStorageWrite call.itemName call.object storeObjectSize).run perform
      ⟨call.held, call.env, x.store⟩ with
  | error e =>
    rw [hrun] at hstep
    cases hstep
  | ok res =>
    obtain ⟨r, c⟩ := res
    rw [hrun] at hstep
    obtain rfl := Option.some.inj hstep
    cases hfill : fillNameInMap x.store.secureStorageMap call.itemName storeObjectSize with
    | none => exact absurd hfill (sunxiSecureStorageWrite_fault hinit hrun)
    | some y =>
      obtain ⟨j, m'⟩ := y
      obtain ⟨hmap, hopen, -, -⟩ := (yields_sunxiSecureStorageWrite hinit hfill).of_run hrun
      refine ⟨hopen, j, m', rfl, hmap, ?_⟩
      simp only [record, hfill]

/-- The invariant: the map is a filling, and every accepted name has its index in it. -/
structure Filled.Inv (x : Filled) (names : List Bytes) : Prop where
  opened : x.store.secureStorageInited = true
  filling : Filling x.store.secureStorageMap names
  found : ∀ a k, (a, k) ∈ x.accepted → PlainName a ∧ indexOf names a = some k

lemma Filled.Inv.found' (h : x.Inv names) : x.Found := by
  intro a k hmem
  obtain ⟨ha, hk⟩ := h.found a k hmem
  rw [h.filling.probe ha, hk]
  rfl

/-- An allowed name that meets an entry, or a free one, is plain. -/
lemma Filled.Inv.plain (h : x.Inv names) (hok : Allowed call x)
    (hmeets : indexOf (names.map entryText) call.itemName ≠ none ∨ names.length < 31) :
    PlainName call.itemName := by
  rcases hok with hplain | ⟨hcount, hall, -⟩
  · exact hplain
  rw [h.filling.mapEntries_eq] at hcount hall
  rw [List.length_map] at hcount
  rcases hmeets with hne | hlt
  · exact absurd (indexOf_eq_none.mpr hall) hne
  · omega

/-- A call whose insertion stays in the map returns. -/
lemma Filled.step_of_fill (hinit : x.store.secureStorageInited = true)
    (hfill : fillNameInMap x.store.secureStorageMap call.itemName storeObjectSize ≠ none) :
    ∃ x', x.step call = some x' := by
  obtain ⟨⟨j, m'⟩, hfill⟩ := Option.ne_none_iff_exists'.mp hfill
  have hyields : Yields perform (sunxiSecureStorageWrite call.itemName call.object storeObjectSize)
      ⟨call.held, call.env, x.store⟩ _ := yields_sunxiSecureStorageWrite hinit hfill
  obtain ⟨r, c, hrun, -⟩ := hyields
  refine ⟨⟨c.st, x.record call⟩, ?_⟩
  unfold step
  rw [hrun]

/-- A call with an allowed name returns. -/
lemma Filled.Inv.returns (h : x.Inv names) (hok : Allowed call x) : ∃ x', x.step call = some x' := by
  refine Filled.step_of_fill h.opened ?_
  rcases hok with hplain | hfull
  · exact h.filling.fill_plain hplain
  · exact h.filling.fill_full call.noNul hfull

/-- A call that adds nothing keeps the map and stores nothing. -/
lemma Filled.Keeps.of_nothing (hmap : x'.store.secureStorageMap = x.store.secureStorageMap)
    (hstores : fillStores x.store.secureStorageMap call.itemName storeObjectSize = some []) :
    Keeps call x x' := by
  refine ⟨hmap ▸ List.prefix_rfl, fun stores heq w hw => ?_⟩
  obtain rfl := Option.some.inj (hstores.symm.trans heq)
  exact absurd hw List.not_mem_nil

/-- What an allowed call does. -/
lemma Filled.Inv.keeps (h : x.Inv names) (hok : Allowed call x) (hstep : x.step call = some x') :
    (∃ names', x'.Inv names') ∧ Keeps call x x' := by
  obtain ⟨hopen, j, m', hfill, rfl, hacc⟩ := Filled.step_cases h.opened hstep
  have hends := h.filling.ends call.noNul hfill
  generalize hm : x'.store.secureStorageMap = m' at hends
  cases hends with
  | found hk hstores =>
    rename_i k
    have hplain := h.plain hok (Or.inl (by simp [hk]))
    rw [if_pos (by omega), Int.toNat_natCast] at hacc
    refine ⟨⟨names, hopen, hm ▸ h.filling, fun a i hmem => ?_⟩, .of_nothing hm hstores⟩
    rw [hacc, List.mem_append, List.mem_singleton, Prod.mk.injEq] at hmem
    rcases hmem with hmem | ⟨rfl, rfl⟩
    · exact h.found a i hmem
    · rw [indexOf_entryText hplain.noColon] at hk
      exact ⟨hplain, hk⟩
  | full hnone hcount hstores =>
    rw [if_neg (by decide)] at hacc
    exact ⟨⟨names, hopen, hm ▸ h.filling, fun a i hmem => h.found a i (hacc ▸ hmem)⟩,
      .of_nothing hm hstores⟩
  | added hnone hcount hstore hstores =>
    have hplain := h.plain hok (Or.inr hcount)
    have hfilling := h.filling.append hplain hcount hstore
    rw [if_pos (by omega)] at hacc
    refine ⟨⟨names ++ [call.itemName], hopen, hm ▸ hfilling, fun a i hmem => ?_⟩, ?_, ?_⟩
    · rw [hacc, List.mem_append, List.mem_singleton, Prod.mk.injEq] at hmem
      rcases hmem with hmem | ⟨rfl, rfl⟩
      · obtain ⟨ha, hi⟩ := h.found a i hmem
        refine ⟨ha, ?_⟩
        rw [indexOf_append, hi]
        rfl
      · refine ⟨hplain, ?_⟩
        rw [indexOf_entryText hplain.noColon] at hnone
        rw [indexOf_append, hnone, if_pos List.prefix_rfl, Option.none_or, Option.some.injEq]
        omega
    · rw [hm, h.filling.mapEntries_eq, hfilling.mapEntries_eq, List.map_append]
      exact List.prefix_append _ _
    · intro stores heq w hw
      obtain rfl := Option.some.inj (hstores.symm.trans heq)
      rw [List.mem_singleton.mp hw]
      have hle := length_encode_of_filling h.filling.count h.filling.plain
      have hshort := hplain.short
      have hdata : mapDataSize = 4088 := rfl
      rw [length_mapEntry]
      omega

/-- The step lemma. -/
lemma Filled.Inv.step (h : x.Inv names) (hok : Allowed call x) :
    ∃ x', x.step call = some x' ∧ (∃ names', x'.Inv names') ∧ Keeps call x x' := by
  obtain ⟨x', hstep⟩ := h.returns hok
  exact ⟨x', hstep, h.keeps hok hstep⟩

/-- A call after which the accepted names are found was allowed. -/
lemma Filled.Inv.allowed (h : x.Inv names) (hstep : x.step call = some x') (hfound : x'.Found) :
    Allowed call x := by
  obtain ⟨-, j, m', hfill, -, hacc⟩ := Filled.step_cases h.opened hstep
  have haccepted : 0 ≤ j → PlainName call.itemName := by
    intro hj
    rw [if_pos hj] at hacc
    have hhit := hfound call.itemName j.toNat (by rw [hacc]; simp)
    exact probeFrom_hit_plain call.noNul hhit
  cases h.filling.ends call.noNul hfill with
  | found => exact Or.inl (haccepted (by omega))
  | full hnone hcount =>
    refine Or.inr ⟨?_, ?_, ?_⟩
    · rw [h.filling.mapEntries_eq, List.length_map, hcount]
    · rw [h.filling.mapEntries_eq]
      exact indexOf_eq_none.mp hnone
    · exact (h.filling.fillScan_ne_none_iff call.noNul hnone (by omega)).mp (fillScan_of_fill hfill)
  | added => exact Or.inl (haccepted (by omega))

end Step

/-- What the theorem says, for the runs from an all-zero map. -/
lemma Filled.alongAll_iff {s : Store} (hinit : s.secureStorageInited = true)
    (hzero : s.secureStorageMap = zeros secBlkSize) (calls : List StorageCall) :
    AlongAll step Found Keeps ⟨s, []⟩ calls ↔ MeetsAll step Allowed ⟨s, []⟩ calls := by
  have hinv : ∃ names, Filled.Inv ⟨s, []⟩ names := by
    refine ⟨[], hinit, ⟨?_, by simp, by simp⟩, by simp⟩
    rw [hzero]
    rfl
  have hgood : ∀ {x : Filled}, (∃ names, x.Inv names) → x.Found := fun ⟨_, h⟩ => h.found'
  have hkeep : ∀ {call x}, (∃ names, Filled.Inv x names) → Filled.Allowed call x →
      ∃ x', x.step call = some x' ∧ (∃ names', x'.Inv names') ∧ Filled.Keeps call x x' :=
    fun ⟨_, h⟩ hok => h.step hok
  have hexact : ∀ {call x x'}, (∃ names, Filled.Inv x names) → x.step call = some x' →
      Filled.Keeps call x x' → x'.Found → Filled.Allowed call x :=
    fun ⟨_, h⟩ hstep _ hfound => h.allowed hstep hfound
  exact alongAll_iff_meetsAll hgood hkeep hexact calls hinv

/-- **Names in the map.**  In every sequence of `sunxi_secure_storage_write` calls with arbitrary
C strings, from an open session with an all-zero map, every call returns, accepted names stay found
at their index, the entries are kept and only `data` is stored to, if and only if every call's name
is plain or meets a full map in which no entry begins with it. -/
theorem mapNames_iff (s : Store) (hinit : s.secureStorageInited = true)
    (hzero : s.secureStorageMap = zeros secBlkSize) (calls : List StorageCall) :
    AlongAll Filled.step Filled.Found Filled.Keeps ⟨s, []⟩ calls ↔
      MeetsAll Filled.step Filled.Allowed ⟨s, []⟩ calls :=
  Filled.alongAll_iff hinit hzero calls

/-! ### A name with a colon -/

/-- A write of the name `a`, and one of the name `a:b`. -/
def plainCall : StorageCall := ⟨[97], by decide, [], true, smooth⟩
def colonCall : StorageCall := ⟨[97, 58, 98], by decide, [], true, smooth⟩

theorem mapNames_iff_plain :
    AlongAll Filled.step Filled.Found Filled.Keeps ⟨openStore, []⟩ [plainCall] :=
  (mapNames_iff openStore rfl rfl [plainCall]).mpr
    ⟨Or.inl ⟨by decide, by decide, by decide⟩, fun _ _ => trivial⟩

/-- `sunxi_secure_storage_write` of the name `a:b` to an all-zero map returns, and the name is not
found. -/
theorem mapNames_colon :
    ¬ ∀ (s : Store) (calls : List StorageCall), s.secureStorageInited = true →
      s.secureStorageMap = zeros secBlkSize →
      AlongAll Filled.step Filled.Found Filled.Keeps ⟨s, []⟩ calls := by
  intro hall
  have hzero : mapEntries openStore.secureStorageMap = [] := by
    have hcons : openStore.secureStorageMap = 0 :: zeros 4095 := zeros_succ 4095
    rw [hcons, mapEntries, if_pos rfl]
  have hmeets := (Filled.alongAll_iff rfl rfl [colonCall]).mp (hall openStore [colonCall] rfl rfl)
  rcases hmeets.1 with hplain | ⟨hfull, -, -⟩
  · exact hplain.noColon (by decide)
  · rw [hzero] at hfull
    exact absurd hfull (by decide)

end Softwinner.SecureStorage
