import Softwinner.SecureStorage.Scan
import Softwinner.SecureStorage.Session

/-!
# Malformed maps

`sunxi_secure_storage_init` takes over maps that nothing has checked: a block without magic is
kept when its first byte is neither `0` nor `0xff`.  Both scanners then run over arbitrary bytes.
They test a byte before they test its offset, they test the offset against the size of the block
and not against that of `data`, and they go from one entry to the next with `strlen`.

`LookupStays` and `InsertStays` follow the walk of each scanner over the bytes of the map: how the
walk ends at an entry, and what has to lie inside the block for that.  `mapScan_safe_iff` says that
these are exactly the maps on which the lookup and the insertion read only the block, and the
insertion writes only `data`.
-/

namespace Softwinner.SecureStorage

open Framework Prog

/-! ## What is read and written -/

/-- The stores of `__fill_name_in_map`, each an offset in the map and a number of bytes. -/
def fillStores (buffer itemName : Bytes) (length : ℕ) : Option (List (ℕ × ℕ)) :=
  (fillScan itemName 1 buffer).map fun
    | .found _ => []
    -- `memset` of the block, and the entry at its front
    | .dirty => [(0, secBlkSize), (0, (mapEntry itemName length).length)]
    | .free index bufStart =>
      if index ≥ 32 then []
      else [(buffer.length - bufStart.length, (mapEntry itemName length).length)]

/-- Both scanners return without an access outside the block, and the insertion writes to `data`
only. -/
def HandledSafely (m a : Bytes) (n : ℕ) : Prop :=
  probeNameInMap m a ≠ none ∧ fillNameInMap m a n ≠ none ∧
    (∃ stores, fillStores m a n = some stores ∧ ∀ w ∈ stores, w.1 + w.2 ≤ mapDataSize) ∧
    ∀ r m', fillNameInMap m a n = some (r, m') → m'.drop mapDataSize = m.drop mapDataSize

/-! ## The walks -/

/-- Where the name of an entry ends, for the lookup. -/
def nameEnd (buf : Bytes) : ℕ := buf.findIdx fun c => c == 58 || c == 0

/-- Where its length ends, counted from behind the name's end. -/
def lengthEnd (buf : Bytes) : ℕ := (buf.drop (nameEnd buf + 1)).findIdx fun c => c == 32 || c == 0

/-- Where the name of an entry ends, for the insertion, which does not stop at a NUL. -/
def colonEnd (buf : Bytes) : ℕ := buf.findIdx fun c => c == 58

/-- The name of an entry, as the lookup copies it to an array of 64 bytes. -/
def entryName (buf : Bytes) : Bytes :=
  buf.take (nameEnd buf) ++ zeros (mapKeyNameSize - nameEnd buf)

/-- The lookup of `a` reads only `buf`, the rest of the block from the current entry on. -/
inductive LookupStays (a : Bytes) : Bytes → Prop
  /-- The end of the entries. -/
  | stop (b : Bytes) : LookupStays a (0 :: b)
  /-- A name of 64 bytes or more ends the lookup at the 65th. -/
  | longName {c : UInt8} {b : Bytes} (hc : c ≠ 0) (hname : mapKeyNameSize ≤ nameEnd (c :: b))
      (hin : mapKeyNameSize < (c :: b).length) : LookupStays a (c :: b)
  /-- So does a length of 32 bytes or more. -/
  | longLength {c : UInt8} {b : Bytes} (hc : c ≠ 0) (hname : nameEnd (c :: b) < mapKeyNameSize)
      (hlength : mapKeyDataSize ≤ lengthEnd (c :: b))
      (hin : nameEnd (c :: b) + 1 + mapKeyDataSize < (c :: b).length) : LookupStays a (c :: b)
  /-- The entry is a hit. -/
  | hit {c : UInt8} {b : Bytes} (hc : c ≠ 0) (hname : nameEnd (c :: b) < mapKeyNameSize)
      (hlength : lengthEnd (c :: b) < mapKeyDataSize)
      (hin : nameEnd (c :: b) + 1 + lengthEnd (c :: b) < (c :: b).length)
      (heq : a <+: entryName (c :: b)) : LookupStays a (c :: b)
  /-- It is not, and a NUL leads to the next one. -/
  | next {c : UInt8} {b : Bytes} {k : ℕ} (hc : c ≠ 0) (hname : nameEnd (c :: b) < mapKeyNameSize)
      (hlength : lengthEnd (c :: b) < mapKeyDataSize)
      (hin : nameEnd (c :: b) + 1 + lengthEnd (c :: b) < (c :: b).length)
      (hne : ¬ a <+: entryName (c :: b)) (hstr : strlen (c :: b) = some k)
      (hrest : LookupStays a ((c :: b).drop (k + 1))) : LookupStays a (c :: b)

/-- The insertion of `a` with length `n` reads only `buf`, the rest of the block from entry number
`index` on, and writes only to `data`. -/
inductive InsertStays (a : Bytes) (n : ℕ) : ℕ → Bytes → Prop
  /-- The map is full. -/
  | full {index : ℕ} {b : Bytes} (hindex : 32 ≤ index) : InsertStays a n index (0 :: b)
  /-- There is room for the entry in `data`. -/
  | room {index : ℕ} {b : Bytes} (hindex : index < 32)
      (hfit : secBlkSize - (0 :: b).length + (mapEntry a n).length ≤ mapDataSize) :
      InsertStays a n index (0 :: b)
  /-- The name is there already. -/
  | hit {index : ℕ} {c : UInt8} {b : Bytes} (hc : c ≠ 0)
      (hname : colonEnd (c :: b) < mapKeyNameSize)
      (hin : colonEnd (c :: b) < (c :: b).length) (heq : a <+: c :: b) :
      InsertStays a n index (c :: b)
  /-- It is not, and a NUL leads to the next entry. -/
  | next {index : ℕ} {c : UInt8} {b : Bytes} {k : ℕ} (hc : c ≠ 0)
      (hname : colonEnd (c :: b) < mapKeyNameSize) (hin : colonEnd (c :: b) < (c :: b).length)
      (hroom : a.length ≤ (c :: b).length) (hne : ¬ a <+: c :: b) (hstr : strlen (c :: b) = some k)
      (hrest : InsertStays a n (index + 1) ((c :: b).drop (k + 1))) : InsertStays a n index (c :: b)

/-! ## The lookup -/

section Lookup

variable {a buf b : Bytes} {c : UInt8} {index n : ℕ}

lemma scanName_eq (buf : Bytes) :
    scanUntil (fun c => c == 58 || c == 0) mapKeyNameSize buf =
      if min (nameEnd buf) mapKeyNameSize < buf.length then
        some (buf.take (min (nameEnd buf) mapKeyNameSize),
          buf.drop (min (nameEnd buf) mapKeyNameSize))
      else none := scanUntil_eq _ _ _

lemma scanLength_eq (buf : Bytes) :
    scanUntil (fun c => c == 32 || c == 0) mapKeyDataSize (buf.drop (nameEnd buf + 1)) =
      if min (lengthEnd buf) mapKeyDataSize < (buf.drop (nameEnd buf + 1)).length then
        some ((buf.drop (nameEnd buf + 1)).take (min (lengthEnd buf) mapKeyDataSize),
          (buf.drop (nameEnd buf + 1)).drop (min (lengthEnd buf) mapKeyDataSize))
      else none := scanUntil_eq _ _ _

lemma length_entryName (hname : nameEnd buf < mapKeyNameSize) (hin : nameEnd buf < buf.length) :
    (entryName buf).length = mapKeyNameSize := by
  rw [entryName, List.length_append, List.length_take, length_zeros]
  omega

/-- One turn of the lookup, by the positions in the entry. -/
lemma probeTurn_cons (ha : a.length ≤ mapKeyNameSize) (hc : c ≠ 0) : probeTurn a (c :: b) =
    if mapKeyNameSize ≤ nameEnd (c :: b) then
      if mapKeyNameSize < (c :: b).length then some (.done none) else none
    else if mapKeyDataSize ≤ lengthEnd (c :: b) then
      if nameEnd (c :: b) + 1 + mapKeyDataSize < (c :: b).length then some (.done none) else none
    else if nameEnd (c :: b) + 1 + lengthEnd (c :: b) < (c :: b).length then
      if a <+: entryName (c :: b) then
        some (.done (some (atol (slice (c :: b) (nameEnd (c :: b) + 1) (lengthEnd (c :: b))))))
      else (strlen (c :: b)).map .next
    else none := by
  have hname64 : mapKeyNameSize = 64 := rfl
  have hdata32 : mapKeyDataSize = 32 := rfl
  rw [probeTurn, if_neg hc, scanName_eq]
  by_cases hlong : mapKeyNameSize ≤ nameEnd (c :: b)
  · rw [if_pos hlong, Nat.min_eq_right hlong]
    split_ifs with hin
    · simp only
      rw [if_pos (by rw [List.length_take]; omega)]
    · rfl
  rw [if_neg hlong, Nat.min_eq_left (by omega)]
  by_cases hin : nameEnd (c :: b) < (c :: b).length
  swap
  · rw [if_neg hin]
    split_ifs
    · omega
    · rfl
    · omega
    · omega
    · rfl
  rw [if_pos hin]
  simp only
  rw [if_neg (by rw [List.length_take]; omega), List.drop_drop, scanLength_eq, List.length_drop]
  by_cases hrubbish : mapKeyDataSize ≤ lengthEnd (c :: b)
  · rw [if_pos hrubbish, Nat.min_eq_right hrubbish]
    by_cases hin' : nameEnd (c :: b) + 1 + mapKeyDataSize < (c :: b).length
    · rw [if_pos hin', if_pos (by omega)]
      simp only
      rw [if_pos (by rw [List.length_take, List.length_drop]; omega)]
    · rw [if_neg hin', if_neg (by omega)]
  rw [if_neg hrubbish, Nat.min_eq_left (by omega)]
  by_cases hin' : nameEnd (c :: b) + 1 + lengthEnd (c :: b) < (c :: b).length
  swap
  · rw [if_neg hin', if_neg (by omega)]
  rw [if_pos hin', if_pos (by omega)]
  simp only
  have hlen : (List.take (nameEnd (c :: b)) (c :: b)).length = nameEnd (c :: b) := by
    rw [List.length_take]
    omega
  have hbuf : List.take (nameEnd (c :: b)) (c :: b) ++ zeros (mapKeyNameSize - nameEnd (c :: b)) =
      entryName (c :: b) := rfl
  rw [if_neg (by rw [List.length_take, List.length_drop]; omega), hlen, hbuf, memcmp_comm,
    memcmp_eq_decide (by rw [length_entryName (by omega) hin]; exact ha)]
  by_cases hhit : a <+: entryName (c :: b)
  · simp only [hhit, decide_true, if_true]
    rfl
  · simp only [hhit, decide_false, if_false]

/-- The lookup returns exactly where its walk stays inside. -/
lemma probeFrom_ne_none_iff (ha : a.length ≤ mapKeyNameSize) :
    ∀ {index : ℕ}, probeFrom a index buf ≠ none ↔ LookupStays a buf := by
  induction buf using entry_induction with
  | _ buf ih =>
    intro index
    rw [probeFrom_eq]
    cases buf with
    | nil =>
      refine ⟨fun hne => absurd rfl hne, fun hstays => ?_⟩
      cases hstays
    | cons c b =>
      by_cases hc : c = 0
      · subst hc
        exact ⟨fun _ => .stop b, fun _ => by simp [probeTurn]⟩
      rw [probeTurn_cons ha hc]
      constructor
      · intro hne
        split_ifs at hne with hname hin hlength hin hin hhit
        · exact .longName hc hname hin
        · exact absurd rfl hne
        · exact .longLength hc (by omega) hlength hin
        · exact absurd rfl hne
        · exact .hit hc (by omega) (by omega) hin hhit
        · cases hstr : strlen (c :: b) with
          | none =>
            rw [hstr] at hne
            exact absurd rfl hne
          | some k =>
            rw [hstr] at hne
            exact .next hc (by omega) (by omega) hin hhit hstr ((ih k hstr).mp hne)
        · exact absurd rfl hne
      · intro hstays
        cases hstays with
        | stop => exact absurd rfl hc
        | longName _ hname hin =>
          rw [if_pos hname, if_pos hin]
          simp
        | longLength _ hname hlength hin =>
          rw [if_neg (by omega), if_pos hlength, if_pos hin]
          simp
        | hit _ hname hlength hin heq =>
          rw [if_neg (by omega), if_neg (by omega), if_pos hin, if_pos heq]
          simp
        | next _ hname hlength hin hne hstr hrest =>
          rw [if_neg (by omega), if_neg (by omega), if_pos hin, if_neg hne, hstr]
          exact (ih _ hstr).mpr hrest

end Lookup

/-! ## The insertion -/

section Insertion

variable {a m buf b : Bytes} {c : UInt8} {index n : ℕ}

lemma scanColon_eq (buf : Bytes) :
    scanUntil (fun c => c == 58) mapKeyNameSize buf =
      if min (colonEnd buf) mapKeyNameSize < buf.length then
        some (buf.take (min (colonEnd buf) mapKeyNameSize),
          buf.drop (min (colonEnd buf) mapKeyNameSize))
      else none := scanUntil_eq _ _ _

/-- One turn of the insertion, by the positions in the entry. -/
lemma fillTurn_cons (hc : c ≠ 0) : fillTurn a index (c :: b) =
    if mapKeyNameSize ≤ colonEnd (c :: b) then
      if mapKeyNameSize < (c :: b).length then some (.done .dirty) else none
    else if colonEnd (c :: b) < (c :: b).length ∧ a.length ≤ (c :: b).length then
      if a <+: c :: b then some (.done (.found index)) else (strlen (c :: b)).map .next
    else none := by
  have hname64 : mapKeyNameSize = 64 := rfl
  rw [fillTurn, if_neg hc, scanColon_eq]
  by_cases hlong : mapKeyNameSize ≤ colonEnd (c :: b)
  · rw [if_pos hlong, Nat.min_eq_right hlong]
    split_ifs with hin
    · simp only
      rw [if_pos (by rw [List.length_take]; omega)]
    · rfl
  rw [if_neg hlong, Nat.min_eq_left (by omega)]
  by_cases hin : colonEnd (c :: b) < (c :: b).length
  swap
  · rw [if_neg hin, if_neg fun h => hin h.1]
  rw [if_pos hin]
  simp only
  rw [if_neg (by rw [List.length_take]; omega)]
  by_cases hroom : a.length ≤ (c :: b).length
  · rw [if_pos ⟨hin, hroom⟩, memcmp_eq_decide hroom]
    by_cases hhit : a <+: c :: b
    · simp only [hhit, decide_true, if_true]
    · simp only [hhit, decide_false, if_false]
  · rw [if_neg fun h => hroom h.2, memcmp, if_neg fun h => hroom h.1]

/-- How an insertion may end. -/
def GoodEnd (a : Bytes) (n : ℕ) : FillScan → Prop
  | .found _ => True
  | .dirty => False
  | .free index rest =>
    32 ≤ index ∨ secBlkSize - rest.length + (mapEntry a n).length ≤ mapDataSize

/-- The insertion ends well exactly where its walk stays inside. -/
lemma exists_goodEnd_iff : ∀ {index : ℕ},
    (∃ r, fillScan a index buf = some r ∧ GoodEnd a n r) ↔ InsertStays a n index buf := by
  induction buf using entry_induction with
  | _ buf ih =>
    intro index
    rw [fillScan_eq]
    cases buf with
    | nil =>
      constructor
      · rintro ⟨r, hr, -⟩
        cases hr
      · intro hstays
        cases hstays
    | cons c b =>
      by_cases hc : c = 0
      · subst hc
        simp only [fillTurn, if_true, Option.some.injEq, exists_eq_left']
        constructor
        · rintro (hfull | hfit)
          · exact .full hfull
          · by_cases hindex : 32 ≤ index
            · exact .full hindex
            · exact .room (by omega) hfit
        · intro hstays
          cases hstays with
          | full hindex => exact Or.inl hindex
          | room _ hfit => exact Or.inr hfit
          | hit hc => exact absurd rfl hc
          | next hc => exact absurd rfl hc
      rw [fillTurn_cons hc]
      constructor
      · rintro ⟨r, hr, hgood⟩
        split_ifs at hr with hlong hlt hin hhit
        · obtain rfl := Option.some.inj hr
          exact absurd hgood id
        · exact .hit hc (by omega) hin.1 hhit
        · cases hstr : strlen (c :: b) with
          | none =>
            rw [hstr] at hr
            cases hr
          | some k =>
            rw [hstr] at hr
            exact .next hc (by omega) hin.1 hin.2 hhit hstr ((ih k hstr).mp ⟨r, hr, hgood⟩)
      · intro hstays
        cases hstays with
        | full => exact absurd rfl hc
        | room => exact absurd rfl hc
        | hit _ hname hin heq =>
          rw [if_neg (by omega), if_pos ⟨hin, heq.length_le⟩, if_pos heq]
          exact ⟨_, rfl, trivial⟩
        | next _ hname hin hroom hne hstr hrest =>
          rw [if_neg (by omega), if_pos ⟨hin, hroom⟩, if_neg hne, hstr]
          exact (ih _ hstr).mpr hrest

/-- Outside its stores the insertion leaves the map as it is. -/
lemma fillNameInMap_frame {r : ℤ} {m' : Bytes} {stores : List (ℕ × ℕ)} {i : ℕ}
    (hm : m.length = secBlkSize) (hfill : fillNameInMap m a n = some (r, m'))
    (hstores : fillStores m a n = some stores)
    (hout : ∀ w ∈ stores, i < w.1 ∨ w.1 + w.2 ≤ i) : m'[i]? = m[i]? := by
  have hblk : secBlkSize = 4096 := rfl
  unfold fillNameInMap at hfill
  unfold fillStores at hstores
  cases hscan : fillScan a 1 m with
  | none =>
    rw [hscan] at hfill
    cases hfill
  | some x =>
    rw [hscan] at hfill hstores
    obtain rfl := Option.some.inj hstores
    cases x with
    | found index =>
      obtain ⟨-, rfl⟩ := Prod.mk.inj (Option.some.inj hfill)
      rfl
    | dirty =>
      have hblock : secBlkSize ≤ i := by
        rcases hout (0, secBlkSize) (by simp) with hlt | hle
        · exact absurd hlt (Nat.not_lt_zero i)
        · omega
      obtain ⟨m₁, hstore, heq⟩ := Option.map_eq_some_iff.mp hfill
      obtain ⟨-, rfl⟩ := Prod.mk.inj heq
      have hlen := length_store hstore
      rw [length_zeros] at hlen
      rw [List.getElem?_eq_none (by omega), List.getElem?_eq_none (by omega)]
    | free index rest =>
      simp only at hfill hout
      split_ifs at hfill hout
      · obtain ⟨-, rfl⟩ := Prod.mk.inj (Option.some.inj hfill)
        rfl
      · obtain ⟨m₁, hstore, heq⟩ := Option.map_eq_some_iff.mp hfill
        obtain ⟨-, rfl⟩ := Prod.mk.inj heq
        have hi := hout _ (List.mem_singleton_self _)
        unfold store at hstore
        split_ifs at hstore with hfit
        obtain rfl := Option.some.inj hstore
        rw [getElem?_patch (by omega)]
        split_ifs
        · rfl
        · omega
        · rfl

/-- A store into `data` leaves `magic` and `crc`. -/
lemma drop_of_store {m m' w : Bytes} {off : ℕ} (hstore : store m off w = some m')
    (hin : off + w.length ≤ mapDataSize) : m'.drop mapDataSize = m.drop mapDataSize := by
  unfold store at hstore
  split_ifs at hstore with hfit
  obtain rfl := Option.some.inj hstore
  apply List.ext_getElem?
  intro i
  rw [List.getElem?_drop, List.getElem?_drop, getElem?_patch (by omega), if_neg (by omega),
    if_neg (by omega)]

/-- The whole insertion. -/
lemma fill_safe_iff (hm : m.length = secBlkSize) :
    (fillNameInMap m a n ≠ none ∧
      (∃ stores, fillStores m a n = some stores ∧ ∀ w ∈ stores, w.1 + w.2 ≤ mapDataSize) ∧
      ∀ r m', fillNameInMap m a n = some (r, m') → m'.drop mapDataSize = m.drop mapDataSize) ↔
    InsertStays a n 1 m := by
  have hdata : mapDataSize = 4088 := rfl
  have hblk : secBlkSize = 4096 := rfl
  rw [← exists_goodEnd_iff]
  unfold fillNameInMap fillStores
  cases hscan : fillScan a 1 m with
  | none => simp
  | some r =>
    simp only [Option.some.injEq, exists_eq_left', Option.map_some]
    cases r with
    | found index =>
      refine ⟨fun _ => trivial, fun _ => ⟨by simp, by simp, fun r m' hr => ?_⟩⟩
      obtain ⟨-, rfl⟩ := Prod.mk.inj (Option.some.inj hr)
      rfl
    | dirty =>
      refine ⟨fun ⟨_, hstores, _⟩ => ?_, fun hgood => absurd hgood id⟩
      have hall := hstores (0, secBlkSize) (by simp)
      omega
    | free index rest =>
      simp only [ge_iff_le, GoodEnd]
      by_cases hindex : 32 ≤ index
      · simp only [hindex, if_true, true_or, iff_true]
        refine ⟨by simp, by simp, fun r m' hr => ?_⟩
        obtain ⟨-, rfl⟩ := Prod.mk.inj (Option.some.inj hr)
        rfl
      · simp only [hindex, if_false, false_or, List.mem_singleton, forall_eq, hm]
        constructor
        · rintro ⟨-, hfit, -⟩
          exact hfit
        · intro hfit
          have hstore : store m (secBlkSize - rest.length) (mapEntry a n) =
              some (patch m (secBlkSize - rest.length) (mapEntry a n)) := store_of_le (by omega)
          refine ⟨?_, hfit, fun r m' hr => ?_⟩
          · rw [hstore]
            simp
          · rw [hstore] at hr
            obtain ⟨-, rfl⟩ := Prod.mk.inj (Option.some.inj hr)
            exact drop_of_store hstore hfit

end Insertion

/-! ## The maps that are taken over -/

section Accepted

variable {crc32 : Bytes → UInt32} {Ok : Op → Choice → Store → Prop} {s : Store} {m a : Bytes}
  {n : ℕ}

lemma length_loadedMap (hm : m.length = secBlkSize) :
    (loadedMap crc32 m).length = secBlkSize := by
  unfold loadedMap
  split_ifs
  · simp
  · simp
  · exact hm
  · exact hm

/-- Whatever is on the flash, the map that `init` leaves fills its block. -/
lemma wp_init_length (hlen : s.secureStorageMap.length = secBlkSize) :
    wp perform Ok (sunxiSecureStorageInit crc32)
      (fun _ _ s' => s'.secureStorageMap.length = secBlkSize) false s := by
  unfold sunxiSecureStorageInit
  refine ⟨rfl, ?_⟩
  refine wp_step fun _ _ => ⟨_, _, rfl, ?_⟩
  split_ifs
  · exact wp_step fun _ _ => ⟨_, _, rfl, hlen⟩
  rw [wp_bind]
  refine wp_getFlashType fun _ b _ => ?_
  refine wp_step fun _ _ => ⟨_, _, rfl, ?_⟩
  rw [wp_bind]
  refine wp_nvRead_frame fun r map hmap => ?_
  refine wp_step fun _ _ => ⟨_, _, rfl, ?_⟩
  have hread : map.length = secBlkSize := hmap.trans hlen
  split_ifs
  · exact ⟨rfl, hread⟩
  · refine wp_step fun _ _ => ⟨_, _, rfl, ?_⟩
    exact wp_step fun _ _ => ⟨_, _, rfl, length_loadedMap hread⟩

lemma handledSafely_iff (hm : m.length = secBlkSize) (ha : a.length ≤ 63) :
    HandledSafely m a n ↔ LookupStays a m ∧ InsertStays a n 1 m := by
  unfold HandledSafely probeNameInMap
  rw [probeFrom_ne_none_iff (Nat.le_trans ha (by decide)), fill_safe_iff hm]

end Accepted

/-- **Malformed maps.**  On every map that `sunxi_secure_storage_init` leaves in a session it opens,
from whatever the flash holds, and for every name of at most 63 bytes, the two scanners read only
the block and the insertion writes only `data`, if and only if both walks stay inside; and what the
insertion writes is what `fillStores` says. -/
theorem mapScan_safe_iff (crc32 : Bytes → UInt32) (s : Store) (env : ℕ → Choice)
    (c : Conf Choice Store) (hlen : s.secureStorageMap.length = secBlkSize)
    (hinit : (sunxiSecureStorageInit crc32).run perform ⟨false, env, s⟩ = .ok (0, c))
    (a : Bytes) (ha : a.length ≤ 63) (n : ℕ) :
    (HandledSafely c.st.secureStorageMap a n ↔
      LookupStays a c.st.secureStorageMap ∧ InsertStays a n 1 c.st.secureStorageMap) ∧
    ∀ r m' stores, fillNameInMap c.st.secureStorageMap a n = some (r, m') →
      fillStores c.st.secureStorageMap a n = some stores →
      ∀ i, (∀ w ∈ stores, i < w.1 ∨ w.1 + w.2 ≤ i) → m'[i]? = c.st.secureStorageMap[i]? := by
  have hwp : wp perform AnyOk (sunxiSecureStorageInit crc32)
      (fun _ _ s' => s'.secureStorageMap.length = secBlkSize) false s := wp_init_length hlen
  have hm : c.st.secureStorageMap.length = secBlkSize :=
    wp_of_run (G := fun _ => True) hwp (fun _ => trivial) hinit
  refine ⟨handledSafely_iff hm ha, fun r m' stores hfill hstores i hout => ?_⟩
  exact fillNameInMap_frame hm hfill hstores hout

/-! ### A blank map, and an entry without end -/

/-- An eMMC device that holds `m` in both copies of its map item. -/
def deviceWithMap (m : Bytes) : Store := sdWritten blankStore 0 m m

lemma holdsMap_deviceWithMap {crc32 : Bytes → UInt32} {m : Bytes} (hm : m.length = secBlkSize)
    (hcheck : checkSecureStorageMap crc32 m = 0 ∨ checkSecureStorageMap crc32 m = 2) :
    HoldsMap crc32 flashTypeSd1 (deviceWithMap m) m :=
  ⟨fun hd => absurd hd (by decide),
    fun _ => ⟨copy0_sdWritten_self hm, copy1_sdWritten_self hm (Nat.le_of_eq hm)⟩, hcheck, hm⟩

/-- `init` on such a device. -/
lemma exists_init_deviceWithMap {crc32 : Bytes → UInt32} {m : Bytes} (hm : m.length = secBlkSize)
    (hcheck : checkSecureStorageMap crc32 m = 0 ∨ checkSecureStorageMap crc32 m = 2) :
    ∃ c, (sunxiSecureStorageInit crc32).run perform ⟨false, smooth, deviceWithMap m⟩ = .ok (0, c) ∧
      c.st.secureStorageMap = loadedMap crc32 m := by
  have hwp : wp perform AllOk (sunxiSecureStorageInit crc32)
      (fun r _ s' => r = 0 ∧ s'.secureStorageMap = loadedMap crc32 m) false (deviceWithMap m) := by
    refine wp_sunxiSecureStorageInit_ok (fun _ => readsOk_allOk _) rfl (by simp [deviceWithMap,
      sdWritten, blankStore]) (holdsMap_deviceWithMap hm hcheck) (fun _ => ⟨rfl, rfl⟩) fun hno => ?_
    exact absurd (Or.inr (Or.inl rfl)) hno
  obtain ⟨r, c, hrun, rfl, hmap⟩ := wp_run (G := fun c => c.ok = true)
    (c := ⟨false, smooth, deviceWithMap m⟩) hwp fun _ => rfl
  exact ⟨c, hrun, hmap⟩

/-- A blank map is handled safely. -/
theorem mapScan_safe_iff_blank :
    ∃ c, (sunxiSecureStorageInit Framework.crc32).run perform
        ⟨false, smooth, deviceWithMap (zeros secBlkSize)⟩ = .ok (0, c) ∧
      HandledSafely c.st.secureStorageMap [97] storeObjectSize := by
  have hcheck : checkSecureStorageMap Framework.crc32 (zeros secBlkSize) = 2 :=
    checkSecureStorageMap_zeros secBlkSize
  obtain ⟨c, hrun, hmap⟩ := exists_init_deviceWithMap
    (length_zeros secBlkSize) (Or.inr hcheck)
  have hzeros : c.st.secureStorageMap = 0 :: zeros 4095 := by
    rw [hmap, loadedMap, hcheck, if_neg (by decide), if_pos rfl, ite_self]
    exact zeros_succ 4095
  refine ⟨c, hrun, (mapScan_safe_iff Framework.crc32 _ smooth c (by simp [deviceWithMap, sdWritten,
    blankStore]) hrun [97] (by decide) storeObjectSize).1.mpr ?_⟩
  rw [hzeros]
  refine ⟨.stop _, .room (by decide) ?_⟩
  rw [← zeros_succ, length_zeros, length_mapEntry]
  decide

/-- An entry that no NUL ends: `b:1`, a blank, and `k` bytes of filling. -/
def endlessEntry (k : ℕ) : Bytes := 98 :: 58 :: 49 :: 32 :: List.replicate k 120

lemma not_lookupStays_endlessEntry (k : ℕ) : ¬ LookupStays [97] (endlessEntry k) := by
  have hname : nameEnd (endlessEntry k) = 1 := by simp [nameEnd, endlessEntry, List.findIdx_cons]
  have hlength : lengthEnd (endlessEntry k) = 1 := by
    rw [lengthEnd, hname]
    simp [endlessEntry, List.findIdx_cons]
  intro hstays
  unfold endlessEntry at hname hlength hstays
  cases hstays with
  | longName _ hlong => exact absurd hlong (by rw [hname]; decide)
  | longLength _ _ hlong => exact absurd hlong (by rw [hlength]; decide)
  | hit _ _ _ _ heq =>
    rw [entryName, hname, List.take_succ_cons, List.cons_append, List.cons_prefix_cons] at heq
    exact absurd heq.1 (by decide)
  | next _ _ _ _ _ hstr =>
    obtain ⟨-, t, hdrop⟩ := exists_of_cstr_eq_some (show cstr _ = some _ by rw [cstr, hstr]; rfl)
    have hmem : (0 : UInt8) ∈ (98 :: 58 :: 49 :: 32 :: List.replicate k 120 : Bytes) := by
      rw [hdrop]
      simp
    simp [List.mem_replicate] at hmem

/-- It has no magic, if it is long enough. -/
lemma checkSecureStorageMap_endlessEntry {crc32 : Bytes → UInt32} {k : ℕ} (hk : 4088 ≤ k) :
    checkSecureStorageMap crc32 (endlessEntry k) = 2 := by
  have hget : ∀ i, i < k → (endlessEntry k).getD (i + 4) 0 = 120 := by
    intro i hi
    simp [endlessEntry, hi]
  have hmagic : u32 (endlessEntry k) 4088 = 0x78787878 := by
    rw [u32, hget 4084 (by omega), hget 4085 (by omega), hget 4086 (by omega), hget 4087 (by omega)]
    rfl
  rw [checkSecureStorageMap, hmagic, if_pos (by decide)]

/-- The lookup of `a` in a map of such an entry leaves the block. -/
theorem mapScan_leaves_block :
    ¬ ∀ (s : Store) (env : ℕ → Choice) (c : Conf Choice Store),
      s.secureStorageMap.length = secBlkSize →
      (sunxiSecureStorageInit Framework.crc32).run perform ⟨false, env, s⟩ = .ok (0, c) →
      ∀ a : Bytes, a.length ≤ 63 → ∀ n, HandledSafely c.st.secureStorageMap a n := by
  intro hall
  have hlen : (endlessEntry 4092).length = secBlkSize := by
    rw [endlessEntry]
    simp only [List.length_cons, List.length_replicate]
    rfl
  have hcheck : checkSecureStorageMap Framework.crc32 (endlessEntry 4092) = 2 :=
    checkSecureStorageMap_endlessEntry (by decide)
  obtain ⟨c, hrun, hmap⟩ := exists_init_deviceWithMap hlen (Or.inr hcheck)
  have hsame : c.st.secureStorageMap = endlessEntry 4092 := by
    rw [hmap, loadedMap, hcheck, if_neg (by decide), if_pos rfl, if_neg]
    rw [endlessEntry, List.getD_cons_zero]
    decide
  have hsafe := hall _ _ c (by simp [deviceWithMap, sdWritten, blankStore]) hrun [97] (by decide) 0
  rw [hsame] at hsafe
  exact not_lookupStays_endlessEntry _ ((handledSafely_iff hlen (by decide)).mp hsafe).1

end Softwinner.SecureStorage
