import Mathlib.Data.List.Nodup
import Softwinner.SecureStorage.Flash

/-!
# The item map of the secure store

`secure_storage_map` names the items that are in use: its `data` is a sequence of strings
`name:length`, each closed by a NUL, and the position of an entry is the number of the flash
item that holds its object.  Two functions scan it, `__probe_name_in_map` for a lookup and
`__fill_name_in_map` for an insertion.  They are written separately, with different stop
conditions, and both compare only `strlen(item_name)` bytes.

The scanners walk a pointer, so they are recursive on the bytes that are left.  The buffer is
the whole `struct map_info` of 4096 bytes; an access behind it is `none`.  The comparisons
with `SEC_BLK_SIZE` in the C loops come after the byte has been read, so they can only fail
where the model is already undefined.

`MapOf m names` is the representation invariant: `m` encodes exactly `names`, in their order.
On such maps both scanners are the same lookup, `indexOf`, which finds the first entry that
has the requested name as a *prefix* (`probeNameInMap_mapOf`, `fillNameInMap_mapOf`); and the
invariant records what this lookup does to the order of insertion, namely that no name is a
prefix of one stored before it.
-/

namespace Softwinner.SecureStorage

open Framework

def mapKeyNameSize : ℕ := 64
def mapKeyDataSize : ℕ := 32

-- `sizeof(secure_storage_map.data)`
def mapDataSize : ℕ := 4088

/-! ## The scanners -/

/-- Collect bytes until one satisfies `stop` or `room` of them have been collected; returns
them and the pointer where the loop stopped. -/
def scanUntil (stop : UInt8 → Bool) : ℕ → Bytes → Option (Bytes × Bytes)
  | _, [] => none
  | room, c :: b =>
    if stop c then some ([], c :: b)
    else
      match room with
      | 0 => some ([], c :: b)
      | room + 1 => (scanUntil stop room b).map fun r => (c :: r.1, r.2)

/-- The outer loop of `__probe_name_in_map`: `some none` is `-1`, `some (some (index, len))` a
hit. -/
def probeFrom (itemName : Bytes) (index : ℕ) : Bytes → Option (Option (ℕ × ℤ))
  | [] => none
  | c :: b =>
    if c = 0 then some none
    else
      match scanUntil (fun c => c == 58 || c == 0) mapKeyNameSize (c :: b) with
      | none => none
      | some (name, p) =>
        if name.length ≥ mapKeyNameSize then some none
        else
          match scanUntil (fun c => c == 32 || c == 0) mapKeyDataSize (p.drop 1) with
          | none => none
          | some (length, _) =>
            if length.length ≥ mapKeyDataSize then some none
            else
              -- `name` is a zeroed array of 64 bytes
              match memcmp itemName (name ++ zeros (mapKeyNameSize - name.length))
                  itemName.length with
              | none => none
              | some true => some (some (index, atol length))
              | some false =>
                match strlen (c :: b) with
                | none => none
                | some n => probeFrom itemName (index + 1) ((c :: b).drop (n + 1))
  termination_by b => b.length
  decreasing_by simp only [List.length_drop, List.length_cons]; omega

def probeNameInMap (buffer itemName : Bytes) : Option (Option (ℕ × ℤ)) :=
  probeFrom itemName 1 buffer

/-- How the loop of `__fill_name_in_map` ends. -/
inductive FillScan
  /-- The name is already there. -/
  | found (index : ℕ)
  /-- "deal rubbish data". -/
  | dirty
  /-- The end of the entries, where a new one goes. -/
  | free (index : ℕ) (bufStart : Bytes)

def fillScan (itemName : Bytes) (index : ℕ) : Bytes → Option FillScan
  | [] => none
  | c :: b =>
    if c = 0 then some (.free index (c :: b))
    else
      -- this scan does not stop at a NUL
      match scanUntil (fun c => c == 58) mapKeyNameSize (c :: b) with
      | none => none
      | some (name, _) =>
        if name.length ≥ mapKeyNameSize then some .dirty
        else
          match memcmp (c :: b) itemName itemName.length with
          | none => none
          | some true => some (.found index)
          | some false =>
            match strlen (c :: b) with
            | none => none
            | some n => fillScan itemName (index + 1) ((c :: b).drop (n + 1))
  termination_by b => b.length
  decreasing_by simp only [List.length_drop, List.length_cons]; omega

/-- What `sprintf(.., "%s:%d", item_name, length)` stores. -/
def mapEntry (itemName : Bytes) (length : ℕ) : Bytes := itemName ++ 58 :: (decimal length ++ [0])

def fillNameInMap (buffer itemName : Bytes) (length : ℕ) : Option (ℤ × Bytes) :=
  match fillScan itemName 1 buffer with
  | none => none
  | some (.found index) => some (index, buffer)
  | some .dirty => (store (zeros secBlkSize) 0 (mapEntry itemName length)).map fun m => (1, m)
  | some (.free index bufStart) =>
    if index ≥ 32 then some (-1, buffer)
    else
      (store buffer (buffer.length - bufStart.length) (mapEntry itemName length)).map
        fun m => (index, m)

/-! ## Encoded maps -/

/-- A name the store accepts: 1 to 63 bytes, no `:` and no NUL. -/
structure ItemName (a : Bytes) : Prop where
  nonempty : 1 ≤ a.length
  short : a.length ≤ 63
  noColon : (58 : UInt8) ∉ a
  noNul : (0 : UInt8) ∉ a

/-- What of this the scanners rely on: the empty name is no exception. -/
structure PlainName (a : Bytes) : Prop where
  short : a.length ≤ 63
  noColon : (58 : UInt8) ∉ a
  noNul : (0 : UInt8) ∉ a

lemma ItemName.plain {a : Bytes} (ha : ItemName a) : PlainName a :=
  ⟨ha.short, ha.noColon, ha.noNul⟩

instance (a : Bytes) : Decidable (ItemName a) :=
  decidable_of_iff (1 ≤ a.length ∧ a.length ≤ 63 ∧ (58 : UInt8) ∉ a ∧ (0 : UInt8) ∉ a)
    ⟨fun h => ⟨h.1, h.2.1, h.2.2.1, h.2.2.2⟩, fun h => ⟨h.1, h.2, h.3, h.4⟩⟩

/-- The entries of the names, one after the other; every object has the same length. -/
def encode (names : List Bytes) : Bytes := names.flatMap fun a => mapEntry a storeObjectSize

/-- `m` is the map of `names`: at most 31 entries, then zeros up to the end of `data`. -/
structure MapOf (m : Bytes) (names : List Bytes) : Prop where
  length : m.length = secBlkSize
  data : m.take mapDataSize = encode names ++ zeros (mapDataSize - (encode names).length)
  count : names.length ≤ 31
  valid : ∀ a ∈ names, ItemName a
  /-- No name is a prefix of one stored before it. -/
  order : names.Pairwise fun a b => ¬ b <+: a

/-- The item that the scanners find for a name: the position of the first entry the name is a
prefix of, counted from 1. -/
def indexOf (names : List Bytes) (a : Bytes) : Option ℕ :=
  (names.findIdx? fun n => decide (a <+: n)).map (· + 1)

lemma decimal_storeObjectSize : decimal storeObjectSize = [51, 49, 55, 54] := by decide

lemma mapEntry_eq (a rest : Bytes) : mapEntry a storeObjectSize ++ rest =
    a ++ 58 :: 51 :: 49 :: 55 :: 54 :: 0 :: rest := by
  simp [mapEntry, decimal_storeObjectSize]

lemma length_mapEntry (a : Bytes) : (mapEntry a storeObjectSize).length = a.length + 6 := by
  simp [mapEntry, decimal_storeObjectSize]

lemma length_encode_le {names : List Bytes} (hvalid : ∀ a ∈ names, PlainName a) :
    (encode names).length ≤ 69 * names.length := by
  induction names with
  | nil => simp [encode]
  | cons a names ih =>
    have ha := (hvalid a (by simp)).short
    have hrest := ih fun b hb => hvalid b (by simp [hb])
    simp only [encode, List.flatMap_cons, List.length_append, length_mapEntry,
      List.length_cons] at hrest ⊢
    omega

/-! ### One entry -/

lemma scanUntil_append {stop : UInt8 → Bool} {room : ℕ} {a b : Bytes} {c : UInt8}
    (ha : ∀ x ∈ a, stop x = false) (hroom : a.length ≤ room) (hc : stop c = true) :
    scanUntil stop room (a ++ c :: b) = some (a, c :: b) := by
  induction a generalizing room with
  | nil =>
    rw [List.nil_append]
    unfold scanUntil
    rw [if_pos hc]
  | cons x a ih =>
    cases room with
    | zero => simp at hroom
    | succ room =>
      have hx : stop x = false := ha x (by simp)
      have htail := ih (fun y hy => ha y (by simp [hy])) (Nat.le_of_succ_le_succ hroom)
      simp only [List.cons_append, scanUntil, hx, Bool.false_eq_true, if_false, htail,
        Option.map_some]

section Entry

variable {a n rest : Bytes}

lemma ItemName.ne_nil (ha : ItemName a) : a ≠ [] := by
  rintro rfl
  exact absurd ha.nonempty (by simp)

/-- The string of an entry. -/
def entryText (n : Bytes) : Bytes := n ++ [58, 51, 49, 55, 54]

lemma mapEntry_append (n rest : Bytes) :
    mapEntry n storeObjectSize ++ rest = entryText n ++ 0 :: rest := by
  simp [mapEntry_eq, entryText]

lemma PlainName.not_mem_entryText (hn : PlainName n) : (0 : UInt8) ∉ entryText n := by
  simp only [entryText, List.mem_append, List.mem_cons, List.not_mem_nil, or_false, not_or]
  exact ⟨hn.noNul, by decide, by decide, by decide, by decide, by decide⟩

/-- An entry does not start with NUL. -/
lemma PlainName.exists_cons (hn : PlainName n) (rest : Bytes) :
    ∃ c b, mapEntry n storeObjectSize ++ rest = c :: b ∧ c ≠ 0 := by
  rw [mapEntry_eq]
  cases n with
  | nil => exact ⟨_, _, rfl, by decide⟩
  | cons c n =>
    refine ⟨c, _, rfl, ?_⟩
    rintro rfl
    exact hn.noNul List.mem_cons_self

lemma strlen_mapEntry (hn : PlainName n) :
    strlen (mapEntry n storeObjectSize ++ rest) = some (n.length + 5) := by
  rw [mapEntry_append, strlen_append_nul hn.not_mem_entryText]
  simp [entryText]

lemma drop_mapEntry :
    (mapEntry n storeObjectSize ++ rest).drop (n.length + 5 + 1) = rest := by
  have hlen : n.length + 5 + 1 = (mapEntry n storeObjectSize).length := by rw [length_mapEntry]
  rw [hlen, List.drop_left]

/-- One turn of the lookup on an encoded entry. -/
lemma probeFrom_mapEntry (ha : PlainName a) (hn : PlainName n) (index : ℕ) :
    probeFrom a index (mapEntry n storeObjectSize ++ rest) =
      if a <+: n then some (some (index, (storeObjectSize : ℤ)))
      else probeFrom a (index + 1) rest := by
  have hname : scanUntil (fun c => c == 58 || c == 0) mapKeyNameSize
      (mapEntry n storeObjectSize ++ rest) = some (n, 58 :: 51 :: 49 :: 55 :: 54 :: 0 :: rest) := by
    rw [mapEntry_eq]
    apply scanUntil_append
    · intro x hx
      have h1 : x ≠ 58 := fun h => hn.noColon (h ▸ hx)
      have h2 : x ≠ 0 := fun h => hn.noNul (h ▸ hx)
      simp [h1, h2]
    · exact Nat.le_trans hn.short (by decide)
    · rfl
  have hlen : scanUntil (fun c => c == 32 || c == 0) mapKeyDataSize
      (51 :: 49 :: 55 :: 54 :: 0 :: rest) = some ([51, 49, 55, 54], 0 :: rest) :=
    scanUntil_append (a := [51, 49, 55, 54]) (by simp) (by decide) rfl
  have hcmp : memcmp a (n ++ zeros (mapKeyNameSize - n.length)) a.length =
      some (decide (a <+: n)) := by
    have hroom : 63 < mapKeyNameSize := by decide
    have hshort := hn.short
    have hshort' := ha.short
    rw [memcmp_comm, memcmp_eq_decide (by rw [List.length_append, length_zeros]; omega),
      show mapKeyNameSize - n.length = (mapKeyNameSize - n.length - 1) + 1 by omega, zeros_succ]
    simp only [prefix_append_of_not_mem ha.noNul]
  obtain ⟨c, b, hcb, hc⟩ := hn.exists_cons rest
  have hstrlen : strlen (mapEntry n storeObjectSize ++ rest) = some (n.length + 5) :=
    strlen_mapEntry hn
  have hdrop : (mapEntry n storeObjectSize ++ rest).drop (n.length + 5 + 1) = rest :=
    drop_mapEntry
  rw [hcb] at hname hstrlen hdrop ⊢
  rw [probeFrom, if_neg hc, hname]
  simp only [List.drop_one, List.tail_cons, hlen, hcmp]
  rw [if_neg (by have := hn.short; unfold mapKeyNameSize; omega), if_neg (by decide)]
  by_cases hpre : a <+: n
  · simp only [hpre, decide_true, if_true]
    rfl
  · simp only [hpre, decide_false, if_false, hstrlen, hdrop]

/-- One turn of the insertion scan on an encoded entry: the comparison is with the whole string
of the entry. -/
lemma fillScan_entryText (ha : (0 : UInt8) ∉ a) (hn : PlainName n) (index : ℕ) :
    fillScan a index (mapEntry n storeObjectSize ++ rest) =
      if a.length ≤ (mapEntry n storeObjectSize ++ rest).length then
        if a <+: entryText n then some (.found index) else fillScan a (index + 1) rest
      else none := by
  have hname : scanUntil (fun c => c == 58) mapKeyNameSize
      (mapEntry n storeObjectSize ++ rest) = some (n, 58 :: 51 :: 49 :: 55 :: 54 :: 0 :: rest) := by
    rw [mapEntry_eq]
    apply scanUntil_append
    · intro x hx
      have h1 : x ≠ 58 := fun h => hn.noColon (h ▸ hx)
      simp [h1]
    · exact Nat.le_trans hn.short (by decide)
    · rfl
  have hpre : a <+: mapEntry n storeObjectSize ++ rest ↔ a <+: entryText n := by
    rw [mapEntry_append, prefix_append_of_not_mem ha]
  have hstrlen : strlen (mapEntry n storeObjectSize ++ rest) = some (n.length + 5) :=
    strlen_mapEntry hn
  have hdrop : (mapEntry n storeObjectSize ++ rest).drop (n.length + 5 + 1) = rest :=
    drop_mapEntry
  obtain ⟨c, b, hcb, hc⟩ := hn.exists_cons rest
  rw [hcb] at hname hpre hstrlen hdrop ⊢
  rw [fillScan, if_neg hc, hname]
  simp only
  rw [if_neg (by have := hn.short; unfold mapKeyNameSize; omega)]
  by_cases hroom : a.length ≤ (c :: b).length
  · rw [if_pos hroom, memcmp_eq_decide hroom]
    simp only [hpre]
    by_cases hhit : a <+: entryText n
    · simp only [hhit, decide_true, if_true]
    · simp only [hhit, decide_false, if_false, hstrlen, hdrop]
  · rw [if_neg hroom, memcmp, if_neg fun h => hroom h.1]

/-- A name without `:` is found in the string of an entry only in its name. -/
lemma prefix_entryText (ha : (58 : UInt8) ∉ a) : a <+: entryText n ↔ a <+: n :=
  prefix_append_of_not_mem ha

lemma fillScan_mapEntry (ha : PlainName a) (hn : PlainName n) (index : ℕ)
    (hroom : a.length ≤ (mapEntry n storeObjectSize ++ rest).length) :
    fillScan a index (mapEntry n storeObjectSize ++ rest) =
      if a <+: n then some (.found index) else fillScan a (index + 1) rest := by
  rw [fillScan_entryText ha.noNul hn, if_pos hroom]
  simp only [prefix_entryText ha.noColon]

end Entry

/-! ### Whole maps -/

section Whole

variable {a m : Bytes} {names : List Bytes}

lemma indexOf_nil (a : Bytes) : indexOf [] a = none := rfl

lemma indexOf_cons (n : Bytes) (names : List Bytes) (a : Bytes) :
    indexOf (n :: names) a = if a <+: n then some 1 else (indexOf names a).map (· + 1) := by
  unfold indexOf
  rw [List.findIdx?_cons]
  by_cases h : a <+: n
  · simp [h]
  · simp [h]

/-- The loop of the lookup, from any entry on. -/
lemma probeFrom_encode (ha : PlainName a) (hvalid : ∀ n ∈ names, PlainName n) (index : ℕ)
    (rest : Bytes) : probeFrom a index (encode names ++ 0 :: rest) =
      some ((indexOf names a).map fun k => (index + k - 1, (storeObjectSize : ℤ))) := by
  induction names generalizing index with
  | nil => simp [encode, probeFrom, indexOf_nil]
  | cons n names ih =>
    have hform : encode (n :: names) ++ 0 :: rest =
        mapEntry n storeObjectSize ++ (encode names ++ 0 :: rest) := by
      simp [encode]
    rw [hform, probeFrom_mapEntry ha (hvalid n (by simp)), indexOf_cons]
    by_cases hpre : a <+: n
    · simp [hpre]
    · rw [if_neg hpre, if_neg hpre, ih fun b hb => hvalid b (by simp [hb])]
      simp only [Option.map_map, Option.some.injEq]
      congr 1
      funext k
      simp only [Function.comp_apply, Prod.mk.injEq, and_true]
      omega

/-- The loop of the insertion scan, from any entry on. -/
lemma fillScan_encode (ha : PlainName a) (hvalid : ∀ n ∈ names, PlainName n) (index : ℕ)
    {rest : Bytes} (hroom : a.length ≤ rest.length) :
    fillScan a index (encode names ++ 0 :: rest) =
      some (match indexOf names a with
        | some k => .found (index + k - 1)
        | none => .free (index + names.length) (0 :: rest)) := by
  induction names generalizing index with
  | nil => simp [encode, fillScan, indexOf_nil]
  | cons n names ih =>
    have hform : encode (n :: names) ++ 0 :: rest =
        mapEntry n storeObjectSize ++ (encode names ++ 0 :: rest) := by
      simp [encode]
    rw [hform, fillScan_mapEntry ha (hvalid n (by simp)) _ (by simp; omega), indexOf_cons]
    by_cases hpre : a <+: n
    · simp [hpre]
    · rw [if_neg hpre, if_neg hpre, ih fun b hb => hvalid b (by simp [hb])]
      cases indexOf names a with
      | none => simp only [Option.map_none, List.length_cons, Nat.add_right_comm, Nat.add_assoc]
      | some k =>
        simp only [Option.map_some, Option.some.injEq, FillScan.found.injEq]
        omega

/-- The entries leave room: 31 of them fill at most 2139 bytes of `data`. -/
lemma MapOf.length_encode (h : MapOf m names) : (encode names).length ≤ 2139 := by
  have hle := length_encode_le fun a ha => (h.valid a ha).plain
  have hcount := h.count
  omega

/-- A map ends its entries with a NUL that has a full name's room behind it. -/
lemma MapOf.eq_append (h : MapOf m names) :
    ∃ rest : Bytes, m = encode names ++ 0 :: rest ∧ rest.length = 4095 - (encode names).length := by
  have hlen := h.length
  have henc := h.length_encode
  have hsize : mapDataSize - (encode names).length = (4087 - (encode names).length) + 1 := by
    unfold mapDataSize
    omega
  have hdata := h.data
  rw [hsize, zeros_succ] at hdata
  refine ⟨zeros (4087 - (encode names).length) ++ m.drop mapDataSize, ?_, ?_⟩
  · calc m = m.take mapDataSize ++ m.drop mapDataSize := (List.take_append_drop _ _).symm
      _ = _ := by rw [hdata]; simp
  · have hblk : secBlkSize = 4096 := rfl
    have hmap : mapDataSize = 4088 := rfl
    rw [List.length_append, length_zeros, List.length_drop]
    omega

/-- A name ends at its colon. -/
lemma name_unique {n n' x x' : Bytes} (hn : (58 : UInt8) ∉ n) (hn' : (58 : UInt8) ∉ n')
    (heq : n ++ 58 :: x = n' ++ 58 :: x') : n = n' ∧ x = x' := by
  induction n generalizing n' with
  | nil =>
    cases n' with
    | nil => exact ⟨rfl, (List.cons.inj heq).2⟩
    | cons c n' => exact absurd ((List.cons.inj heq).1 ▸ List.mem_cons_self) hn'
  | cons c n ih =>
    cases n' with
    | nil => exact absurd ((List.cons.inj heq).1 ▸ List.mem_cons_self) hn
    | cons c' n' =>
      obtain ⟨hc, hrest⟩ := List.cons.inj heq
      obtain ⟨rfl, rfl⟩ := ih (fun h => hn (List.mem_cons_of_mem _ h))
        (fun h => hn' (List.mem_cons_of_mem _ h)) hrest
      exact ⟨by rw [hc], rfl⟩

lemma encode_unique {names' : List Bytes} {rest rest' : Bytes} (hvalid : ∀ n ∈ names, ItemName n)
    (hvalid' : ∀ n ∈ names', ItemName n)
    (heq : encode names ++ 0 :: rest = encode names' ++ 0 :: rest') : names = names' := by
  -- an entry does not start with NUL
  have hstart : ∀ {n : Bytes} {ns : List Bytes} {r r' : Bytes}, ItemName n →
      0 :: r ≠ encode (n :: ns) ++ 0 :: r' := by
    intro n ns r r' hn hbad
    obtain ⟨c, n', rfl⟩ := List.exists_cons_of_ne_nil hn.ne_nil
    rw [encode, List.flatMap_cons, List.append_assoc, mapEntry_eq, List.cons_append] at hbad
    exact hn.noNul ((List.cons.inj hbad).1 ▸ List.mem_cons_self)
  induction names generalizing names' with
  | nil =>
    cases names' with
    | nil => rfl
    | cons n' ns' => exact absurd heq (hstart (hvalid' n' List.mem_cons_self))
  | cons n ns ih =>
    cases names' with
    | nil => exact absurd heq.symm (hstart (hvalid n List.mem_cons_self))
    | cons n' ns' =>
      rw [encode, encode, List.flatMap_cons, List.flatMap_cons, List.append_assoc,
        List.append_assoc, mapEntry_eq, mapEntry_eq] at heq
      obtain ⟨rfl, hrest⟩ := name_unique (hvalid n List.mem_cons_self).noColon
        (hvalid' n' List.mem_cons_self).noColon heq
      simp only [List.cons.injEq, true_and] at hrest
      rw [ih (fun m hm => hvalid m (List.mem_cons_of_mem _ hm))
        (fun m hm => hvalid' m (List.mem_cons_of_mem _ hm)) hrest]

/-- The names of a map are determined. -/
lemma MapOf.unique {names' : List Bytes} (h : MapOf m names) (h' : MapOf m names') :
    names = names' := by
  obtain ⟨rest, hm, -⟩ := h.eq_append
  obtain ⟨rest', hm', -⟩ := h'.eq_append
  exact encode_unique h.valid h'.valid (hm.symm.trans hm')

/-- The lookup on an encoded map. -/
lemma probeNameInMap_mapOf (h : MapOf m names) (ha : ItemName a) :
    probeNameInMap m a = some ((indexOf names a).map fun k => (k, (storeObjectSize : ℤ))) := by
  obtain ⟨rest, rfl, -⟩ := h.eq_append
  rw [probeNameInMap, probeFrom_encode ha.plain fun n hn => (h.valid n hn).plain]
  congr 2
  funext k
  congr 1
  omega

lemma indexOf_le {k : ℕ} (hk : indexOf names a = some k) : 1 ≤ k ∧ k ≤ names.length := by
  unfold indexOf at hk
  cases hi : names.findIdx? fun n => decide (a <+: n) with
  | none => simp [hi] at hk
  | some i =>
    have hlt : i < names.length := (List.findIdx?_eq_some_iff_getElem.mp hi).1
    simp only [hi, Option.map_some, Option.some.injEq] at hk
    omega

lemma indexOf_eq_none : indexOf names a = none ↔ ∀ n ∈ names, ¬ a <+: n := by
  simp [indexOf, List.findIdx?_eq_none_iff]

lemma indexOf_append (names : List Bytes) (n a : Bytes) :
    indexOf (names ++ [n]) a =
      (indexOf names a).or (if a <+: n then some (names.length + 1) else none) := by
  induction names with
  | nil => simp [indexOf_cons, indexOf_nil]
  | cons x names ih =>
    rw [List.cons_append, indexOf_cons, indexOf_cons, ih]
    by_cases hx : a <+: x
    · simp [hx]
    · rw [if_neg hx, if_neg hx]
      cases indexOf names a with
      | some k => simp
      | none => by_cases hn : a <+: n <;> simp [hn]

/-! ### Insertion -/

/-- The map with an entry for `a` behind those of `names`. -/
def appendName (m : Bytes) (names : List Bytes) (a : Bytes) : Bytes :=
  patch m (encode names).length (mapEntry a storeObjectSize)

lemma MapOf.appendName (h : MapOf m names) (ha : ItemName a) (hnew : indexOf names a = none)
    (hcount : names.length < 31) : MapOf (appendName m names a) (names ++ [a]) := by
  have henc := h.length_encode
  have hshort := ha.short
  have hlen := h.length
  have hblk : secBlkSize = 4096 := rfl
  have hmap : mapDataSize = 4088 := rfl
  have hentry := length_mapEntry a
  have hencode : encode (names ++ [a]) = encode names ++ mapEntry a storeObjectSize := by
    simp [encode]
  have htake : m.take (encode names).length = encode names := by
    obtain ⟨rest, hm, -⟩ := h.eq_append
    rw [hm, List.take_left]
  refine ⟨?_, ?_, by simp; omega, ?_, ?_⟩
  · rw [SecureStorage.appendName, length_patch (by omega), hlen]
  · -- behind the new entry the old zeros continue
    have hdrop : (m.take mapDataSize).drop ((encode names).length + (a.length + 6)) =
        zeros (mapDataSize - ((encode names).length + (a.length + 6))) := by
      rw [h.data, List.drop_append, List.drop_eq_nil_of_le (by omega), List.nil_append, drop_zeros]
      congr 1
      omega
    have hlenEnc : (encode (names ++ [a])).length = (encode names).length + (a.length + 6) := by
      rw [hencode, List.length_append, hentry]
    unfold SecureStorage.appendName patch
    rw [htake, ← hencode, hentry, ← hlenEnc, List.take_append,
      List.take_of_length_le (by omega), hlenEnc, ← hdrop, List.drop_take]
  · intro n hn
    rcases List.mem_append.mp hn with hn | hn
    · exact h.valid n hn
    · rw [List.mem_singleton.mp hn]
      exact ha
  · refine List.pairwise_append.mpr ⟨h.order, List.pairwise_singleton _ _, ?_⟩
    intro x hx y hy
    rw [List.mem_singleton.mp hy]
    exact indexOf_eq_none.mp hnew x hx

/-- The three outcomes of an insertion: the name is there, the table is full, or an entry is
added at the end. -/
lemma fillNameInMap_mapOf (h : MapOf m names) (ha : ItemName a) :
    fillNameInMap m a storeObjectSize =
      some (match indexOf names a with
        | some k => (k, m)
        | none =>
          if names.length = 31 then (-1, m)
          else (names.length + 1, appendName m names a)) := by
  have hcount := h.count
  have henc := h.length_encode
  have hshort := ha.short
  have hentry := length_mapEntry a
  obtain ⟨rest, hm, hrest⟩ := h.eq_append
  have hscan := fillScan_encode ha.plain (fun n hn => (h.valid n hn).plain) 1 (show a.length ≤ rest.length by omega)
  have hlen : m.length - (0 :: rest).length = (encode names).length := by
    rw [hm, List.length_append]
    omega
  have hroom : (encode names).length + (mapEntry a storeObjectSize).length ≤ m.length := by
    rw [hentry, hm, List.length_append, List.length_cons]
    omega
  rw [← hm] at hscan
  unfold fillNameInMap
  rw [hscan]
  cases hidx : indexOf names a with
  | some k =>
    simp only [Option.some.injEq, Prod.mk.injEq, and_true]
    omega
  | none =>
    simp only
    by_cases hfull : names.length = 31
    · rw [if_pos (by omega), if_pos hfull]
    · rw [if_neg (by omega), if_neg hfull, hlen, store_of_le hroom]
      simp only [Option.map_some, appendName, Option.some.injEq, Prod.mk.injEq, and_true]
      omega

lemma MapOf.nodup (h : MapOf m names) : names.Nodup := by
  refine List.Pairwise.imp ?_ h.order
  intro a b hne heq
  rw [heq] at hne
  exact hne List.prefix_rfl

/-- Only the data bytes of a map matter. -/
lemma MapOf.congr {m' : Bytes} (h : MapOf m names) (hlen : m'.length = secBlkSize)
    (hdata : m'.take mapDataSize = m.take mapDataSize) : MapOf m' names :=
  ⟨hlen, hdata.trans h.data, h.count, h.valid, h.order⟩

lemma mapOf_nil (hlen : m.length = secBlkSize) (hzero : m.take mapDataSize = zeros mapDataSize) :
    MapOf m [] := by
  refine ⟨hlen, ?_, by simp, by simp, List.Pairwise.nil⟩
  simpa [encode] using hzero

end Whole

end Softwinner.SecureStorage
