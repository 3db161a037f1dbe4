import Softwinner.Framework.Bytes

/-!
# Reading and cutting byte strings

`fetch` reads from a buffer and is `none` outside it; `toLe` and `ofLe` are little-endian numbers
of any width.  A buffer can be sent as pieces of `n` bytes each, the last of them shorter
(`flatMap_pieces`).
-/

namespace Framework

/-! ## Checked reads -/

/-- The `n` bytes at `off`; `none` when the buffer does not have them. -/
def fetch (b : Bytes) (off n : ℕ) : Option Bytes :=
  if off + n ≤ b.length then some (slice b off n) else none

lemma fetch_eq_some {b : Bytes} {off n : ℕ} (h : off + n ≤ b.length) :
    fetch b off n = some (slice b off n) := if_pos h

lemma fetch_isSome_iff {b : Bytes} {off n : ℕ} : (fetch b off n).isSome ↔ off + n ≤ b.length := by
  unfold fetch
  split_ifs with h
  · exact iff_of_true rfl h
  · exact iff_of_false Bool.false_ne_true h

lemma length_of_fetch {b w : Bytes} {off n : ℕ} (h : fetch b off n = some w) : w.length = n := by
  unfold fetch at h
  split_ifs at h with hle
  rw [← Option.some.inj h, length_slice hle]

lemma fetch_append (pre b : Bytes) (off n : ℕ) :
    fetch (pre ++ b) (pre.length + off) n = fetch b off n := by
  have hslice : slice (pre ++ b) (pre.length + off) n = slice b off n := by
    rw [slice, List.drop_append, List.drop_eq_nil_of_le (Nat.le_add_right _ _),
      Nat.add_sub_cancel_left, List.nil_append]
    rfl
  unfold fetch
  rw [hslice, List.length_append]
  refine if_congr ?_ rfl rfl
  omega

lemma slice_append_left {b post : Bytes} {off n : ℕ} (h : off + n ≤ b.length) :
    slice (b ++ post) off n = slice b off n := by
  unfold slice
  rw [List.drop_append_of_le_length (by omega), List.take_append_of_le_length]
  rw [List.length_drop]
  omega

lemma fetch_append_left {b post : Bytes} {off n : ℕ} (h : off + n ≤ b.length) :
    fetch (b ++ post) off n = fetch b off n := by
  rw [fetch_eq_some h, fetch_eq_some, slice_append_left h]
  rw [List.length_append]
  omega

lemma slice_self (b : Bytes) : slice b 0 b.length = b := List.take_length

lemma fetch_front {w post : Bytes} {n : ℕ} (hlen : w.length = n) :
    fetch (w ++ post) 0 n = some w := by
  subst hlen
  rw [fetch_append_left (Nat.le_of_eq (Nat.zero_add _)),
    fetch_eq_some (Nat.le_of_eq (Nat.zero_add _)), slice_self]

/-- A field is read back from the middle of a buffer. -/
lemma fetch_middle {pre w post : Bytes} {off n : ℕ} (hoff : pre.length = off)
    (hlen : w.length = n) : fetch (pre ++ (w ++ post)) off n = some w := by
  subst hoff hlen
  have h := fetch_append pre (w ++ post) 0 w.length
  rw [Nat.add_zero] at h
  rw [h, fetch_front rfl]

/-! ## Little-endian numbers -/

/-- The low `n` bytes of a number. -/
def toLe : ℕ → ℕ → Bytes
  | 0, _ => []
  | n + 1, v => UInt8.ofNat v :: toLe n (v / 256)

def ofLe : Bytes → ℕ
  | [] => 0
  | c :: b => c.toNat + 256 * ofLe b

@[simp] lemma length_toLe (n v : ℕ) : (toLe n v).length = n := by
  induction n generalizing v with
  | zero => rfl
  | succ n ih => rw [toLe, List.length_cons, ih]

lemma ofLe_toLe {n v : ℕ} (h : v < 256 ^ n) : ofLe (toLe n v) = v := by
  induction n generalizing v with
  | zero =>
    rw [Nat.pow_zero] at h
    exact (Nat.lt_one_iff.mp h).symm
  | succ n ih =>
    have hdiv : v / 256 < 256 ^ n := by
      rw [Nat.pow_succ'] at h
      exact Nat.div_lt_of_lt_mul h
    rw [toLe, ofLe, ih hdiv, UInt8.toNat_ofNat']
    omega

/-- The number in the `n` bytes at `off`. -/
def fetchLe (b : Bytes) (off n : ℕ) : Option ℕ := (fetch b off n).map ofLe

lemma fetchLe_append (pre b : Bytes) (off n : ℕ) :
    fetchLe (pre ++ b) (pre.length + off) n = fetchLe b off n :=
  congrArg (Option.map ofLe) (fetch_append pre b off n)

lemma fetchLe_middle {pre post : Bytes} {off n v : ℕ} (hoff : pre.length = off)
    (h : v < 256 ^ n) : fetchLe (pre ++ (toLe n v ++ post)) off n = some v := by
  rw [fetchLe, fetch_middle hoff (length_toLe n v), Option.map_some, ofLe_toLe h]

lemma fetchLe_front {post : Bytes} {n v : ℕ} (h : v < 256 ^ n) :
    fetchLe (toLe n v ++ post) 0 n = some v := by
  rw [fetchLe, fetch_front (length_toLe n v), Option.map_some, ofLe_toLe h]

/-- A table of numbers of `n` bytes each. -/
def table (n : ℕ) (vs : List ℕ) : Bytes := vs.flatMap (toLe n)

lemma table_cons (n v : ℕ) (vs : List ℕ) : table n (v :: vs) = toLe n v ++ table n vs := rfl

@[simp] lemma length_table (n : ℕ) (vs : List ℕ) : (table n vs).length = n * vs.length := by
  induction vs with
  | nil => rfl
  | cons v vs ih =>
    rw [table_cons, List.length_append, ih, length_toLe, List.length_cons, Nat.mul_succ,
      Nat.add_comm]

/-- An entry of a table in the middle of a buffer. -/
lemma fetchLe_table {pre post : Bytes} {off n i v : ℕ} {vs : List ℕ} (hoff : pre.length = off)
    (hall : ∀ v ∈ vs, v < 256 ^ n) (hv : vs[i]? = some v) :
    fetchLe (pre ++ (table n vs ++ post)) (off + n * i) n = some v := by
  subst hoff
  rw [fetchLe_append]
  obtain ⟨hi, rfl⟩ := List.getElem?_eq_some_iff.mp hv
  have hsplit : table n vs =
      table n (vs.take i) ++ (toLe n vs[i] ++ table n (vs.drop (i + 1))) := by
    calc table n vs = table n (vs.take i ++ vs[i] :: vs.drop (i + 1)) := by
          rw [← List.drop_eq_getElem_cons hi, List.take_append_drop]
      _ = _ := by
          unfold table
          rw [List.flatMap_append, List.flatMap_cons]
  rw [hsplit, List.append_assoc, List.append_assoc]
  refine fetchLe_middle ?_ (hall _ (List.getElem_mem hi))
  rw [length_table, List.length_take, Nat.min_eq_left (Nat.le_of_lt hi)]

/-! ## Pieces -/

/-- The `i`-th of the pieces of `n` bytes. -/
def piece (n : ℕ) (b : Bytes) (i : ℕ) : Bytes := slice b (n * i) n

/-- A sequence from `i` on, as its first element and the rest. -/
lemma map_range_succ {β : Type} (f : ℕ → β) (i n : ℕ) :
    (List.range (n + 1)).map (fun j => f (i + j)) =
      f i :: (List.range n).map fun j => f (i + 1 + j) := by
  rw [List.range_succ_eq_map, List.map_cons, List.map_map]
  refine congrArg (f i :: ·) (List.map_congr_left fun j _ => ?_)
  show f (i + (j + 1)) = f (i + 1 + j)
  rw [Nat.add_assoc, Nat.add_comm 1 j]

/-- The first `k` pieces are the first `n * k` bytes. -/
lemma flatMap_pieces (n k : ℕ) (b : Bytes) :
    (List.range k).flatMap (piece n b) = b.take (n * k) := by
  induction k with
  | zero => rfl
  | succ k ih =>
    rw [List.range_succ, List.flatMap_append, ih, List.flatMap_singleton, Nat.mul_succ,
      List.take_add]
    rfl

end Framework
