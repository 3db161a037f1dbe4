import Mathlib.Data.Int.Notation
import Mathlib.Data.List.Basic
import Mathlib.Tactic.SplitIfs

/-!
# Ring buffers

A sequence is held in `n` places of a memory, from position `r` on and once around.  `copyIn` and
`copyOut` copy a block that may go over the end, in one part or in two.  A position may be the end
`n` itself, which is the same as 0.
-/

namespace Framework.Ring

variable {α : Type} {m : ℤ → α} {n r w len : ℤ} {xs ys : List α}

/-- The place `k` behind `r`. -/
def circ (n r k : ℤ) : ℤ := if r + k < n then r + k else r + k - n

/-- `xs` is held from `r` on. -/
def Holds (m : ℤ → α) (n r : ℤ) (xs : List α) : Prop :=
  ∀ (k : ℕ) (hk : k < xs.length), m (circ n r k) = xs[k]

/-- A block is written to memory. -/
def store (m : ℤ → α) (off : ℤ) (xs : List α) : ℤ → α := fun i =>
  if i < off then m i else (xs[(i - off).toNat]?).getD (m i)

/-- A block is read from memory. -/
def load (m : ℤ → α) (off len : ℤ) : List α :=
  (List.range len.toNat).map fun k : ℕ => m (off + k)

/-- A block is copied to position `w`. -/
def copyIn (m : ℤ → α) (n w : ℤ) (xs : List α) : ℤ → α :=
  if n < w + xs.length then
    store (store m w (xs.take (n - w).toNat)) 0 (xs.drop (n - w).toNat)
  else store m w xs

/-- A block is copied from position `r`. -/
def copyOut (m : ℤ → α) (n r len : ℤ) : List α :=
  if n < r + len then load m r (n - r) ++ load m 0 (len - (n - r)) else load m r len

/-! ## Blocks -/

lemma store_at (m : ℤ → α) (off : ℤ) {k : ℕ} (hk : k < xs.length) :
    store m off xs (off + k) = xs[k] := by
  have hge : ¬ off + (k : ℤ) < off := by omega
  have hidx : (off + (k : ℤ) - off).toNat = k := by omega
  rw [store, if_neg hge, hidx, List.getElem?_eq_getElem hk, Option.getD_some]

lemma store_off (m : ℤ → α) (off : ℤ) {i : ℤ} (hi : i < off ∨ off + xs.length ≤ i) :
    store m off xs i = m i := by
  unfold store
  split_ifs with hlt
  · rfl
  · have hlen : xs.length ≤ (i - off).toNat := by omega
    rw [List.getElem?_eq_none hlen, Option.getD_none]

@[simp] lemma length_load (m : ℤ → α) (off len : ℤ) : (load m off len).length = len.toNat := by
  simp [load]

lemma getElem_load (m : ℤ → α) (off len : ℤ) {k : ℕ} (hk : k < (load m off len).length) :
    (load m off len)[k] = m (off + k) := by
  simp [load]

lemma load_store_zero (m : ℤ → α) (xs : List α) : load (store m 0 xs) 0 xs.length = xs := by
  refine List.ext_getElem (by simp) fun k hk hk' => ?_
  rw [getElem_load, store_at m 0 hk']

/-- A block is written behind the first `n` places. -/
lemma load_store_behind (m : ℤ → α) (n : ℕ) (ys : List α) :
    load (store m n ys) 0 (n + ys.length) = load m 0 n ++ ys := by
  refine List.ext_getElem (by simp; omega) fun k hk hk' => ?_
  rw [getElem_load]
  by_cases hlt : k < n
  · have hkl : k < (load m 0 n).length := by simpa using hlt
    rw [store_off _ _ (Or.inl (by omega)), List.getElem_append_left hkl, getElem_load]
  · have hk₂ : k - n < ys.length := by simp at hk'; omega
    have hidx : (0 : ℤ) + (k : ℤ) = (n : ℤ) + ((k - n : ℕ) : ℤ) := by omega
    rw [hidx, store_at _ _ hk₂, List.getElem_append_right (by simp; omega)]
    simp

/-- Two blocks, one behind the other. -/
lemma load_store_append (m : ℤ → α) (xs ys : List α) :
    load (store (store m 0 xs) xs.length ys) 0 (xs.length + ys.length) = xs ++ ys := by
  rw [load_store_behind, load_store_zero]

/-! ## Copies -/

lemma copyIn_inside (hw : 0 ≤ w ∧ w ≤ n) (hxs : (xs.length : ℤ) ≤ n) {k : ℕ}
    (hk : k < xs.length) : copyIn m n w xs (circ n w k) = xs[k] := by
  unfold copyIn
  split_ifs with hwrap
  · by_cases hfirst : w + (k : ℤ) < n
    · have hkt : k < (xs.take (n - w).toNat).length := by simp; omega
      rw [circ, if_pos hfirst, store_off, store_at m w hkt, List.getElem_take]
      exact Or.inr (by simp; omega)
    · have hkd : k - (n - w).toNat < (xs.drop (n - w).toNat).length := by simp; omega
      have hidx : w + (k : ℤ) - n = 0 + ((k - (n - w).toNat : ℕ) : ℤ) := by omega
      rw [circ, if_neg hfirst, hidx, store_at _ 0 hkd, List.getElem_drop]
      congr 1
      omega
  · rw [circ, if_pos (by omega), store_at m w hk]

lemma copyIn_outside (hw : 0 ≤ w ∧ w ≤ n) {j : ℤ} (hj : (xs.length : ℤ) ≤ j ∧ j < n) :
    copyIn m n w xs (circ n w j) = m (circ n w j) := by
  have hcirc : 0 ≤ circ n w j ∧ circ n w j < n ∧
      (circ n w j = w + j ∨ circ n w j = w + j - n) := by
    unfold circ
    split_ifs <;> omega
  unfold copyIn
  split_ifs with hwrap
  · rw [store_off, store_off]
    · simp only [List.length_take]
      omega
    · simp only [List.length_drop]
      omega
  · rw [store_off]
    omega

lemma holds_copyIn (hw : 0 ≤ w ∧ w ≤ n) (hxs : (xs.length : ℤ) ≤ n) :
    Holds (copyIn m n w xs) n w xs :=
  fun _ hk => copyIn_inside hw hxs hk

/-- `w` is the place behind `xs`, up to a round. -/
def Behind (n r : ℤ) (xs : List α) (w : ℤ) : Prop :=
  w = r + xs.length ∨ w = r + xs.length - n ∨ w = r + xs.length + n

/-- The places behind `xs` are those from `w` on. -/
lemma Behind.circ_eq (hbehind : Behind n r xs w) (hr : 0 ≤ r ∧ r < n) (hw : 0 ≤ w ∧ w ≤ n) {k : ℕ}
    (hge : xs.length ≤ k) (hlt : (k : ℤ) < n) : circ n r k = circ n w (k - xs.length : ℕ) := by
  unfold circ
  rcases hbehind with h | h | h
  · split_ifs <;> omega
  · split_ifs <;> omega
  · split_ifs <;> omega

/-- What is held stays, when the new block fits behind it. -/
lemma Holds.copyIn (hold : Holds m n r xs) (hr : 0 ≤ r ∧ r < n) (hw : 0 ≤ w ∧ w ≤ n)
    (hbehind : Behind n r xs w) (hfit : (xs.length : ℤ) + ys.length ≤ n) :
    Holds (copyIn m n w ys) n r xs := by
  intro k hk
  have hpos : circ n r k = circ n w (n - xs.length + k) := by
    unfold circ
    rcases hbehind with h | h | h
    · split_ifs <;> omega
    · split_ifs <;> omega
    · split_ifs <;> omega
  rw [hpos, copyIn_outside hw (by omega), ← hpos]
  exact hold k hk

lemma Holds.append (hold : Holds m n r xs) (hnew : Holds m n w ys) (hr : 0 ≤ r ∧ r < n)
    (hw : 0 ≤ w ∧ w ≤ n) (hbehind : Behind n r xs w) (hfit : (xs.length : ℤ) + ys.length ≤ n) :
    Holds m n r (xs ++ ys) := by
  intro k hk
  by_cases hlt : k < xs.length
  · rw [List.getElem_append_left hlt]
    exact hold k hlt
  · simp only [List.length_append] at hk
    have hk₂ : k - xs.length < ys.length := by omega
    have hpos := hbehind.circ_eq hr hw (Nat.le_of_not_lt hlt) (by omega)
    rw [List.getElem_append_right (by omega), hpos]
    exact hnew _ hk₂

/-- A block in the middle is replaced. -/
lemma Holds.replace {zs ys' : List α} (hold : Holds m n r (xs ++ (ys ++ zs))) (hr : 0 ≤ r ∧ r < n)
    (hw : 0 ≤ w ∧ w ≤ n) (hbehind : Behind n r xs w) (hlen : ys'.length = ys.length)
    (hfit : (xs.length : ℤ) + ys.length + zs.length ≤ n) :
    Holds (Ring.copyIn m n w ys') n r (xs ++ (ys' ++ zs)) := by
  have hxs : Holds m n r xs := by
    intro k hk
    have := hold k (by simp; omega)
    rwa [List.getElem_append_left hk] at this
  have hnew : Holds (Ring.copyIn m n w ys') n r xs :=
    hxs.copyIn hr hw hbehind (by omega)
  intro k hk
  simp only [List.length_append] at hk
  by_cases hlt : k < xs.length
  · rw [List.getElem_append_left hlt]
    exact hnew k hlt
  · have hpos := hbehind.circ_eq hr hw (Nat.le_of_not_lt hlt) (by omega)
    rw [List.getElem_append_right (by omega), hpos]
    by_cases hmid : k - xs.length < ys'.length
    · rw [copyIn_inside hw (by omega) hmid, List.getElem_append_left hmid]
    · have hold' := hold k (by simp only [List.length_append]; omega)
      rw [List.getElem_append_right (by omega), List.getElem_append_right (by omega), hpos] at hold'
      have hout : Ring.copyIn m n w ys' (circ n w (k - xs.length : ℕ)) =
          m (circ n w (k - xs.length : ℕ)) := copyIn_outside hw (by omega)
      rw [hout, hold', List.getElem_append_right (by omega)]
      simp only [hlen]

/-- A block in the middle that does not go over the end. -/
lemma Holds.load {zs : List α} (hold : Holds m n r (xs ++ (ys ++ zs))) (hr : 0 ≤ r ∧ r < n)
    (hw : 0 ≤ w) (hbehind : Behind n r xs w) (hend : w + ys.length ≤ n) :
    Ring.load m w ys.length = ys := by
  refine List.ext_getElem (by simp) fun k hk hk' => ?_
  have hpos : circ n r (xs.length + k : ℕ) = w + k := by
    unfold circ
    rcases hbehind with h | h | h
    · split_ifs <;> omega
    · split_ifs <;> omega
    · split_ifs <;> omega
  have hheld := hold (xs.length + k) (by simp only [List.length_append]; omega)
  rw [hpos, List.getElem_append_right (Nat.le_add_right ..)] at hheld
  simp only [Nat.add_sub_cancel_left] at hheld
  rw [List.getElem_append_left hk'] at hheld
  rw [getElem_load, hheld]

/-- Positions may be moved by a round. -/
lemma Holds.drop (hold : Holds m n r xs) {d : ℕ} {r' : ℤ} (hd : d ≤ xs.length)
    (hr : 0 ≤ r ∧ r < n) (hr' : 0 ≤ r' ∧ r' < n) (hxs : (xs.length : ℤ) ≤ n)
    (hmove : r' = r + d ∨ r' = r + d - n) : Holds m n r' (xs.drop d) := by
  intro k hk
  simp only [List.length_drop] at hk
  have hpos : circ n r' k = circ n r (d + k : ℕ) := by
    unfold circ
    rcases hmove with h | h
    · split_ifs <;> omega
    · split_ifs <;> omega
  rw [hpos, List.getElem_drop]
  exact hold (d + k) (by omega)

lemma Holds.copyOut (hold : Holds m n r xs) (hr : 0 ≤ r ∧ r < n)
    (hlen : 0 ≤ len ∧ len ≤ xs.length) :
    copyOut m n r len = xs.take len.toNat := by
  unfold Ring.copyOut
  split_ifs with hwrap
  · refine List.ext_getElem (by simp; omega) fun k hk hk' => ?_
    have hkx : k < xs.length := by simp at hk'; omega
    rw [List.getElem_take, ← hold k hkx]
    by_cases hfirst : r + (k : ℤ) < n
    · rw [List.getElem_append_left (by simp; omega), getElem_load, circ, if_pos hfirst]
    · rw [List.getElem_append_right (by simp; omega), getElem_load, circ, if_neg hfirst]
      congr 1
      simp only [length_load]
      omega
  · refine List.ext_getElem (by simp; omega) fun k hk hk' => ?_
    have hkx : k < xs.length := by simp at hk'; omega
    have hkl : (k : ℤ) < len := by simp at hk; omega
    rw [List.getElem_take, ← hold k hkx, getElem_load, circ, if_pos (by omega)]

/-! ## Positions from counters -/

/-- A counter that goes on by at most a round. -/
lemma emod_add_cases {a d : ℤ} (hn : 0 < n) (hd : 0 ≤ d ∧ d ≤ n) :
    (a + d) % n = a % n + d ∨ (a + d) % n = a % n + d - n := by
  have hpos := Int.emod_nonneg a (by omega : n ≠ 0)
  have hlt := Int.emod_lt_of_pos a hn
  rw [← Int.emod_add_emod]
  by_cases hround : a % n + d < n
  · exact .inl (Int.emod_eq_of_lt (by omega) hround)
  · refine .inr ?_
    rw [← Int.sub_emod_right]
    exact Int.emod_eq_of_lt (by omega) (by omega)

lemma behind_emod {a b : ℤ} (hn : 0 < n) (hle : b ≤ a + n) (hlen : (xs.length : ℤ) = b - a) :
    Behind n (a % n) xs (b % n) := by
  have hb : b = a + xs.length := by omega
  rcases emod_add_cases (a := a) hn (by omega : 0 ≤ (xs.length : ℤ) ∧ (xs.length : ℤ) ≤ n) with h | h
  · exact .inl (by rw [hb, h])
  · exact .inr (.inl (by rw [hb, h]))

end Framework.Ring
