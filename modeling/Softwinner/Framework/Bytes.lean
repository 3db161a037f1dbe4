import Mathlib.Algebra.Group.Int.Defs
import Mathlib.Algebra.Group.Nat.Defs
import Mathlib.Data.List.Basic
import Mathlib.Tactic.Common

/-!
# Byte buffers, C strings and byte-addressed media

The memory vocabulary the C code of this development is read into.  A buffer is a list of
bytes; a pointer into a buffer is the suffix it points at, so that an access behind the end
of the object is visible as an access to the empty list.  A medium (a block device) is a
total function from addresses to bytes, read and written in runs.

The three groups of lemmas are the read-over-write laws of each: `slice` over `patch` for
buffers, `u32` over `le32` for little-endian words, `pread` over `pwrite` for media.  The
last group also has the law of an interrupted write, `pread_pwrite_take`, which is what a
torn block looks like.

Nothing here mentions a particular program.
-/

namespace Framework

/-- A buffer, or the part of one that a pointer can still reach. -/
abbrev Bytes := List UInt8

/-- `n` zero bytes. -/
@[irreducible] def zeros (n : ℕ) : Bytes := List.replicate n 0

@[simp] lemma length_zeros (n : ℕ) : (zeros n).length = n := by
  simp [zeros]

lemma take_zeros (k n : ℕ) : (zeros n).take k = zeros (min k n) := by
  simp [zeros]

lemma drop_zeros (k n : ℕ) : (zeros n).drop k = zeros (n - k) := by
  simp [zeros]

lemma mem_zeros {n : ℕ} {c : UInt8} (h : c ∈ zeros n) : c = 0 := by
  rw [zeros] at h
  exact List.eq_of_mem_replicate h

lemma zeros_succ (n : ℕ) : zeros (n + 1) = 0 :: zeros n := by
  rw [zeros, zeros, List.replicate_succ]

/-! ## Slices and patches -/

/-- The `n` bytes of `b` from offset `off`. -/
def slice (b : Bytes) (off n : ℕ) : Bytes := (b.drop off).take n

/-- `b` with the bytes from `off` on replaced by `w`. -/
def patch (b : Bytes) (off : ℕ) (w : Bytes) : Bytes :=
  b.take off ++ w ++ b.drop (off + w.length)

/-- A store of `w` at `off` into the object `b`; `none` when it would leave the object. -/
def store (b : Bytes) (off : ℕ) (w : Bytes) : Option Bytes :=
  if off + w.length ≤ b.length then some (patch b off w) else none

lemma store_of_le {b w : Bytes} {off : ℕ} (h : off + w.length ≤ b.length) :
    store b off w = some (patch b off w) := if_pos h

lemma length_slice {b : Bytes} {off n : ℕ} (h : off + n ≤ b.length) :
    (slice b off n).length = n := by
  simp only [slice, List.length_take, List.length_drop]
  omega

@[simp] lemma length_patch {b w : Bytes} {off : ℕ} (h : off + w.length ≤ b.length) :
    (patch b off w).length = b.length := by
  simp only [patch, List.length_append, List.length_take, List.length_drop]
  omega

/-- A store that stays inside its object leaves the size alone. -/
lemma length_store {b b' w : Bytes} {off : ℕ} (h : store b off w = some b') :
    b'.length = b.length := by
  unfold store at h
  split_ifs at h with hfit
  rw [← Option.some.inj h, length_patch hfit]

lemma getElem?_patch {b w : Bytes} {off : ℕ} (h : off ≤ b.length) (i : ℕ) :
    (patch b off w)[i]? =
      if i < off then b[i]? else if i < off + w.length then w[i - off]? else b[i]? := by
  have htake : (b.take off).length = off := by
    rw [List.length_take]
    omega
  unfold patch
  rw [List.append_assoc]
  by_cases h1 : i < off
  · rw [List.getElem?_append_left (by omega), List.getElem?_take_of_lt h1, if_pos h1]
  · rw [List.getElem?_append_right (by omega), htake, if_neg h1]
    by_cases h2 : i < off + w.length
    · rw [List.getElem?_append_left (by omega), if_pos h2]
    · rw [List.getElem?_append_right (by omega), List.getElem?_drop, if_neg h2]
      congr 1
      omega

lemma getElem?_slice (b : Bytes) (off n i : ℕ) :
    (slice b off n)[i]? = if i < n then b[off + i]? else none := by
  unfold slice
  rw [List.getElem?_take]
  simp only [List.getElem?_drop]

/-- The front of a slice is what a patch wrote there, the rest is as it was. -/
lemma slice_patch_front {b w : Bytes} {off n : ℕ} (h : off + n ≤ b.length) (hw : w.length ≤ n) :
    slice (patch b off w) off n = w ++ slice b (off + w.length) (n - w.length) := by
  apply List.ext_getElem?
  intro i
  rw [getElem?_slice, getElem?_patch (by omega)]
  by_cases hi : i < n
  · rw [if_pos hi, if_neg (by omega)]
    by_cases hiw : i < w.length
    · rw [if_pos (by omega), List.getElem?_append_left hiw]
      congr 1
      omega
    · rw [if_neg (by omega), List.getElem?_append_right (by omega), getElem?_slice,
        if_pos (by omega)]
      congr 1
      omega
  · rw [if_neg hi, List.getElem?_eq_none]
    rw [List.length_append, length_slice (by omega)]
    omega

/-- A patch does not disturb a slice it does not overlap. -/
lemma slice_patch_disjoint {b w : Bytes} {off p n : ℕ} (hle : off ≤ b.length)
    (h : p + n ≤ off ∨ off + w.length ≤ p) :
    slice (patch b off w) p n = slice b p n := by
  apply List.ext_getElem?
  intro i
  rw [getElem?_slice, getElem?_slice, getElem?_patch hle]
  by_cases hi : i < n
  · rw [if_pos hi, if_pos hi]
    rcases h with h | h
    · rw [if_pos (by omega)]
    · rw [if_neg (by omega), if_neg (by omega)]
  · rw [if_neg hi, if_neg hi]

/-! ### Sequences of stores -/

/-- Stores one after the other, each an offset and the bytes that go there. -/
def storeAll (b : Bytes) (ws : List (ℕ × Bytes)) : Option Bytes :=
  ws.foldlM (fun b w => store b w.1 w.2) b

@[simp] lemma storeAll_nil (b : Bytes) : storeAll b [] = some b := rfl

lemma storeAll_cons (b : Bytes) (w : ℕ × Bytes) (ws : List (ℕ × Bytes)) :
    storeAll b (w :: ws) = (store b w.1 w.2).bind fun b => storeAll b ws := List.foldlM_cons

lemma storeAll_append (b : Bytes) (ws ws' : List (ℕ × Bytes)) :
    storeAll b (ws ++ ws') = (storeAll b ws).bind fun b => storeAll b ws' := List.foldlM_append

lemma length_storeAll {b b' : Bytes} {ws : List (ℕ × Bytes)} (h : storeAll b ws = some b') :
    b'.length = b.length := by
  induction ws generalizing b with
  | nil => rw [← Option.some.inj h]
  | cons w ws ih =>
    rw [storeAll_cons] at h
    obtain ⟨b₁, hstore, hrest⟩ := Option.bind_eq_some_iff.mp h
    rw [ih hrest, length_store hstore]

/-- Stores inside the object are all made. -/
lemma storeAll_ne_none {b : Bytes} {ws : List (ℕ × Bytes)}
    (h : ∀ w ∈ ws, w.1 + w.2.length ≤ b.length) : storeAll b ws ≠ none := by
  induction ws generalizing b with
  | nil => simp
  | cons w ws ih =>
    have hw := h w List.mem_cons_self
    rw [storeAll_cons, store_of_le hw, Option.bind_some]
    refine ih fun w' hw' => ?_
    rw [length_patch hw]
    exact h w' (List.mem_cons_of_mem _ hw')

/-- A byte outside all of them keeps its value. -/
lemma storeAll_frame {b b' : Bytes} {ws : List (ℕ × Bytes)} {i : ℕ} (h : storeAll b ws = some b')
    (hout : ∀ w ∈ ws, i < w.1 ∨ w.1 + w.2.length ≤ i) : b'[i]? = b[i]? := by
  induction ws generalizing b with
  | nil => rw [← Option.some.inj h]
  | cons w ws ih =>
    rw [storeAll_cons] at h
    obtain ⟨b₁, hstore, hrest⟩ := Option.bind_eq_some_iff.mp h
    rw [ih hrest fun w' hw' => hout w' (List.mem_cons_of_mem _ hw')]
    have hw := hout w List.mem_cons_self
    unfold store at hstore
    split_ifs at hstore with hfit
    rw [← Option.some.inj hstore, getElem?_patch (by omega)]
    split_ifs
    · rfl
    · omega
    · rfl

/-! ## Little-endian words

Words are natural numbers; `le32` keeps the low 32 bits, as a store to an `unsigned int`
does. -/

/-- The four bytes of an `unsigned int`. -/
def le32 (n : ℕ) : Bytes :=
  [UInt8.ofNat n, UInt8.ofNat (n / 2 ^ 8), UInt8.ofNat (n / 2 ^ 16), UInt8.ofNat (n / 2 ^ 24)]

/-- The `unsigned int` whose bytes start at offset `off`. -/
def u32 (b : Bytes) (off : ℕ) : ℕ :=
  (b.getD off 0).toNat + 2 ^ 8 * (b.getD (off + 1) 0).toNat +
    2 ^ 16 * (b.getD (off + 2) 0).toNat + 2 ^ 24 * (b.getD (off + 3) 0).toNat

@[simp] lemma length_le32 (n : ℕ) : (le32 n).length = 4 := rfl

lemma u32_le32_zero {n : ℕ} (h : n < 2 ^ 32) : u32 (le32 n) 0 = n := by
  simp only [u32, le32, List.getD_cons_zero, List.getD_cons_succ, UInt8.toNat_ofNat']
  omega

lemma u32_congr {b b' : Bytes} {off off' : ℕ}
    (h : ∀ i < 4, b[off + i]? = b'[off' + i]?) : u32 b off = u32 b' off' := by
  have h0 := h 0 (by omega)
  have h1 := h 1 (by omega)
  have h2 := h 2 (by omega)
  have h3 := h 3 (by omega)
  simp only [Nat.add_zero] at h0
  simp only [u32, List.getD_eq_getElem?_getD, h0, h1, h2, h3]

/-- A word is read back from the middle of a concatenation. -/
lemma u32_append_le32 {pre post : Bytes} {off n : ℕ} (hoff : pre.length = off)
    (h : n < 2 ^ 32) : u32 (pre ++ le32 n ++ post) off = n := by
  calc u32 (pre ++ le32 n ++ post) off = u32 (le32 n) 0 := by
        apply u32_congr
        intro i hi
        rw [List.append_assoc, List.getElem?_append_right (by omega),
          List.getElem?_append_left (by rw [length_le32]; omega)]
        congr 1
        omega
    _ = n := u32_le32_zero h

/-- A word, byte by byte. -/
lemma u32_eq_iff {b : Bytes} {off n : ℕ} (h : n < 2 ^ 32) :
    u32 b off = n ↔ ∀ i < 4, b.getD (off + i) 0 = (le32 n).getD i 0 := by
  have h0 := (b.getD off 0).toNat_lt
  have h1 := (b.getD (off + 1) 0).toNat_lt
  have h2 := (b.getD (off + 2) 0).toNat_lt
  have h3 := (b.getD (off + 3) 0).toNat_lt
  constructor
  · intro heq i hi
    rw [← UInt8.toNat_inj]
    unfold u32 at heq
    have hcases : i = 0 ∨ i = 1 ∨ i = 2 ∨ i = 3 := by omega
    rcases hcases with rfl | rfl | rfl | rfl
    all_goals
      simp only [le32, List.getD_cons_zero, List.getD_cons_succ, UInt8.toNat_ofNat', Nat.add_zero]
      omega
  · intro hall
    calc u32 b off = u32 (le32 n) 0 := by
          simp only [u32, Nat.zero_add]
          rw [← hall 0 (by omega), ← hall 1 (by omega), ← hall 2 (by omega), ← hall 3 (by omega)]
          rfl
      _ = n := u32_le32_zero h

lemma u32_slice {b : Bytes} {off p n : ℕ} (h : p + 4 ≤ n) :
    u32 (slice b off n) p = u32 b (off + p) := by
  apply u32_congr
  intro i hi
  rw [getElem?_slice, if_pos (by omega), Nat.add_assoc]

lemma getD_zeros (n i : ℕ) : (zeros n).getD i 0 = 0 := by
  rw [List.getD_eq_getElem?_getD]
  cases hi : (zeros n)[i]? with
  | none => rfl
  | some c => exact mem_zeros (List.mem_of_getElem? hi)

lemma u32_zeros (n off : ℕ) : u32 (zeros n) off = 0 := by
  simp only [u32, getD_zeros]
  rfl

/-- The `int` whose bytes start at offset `off`. -/
def i32 (b : Bytes) (off : ℕ) : ℤ :=
  if u32 b off < 2 ^ 31 then (u32 b off : ℤ) else (u32 b off : ℤ) - 2 ^ 32

/-! ## C strings -/

/-- `strlen` from a pointer: the number of bytes before the first NUL; `none` when the
object has no NUL left. -/
def strlen : Bytes → Option ℕ
  | [] => none
  | c :: b => if c = 0 then some 0 else (strlen b).map (· + 1)

/-- The C string a pointer denotes. -/
def cstr (b : Bytes) : Option Bytes := (strlen b).map fun n => b.take n

lemma strlen_append_nul {s t : Bytes} (hs : (0 : UInt8) ∉ s) :
    strlen (s ++ 0 :: t) = some s.length := by
  induction s with
  | nil => simp [strlen]
  | cons c s ih =>
    simp only [List.mem_cons, not_or] at hs
    have hc : c ≠ 0 := fun h => hs.1 h.symm
    rw [List.cons_append, strlen, if_neg hc, ih hs.2]
    rfl

lemma cstr_append_nul {s t : Bytes} (hs : (0 : UInt8) ∉ s) :
    cstr (s ++ 0 :: t) = some s := by
  rw [cstr, strlen_append_nul hs]
  simp

/-- A string found through a pointer is the bytes there up to the first NUL. -/
lemma exists_of_cstr_eq_some {b s : Bytes} (h : cstr b = some s) :
    (0 : UInt8) ∉ s ∧ ∃ t, b = s ++ 0 :: t := by
  induction b generalizing s with
  | nil => simp [cstr, strlen] at h
  | cons c b ih =>
    by_cases hc : c = 0
    · subst hc
      simp only [cstr, strlen, if_true, Option.map_some, List.take_zero, Option.some.injEq] at h
      subst h
      exact ⟨by simp, b, rfl⟩
    · simp only [cstr, strlen, if_neg hc, Option.map_map] at h
      cases hn : strlen b with
      | none => simp [hn] at h
      | some n =>
        simp only [hn, Option.map_some, Function.comp_apply, List.take_succ_cons,
          Option.some.injEq] at h
        subst h
        obtain ⟨h0, t, ht⟩ := ih (s := b.take n) (by simp [cstr, hn])
        refine ⟨by simp [h0, Ne.symm hc], t, ?_⟩
        rw [List.cons_append, ← ht]

/-- `strcmp` of the string `a` with the one behind a pointer: whether they are equal. -/
def strcmp : Bytes → Bytes → Option Bool
  | _, [] => none
  | [], c :: _ => some (decide (c = 0))
  | x :: a, c :: b => if x = c then strcmp a b else some false

lemma strcmp_append_nul {a s t : Bytes} (ha : (0 : UInt8) ∉ a) (hs : (0 : UInt8) ∉ s) :
    strcmp a (s ++ 0 :: t) = some (decide (a = s)) := by
  induction a generalizing s with
  | nil =>
    cases s with
    | nil => rfl
    | cons c s =>
      have hc : c ≠ 0 := fun h => hs (h ▸ List.mem_cons_self)
      simp [strcmp, hc]
  | cons x a ih =>
    have hx : x ≠ 0 := fun h => ha (h ▸ List.mem_cons_self)
    cases s with
    | nil => simp [strcmp, hx]
    | cons c s =>
      rw [List.cons_append, strcmp]
      by_cases hxc : x = c
      · rw [if_pos hxc, ih (fun h => ha (List.mem_cons_of_mem _ h))
          fun h => hs (List.mem_cons_of_mem _ h)]
        simp [hxc]
      · rw [if_neg hxc]
        simp [hxc]

/-- `strncpy` of at most `n` bytes: it stops at a NUL and pads with NULs. -/
def strncpy (src : Bytes) (n : ℕ) : Bytes :=
  let s := (src.take n).takeWhile (· != 0)
  s ++ zeros (n - s.length)

lemma length_strncpy (src : Bytes) (n : ℕ) : (strncpy src n).length = n := by
  have h : ((src.take n).takeWhile (· != 0)).length ≤ (src.take n).length :=
    (List.takeWhile_prefix _).length_le
  rw [List.length_take] at h
  simp only [strncpy, List.length_append, length_zeros]
  omega

/-- A string that does not have the terminator is a prefix of a terminated field if and only if
it is one of the field's own string. -/
lemma prefix_append_of_not_mem {a n : Bytes} {c : UInt8} {rest : Bytes} (hc : c ∉ a) :
    a <+: n ++ c :: rest ↔ a <+: n := by
  constructor
  · intro h
    rcases List.prefix_or_prefix_of_prefix h (List.prefix_append n (c :: rest)) with hle | hle
    · exact hle
    · obtain ⟨t, rfl⟩ := hle
      rw [List.prefix_append_right_inj] at h
      cases t with
      | nil => simp
      | cons x t =>
        obtain ⟨rfl, -⟩ := List.cons_prefix_cons.mp h
        simp at hc
  · exact fun h => h.trans (List.prefix_append n _)

/-- Whether the first `n` bytes behind two pointers agree; `none` when one of the objects is
shorter. -/
def memcmp (p q : Bytes) (n : ℕ) : Option Bool :=
  if n ≤ p.length ∧ n ≤ q.length then some (decide (p.take n = q.take n)) else none

/-- Comparing a whole string with what lies behind another pointer is a prefix test. -/
lemma memcmp_eq_decide {p a : Bytes} (h : a.length ≤ p.length) :
    memcmp p a a.length = some (decide (a <+: p)) := by
  rw [memcmp, if_pos ⟨h, Nat.le_refl _⟩, List.take_length]
  congr 1
  rw [decide_eq_decide, List.prefix_iff_eq_take]
  exact eq_comm

lemma memcmp_comm (p q : Bytes) (n : ℕ) : memcmp p q n = memcmp q p n := by
  unfold memcmp
  by_cases h : n ≤ p.length ∧ n ≤ q.length
  · rw [if_pos h, if_pos h.symm]
    congr 1
    rw [decide_eq_decide]
    exact eq_comm
  · rw [if_neg h, if_neg fun h' => h h'.symm]

/-- The decimal digits `%d` prints for a number that is not negative. -/
def decimal (n : ℕ) : Bytes := (Nat.toDigits 10 n).map fun c => UInt8.ofNat c.toNat

/-! ## Byte-addressed media -/

/-- A medium: what each address holds. -/
abbrev Medium := ℕ → UInt8

/-- `n` bytes of the medium from address `off`. -/
@[irreducible] def pread (d : Medium) (off n : ℕ) : Bytes := (List.range n).map fun i => d (off + i)

/-- The medium after `w` has been written at address `off`. -/
def pwrite (d : Medium) (off : ℕ) (w : Bytes) : Medium := fun a =>
  if off ≤ a ∧ a < off + w.length then w.getD (a - off) 0 else d a

@[simp] lemma length_pread (d : Medium) (off n : ℕ) : (pread d off n).length = n := by
  simp [pread]

lemma getElem?_pread (d : Medium) (off n i : ℕ) :
    (pread d off n)[i]? = if i < n then some (d (off + i)) else none := by
  unfold pread
  rw [List.getElem?_map]
  by_cases hi : i < n
  · simp [hi]
  · simp [hi]

lemma pread_congr {d d' : Medium} {off n : ℕ} (h : ∀ i < n, d (off + i) = d' (off + i)) :
    pread d off n = pread d' off n := by
  unfold pread
  apply List.map_congr_left
  intro i hi
  exact h i (List.mem_range.mp hi)

/-- A write leaves the bytes outside its range. -/
lemma pread_pwrite_disjoint {d : Medium} {off p n : ℕ} {w : Bytes}
    (h : p + n ≤ off ∨ off + w.length ≤ p) :
    pread (pwrite d off w) p n = pread d p n := by
  apply pread_congr
  intro i hi
  unfold pwrite
  rw [if_neg (by omega)]

/-- An interrupted write: the first `k` bytes are new, the rest is what was there. -/
lemma pread_pwrite_take (d : Medium) (off k : ℕ) (w : Bytes) :
    pread (pwrite d off (w.take k)) off w.length =
      w.take k ++ (pread d off w.length).drop k := by
  apply List.ext_getElem?
  intro i
  have hlen : (w.take k).length = min k w.length := List.length_take
  rw [getElem?_pread]
  by_cases hi : i < w.length
  · rw [if_pos hi]
    by_cases hk : i < k
    · rw [List.getElem?_append_left (by omega), List.getElem?_take_of_lt hk]
      unfold pwrite
      rw [if_pos (by omega), Nat.add_sub_cancel_left, List.getD_eq_getElem?_getD,
        List.getElem?_take_of_lt hk, List.getElem?_eq_getElem hi, Option.getD_some]
    · rw [List.getElem?_append_right (by omega), List.getElem?_drop, getElem?_pread,
        if_pos (by omega)]
      unfold pwrite
      rw [if_neg (by omega)]
      congr 3
      omega
  · rw [if_neg hi, List.getElem?_eq_none]
    rw [List.length_append, List.length_drop, length_pread, hlen]
    omega

lemma pwrite_nil (d : Medium) (off : ℕ) : pwrite d off [] = d := by
  funext a
  unfold pwrite
  rw [if_neg (by simp)]

/-- A completed write is read back. -/
lemma pread_pwrite_same (d : Medium) (off : ℕ) (w : Bytes) :
    pread (pwrite d off w) off w.length = w := by
  have h := pread_pwrite_take d off w.length w
  rwa [List.take_length, List.drop_eq_nil_of_le (by simp), List.append_nil] at h

end Framework
