import Mathlib.Data.Int.Notation
import Mathlib.Data.List.Forall2
import Mathlib.Logic.Function.Basic
import Mathlib.Tactic.Linarith

/-!
# Copying bytes from one memory to another

A routine that copies bytes is given by the list of its moves, one for each byte, in their order.
The two memories are apart, so that what is read is what was there before; a place of the
destination has what the last move to it has put there, and it is enough to know that all moves to
it are from the same place, `copied_of_mem`.

A `Plane` is a rectangle of bytes in a memory, row by row with a stride.
-/

namespace Framework

/-- A byte is copied from `src` in one memory to `dst` in the other. -/
structure Move where
  dst : ℤ
  src : ℤ
  deriving DecidableEq

variable {α : Type} {ms ms' : List Move} {m : Move} {s d : ℤ → α} {a b n : ℤ}

/-! ## Loops -/

/-- `for (i = 0; i < n; i++)`. -/
def loop (n : ℤ) (body : ℤ → List Move) : List Move :=
  (List.range n.toNat).flatMap fun i : ℕ => body i

/-- `for (i = 0; i < n; i += 2)`. -/
def loopEven (n : ℤ) (body : ℤ → List Move) : List Move :=
  loop ((n + 1) / 2) fun i => body (2 * i)

def memcpy (dst src n : ℤ) : List Move := loop n fun k => [⟨dst + k, src + k⟩]

/-- `h` calls of `memcpy`, with pointers that go on by their strides. -/
def copyRows (dst src width dstStride srcStride h : ℤ) : List Move :=
  loop h fun y => memcpy (dst + y * dstStride) (src + y * srcStride) width

lemma mem_loop {body : ℤ → List Move} :
    m ∈ loop n body ↔ ∃ i, 0 ≤ i ∧ i < n ∧ m ∈ body i := by
  rw [loop, List.mem_flatMap]
  constructor
  · rintro ⟨i, hi, hm⟩
    have := List.mem_range.mp hi
    exact ⟨i, by omega, by omega, hm⟩
  · rintro ⟨i, hi, hlt, hm⟩
    refine ⟨i.toNat, List.mem_range.mpr (by omega), ?_⟩
    rwa [Int.toNat_of_nonneg hi]

lemma mem_loopEven {body : ℤ → List Move} :
    m ∈ loopEven n body ↔ ∃ i, 0 ≤ i ∧ i < n ∧ i % 2 = 0 ∧ m ∈ body i := by
  rw [loopEven, mem_loop]
  constructor
  · rintro ⟨i, hi, hlt, hm⟩
    exact ⟨2 * i, by omega, by omega, by omega, hm⟩
  · rintro ⟨i, hi, hlt, heven, hm⟩
    refine ⟨i / 2, by omega, by omega, ?_⟩
    rwa [show 2 * (i / 2) = i by omega]

lemma mem_memcpy : m ∈ memcpy a b n ↔ a ≤ m.dst ∧ m.dst < a + n ∧ m.src = b + (m.dst - a) := by
  rw [memcpy, mem_loop]
  constructor
  · rintro ⟨k, hk, hlt, hm⟩
    obtain rfl := List.mem_singleton.mp hm
    refine ⟨?_, ?_, ?_⟩ <;> dsimp only <;> omega
  · rintro ⟨hle, hlt, hsrc⟩
    refine ⟨m.dst - a, by omega, by omega, List.mem_singleton.mpr ?_⟩
    obtain ⟨dst, src⟩ := m
    rw [Move.mk.injEq]
    dsimp only at hsrc ⊢
    omega

/-- The byte `x` of row `y`. -/
lemma mem_copyRows {width dstStride srcStride h : ℤ} :
    m ∈ copyRows a b width dstStride srcStride h ↔ ∃ x y, 0 ≤ x ∧ x < width ∧ 0 ≤ y ∧ y < h ∧
      m = ⟨a + y * dstStride + x, b + y * srcStride + x⟩ := by
  rw [copyRows, mem_loop]
  constructor
  · rintro ⟨y, hy, hlt, hm⟩
    obtain ⟨hle, hdst, hsrc⟩ := mem_memcpy.mp hm
    refine ⟨m.dst - (a + y * dstStride), y, by omega, by omega, hy, hlt, ?_⟩
    obtain ⟨dst, src⟩ := m
    rw [Move.mk.injEq]
    dsimp only at hsrc ⊢
    omega
  · rintro ⟨x, y, hx, hwidth, hy, hlt, rfl⟩
    refine ⟨y, hy, hlt, mem_memcpy.mpr ⟨?_, ?_, ?_⟩⟩ <;> dsimp only <;> omega

/-! ## What is copied -/

/-- The destination behind the moves. -/
def copied (ms : List Move) (s d : ℤ → α) : ℤ → α :=
  ms.foldl (fun d m => Function.update d m.dst (s m.src)) d

lemma copied_append : copied (ms ++ ms') s d = copied ms' s (copied ms s d) := List.foldl_append

/-- A place to which nothing is copied. -/
lemma copied_of_forall_ne (h : ∀ m ∈ ms, m.dst ≠ a) : copied ms s d a = d a := by
  induction ms generalizing d with
  | nil => rfl
  | cons m ms ih =>
    rw [List.forall_mem_cons] at h
    exact (ih h.2).trans (Function.update_of_ne (Ne.symm h.1) ..)

/-- A place to which bytes from one place only are copied. -/
lemma copied_of_forall (h : ∀ m ∈ ms, m.dst = a → m.src = b) (hd : d a = s b) :
    copied ms s d a = s b := by
  induction ms generalizing d with
  | nil => exact hd
  | cons m ms ih =>
    rw [List.forall_mem_cons] at h
    refine ih h.2 ?_
    by_cases hm : m.dst = a
    · rw [← hm, ← h.1 hm]
      exact Function.update_self ..
    · exact (Function.update_of_ne (Ne.symm hm) ..).trans hd

lemma copied_of_mem (h : ∀ m ∈ ms, m.dst = a → m.src = b) (hmem : ⟨a, b⟩ ∈ ms) :
    copied ms s d a = s b := by
  obtain ⟨front, back, rfl⟩ := List.append_of_mem hmem
  rw [copied_append]
  have hback : ∀ m ∈ back, m.dst = a → m.src = b := fun m hm =>
    h m (List.mem_append_right _ (List.mem_cons_of_mem _ hm))
  show copied back s (Function.update (copied front s d) a (s b)) a = s b
  exact copied_of_forall hback (Function.update_self ..)

/-! ## Planes -/

/-- Two bytes of rows of length `n`. -/
lemma row_inj {x y x' y' : ℤ} (hx : 0 ≤ x) (hlt : x < n) (hx' : 0 ≤ x') (hlt' : x' < n)
    (heq : y * n + x = y' * n + x') : x = x' ∧ y = y' := by
  have hcol : x = x' := by
    have hmod : (y * n + x) % n = (y' * n + x') % n := by rw [heq]
    rwa [add_comm, Int.add_mul_emod_self_right, add_comm (y' * n), Int.add_mul_emod_self_right,
      Int.emod_eq_of_lt hx hlt, Int.emod_eq_of_lt hx' hlt'] at hmod
  subst hcol
  exact ⟨rfl, mul_right_cancel₀ (by omega) (add_right_cancel heq)⟩

/-- A rectangle of bytes. -/
structure Plane where
  base : ℤ
  stride : ℤ
  width : ℤ
  height : ℤ

namespace Plane

variable {p : Plane} {x y x' y' : ℤ}

def addr (p : Plane) (x y : ℤ) : ℤ := p.base + y * p.stride + x

def Has (p : Plane) (x y : ℤ) : Prop := 0 ≤ x ∧ x < p.width ∧ 0 ≤ y ∧ y < p.height

lemma addr_mk {base stride width height : ℤ} :
    (⟨base, stride, width, height⟩ : Plane).addr x y = base + y * stride + x := rfl

/-- The bytes of a row are before the next row. -/
lemma Has.addr_lt (h : p.Has x y) (hwidth : p.width ≤ p.stride) :
    p.addr x y < p.base + p.height * p.stride := by
  obtain ⟨hx, hlt, hy, hheight⟩ := h
  have hrow : (y + 1) * p.stride ≤ p.height * p.stride :=
    mul_le_mul_of_nonneg_right hheight (by omega)
  rw [add_mul, one_mul] at hrow
  rw [addr]
  omega

lemma Has.le_addr (h : p.Has x y) (hwidth : p.width ≤ p.stride) : p.base ≤ p.addr x y := by
  obtain ⟨hx, hlt, hy, -⟩ := h
  have hrow : 0 ≤ y * p.stride := mul_nonneg hy (by omega)
  rw [addr]
  omega

/-- Two bytes of a plane are at two places. -/
lemma Has.addr_inj (h : p.Has x y) (h' : p.Has x' y') (hwidth : p.width ≤ p.stride)
    (heq : p.addr x y = p.addr x' y') : x = x' ∧ y = y' := by
  rw [addr, addr] at heq
  exact row_inj h.1 (h.2.1.trans_le hwidth) h'.1 (h'.2.1.trans_le hwidth) (by omega)

/-- Every place in the rows is one of a byte, when the rows have no gaps. -/
lemma exists_has {base width height : ℤ} (hwidth : 0 ≤ width) (hle : base ≤ a)
    (hlt : a < base + height * width) : ∃ x y, (⟨base, width, width, height⟩ : Plane).Has x y ∧
      a = (⟨base, width, width, height⟩ : Plane).addr x y := by
  obtain rfl | hpos := hwidth.eq_or_lt
  · rw [mul_zero] at hlt
    omega
  · have hrow : (a - base) / width < height := Int.ediv_lt_of_lt_mul hpos (by omega)
    refine ⟨(a - base) % width, (a - base) / width, ⟨Int.emod_nonneg _ hpos.ne',
      Int.emod_lt_of_pos _ hpos, Int.ediv_nonneg (by omega) hwidth, hrow⟩, ?_⟩
    have := Int.ediv_mul_add_emod (a - base) width
    rw [addr]
    dsimp only
    omega

end Plane

/-! ## Where the moves read and write -/

def Writes (ms : List Move) (lo hi : ℤ) : Prop := ∀ m ∈ ms, lo ≤ m.dst ∧ m.dst < hi

def Reads (ms : List Move) (lo hi : ℤ) : Prop := ∀ m ∈ ms, lo ≤ m.src ∧ m.src < hi

/-- Every byte in `lo … hi - 1` is written. -/
def Covers (ms : List Move) (lo hi : ℤ) : Prop := ∀ a, lo ≤ a → a < hi → ∃ m ∈ ms, m.dst = a

/-- The plane `q` of the destination has got the plane `p` of the source. -/
def Shows (ms : List Move) (q p : Plane) : Prop :=
  ∀ (s d : ℤ → UInt8) (x y : ℤ), q.Has x y → copied ms s d (q.addr x y) = s (p.addr x y)

variable {lo hi lo' hi' width height dstStride srcStride : ℤ} {p q : Plane}

lemma Writes.mono (h : Writes ms lo hi) (hlo : lo' ≤ lo) (hhi : hi ≤ hi') : Writes ms lo' hi' :=
  fun m hm => ⟨hlo.trans (h m hm).1, (h m hm).2.trans_le hhi⟩

lemma Reads.mono (h : Reads ms lo hi) (hlo : lo' ≤ lo) (hhi : hi ≤ hi') : Reads ms lo' hi' :=
  fun m hm => ⟨hlo.trans (h m hm).1, (h m hm).2.trans_le hhi⟩

lemma Writes.append (h : Writes ms lo hi) (h' : Writes ms' lo hi) : Writes (ms ++ ms') lo hi :=
  List.forall_mem_append.mpr ⟨h, h'⟩

lemma Reads.append (h : Reads ms lo hi) (h' : Reads ms' lo hi) : Reads (ms ++ ms') lo hi :=
  List.forall_mem_append.mpr ⟨h, h'⟩

lemma Covers.append {mid : ℤ} (h : Covers ms lo mid) (h' : Covers ms' mid hi) :
    Covers (ms ++ ms') lo hi := by
  intro a hle hlt
  obtain hmid | hmid := lt_or_ge a mid
  · obtain ⟨m, hm, hdst⟩ := h a hle hmid
    exact ⟨m, List.mem_append_left _ hm, hdst⟩
  · obtain ⟨m, hm, hdst⟩ := h' a hmid hlt
    exact ⟨m, List.mem_append_right _ hm, hdst⟩

lemma covers_memcpy : Covers (memcpy a b n) a (a + n) := fun c hle hlt =>
  ⟨⟨c, b + (c - a)⟩, mem_memcpy.mpr ⟨hle, hlt, rfl⟩, rfl⟩

/-- Rows without gaps. -/
lemma covers_copyRows (hwidth : 0 ≤ width) :
    Covers (copyRows a b width width srcStride height) a (a + height * width) := by
  intro c hle hlt
  obtain ⟨x, y, ⟨hx, hxlt, hy, hylt⟩, rfl⟩ := Plane.exists_has hwidth hle hlt
  exact ⟨_, mem_copyRows.mpr ⟨x, y, hx, hxlt, hy, hylt, rfl⟩, rfl⟩

lemma writes_memcpy : Writes (memcpy a b n) a (a + n) := by
  intro m hm
  obtain ⟨hle, hlt, -⟩ := mem_memcpy.mp hm
  exact ⟨hle, hlt⟩

lemma reads_memcpy : Reads (memcpy a b n) b (b + n) := by
  intro m hm
  obtain ⟨hle, hlt, hsrc⟩ := mem_memcpy.mp hm
  omega

lemma writes_copyRows (hwidth : width ≤ dstStride) :
    Writes (copyRows a b width dstStride srcStride height) a (a + height * dstStride) := by
  intro m hm
  obtain ⟨x, y, hx, hlt, hy, hheight, rfl⟩ := mem_copyRows.mp hm
  have hhas : (⟨a, dstStride, width, height⟩ : Plane).Has x y := ⟨hx, hlt, hy, hheight⟩
  exact ⟨hhas.le_addr hwidth, hhas.addr_lt hwidth⟩

lemma reads_copyRows (hwidth : width ≤ srcStride) :
    Reads (copyRows a b width dstStride srcStride height) b (b + height * srcStride) := by
  intro m hm
  obtain ⟨x, y, hx, hlt, hy, hheight, rfl⟩ := mem_copyRows.mp hm
  have hhas : (⟨b, srcStride, width, height⟩ : Plane).Has x y := ⟨hx, hlt, hy, hheight⟩
  exact ⟨hhas.le_addr hwidth, hhas.addr_lt hwidth⟩

/-! ## What a plane shows -/

/-- A plane among bytes that are copied in one, with one stride on both sides. -/
lemma shows_memcpy {a' b' : ℤ} (hwidth : width ≤ dstStride) (hle : a ≤ a')
    (hsame : b' - b = a' - a) (hn : a' + height * dstStride ≤ a + n) :
    Shows (memcpy a b n) ⟨a', dstStride, width, height⟩ ⟨b', dstStride, width, height⟩ := by
  intro s d x y hhas
  have hbase := hhas.le_addr hwidth
  have hlt := hhas.addr_lt hwidth
  simp only [Plane.addr_mk] at *
  refine copied_of_mem (fun m hm hdst => ?_)
    (mem_memcpy.mpr ⟨hle.trans hbase, hlt.trans_le hn, ?_⟩)
  · obtain ⟨-, -, hsrc⟩ := mem_memcpy.mp hm
    omega
  · dsimp only
    omega

lemma shows_copyRows (hwidth : width ≤ dstStride) :
    Shows (copyRows a b width dstStride srcStride height) ⟨a, dstStride, width, height⟩
      ⟨b, srcStride, width, height⟩ := by
  intro s d x y hhas
  refine copied_of_mem (fun m hm hdst => ?_) (mem_copyRows.mpr ?_)
  · obtain ⟨x', y', hx, hlt, hy, hheight, rfl⟩ := mem_copyRows.mp hm
    have hhas' : (⟨a, dstStride, width, height⟩ : Plane).Has x' y' := ⟨hx, hlt, hy, hheight⟩
    obtain ⟨rfl, rfl⟩ := hhas'.addr_inj hhas hwidth hdst
    rfl
  · exact ⟨x, y, hhas.1, hhas.2.1, hhas.2.2.1, hhas.2.2.2, rfl⟩

/-- What a byte shows is one byte of the source. -/
lemma Shows.addr_eq {p' : Plane} {x y : ℤ} (h : Shows ms q p) (h' : Shows ms q p')
    (hhas : q.Has x y) : p.addr x y = p'.addr x y := by
  have heq := (h (Function.update 0 (p.addr x y) 1) 0 x y hhas).symm.trans (h' _ 0 x y hhas)
  rw [Function.update_self] at heq
  by_contra hne
  rw [Function.update_of_ne (Ne.symm hne)] at heq
  exact absurd (show (1 : UInt8) = 0 from heq) (by decide)

lemma Shows.append_right (h : Shows ms' q p) : Shows (ms ++ ms') q p := by
  intro s d x y hhas
  rw [copied_append]
  exact h s _ x y hhas

/-- What is copied later is copied behind the plane. -/
lemma Shows.append_left (h : Shows ms q p) (hwrites : Writes ms' lo hi)
    (hwidth : q.width ≤ q.stride) (hlo : q.base + q.height * q.stride ≤ lo) :
    Shows (ms ++ ms') q p := by
  intro s d x y hhas
  have hlt := hhas.addr_lt hwidth
  rw [copied_append, copied_of_forall_ne]
  · exact h s d x y hhas
  · intro m hm hdst
    have := (hwrites m hm).1
    omega

/-- The moves copy the planes `ps` to `qs`, write in `lo … hi - 1` and read in `lo' … hi' - 1`. -/
structure Blits (ms : List Move) (qs ps : List Plane) (lo hi lo' hi' : ℤ) : Prop where
  shows : List.Forall₂ (Shows ms) qs ps
  writes : Writes ms lo hi
  reads : Reads ms lo' hi'
  ends : ∀ q ∈ qs, q.width ≤ q.stride ∧ q.base + q.height * q.stride ≤ hi

lemma blits_memcpy (hwidth : width ≤ dstStride) (hn : n = height * dstStride) (hhi : a + n ≤ hi)
    (hlo' : lo' ≤ b) (hhi' : b + n ≤ hi') :
    Blits (memcpy a b n) [⟨a, dstStride, width, height⟩] [⟨b, dstStride, width, height⟩]
      a hi lo' hi' := by
  subst hn
  refine ⟨.cons (shows_memcpy hwidth le_rfl (by rw [sub_self, sub_self]) le_rfl) .nil,
    writes_memcpy.mono le_rfl hhi, reads_memcpy.mono hlo' hhi', ?_⟩
  rw [List.forall_mem_singleton]
  exact ⟨hwidth, hhi⟩

lemma blits_copyRows (hdst : width ≤ dstStride) (hsrc : width ≤ srcStride)
    (hhi : a + height * dstStride ≤ hi) (hlo' : lo' ≤ b) (hhi' : b + height * srcStride ≤ hi') :
    Blits (copyRows a b width dstStride srcStride height) [⟨a, dstStride, width, height⟩]
      [⟨b, srcStride, width, height⟩] a hi lo' hi' := by
  refine ⟨.cons (shows_copyRows hdst) .nil, (writes_copyRows hdst).mono le_rfl hhi,
    (reads_copyRows hsrc).mono hlo' hhi', ?_⟩
  rw [List.forall_mem_singleton]
  exact ⟨hdst, hhi⟩

/-- What is copied behind the planes leaves them there. -/
lemma Blits.append {qs ps qs' ps' : List Plane} {mid : ℤ} (h : Blits ms qs ps lo mid lo' hi')
    (h' : Blits ms' qs' ps' mid hi lo' hi') (hlo : lo ≤ mid) (hhi : mid ≤ hi) :
    Blits (ms ++ ms') (qs ++ qs') (ps ++ ps') lo hi lo' hi' := by
  have hshows : List.Forall₂ (Shows (ms ++ ms')) qs ps :=
    ((List.forall₂_and_left qs ps).mpr ⟨h.ends, h.shows⟩).imp fun _ _ hq =>
      hq.2.append_left h'.writes hq.1.1 hq.1.2
  have hshows' : List.Forall₂ (Shows (ms ++ ms')) qs' ps' :=
    h'.shows.imp fun _ _ hq => hq.append_right
  have hends : ∀ q ∈ qs, q.width ≤ q.stride ∧ q.base + q.height * q.stride ≤ hi := fun q hq =>
    ⟨(h.ends q hq).1, (h.ends q hq).2.trans hhi⟩
  exact ⟨List.rel_append hshows hshows',
    (h.writes.mono le_rfl hhi).append (h'.writes.mono hlo le_rfl), h.reads.append h'.reads,
    List.forall_mem_append.mpr ⟨hends, h'.ends⟩⟩

end Framework
