import Mathlib.Tactic.Ring
import Softwinner.Framework.Blit

/-!
# Scaling down of preview frames

`yuv420spDownScale` writes a semi-planar frame of another size: it takes every `scale`-th sample of
every `scale`-th row, where the two ratios of the sizes are one number, and the upper left part of
the frame otherwise.

`yuv420spDownScale_scaled` says that it does so for even sizes; the lemmas before it are about all
sizes, and say where the rows end.
-/

namespace Softwinner.Camera

open Framework

variable {srcW srcH dstW dstH k : ℤ} {m : Move}

/-! ## The function -/

/-- The ratio of the sizes, if it is one. -/
def downScale (srcW srcH dstW dstH : ℤ) : ℤ :=
  let scaleW := srcW.tdiv dstW
  let scaleH := srcH.tdiv dstH
  if scaleW = scaleH then scaleW else 1

/-- The upper left part of the frame. -/
def cropMoves (srcW srcH dstW dstH : ℤ) : List Move :=
  copyRows 0 0 dstW dstW srcW dstH ++
  copyRows (dstW * dstH) (srcW * srcH) dstW dstW srcW (dstH.tdiv 2)

/-- Every `scale`-th sample of every `scale`-th row; two bytes at once in the chroma rows. -/
def scaleMoves (srcW srcH dstW dstH scale : ℤ) : List Move :=
  (loop dstH fun h => loop dstW fun w =>
    [⟨h * dstW + w, h * scale * srcW + w * scale⟩]) ++
  (loop (dstH.tdiv 2) fun h => loopEven dstW fun w =>
    memcpy (dstW * dstH + h * dstW + w) (srcW * srcH + h * scale * srcW + w * scale) 2)

/-- What is copied to a destination that is not larger than the source. -/
def downScaleMoves (srcW srcH dstW dstH : ℤ) : List Move :=
  let scale := downScale srcW srcH dstW dstH
  if scale = 1 then
    if srcW = dstW ∧ srcH = dstH then memcpy 0 0 ((dstW * dstH * 3).tdiv 2)
    else cropMoves srcW srcH dstW dstH
  else scaleMoves srcW srcH dstW dstH scale

/-- `yuv420spDownScale`: what it returns, and the copies from `psrc` to `pdst`; nothing if it
divides by zero. -/
def yuv420spDownScale (srcW srcH dstW dstH : ℤ) : Option (Bool × List Move) :=
  -- the ratios are computed before the sizes are compared
  if dstW = 0 ∨ dstH = 0 then none
  else if srcW < dstW ∨ srcH < dstH then some (false, [])
  else some (true, downScaleMoves srcW srcH dstW dstH)

/-! ## The moves of the scaling -/

lemma mem_scaleMoves : m ∈ scaleMoves srcW srcH dstW dstH k ↔
    (∃ x y, 0 ≤ x ∧ x < dstW ∧ 0 ≤ y ∧ y < dstH ∧
      m = ⟨y * dstW + x, y * k * srcW + x * k⟩) ∨
    ∃ x y b, 0 ≤ x ∧ x < dstW ∧ x % 2 = 0 ∧ 0 ≤ y ∧ y < dstH.tdiv 2 ∧ 0 ≤ b ∧ b < 2 ∧
      m = ⟨dstW * dstH + y * dstW + x + b, srcW * srcH + y * k * srcW + x * k + b⟩ := by
  rw [scaleMoves, List.mem_append, mem_loop, mem_loop]
  refine or_congr ⟨?_, ?_⟩ ⟨?_, ?_⟩
  · rintro ⟨y, hy, hylt, hm⟩
    obtain ⟨x, hx, hxlt, hm⟩ := mem_loop.mp hm
    exact ⟨x, y, hx, hxlt, hy, hylt, List.mem_singleton.mp hm⟩
  · rintro ⟨x, y, hx, hxlt, hy, hylt, hm⟩
    exact ⟨y, hy, hylt, mem_loop.mpr ⟨x, hx, hxlt, List.mem_singleton.mpr hm⟩⟩
  · rintro ⟨y, hy, hylt, hm⟩
    obtain ⟨x, hx, hxlt, hxeven, hm⟩ := mem_loopEven.mp hm
    obtain ⟨b, hb, hblt, hm⟩ := mem_loop.mp hm
    exact ⟨x, y, b, hx, hxlt, hxeven, hy, hylt, hb, hblt, List.mem_singleton.mp hm⟩
  · rintro ⟨x, y, b, hx, hxlt, hxeven, hy, hylt, hb, hblt, hm⟩
    exact ⟨y, hy, hylt, mem_loopEven.mpr ⟨x, hx, hxlt, hxeven, mem_loop.mpr
      ⟨b, hb, hblt, List.mem_singleton.mpr hm⟩⟩⟩

/-- The byte behind the last chroma row that a row of odd length writes with its last sample. -/
def spill (dstW dstH : ℤ) : ℤ := if dstW % 2 = 1 ∧ 2 ≤ dstH then 1 else 0

lemma covers_scaleMoves (hw : 0 ≤ dstW) (hh : 0 ≤ dstH) :
    Covers (scaleMoves srcW srcH dstW dstH k) 0
      (dstW * dstH + dstH / 2 * dstW + spill dstW dstH) := by
  intro a hle hlt
  have hhalf := Int.tdiv_eq_ediv_of_nonneg (b := 2) hh
  obtain hluma | hchroma := lt_or_ge a (dstW * dstH)
  · have hrows : a < 0 + dstH * dstW := by rwa [zero_add, mul_comm]
    obtain ⟨x, y, ⟨hx, hxlt, hy, hylt⟩, rfl⟩ := Plane.exists_has hw hle hrows
    exact ⟨_, mem_scaleMoves.mpr (Or.inl ⟨x, y, hx, hxlt, hy, hylt, rfl⟩), by
      rw [Plane.addr_mk, zero_add]⟩
  · obtain hrows | hspill := lt_or_ge a (dstW * dstH + dstH / 2 * dstW)
    · obtain ⟨x, y, ⟨hx, hxlt, hy, hylt⟩, rfl⟩ := Plane.exists_has hw hchroma hrows
      dsimp only at hxlt hylt
      refine ⟨_, mem_scaleMoves.mpr (Or.inr ⟨2 * (x / 2), y, x % 2, by omega, by omega, by omega,
        hy, by omega, by omega, by omega, rfl⟩), ?_⟩
      rw [Plane.addr_mk]
      dsimp only
      omega
    · rw [spill] at hlt
      split_ifs at hlt with hodd
      · refine ⟨_, mem_scaleMoves.mpr (Or.inr ⟨dstW - 1, dstH / 2 - 1, 1, by omega, by omega,
          by omega, by omega, by omega, by omega, by omega, rfl⟩), ?_⟩
        dsimp only
        rw [sub_mul, one_mul]
        omega
      · omega

lemma spill_nonneg (dstW dstH : ℤ) : 0 ≤ spill dstW dstH := by
  rw [spill]
  split_ifs <;> omega

lemma writes_scaleMoves (hw : 0 ≤ dstW) (hh : 0 ≤ dstH) :
    Writes (scaleMoves srcW srcH dstW dstH k) 0
      (dstW * dstH + dstH / 2 * dstW + spill dstW dstH) := by
  intro m hm
  have hhalf := Int.tdiv_eq_ediv_of_nonneg (b := 2) hh
  have harea : 0 ≤ dstW * dstH := mul_nonneg hw hh
  have hrows : 0 ≤ dstH / 2 * dstW := mul_nonneg (by omega) hw
  have hspill := spill_nonneg dstW dstH
  obtain ⟨x, y, hx, hxlt, hy, hylt, rfl⟩ | ⟨x, y, b, hx, hxlt, heven, hy, hylt, hb, hblt, rfl⟩ :=
    mem_scaleMoves.mp hm
  · have hhas : (⟨0, dstW, dstW, dstH⟩ : Plane).Has x y := ⟨hx, hxlt, hy, hylt⟩
    have hle := hhas.le_addr le_rfl
    have hlt := hhas.addr_lt le_rfl
    simp only [Plane.addr_mk, zero_add, mul_comm dstH] at *
    omega
  · have hrow : 0 ≤ y * dstW := mul_nonneg hy hw
    have hnext : (y + 1) * dstW ≤ dstH / 2 * dstW := mul_le_mul_of_nonneg_right (by omega) hw
    rw [add_mul, one_mul] at hnext
    dsimp only
    refine ⟨by omega, ?_⟩
    rw [spill]
    split_ifs <;> omega

/-! ## What is read -/

/-- A sample of the scaled frame is a sample of the frame. -/
lemma mul_add_le {x d s : ℤ} (hk : 0 ≤ k) (hx : x < d) (hd : d * k ≤ s) : x * k + k ≤ s := by
  have hnext : (x + 1) * k ≤ d * k := mul_le_mul_of_nonneg_right hx hk
  rw [add_mul, one_mul] at hnext
  omega

lemma reads_scaleMoves (hw : 0 ≤ dstW) (hh : 0 ≤ dstH) (hk : 2 ≤ k) (hsrcW : dstW * k ≤ srcW)
    (hsrcH : dstH * k ≤ srcH) :
    Reads (scaleMoves srcW srcH dstW dstH k) 0 (srcW * srcH + srcH / 2 * srcW) := by
  intro m hm
  have hhalf := Int.tdiv_eq_ediv_of_nonneg (b := 2) hh
  have hsW : 0 ≤ srcW := (mul_nonneg hw (by omega)).trans hsrcW
  have hsH : 0 ≤ srcH := (mul_nonneg hh (by omega)).trans hsrcH
  have harea : 0 ≤ srcW * srcH := mul_nonneg hsW hsH
  have hrows : 0 ≤ srcH / 2 * srcW := mul_nonneg (by omega) hsW
  obtain ⟨x, y, hx, hxlt, hy, hylt, rfl⟩ | ⟨x, y, b, hx, hxlt, heven, hy, hylt, hb, hblt, rfl⟩ :=
    mem_scaleMoves.mp hm
  · have hcol := mul_add_le (by omega) hxlt hsrcW
    have hrow := mul_add_le (by omega) hylt hsrcH
    have hhas : (⟨0, srcW, srcW, srcH⟩ : Plane).Has (x * k) (y * k) :=
      ⟨mul_nonneg hx (by omega), by dsimp only; omega, mul_nonneg hy (by omega),
        by dsimp only; omega⟩
    have hle := hhas.le_addr le_rfl
    have hlt := hhas.addr_lt le_rfl
    simp only [Plane.addr_mk, zero_add, mul_comm srcH] at *
    omega
  · have hcol := mul_add_le (by omega) hxlt hsrcW
    have hpair : dstH / 2 * k ≤ srcH / 2 := by
      have : 2 * (dstH / 2) * k ≤ dstH * k := mul_le_mul_of_nonneg_right (by omega) (by omega)
      rw [mul_assoc] at this
      omega
    have hrow := mul_add_le (by omega) (hhalf ▸ hylt) hpair
    have hhas : (⟨srcW * srcH, srcW, srcW, srcH / 2⟩ : Plane).Has (x * k + b) (y * k) :=
      ⟨add_nonneg (mul_nonneg hx (by omega)) hb, by dsimp only; omega, mul_nonneg hy (by omega),
        by dsimp only; omega⟩
    have hle := hhas.le_addr le_rfl
    have hlt := hhas.addr_lt le_rfl
    simp only [Plane.addr_mk] at *
    omega

/-! ## The moves of the cropping -/

lemma covers_cropMoves (hw : 0 ≤ dstW) (hh : 0 ≤ dstH) :
    Covers (cropMoves srcW srcH dstW dstH) 0 (dstW * dstH + dstH / 2 * dstW) := by
  rw [cropMoves, Int.tdiv_eq_ediv_of_nonneg hh]
  refine Covers.append ?_ (covers_copyRows hw)
  have hluma : Covers (copyRows 0 0 dstW dstW srcW dstH) 0 (0 + dstH * dstW) := covers_copyRows hw
  rwa [zero_add, mul_comm] at hluma

lemma writes_cropMoves (hw : 0 ≤ dstW) (hh : 0 ≤ dstH) :
    Writes (cropMoves srcW srcH dstW dstH) 0 (dstW * dstH + dstH / 2 * dstW) := by
  have harea : 0 ≤ dstW * dstH := mul_nonneg hw hh
  have hrows : 0 ≤ dstH / 2 * dstW := mul_nonneg (by omega) hw
  have hcomm := mul_comm dstW dstH
  rw [cropMoves, Int.tdiv_eq_ediv_of_nonneg hh]
  exact ((writes_copyRows le_rfl).mono le_rfl (by omega)).append
    ((writes_copyRows le_rfl).mono harea le_rfl)

lemma reads_cropMoves (hw : 0 ≤ dstW) (hh : 0 ≤ dstH) (hsrcW : dstW ≤ srcW)
    (hsrcH : dstH ≤ srcH) :
    Reads (cropMoves srcW srcH dstW dstH) 0 (srcW * srcH + srcH / 2 * srcW) := by
  have hsW : 0 ≤ srcW := hw.trans hsrcW
  have harea : 0 ≤ srcW * srcH := mul_nonneg hsW (hh.trans hsrcH)
  have hrows : 0 ≤ srcH / 2 * srcW := mul_nonneg (by omega) hsW
  have hluma : dstH * srcW ≤ srcH * srcW := mul_le_mul_of_nonneg_right hsrcH hsW
  have hchroma : dstH / 2 * srcW ≤ srcH / 2 * srcW := mul_le_mul_of_nonneg_right (by omega) hsW
  have hcomm := mul_comm srcW srcH
  rw [cropMoves, Int.tdiv_eq_ediv_of_nonneg hh]
  exact ((reads_copyRows hsrcW).mono le_rfl (by omega)).append
    ((reads_copyRows hsrcW).mono harea (by omega))

/-! ## What is shown -/

/-- Each sample is the one of the frame at `k` times its place, and no byte is left out. -/
structure Scaled (srcW srcH dstW dstH k : ℤ) (ms : List Move) : Prop where
  written : Covers ms 0 (dstW * dstH * 3 / 2)
  writes : Writes ms 0 (dstW * dstH * 3 / 2)
  reads : Reads ms 0 (srcW * srcH * 3 / 2)
  luma : ∀ (s d : ℤ → UInt8) (x y : ℤ), 0 ≤ x → x < dstW → 0 ≤ y → y < dstH →
    copied ms s d (y * dstW + x) = s (y * k * srcW + x * k)
  chroma : ∀ (s d : ℤ → UInt8) (x y b : ℤ), 0 ≤ x → x < dstW / 2 → 0 ≤ y → y < dstH / 2 →
    b = 0 ∨ b = 1 →
    copied ms s d (dstW * dstH + y * dstW + 2 * x + b) =
      s (srcW * srcH + y * k * srcW + 2 * (x * k) + b)

/-- A frame of even height has half as many chroma rows as luma rows. -/
lemma frame_size {w h : ℤ} (heven : h % 2 = 0) : w * h + h / 2 * w = w * h * 3 / 2 := by
  obtain ⟨j, rfl⟩ : ∃ j, h = 2 * j := ⟨h / 2, by omega⟩
  have hsize : w * (2 * j) = 2 * (j * w) := by ring
  rw [Int.mul_ediv_cancel_left _ two_ne_zero]
  omega

/-- The planes of one frame are parts of those of the other. -/
lemma scaled_one {ms : List Move} (heven : dstW % 2 = 0)
    (hluma : Shows ms ⟨0, dstW, dstW, dstH⟩ ⟨0, srcW, dstW, dstH⟩)
    (hchroma : Shows ms ⟨dstW * dstH, dstW, dstW, dstH / 2⟩ ⟨srcW * srcH, srcW, dstW, dstH / 2⟩)
    (hcovers : Covers ms 0 (dstW * dstH * 3 / 2)) (hwrites : Writes ms 0 (dstW * dstH * 3 / 2))
    (hreads : Reads ms 0 (srcW * srcH * 3 / 2)) : Scaled srcW srcH dstW dstH 1 ms := by
  refine ⟨hcovers, hwrites, hreads, fun s d x y hx hxlt hy hylt => ?_,
    fun s d x y b hx hxlt hy hylt hb => ?_⟩
  · have := hluma s d x y ⟨hx, hxlt, hy, hylt⟩
    rw [Plane.addr_mk, Plane.addr_mk, zero_add, zero_add] at this
    rwa [mul_one, mul_one]
  · have := hchroma s d (2 * x + b) y ⟨by omega, by dsimp only; omega, hy, hylt⟩
    rw [Plane.addr_mk, Plane.addr_mk, ← add_assoc, ← add_assoc] at this
    rwa [mul_one, mul_one]

lemma scaled_memcpy (hw : 0 ≤ dstW) (hh : 0 ≤ dstH) (heven : dstW % 2 = 0)
    (hheven : dstH % 2 = 0) :
    Scaled dstW dstH dstW dstH 1 (memcpy 0 0 ((dstW * dstH * 3).tdiv 2)) := by
  have harea : 0 ≤ dstW * dstH := mul_nonneg hw hh
  have hsize := frame_size (w := dstW) hheven
  have hcomm := mul_comm dstW dstH
  have hrows : 0 ≤ dstH / 2 * dstW := mul_nonneg (by omega) hw
  rw [Int.tdiv_eq_ediv_of_nonneg (by omega)]
  refine scaled_one heven ?_ ?_ ?_ ?_ ?_
  · exact shows_memcpy le_rfl le_rfl rfl (by omega)
  · exact shows_memcpy le_rfl harea rfl (by omega)
  · have := covers_memcpy (a := 0) (b := 0) (n := dstW * dstH * 3 / 2)
    rwa [zero_add] at this
  · exact writes_memcpy.mono le_rfl (by rw [zero_add])
  · exact reads_memcpy.mono le_rfl (by rw [zero_add])

lemma scaled_cropMoves (hw : 0 ≤ dstW) (hh : 0 ≤ dstH) (hsrcW : dstW ≤ srcW)
    (hsrcH : dstH ≤ srcH) (heven : dstW % 2 = 0) (hheven : dstH % 2 = 0)
    (hsrc : srcH % 2 = 0) : Scaled srcW srcH dstW dstH 1 (cropMoves srcW srcH dstW dstH) := by
  have hcovers : Covers (cropMoves srcW srcH dstW dstH) 0 _ := covers_cropMoves hw hh
  have hwrites : Writes (cropMoves srcW srcH dstW dstH) 0 _ := writes_cropMoves hw hh
  have hreads := reads_cropMoves hw hh hsrcW hsrcH
  rw [frame_size hheven] at hcovers hwrites
  rw [frame_size hsrc] at hreads
  refine scaled_one heven ?_ ?_ hcovers hwrites hreads
  · refine (shows_copyRows le_rfl).append_left (writes_copyRows le_rfl) le_rfl ?_
    dsimp only
    rw [zero_add, mul_comm]
  · rw [cropMoves, Int.tdiv_eq_ediv_of_nonneg hh]
    exact (shows_copyRows le_rfl).append_right

lemma scaled_scaleMoves (hw : 0 ≤ dstW) (hh : 0 ≤ dstH) (hk : 2 ≤ k) (hsrcW : dstW * k ≤ srcW)
    (hsrcH : dstH * k ≤ srcH) (heven : dstW % 2 = 0) (hheven : dstH % 2 = 0)
    (hsrc : srcH % 2 = 0) :
    Scaled srcW srcH dstW dstH k (scaleMoves srcW srcH dstW dstH k) := by
  have hcovers : Covers (scaleMoves srcW srcH dstW dstH k) 0 _ := covers_scaleMoves hw hh
  have hwrites : Writes (scaleMoves srcW srcH dstW dstH k) 0 _ := writes_scaleMoves hw hh
  have hreads := reads_scaleMoves hw hh hk hsrcW hsrcH
  have hspill : spill dstW dstH = 0 := if_neg (by omega)
  have hhalf := Int.tdiv_eq_ediv_of_nonneg (b := 2) hh
  have hcomm := mul_comm dstW dstH
  rw [hspill, add_zero, frame_size hheven] at hcovers hwrites
  rw [frame_size hsrc] at hreads
  refine ⟨hcovers, hwrites, hreads, fun s d x y hx hxlt hy hylt => ?_,
    fun s d x y b hx hxlt hy hylt hb => ?_⟩
  · have hhas : (⟨0, dstW, dstW, dstH⟩ : Plane).Has x y := ⟨hx, hxlt, hy, hylt⟩
    have hlt := hhas.addr_lt le_rfl
    refine copied_of_mem (fun m hm hdst => ?_)
      (mem_scaleMoves.mpr (Or.inl ⟨x, y, hx, hxlt, hy, hylt, rfl⟩))
    obtain ⟨x', y', hx', hxlt', -, -, rfl⟩ | ⟨x', y', b', hx', -, -, hy', -, hb', -, rfl⟩ :=
      mem_scaleMoves.mp hm
    · obtain ⟨rfl, rfl⟩ := row_inj hx' hxlt' hx hxlt hdst
      rfl
    · have hrow : 0 ≤ y' * dstW := mul_nonneg hy' hw
      rw [Plane.addr_mk, zero_add] at hlt
      dsimp only at hdst hlt
      omega
  · have hrow : 0 ≤ y * dstW := mul_nonneg hy hw
    rw [← mul_assoc 2 x k]
    refine copied_of_mem (fun m hm hdst => ?_) (mem_scaleMoves.mpr (Or.inr ⟨2 * x, y, b,
      by omega, by omega, by omega, hy, by omega, by omega, by omega, rfl⟩))
    obtain ⟨x', y', hx', hxlt', hy', hylt', rfl⟩ |
      ⟨x', y', b', hx', hxlt', hxeven, -, -, hb', hblt, rfl⟩ := mem_scaleMoves.mp hm
    · have hhas : (⟨0, dstW, dstW, dstH⟩ : Plane).Has x' y' := ⟨hx', hxlt', hy', hylt'⟩
      have hlt := hhas.addr_lt le_rfl
      rw [Plane.addr_mk, zero_add] at hlt
      dsimp only at hdst hlt
      omega
    · dsimp only at hdst
      obtain ⟨hcol, rfl⟩ : x' + b' = 2 * x + b ∧ y' = y :=
        row_inj (n := dstW) (by omega) (by omega) (by omega) (by omega) (by omega)
      obtain ⟨rfl, rfl⟩ : x' = 2 * x ∧ b' = b := by omega
      rfl

/-! ## Results -/

/-- The scale that the frame of even size is to be read at. -/
lemma downScale_spec (hw : 0 < dstW) (hh : 0 < dstH) (hsrcW : dstW ≤ srcW)
    (hsrcH : dstH ≤ srcH) :
    downScale srcW srcH dstW dstH = if srcW / dstW = srcH / dstH then srcW / dstW else 1 := by
  rw [downScale, Int.tdiv_eq_ediv_of_nonneg (by omega), Int.tdiv_eq_ediv_of_nonneg (by omega)]

/-- The frame has `scale` samples for each sample that is written. -/
lemma downScale_le (hw : 0 < dstW) (hh : 0 < dstH) (hsrcW : dstW ≤ srcW) (hsrcH : dstH ≤ srcH) :
    1 ≤ downScale srcW srcH dstW dstH ∧ dstW * downScale srcW srcH dstW dstH ≤ srcW ∧
      dstH * downScale srcW srcH dstW dstH ≤ srcH := by
  rw [downScale_spec hw hh hsrcW hsrcH]
  split_ifs with heq
  · refine ⟨Int.le_ediv_of_mul_le hw (by omega), Int.mul_ediv_self_le hw.ne', ?_⟩
    rw [heq]
    exact Int.mul_ediv_self_le hh.ne'
  · omega

lemma scaled_downScaleMoves (hw : 0 < dstW) (hh : 0 < dstH) (hsrcW : dstW ≤ srcW)
    (hsrcH : dstH ≤ srcH) (hsrc : srcH % 2 = 0) (hdst : dstW % 2 = 0 ∧ dstH % 2 = 0) :
    Scaled srcW srcH dstW dstH (downScale srcW srcH dstW dstH)
      (downScaleMoves srcW srcH dstW dstH) := by
  obtain ⟨hone, hkW, hkH⟩ := downScale_le hw hh hsrcW hsrcH
  rw [downScaleMoves]
  split_ifs with hk hsame
  · obtain ⟨rfl, rfl⟩ := hsame
    rw [hk]
    exact scaled_memcpy hw.le hh.le hdst.1 hdst.2
  · rw [hk]
    exact scaled_cropMoves hw.le hh.le hsrcW hsrcH hdst.1 hdst.2 hsrc
  · exact scaled_scaleMoves hw.le hh.le (by omega) hkW hkH hdst.1 hdst.2 hsrc

/-- A destination that is larger in some dimension is left as it is; any other one gets the frame,
scaled by the ratio of the sizes or cropped. -/
theorem yuv420spDownScale_scaled (hw : 0 < dstW) (hh : 0 < dstH) (hsrc : srcH % 2 = 0)
    (hdst : dstW % 2 = 0 ∧ dstH % 2 = 0) :
    (srcW < dstW ∨ srcH < dstH → yuv420spDownScale srcW srcH dstW dstH = some (false, [])) ∧
      (dstW ≤ srcW ∧ dstH ≤ srcH → ∃ ms, yuv420spDownScale srcW srcH dstW dstH = some (true, ms) ∧
        Scaled srcW srcH dstW dstH (if srcW / dstW = srcH / dstH then srcW / dstW else 1) ms) := by
  have hne : ¬(dstW = 0 ∨ dstH = 0) := by omega
  refine ⟨fun hlarger => ?_, fun ⟨hsrcW, hsrcH⟩ => ?_⟩
  · rw [yuv420spDownScale, if_neg hne, if_pos hlarger]
  · rw [yuv420spDownScale, if_neg hne, if_neg (by omega), ← downScale_spec hw hh hsrcW hsrcH]
    exact ⟨_, rfl, scaled_downScaleMoves hw hh hsrcW hsrcH hsrc hdst⟩

/-- 640x480 to 320x240. -/
theorem yuv420spDownScale_vga : ∃ ms, yuv420spDownScale 640 480 320 240 = some (true, ms) ∧
    Scaled 640 480 320 240 (if (640 : ℤ) / 320 = 480 / 240 then 640 / 320 else 1) ms :=
  (yuv420spDownScale_scaled (by decide) (by decide) rfl ⟨rfl, rfl⟩).2 ⟨by decide, by decide⟩

end Softwinner.Camera
