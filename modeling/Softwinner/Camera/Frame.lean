import Mathlib.Tactic.Ring
import Softwinner.Framework.Blit

/-!
# Frames of a USB camera

A USB camera delivers YUYV, and `captureThread` converts every frame with `YUYVToNV21`.  The
conversion takes the chroma bytes of a pixel from its neighbours: a byte V is that of the pair
before, a byte U that of the pair behind, and the first V and the last U of a row are not written
at all.
-/

namespace Softwinner.Camera

open Framework

variable {width height : ℤ} {m : Move}

/-! ## Aligned sizes -/

/-- `((x) + (n - 1)) & ~(n - 1)`: the low bits of the sum are cleared. -/
def align (n x : ℤ) : ℤ := x + (n - 1) - (x + (n - 1)) % n

def align4K (x : ℤ) : ℤ := align 4096 x

def align32B (x : ℤ) : ℤ := align 32 x

def align16B (x : ℤ) : ℤ := align 16 x

def align8B (x : ℤ) : ℤ := align 8 x

lemma le_align16B (x : ℤ) : x ≤ align16B x := by
  rw [align16B, align]
  omega

lemma align16B_le_align32B (x : ℤ) : align16B x ≤ align32B x := by
  rw [align16B, align32B, align, align]
  omega

lemma align16B_eq_self {x : ℤ} : align16B x = x ↔ x % 16 = 0 := by
  rw [align16B, align]
  omega

/-- The chroma rows of a planar window are half as long as its luma rows. -/
lemma align16B_eq {x : ℤ} (heven : x % 2 = 0) : align16B x = 2 * align8B (x / 2) := by
  rw [align8B, align16B, align, align]
  omega

lemma align32B_eq {x : ℤ} (heven : x % 2 = 0) : align32B x = 2 * align16B (x / 2) := by
  rw [align16B, align32B, align, align]
  omega

lemma align16B_half_align16B {x : ℤ} (heven : x % 2 = 0) :
    align16B (align16B x / 2) = align16B (x / 2) := by
  rw [align16B, align16B, align, align, align16B, align]
  omega

/-! ## Frames -/

/-- `V4L2_PIX_FMT_…`. -/
inductive PixelFormat
  | nv21
  | nv12
  | yuv420
  | yvu420
  | yuyv
  deriving DecidableEq

/-- `RECT_t`. -/
structure CropRect where
  left : ℤ
  top : ℤ
  width : ℤ
  height : ℤ

/-- What a consumer of a frame takes from `V4L2BUF_t`. -/
structure View where
  format : PixelFormat
  addrPhy : ℤ
  addrVir : ℤ
  width : ℤ
  height : ℤ
  cropRect : CropRect

/-- `V4L2BUF_t`, the frame and its thumbnail. -/
structure V4l2Buf where
  main : View
  isThumbAvailable : ℤ
  thumbUsedForPreview : ℤ
  thumbUsedForPhoto : ℤ
  thumb : View

def V4l2Buf.preview (b : V4l2Buf) : View :=
  if b.isThumbAvailable = 1 ∧ b.thumbUsedForPreview = 1 then b.thumb else b.main

def V4l2Buf.photo (b : V4l2Buf) : View :=
  if b.isThumbAvailable = 1 ∧ b.thumbUsedForPhoto = 1 then b.thumb else b.main

/-- A frame without a thumbnail. -/
def V4l2Buf.ofView (v : View) : V4l2Buf := ⟨v, 0, 0, 0, ⟨v.format, 0, 0, 0, 0, ⟨0, 0, 0, 0⟩⟩⟩

/-! ## The conversion -/

/-- `YUYVToNV21`, from `yuyv` to `nv21`. -/
def yuyvToNV21 (width height : ℤ) : List Move :=
  let VU := width * height
  loopEven height fun i => loop width fun j =>
    [⟨i * width + j, i * width * 2 + j * 2⟩,
      ⟨(i + 1) * width + j, (i + 1) * width * 2 + j * 2⟩] ++
    if j % 2 ≠ 0 then
      if j < width - 1 then
        [⟨VU + i * width / 2 + j, i * width * 2 + (j + 1) * 2 + 1⟩]
      else []
    else
      if 1 < j then
        [⟨VU + i * width / 2 + j, i * width * 2 + (j - 1) * 2 + 1⟩]
      else []

/-- The luma plane of a converted frame. -/
def nv21Luma (width height : ℤ) : Plane := ⟨0, width, width, height⟩

/-- The bytes V and U of a converted frame, in turn. -/
def nv21Chroma (width height : ℤ) : Plane := ⟨width * height, width, width, height / 2⟩

/-- The conversion is right for the frame `yuyv`. -/
structure Converts (width height : ℤ) (yuyv : ℤ → UInt8) : Prop where
  written : ∀ a, 0 ≤ a → a < width * height * 3 / 2 → ∃ m ∈ yuyvToNV21 width height, m.dst = a
  luma : ∀ nv21 x y, (nv21Luma width height).Has x y →
    copied (yuyvToNV21 width height) yuyv nv21 ((nv21Luma width height).addr x y) =
      yuyv (y * (width * 2) + x * 2)
  chroma : ∀ nv21 k y, 0 ≤ k → k < width / 2 → 0 ≤ y → y < height / 2 →
    copied (yuyvToNV21 width height) yuyv nv21 ((nv21Chroma width height).addr (2 * k) y) =
        yuyv (2 * y * (width * 2) + k * 4 + 3) ∧
      copied (yuyvToNV21 width height) yuyv nv21 ((nv21Chroma width height).addr (2 * k + 1) y) =
        yuyv (2 * y * (width * 2) + k * 4 + 1)

/-! ## The moves -/

/-- The pixel of the row from which the byte `x` of a chroma row is taken. -/
def Neighbour (width x x' : ℤ) : Prop :=
  x % 2 = 1 ∧ x < width - 1 ∧ x' = x + 1 ∨ x % 2 = 0 ∧ 1 < x ∧ x' = x - 1

/-- A move is to a pixel of the luma plane, or from a neighbour to a byte of the chroma plane. -/
lemma mem_yuyvToNV21 (heven : height % 2 = 0) :
    m ∈ yuyvToNV21 width height ↔
      (∃ x y, (nv21Luma width height).Has x y ∧
        m = ⟨(nv21Luma width height).addr x y, y * (width * 2) + x * 2⟩) ∨
      ∃ x y x', (nv21Chroma width height).Has x y ∧ Neighbour width x x' ∧
        m = ⟨(nv21Chroma width height).addr x y, 2 * y * (width * 2) + x' * 2 + 1⟩ := by
  have hhalf (y : ℤ) : 2 * y * width / 2 = y * width := by
    rw [mul_assoc, Int.mul_ediv_cancel_left _ two_ne_zero]
  simp only [nv21Luma, nv21Chroma, Plane.addr_mk, Plane.Has, Neighbour]
  rw [yuyvToNV21, mem_loopEven]
  constructor
  · rintro ⟨i, hi, hlt, hi2, hm⟩
    obtain ⟨j, hj, hwidth, hm⟩ := mem_loop.mp hm
    obtain ⟨y, rfl⟩ : ∃ y, i = 2 * y := ⟨i / 2, by omega⟩
    obtain hm | hm := List.mem_append.mp hm
    · obtain rfl | hm := List.mem_cons.mp hm
      · exact Or.inl ⟨j, 2 * y, by omega, congrArg₂ Move.mk (by ring) (by ring)⟩
      · obtain rfl := List.mem_singleton.mp hm
        exact Or.inl ⟨j, 2 * y + 1, by omega, congrArg₂ Move.mk (by ring) (by ring)⟩
    · rw [hhalf] at hm
      split_ifs at hm
      · obtain rfl := List.mem_singleton.mp hm
        exact Or.inr ⟨j, y, j + 1, by omega, by omega, congrArg₂ Move.mk (by ring) (by ring)⟩
      · exact absurd hm List.not_mem_nil
      · obtain rfl := List.mem_singleton.mp hm
        exact Or.inr ⟨j, y, j - 1, by omega, by omega, congrArg₂ Move.mk (by ring) (by ring)⟩
      · exact absurd hm List.not_mem_nil
  · rintro (⟨x, y, ⟨hx, hwidth, hy, hheight⟩, rfl⟩ |
      ⟨x, y, x', ⟨hx, hwidth, hy, hheight⟩, hnext, rfl⟩)
    · refine ⟨2 * (y / 2), by omega, by omega, by omega, mem_loop.mpr ⟨x, hx, hwidth, ?_⟩⟩
      refine List.mem_append_left _ (List.mem_cons.mpr ?_)
      obtain h | h := Int.emod_two_eq_zero_or_one y
      · left
        rw [show 2 * (y / 2) = y by omega]
        exact congrArg₂ Move.mk (by ring) (by ring)
      · right
        rw [show 2 * (y / 2) + 1 = y by omega, List.mem_singleton]
        exact congrArg₂ Move.mk (by ring) (by ring)
    · refine ⟨2 * y, by omega, by omega, by omega, mem_loop.mpr ⟨x, hx, hwidth, ?_⟩⟩
      refine List.mem_append_right _ ?_
      obtain ⟨hodd, hlt, rfl⟩ | ⟨heven', hlt, rfl⟩ := hnext
      · rw [if_pos (by omega), if_pos hlt, List.mem_singleton, hhalf]
        exact congrArg₂ Move.mk (by ring) (by ring)
      · rw [if_neg (by omega), if_pos hlt, List.mem_singleton, hhalf]
        exact congrArg₂ Move.mk (by ring) (by ring)

/-- No move is to the luma plane and to the chroma plane. -/
lemma nv21Luma_lt_nv21Chroma {x y x' y' : ℤ} (h : (nv21Luma width height).Has x y)
    (h' : (nv21Chroma width height).Has x' y') :
    (nv21Luma width height).addr x y < (nv21Chroma width height).addr x' y' := by
  have hlt := h.addr_lt le_rfl
  have hle := h'.le_addr le_rfl
  simp only [nv21Luma, nv21Chroma] at *
  linarith [mul_comm width height]

theorem yuyvToNV21_luma {s d : ℤ → UInt8} {x y : ℤ} (heven : height % 2 = 0)
    (h : (nv21Luma width height).Has x y) :
    copied (yuyvToNV21 width height) s d ((nv21Luma width height).addr x y) =
      s (y * (width * 2) + x * 2) := by
  refine copied_of_mem ?_ ((mem_yuyvToNV21 heven).mpr (Or.inl ⟨x, y, h, rfl⟩))
  intro m hm hdst
  obtain ⟨x', y', h', rfl⟩ | ⟨x', y', x'', h', -, rfl⟩ := (mem_yuyvToNV21 heven).mp hm
  · obtain ⟨rfl, rfl⟩ := h'.addr_inj h le_rfl hdst
    rfl
  · exact absurd hdst (nv21Luma_lt_nv21Chroma h h').ne'

/-- A chroma byte is the one of the neighbour. -/
theorem yuyvToNV21_chroma {s d : ℤ → UInt8} {x y x' : ℤ} (heven : height % 2 = 0)
    (h : (nv21Chroma width height).Has x y) (hnext : Neighbour width x x') :
    copied (yuyvToNV21 width height) s d ((nv21Chroma width height).addr x y) =
      s (2 * y * (width * 2) + x' * 2 + 1) := by
  refine copied_of_mem ?_ ((mem_yuyvToNV21 heven).mpr (Or.inr ⟨x, y, x', h, hnext, rfl⟩))
  intro m hm hdst
  obtain ⟨a, b, h', rfl⟩ | ⟨a, b, a', h', hnext', rfl⟩ := (mem_yuyvToNV21 heven).mp hm
  · exact absurd hdst (nv21Luma_lt_nv21Chroma h' h).ne
  · obtain ⟨rfl, rfl⟩ := h'.addr_inj h le_rfl hdst
    obtain rfl : a' = x' := by
      rw [Neighbour] at hnext hnext'
      omega
    rfl

/-- The first and the last byte of a chroma row have no neighbour, and are not written. -/
lemma forall_yuyvToNV21_ne {x y : ℤ} (heven : height % 2 = 0)
    (h : (nv21Chroma width height).Has x y) (hedge : ∀ x', ¬ Neighbour width x x') :
    ∀ m ∈ yuyvToNV21 width height, m.dst ≠ (nv21Chroma width height).addr x y := by
  intro m hm hdst
  obtain ⟨a, b, h', rfl⟩ | ⟨a, b, a', h', hnext', rfl⟩ := (mem_yuyvToNV21 heven).mp hm
  · exact absurd hdst (nv21Luma_lt_nv21Chroma h' h).ne
  · obtain ⟨rfl, rfl⟩ := h'.addr_inj h le_rfl hdst
    exact hedge a' hnext'

/-! ## Results -/

/-- No frame is converted right: the first byte V of a row is not written.  The bytes Y are those of
the frame, whatever is in the memory before. -/
theorem not_converts {yuyv : ℤ → UInt8} (hwidth : 2 ≤ width) (hheight : 2 ≤ height)
    (heven : height % 2 = 0) : ¬ Converts width height yuyv ∧
      ∀ (d : ℤ → UInt8) (x y : ℤ), (nv21Luma width height).Has x y →
        copied (yuyvToNV21 width height) yuyv d ((nv21Luma width height).addr x y) =
          yuyv (y * (width * 2) + x * 2) := by
  refine ⟨?_, fun d x y h => yuyvToNV21_luma heven h⟩
  rintro ⟨hwritten, -, -⟩
  have hhas : (nv21Chroma width height).Has 0 0 := ⟨le_rfl, by show 0 < width; omega, le_rfl,
    by show 0 < height / 2; omega⟩
  have haddr : (nv21Chroma width height).addr 0 0 = width * height := by
    rw [nv21Chroma, Plane.addr_mk]
    ring
  have harea : 2 * 2 ≤ width * height := mul_le_mul hwidth hheight (by omega) (by omega)
  obtain ⟨m, hm, hdst⟩ := hwritten (width * height) (by omega) (by omega)
  refine forall_yuyvToNV21_ne heven hhas (fun x' hnext => ?_) m hm (hdst.trans haddr.symm)
  rw [Neighbour] at hnext
  omega

theorem not_converts_two : ¬ Converts 2 2 fun _ => 0 :=
  (not_converts le_rfl le_rfl rfl).1

/-- In the frame of the bytes `0 … 15`, V of the pair behind is that of the pair before. -/
theorem not_converts_counting : ¬ Converts 4 2 fun a => UInt8.ofNat a.toNat := by
  intro h
  have hv := (h.chroma (fun _ => 0) 1 0 (by decide) (by decide) le_rfl (by decide)).1
  have hhas : (nv21Chroma 4 2).Has 2 0 := ⟨by decide, by decide, le_rfl, by decide⟩
  have hnext : Neighbour 4 2 1 := Or.inr ⟨rfl, by decide, rfl⟩
  rw [show (2 : ℤ) * 1 = 2 from rfl, yuyvToNV21_chroma rfl hhas hnext] at hv
  exact absurd hv (by decide)

end Softwinner.Camera
