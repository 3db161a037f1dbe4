import Softwinner.Camera.Frame

/-!
# The copy of a frame into the preview window

`PreviewWindow::onNextFrameAvailable` copies the frame into a buffer of the window.  The luma rows
of the frame are 16-byte aligned, and so are the chroma rows of a planar frame; the window has
16-byte or 32-byte aligned luma rows, and chroma rows of half of that, so that each format has one
copy for each of the two strides.

`previewCopy_shown` says that every sample of the frame gets to its pixel.
-/

namespace Softwinner.Camera

open Framework

variable {stride width height : ℤ} {f : PixelFormat}

/-! ## The copies -/

/-- NV21 and NV12. -/
def copySemiPlanar (stride width height : ℤ) : List Move :=
  if stride = align16B width then
    -- y
    memcpy 0 0 (align16B width * height) ++
    -- uv
    memcpy (align16B width * height) (align16B width * height) (align16B width * height / 2)
  else if stride = align32B width then
    -- y
    copyRows 0 0 width (align32B width) (align16B width) height ++
    -- uv, the source goes on behind the luma rows
    copyRows (align32B width * height) (height * align16B width) width (align32B width)
      (align16B width) (height / 2)
  else []

/-- YU12 to YV12. -/
def copyYuv420 (stride width height : ℤ) : List Move :=
  if stride = align16B width then
    -- y
    memcpy 0 0 (align16B width * height) ++
    -- v
    copyRows (align16B width * height)
      (align16B width * height + align16B (align16B width / 2) * height / 2)
      (width / 2) (align8B (width / 2)) (align16B (width / 2)) (height / 2) ++
    -- u, the destination goes on behind the rows of v
    copyRows (align16B width * height + height / 2 * align8B (width / 2)) (align16B width * height)
      (width / 2) (align8B (width / 2)) (align16B (width / 2)) (height / 2)
  else if stride = align32B width then
    -- y
    copyRows 0 0 width (align32B width) (align16B width) height ++
    -- v
    memcpy (align32B width * height)
      (align16B width * height + align16B (align16B width / 2) * height / 2)
      (align16B (width / 2) * height / 2) ++
    -- u
    memcpy (align32B width * height + align16B (width / 2) * height / 2) (align16B width * height)
      (align16B (width / 2) * height / 2)
  else []

/-- YV12. -/
def copyYvu420 (stride width height : ℤ) : List Move :=
  if stride = align32B width then
    -- y
    copyRows 0 0 width (align32B width) (align16B width) height ++
    -- u & v, both pointers go on behind the luma rows
    memcpy (height * align32B width) (height * align16B width) (align16B (width / 2) * height)
  else if stride = align16B width then
    -- y
    memcpy 0 0 (align16B width * height) ++
    -- u
    copyRows (align16B width * height) (align16B width * height) (width / 2) (align8B (width / 2))
      (align16B (width / 2)) (height / 2) ++
    -- v, both pointers go on
    copyRows (align16B width * height + height / 2 * align8B (width / 2))
      (align16B width * height + height / 2 * align16B (width / 2)) (width / 2)
      (align8B (width / 2)) (align16B (width / 2)) (height / 2)
  else []

/-- The copy of a frame of the format into a window buffer with the stride. -/
def previewCopy : PixelFormat → ℤ → ℤ → ℤ → List Move
  | .nv21, stride, width, height => copySemiPlanar stride width height
  | .nv12, stride, width, height => copySemiPlanar stride width height
  | .yuv420, stride, width, height => copyYuv420 stride width height
  | .yvu420, stride, width, height => copyYvu420 stride width height
  | .yuyv, _, _, _ => []

/-! ## Planes -/

/-- The planes of a frame, in the order in which the window has them. -/
def sourcePlanes (f : PixelFormat) (width height : ℤ) : List Plane :=
  let luma : Plane := ⟨0, align16B width, width, height⟩
  let chroma : Plane := ⟨align16B width * height, align16B width, width, height / 2⟩
  let first : Plane := ⟨align16B width * height, align16B (width / 2), width / 2, height / 2⟩
  let second : Plane := { first with base := first.base + height / 2 * align16B (width / 2) }
  match f with
  | .nv21 => [luma, chroma]
  | .nv12 => [luma, chroma]
  -- U is before V
  | .yuv420 => [luma, second, first]
  | .yvu420 => [luma, first, second]
  | .yuyv => []

def sourceSize (f : PixelFormat) (width height : ℤ) : ℤ :=
  match f with
  | .nv21 => align16B width * height * 3 / 2
  | .nv12 => align16B width * height * 3 / 2
  | .yuv420 => align16B width * height + align16B (width / 2) * height
  | .yvu420 => align16B width * height + align16B (width / 2) * height
  | .yuyv => 0

/-- The planes of a window buffer: Y and VU or UV, or else Y, V and U. -/
def windowPlanes (f : PixelFormat) (stride width height : ℤ) : List Plane :=
  let luma : Plane := ⟨0, stride, width, height⟩
  let chroma : Plane := ⟨stride * height, stride, width, height / 2⟩
  let v : Plane := ⟨stride * height, stride / 2, width / 2, height / 2⟩
  let u : Plane := { v with base := v.base + height / 2 * (stride / 2) }
  match f with
  | .nv21 => [luma, chroma]
  | .nv12 => [luma, chroma]
  | .yuv420 => [luma, v, u]
  | .yvu420 => [luma, v, u]
  | .yuyv => []

/-- The frame is in the window, pixel by pixel, and nothing else is written or read than the window
buffer and the frame. -/
def Shown (f : PixelFormat) (stride width height : ℤ) : Prop :=
  Blits (previewCopy f stride width height) (windowPlanes f stride width height)
    (sourcePlanes f width height) 0 (stride * height * 3 / 2) 0 (sourceSize f width height)

/-! ## Semi-planar frames -/

lemma blits_copySemiPlanar (hwidth : 0 ≤ width) (hheight : 0 ≤ height) (heven : height % 2 = 0)
    (hstride : stride = align16B width ∨ stride = align32B width) :
    Blits (copySemiPlanar stride width height) (windowPlanes .nv21 stride width height)
      (sourcePlanes .nv21 width height) 0 (stride * height * 3 / 2) 0
      (sourceSize .nv21 width height) := by
  have hle := le_align16B width
  have hle32 := hle.trans (align16B_le_align32B width)
  obtain ⟨j, rfl⟩ : ∃ j, height = 2 * j := ⟨height / 2, by omega⟩
  rw [copySemiPlanar, windowPlanes, sourcePlanes, sourceSize,
    Int.mul_ediv_cancel_left _ two_ne_zero]
  generalize align16B width = a at *
  generalize align32B width = b at *
  have hsize (c : ℤ) : c * (2 * j) = 2 * (j * c) := by ring
  have hsize' (c : ℤ) : 2 * j * c = 2 * (j * c) := by ring
  have hpos (c : ℤ) (hc : 0 ≤ c) : 0 ≤ j * c := mul_nonneg (by omega) hc
  have ha := hpos a (by omega)
  have hb := hpos b (by omega)
  simp only [hsize, hsize']
  split_ifs with h16 h32
  · subst h16
    have hluma : Blits (memcpy 0 0 (2 * (j * stride))) [⟨0, stride, width, 2 * j⟩]
        [⟨0, stride, width, 2 * j⟩] 0 (2 * (j * stride)) 0 (2 * (j * stride) * 3 / 2) :=
      blits_memcpy hle (hsize' stride).symm (by omega) le_rfl (by omega)
    have hchroma : Blits (memcpy (2 * (j * stride)) (2 * (j * stride)) (2 * (j * stride) / 2))
        [⟨2 * (j * stride), stride, width, j⟩] [⟨2 * (j * stride), stride, width, j⟩]
        (2 * (j * stride)) (2 * (j * stride) * 3 / 2) 0 (2 * (j * stride) * 3 / 2) :=
      blits_memcpy hle (by omega) (by omega) (by omega) (by omega)
    exact hluma.append hchroma (by omega) (by omega)
  · subst h32
    have hluma : Blits (copyRows 0 0 width stride a (2 * j)) [⟨0, stride, width, 2 * j⟩]
        [⟨0, a, width, 2 * j⟩] 0 (2 * (j * stride)) 0 (2 * (j * a) * 3 / 2) :=
      blits_copyRows hle32 hle (by rw [hsize']; omega) le_rfl (by rw [hsize']; omega)
    have hchroma : Blits (copyRows (2 * (j * stride)) (2 * (j * a)) width stride a j)
        [⟨2 * (j * stride), stride, width, j⟩] [⟨2 * (j * a), a, width, j⟩]
        (2 * (j * stride)) (2 * (j * stride) * 3 / 2) 0 (2 * (j * a) * 3 / 2) :=
      blits_copyRows hle32 hle (by omega) (by omega) (by omega)
    exact hluma.append hchroma (by omega) (by omega)
  · exact absurd hstride (by tauto)

/-! ## Planar frames -/

/-- The luma plane, and the chroma planes behind it, of a copy. -/
lemma blits_planar {ms first second : List Move} {a c e j srcV srcU size : ℤ} (hj : 0 ≤ j)
    (he : 0 ≤ e)
    (hluma : Blits ms [⟨0, 2 * e, width, 2 * j⟩] [⟨0, a, width, 2 * j⟩] 0 (2 * e * (2 * j)) 0 size)
    (hv : Blits first [⟨2 * e * (2 * j), e, width / 2, j⟩] [⟨srcV, c, width / 2, j⟩]
      (2 * e * (2 * j)) (2 * e * (2 * j) + j * e) 0 size)
    (hu : Blits second [⟨2 * e * (2 * j) + j * e, e, width / 2, j⟩] [⟨srcU, c, width / 2, j⟩]
      (2 * e * (2 * j) + j * e) (2 * e * (2 * j) * 3 / 2) 0 size) :
    Blits (ms ++ first ++ second)
      [⟨0, 2 * e, width, 2 * j⟩, ⟨2 * e * (2 * j), e, width / 2, j⟩,
        ⟨2 * e * (2 * j) + j * e, e, width / 2, j⟩]
      [⟨0, a, width, 2 * j⟩, ⟨srcV, c, width / 2, j⟩, ⟨srcU, c, width / 2, j⟩]
      0 (2 * e * (2 * j) * 3 / 2) 0 size := by
  have hsize : 2 * e * (2 * j) = 4 * (j * e) := by ring
  have hpos : 0 ≤ j * e := mul_nonneg hj he
  exact (hluma.append hv (by omega) (by omega)).append hu (by omega) (by omega)

/-- Sizes of planes with an even number of rows. -/
lemma rows_eq (c j : ℤ) : 2 * c * (2 * j) = 4 * (j * c) ∧ 2 * j * (2 * c) = 4 * (j * c) ∧
    c * (2 * j) = 2 * (j * c) :=
  ⟨by ring, by ring, by ring⟩

lemma blits_copyYuv420 (hwidth : 0 ≤ width) (hheight : 0 ≤ height) (hweven : width % 2 = 0)
    (heven : height % 2 = 0) (hstride : stride = align16B width ∨ stride = align32B width) :
    Blits (copyYuv420 stride width height) (windowPlanes .yuv420 stride width height)
      (sourcePlanes .yuv420 width height) 0 (stride * height * 3 / 2) 0
      (sourceSize .yuv420 width height) := by
  obtain ⟨j, rfl⟩ : ∃ j, height = 2 * j := ⟨height / 2, by omega⟩
  have hle := le_align16B width
  have hle32 := hle.trans (align16B_le_align32B width)
  have hlec := le_align16B (width / 2)
  have hhalf (c : ℤ) : c * (2 * j) / 2 = j * c := by
    rw [mul_left_comm, Int.mul_ediv_cancel_left _ two_ne_zero, mul_comm]
  rw [copyYuv420, windowPlanes, sourcePlanes, sourceSize, align16B_half_align16B hweven]
  rw [align16B_eq hweven, align32B_eq hweven] at *
  simp only [Int.mul_ediv_cancel_left _ (two_ne_zero (α := ℤ)), hhalf]
  generalize align8B (width / 2) = e at *
  generalize align16B (width / 2) = c at *
  obtain ⟨hse, hse', -⟩ := rows_eq e j
  obtain ⟨hsc, hsc', hsc''⟩ := rows_eq c j
  have he : 0 ≤ j * e := mul_nonneg (by omega) (by omega)
  have hc : 0 ≤ j * c := mul_nonneg (by omega) (by omega)
  split_ifs with hs16 hs32
  · rw [hs16, Int.mul_ediv_cancel_left _ two_ne_zero]
    refine blits_planar (by omega) (by omega) ?_ ?_ ?_
    · exact blits_memcpy hle (mul_comm ..) (by omega) le_rfl (by omega)
    · exact blits_copyRows (by omega) hlec (by omega) (by omega) (by omega)
    · exact blits_copyRows (by omega) hlec (by omega) (by omega) (by omega)
  · rw [hs32, Int.mul_ediv_cancel_left _ two_ne_zero]
    refine blits_planar (by omega) (by omega) ?_ ?_ ?_
    · exact blits_copyRows hle32 hle (by omega) le_rfl (by omega)
    · exact blits_memcpy hlec rfl (by omega) (by omega) (by omega)
    · exact blits_memcpy hlec rfl (by omega) (by omega) (by omega)
  · exact absurd hstride (by tauto)

lemma blits_copyYvu420 (hwidth : 0 ≤ width) (hheight : 0 ≤ height) (hweven : width % 2 = 0)
    (heven : height % 2 = 0) (hstride : stride = align16B width ∨ stride = align32B width) :
    Blits (copyYvu420 stride width height) (windowPlanes .yvu420 stride width height)
      (sourcePlanes .yvu420 width height) 0 (stride * height * 3 / 2) 0
      (sourceSize .yvu420 width height) := by
  obtain ⟨j, rfl⟩ : ∃ j, height = 2 * j := ⟨height / 2, by omega⟩
  have hle := le_align16B width
  have hle32 := hle.trans (align16B_le_align32B width)
  have hlec := le_align16B (width / 2)
  rw [copyYvu420, windowPlanes, sourcePlanes, sourceSize]
  rw [align16B_eq hweven, align32B_eq hweven] at *
  simp only [Int.mul_ediv_cancel_left _ (two_ne_zero (α := ℤ))]
  generalize align8B (width / 2) = e at *
  generalize align16B (width / 2) = c at *
  obtain ⟨hse, hse', -⟩ := rows_eq e j
  obtain ⟨hsc, hsc', hsc''⟩ := rows_eq c j
  have he : 0 ≤ j * e := mul_nonneg (by omega) (by omega)
  have hc : 0 ≤ j * c := mul_nonneg (by omega) (by omega)
  split_ifs with hs32 hs16
  · rw [hs32, Int.mul_ediv_cancel_left _ two_ne_zero, hse', ← hse, hsc', ← hsc]
    have hluma : Blits (copyRows 0 0 width (2 * c) (2 * e) (2 * j)) [⟨0, 2 * c, width, 2 * j⟩]
        [⟨0, 2 * e, width, 2 * j⟩] 0 (2 * c * (2 * j)) 0 (2 * e * (2 * j) + c * (2 * j)) :=
      blits_copyRows hle32 hle (by omega) le_rfl (by omega)
    refine hluma.append ⟨.cons ?_ (.cons ?_ .nil), ?_, ?_, ?_⟩ (by omega) (by omega)
    · exact shows_memcpy hlec le_rfl (by omega) (by omega)
    · exact shows_memcpy hlec (by omega) (by omega) (by omega)
    · exact writes_memcpy.mono le_rfl (by omega)
    · exact reads_memcpy.mono (by omega) (by omega)
    · intro q hq
      obtain rfl | rfl := List.mem_pair.mp hq
      · exact ⟨hlec, by dsimp only; omega⟩
      · exact ⟨hlec, by dsimp only; omega⟩
  · rw [hs16, Int.mul_ediv_cancel_left _ two_ne_zero]
    refine blits_planar (by omega) (by omega) ?_ ?_ ?_
    · exact blits_memcpy hle (mul_comm ..) (by omega) le_rfl (by omega)
    · exact blits_copyRows (by omega) hlec (by omega) (by omega) (by omega)
    · exact blits_copyRows (by omega) hlec (by omega) (by omega) (by omega)
  · exact absurd hstride (by tauto)

/-! ## The copy -/

/-- Every sample of the frame gets to its pixel. -/
theorem previewCopy_shown (hwidth : 0 ≤ width) (hheight : 0 ≤ height) (hweven : width % 2 = 0)
    (heven : height % 2 = 0) (hf : f ≠ .yuyv)
    (hstride : stride = align16B width ∨ stride = align32B width) : Shown f stride width height := by
  cases f with
  | nv21 => exact blits_copySemiPlanar hwidth hheight heven hstride
  | nv12 => exact blits_copySemiPlanar hwidth hheight heven hstride
  | yuv420 => exact blits_copyYuv420 hwidth hheight hweven heven hstride
  | yvu420 => exact blits_copyYvu420 hwidth hheight hweven heven hstride
  | yuyv => exact absurd rfl hf

/-- YU12 of a width whose 16-byte and 32-byte aligned rows differ. -/
theorem previewCopy_shown_yuv420 : Shown .yuv420 64 34 2 :=
  previewCopy_shown (by decide) (by decide) rfl rfl (by decide) (Or.inr rfl)

end Softwinner.Camera
