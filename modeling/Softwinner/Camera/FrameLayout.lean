import Softwinner.Camera.PreviewCallback
import Softwinner.Camera.PreviewCopy
import Softwinner.Camera.Zoom

/-!
# The layout of a converted frame

`YUYVToNV21` writes rows without gaps, and `v4l2QueryBuf` has allocated just as much.  The preview
window, the callbacks and the JPEG encoder take the rows for 16-byte aligned ones.  The thumbnail
is published behind a frame with 32-byte aligned rows, and `getCurrentFaceFrame` looks for it
behind one with 16-byte aligned rows.

`layoutAgrees_iff` says for which sizes they agree.
-/

namespace Softwinner.Camera

open Framework

variable {w h stride : ℤ} {v : View} {c : Capture} {addrPhy addrVir : ℤ}

/-! ## Writer and readers -/

/-- `buffer_len` of `v4l2QueryBuf`. -/
def bufferLen (w h : ℤ) : ℤ := (w * h * 3).tdiv 2

/-- The source of `JPEG_ENC_t`. -/
structure JpegEnc where
  addrY : ℤ
  addrC : ℤ
  srcW : ℤ
  srcH : ℤ

/-- The source that `CallbackNotifier::takePicture` gives to the encoder. -/
def takePictureSource (b : V4l2Buf) : JpegEnc :=
  let src := b.photo
  ⟨src.addrPhy, src.addrPhy + align16B src.width * src.height, src.width, src.height⟩

/-- The address from which `getCurrentFaceFrame` copies, and the length. -/
def faceFrame (b : V4l2Buf) : ℤ × ℤ :=
  if b.isThumbAvailable = 1 ∧ b.thumbUsedForPreview = 1 then
    (b.main.addrVir + align4K ((align16B b.main.width * b.main.height * 3).tdiv 2),
      align16B b.thumb.width * b.thumb.height)
  else (b.main.addrVir, b.main.width * b.main.height)

/-! ## Agreement -/

/-- The window gets what the conversion has written. -/
def PreviewAgrees (w h stride : ℤ) : Prop :=
  List.Forall₂ (Shows (previewCopy .nv21 stride w h)) (windowPlanes .nv21 stride w h)
      [nv21Luma w h, nv21Chroma w h] ∧
    Reads (previewCopy .nv21 stride w h) 0 (bufferLen w h)

/-- The video callback is given the buffer and nothing else. -/
def VideoAgrees (v : View) : Prop :=
  ∀ (n : CallbackNotifier) (getMemory : ℤ → Bool), ∀ cb ∈ n.videoCallback getMemory v,
    Reads cb.moves 0 (bufferLen v.width v.height)

/-- The preview callback is given what the conversion has written. -/
def CallbackAgrees (w h : ℤ) : Prop :=
  ∀ cbW cbH ms, 0 < cbW → 0 < cbH → cbW % 2 = 0 ∧ cbH % 2 = 0 →
    yuv420spDownScale (align16B w) h cbW cbH = some (true, ms) →
      Scaled w h cbW cbH (downScale (align16B w) h cbW cbH) ms

/-- The encoder finds the chroma bytes. -/
def PictureAgrees (v : View) : Prop :=
  (takePictureSource (.ofView v)).addrC = v.addrPhy + (nv21Chroma v.width v.height).base

lemma area_eq_iff : align16B w * h = w * h ↔ w % 16 = 0 ∨ h = 0 := by
  rw [mul_eq_mul_right_iff, align16B_eq_self]

lemma previewAgrees_iff (hw : 0 ≤ w) (hh : 0 ≤ h) (hheven : h % 2 = 0)
    (hstride : stride = align16B w ∨ stride = align32B w) :
    PreviewAgrees w h stride ↔ w % 16 = 0 ∨ h = 0 := by
  have hcopy := blits_copySemiPlanar hw hh hheven hstride
  have hsize : 0 ≤ w * h := mul_nonneg hw hh
  rw [PreviewAgrees, bufferLen, Int.tdiv_eq_ediv_of_nonneg (by omega)]
  constructor
  · rintro ⟨hshows, -⟩
    by_contra hne
    obtain ⟨hluma, -⟩ := List.forall₂_cons.mp hshows
    obtain ⟨hluma', -⟩ := List.forall₂_cons.mp hcopy.shows
    -- the second row
    have hhas : (⟨0, stride, w, h⟩ : Plane).Has 0 1 :=
      ⟨le_rfl, by dsimp only; omega, by decide, by dsimp only; omega⟩
    have haddr := hluma.addr_eq hluma' hhas
    rw [nv21Luma, Plane.addr_mk, Plane.addr_mk] at haddr
    exact hne (Or.inl (align16B_eq_self.mp (by omega)))
  · intro hcond
    have hreads := hcopy.reads
    rw [sourceSize, area_eq_iff.mpr hcond] at hreads
    refine ⟨?_, hreads⟩
    obtain h16 | rfl := hcond
    · have hplanes : sourcePlanes .nv21 w h = [nv21Luma w h, nv21Chroma w h] := by
        rw [sourcePlanes, align16B_eq_self.mpr h16, nv21Luma, nv21Chroma]
      exact hplanes ▸ hcopy.shows
    · have hluma : Shows (previewCopy .nv21 stride w 0) ⟨0, stride, w, 0⟩ (nv21Luma w 0) :=
        fun s d x y hhas => absurd hhas.2.2.2 (not_lt.mpr hhas.2.2.1)
      have hchroma : Shows (previewCopy .nv21 stride w 0) ⟨stride * 0, stride, w, 0 / 2⟩
          (nv21Chroma w 0) :=
        fun s d x y hhas => absurd hhas.2.2.2 (not_lt.mpr hhas.2.2.1)
      exact .cons hluma (.cons hchroma .nil)

lemma videoAgrees_iff (hw : 0 ≤ v.width) (hh : 0 ≤ v.height) :
    VideoAgrees v ↔ v.width % 16 = 0 ∨ v.height = 0 := by
  have hle := le_align16B v.width
  have hsize : 0 ≤ v.width * v.height := mul_nonneg hw hh
  have hsize' : 0 ≤ align16B v.width * v.height := mul_nonneg (hw.trans hle) hh
  rw [← area_eq_iff]
  constructor
  · intro hagrees
    by_contra hne
    have hlt : v.width * v.height < align16B v.width * v.height :=
      (mul_le_mul_of_nonneg_right hle hh).lt_of_ne' hne
    have hF : 0 ≤ (align16B v.width * v.height * 3).tdiv 2 :=
      Int.tdiv_nonneg (by omega) (by decide)
    have hmem := List.mem_singleton_self (DataCallback.mk .videoFrame v.addrVir
      ((align16B v.width * v.height * 3).tdiv 2)
      (memcpy 0 0 ((align16B v.width * v.height * 3).tdiv 2)) false)
    have hgranted : CallbackNotifier.granted (fun _ => true)
        ((align16B v.width * v.height * 3).tdiv 2) = true := by
      rw [CallbackNotifier.granted, decide_eq_true hF, Bool.true_and]
    have hreads := hagrees ⟨true, true, true, "", 0, 0⟩ (fun _ => true) _ (by
      rw [CallbackNotifier.videoCallback, hgranted]
      exact hmem)
    -- the first byte behind the buffer
    have hlast := hreads ⟨bufferLen v.width v.height, bufferLen v.width v.height⟩
      (mem_memcpy.mpr ?_)
    · exact absurd hlast.2 (lt_irrefl _)
    · dsimp only
      rw [bufferLen, Int.tdiv_eq_ediv_of_nonneg (by omega), Int.tdiv_eq_ediv_of_nonneg (by omega)]
      omega
  · intro harea n getMemory cb hcb
    rw [CallbackNotifier.videoCallback] at hcb
    split_ifs at hcb
    · obtain rfl := List.mem_singleton.mp hcb
      rw [harea, bufferLen]
      exact reads_memcpy.mono le_rfl (by rw [zero_add])
    · exact absurd hcb List.not_mem_nil

lemma callbackAgrees_iff (hw : 0 ≤ w) (hh : 0 ≤ h) (hweven : w % 2 = 0) (hheven : h % 2 = 0) :
    CallbackAgrees w h ↔ w % 16 = 0 ∨ h = 0 := by
  have hle := le_align16B w
  constructor
  · intro hagrees
    by_contra hne
    have hw : 0 < w := by omega
    have hh : 0 < h := by omega
    -- a callback of the size of the frame
    have hcall : yuv420spDownScale (align16B w) h w h =
        some (true, downScaleMoves (align16B w) h w h) := by
      rw [yuv420spDownScale, if_neg (by omega), if_neg (by omega)]
    have hscaled := hagrees w h _ hw hh ⟨hweven, hheven⟩ hcall
    have hscaled' := scaled_downScaleMoves hw hh hle le_rfl hheven ⟨hweven, hheven⟩
    have hone : downScale (align16B w) h w h = 1 := by
      rw [downScale_spec hw hh hle le_rfl, Int.ediv_self hh.ne']
      split_ifs with hsame
      · exact hsame
      · rfl
    -- the second row
    rw [hone] at hscaled hscaled'
    have hrow (s : ℤ → UInt8) : s w = s (align16B w) := by
      have heq := (hscaled.luma s 0 0 1 le_rfl hw (by decide) (by omega)).symm.trans
        (hscaled'.luma s 0 0 1 le_rfl hw (by decide) (by omega))
      simpa only [one_mul, zero_mul, add_zero] using heq
    have heq := hrow fun a => if a = w then 1 else 0
    rw [if_pos rfl] at heq
    split_ifs at heq with h16
    · exact hne (Or.inl (align16B_eq_self.mp h16))
    · exact absurd heq (by decide)
  · rintro hcond cbW cbH ms hcbW hcbH heven hcall
    rw [yuv420spDownScale, if_neg (by omega)] at hcall
    split_ifs at hcall with hlarger
    · exact absurd (congrArg Prod.fst (Option.some.inj hcall)) Bool.false_ne_true
    · obtain rfl := congrArg Prod.snd (Option.some.inj hcall)
      obtain h16 | rfl := hcond
      · rw [align16B_eq_self.mpr h16] at hlarger ⊢
        exact scaled_downScaleMoves hcbW hcbH (by omega) (by omega) hheven heven
      · omega

lemma pictureAgrees_iff : PictureAgrees v ↔ v.width % 16 = 0 ∨ v.height = 0 := by
  rw [← area_eq_iff]
  exact add_right_inj _

/-! ## The thumbnail -/

/-- The rest of the last page has room for what is added. -/
lemma align4K_add_eq_iff {a b : ℤ} (hb : 0 ≤ b) :
    align4K a = align4K (a + b) ↔ b ≤ (-a) % 4096 := by
  rw [align4K, align4K, align, align]
  omega

/-- The thumbnail is looked for where it is, when the two alignments are one, or when the page that
the frame ends in has room for the difference, which is 16 luma and 8 chroma bytes for a row. -/
lemma faceFrame_iff (hfast : c.fastPictureMode = true) (hw : 0 ≤ c.frameWidth)
    (hh : 0 ≤ c.frameHeight) :
    (faceFrame (c.publish addrPhy addrVir)).1 = (c.publish addrPhy addrVir).thumb.addrVir ↔
      align16B c.frameWidth % 32 = 0 ∨
        24 * c.frameHeight ≤ (-(align16B c.frameWidth * c.frameHeight * 3 / 2)) % 4096 := by
  have hle := le_align16B c.frameWidth
  have hle' := align16B_le_align32B c.frameWidth
  have hsize : 0 ≤ align16B c.frameWidth * c.frameHeight := mul_nonneg (by omega) hh
  have hsize' : 0 ≤ align32B c.frameWidth * c.frameHeight := mul_nonneg (by omega) hh
  rw [Capture.publish, if_pos hfast, faceFrame, if_pos ⟨rfl, rfl⟩]
  dsimp only
  rw [add_right_inj, Int.tdiv_eq_ediv_of_nonneg (by omega), Int.tdiv_eq_ediv_of_nonneg (by omega)]
  obtain ⟨n, hn, hn'⟩ : ∃ n, align16B c.frameWidth = 16 * n ∧
      (n % 2 = 0 ∧ align32B c.frameWidth = 16 * n ∨
        n % 2 = 1 ∧ align32B c.frameWidth = 16 * n + 16) := by
    refine ⟨align16B c.frameWidth / 16, ?_⟩
    rw [align16B, align32B, align, align]
    omega
  have hbytes : 16 * n * c.frameHeight * 3 / 2 = 24 * (n * c.frameHeight) := by
    rw [show 16 * n * c.frameHeight * 3 = 2 * (24 * (n * c.frameHeight)) by ring,
      Int.mul_ediv_cancel_left _ two_ne_zero]
  obtain ⟨heven, hn'⟩ | ⟨hodd, hn'⟩ := hn'
  · rw [hn, hn']
    exact iff_of_true rfl (Or.inl (by omega))
  · have hbytes' : (16 * n + 16) * c.frameHeight * 3 / 2 =
        24 * (n * c.frameHeight) + 24 * c.frameHeight := by
      rw [show (16 * n + 16) * c.frameHeight * 3 =
        2 * (24 * (n * c.frameHeight) + 24 * c.frameHeight) by ring,
        Int.mul_ediv_cancel_left _ two_ne_zero]
    rw [hn, hn', hbytes, hbytes', align4K_add_eq_iff (by omega)]
    omega

/-! ## Results -/

/-- The consumers of a converted frame agree with the conversion on aligned widths, and the readers
of the thumbnail on those sizes. -/
theorem layoutAgrees_iff (hw : 0 ≤ v.width) (hh : 0 ≤ v.height) (hweven : v.width % 2 = 0)
    (hheven : v.height % 2 = 0) (hstride : stride = align16B v.width ∨ stride = align32B v.width)
    (hfast : c.fastPictureMode = true) (hcw : 0 ≤ c.frameWidth) (hch : 0 ≤ c.frameHeight) :
    (PreviewAgrees v.width v.height stride ↔ v.width % 16 = 0 ∨ v.height = 0) ∧
      (VideoAgrees v ↔ v.width % 16 = 0 ∨ v.height = 0) ∧
      (CallbackAgrees v.width v.height ↔ v.width % 16 = 0 ∨ v.height = 0) ∧
      (PictureAgrees v ↔ v.width % 16 = 0 ∨ v.height = 0) ∧
      ((faceFrame (c.publish addrPhy addrVir)).1 = (c.publish addrPhy addrVir).thumb.addrVir ↔
        align16B c.frameWidth % 32 = 0 ∨
          24 * c.frameHeight ≤ (-(align16B c.frameWidth * c.frameHeight * 3 / 2)) % 4096) :=
  ⟨previewAgrees_iff hw hh hheven hstride, videoAgrees_iff hw hh,
    callbackAgrees_iff hw hh hweven hheven, pictureAgrees_iff, faceFrame_iff hfast hcw hch⟩

/-- A frame of the size. -/
def nv21View (w h : ℤ) : View := ⟨.nv21, 0, 0, w, h, ⟨0, 0, w, h⟩⟩

theorem layoutAgrees_vga :
    PreviewAgrees 640 480 640 ∧ VideoAgrees (nv21View 640 480) ∧ CallbackAgrees 640 480 ∧
      PictureAgrees (nv21View 640 480) ∧
      (faceFrame ((Capture.started 640 480 true).publish 0 0)).1 =
        ((Capture.started 640 480 true).publish 0 0).thumb.addrVir := by
  obtain ⟨hpreview, hvideo, hcallback, hpicture, hface⟩ := layoutAgrees_iff
    (v := nv21View 640 480) (c := Capture.started 640 480 true) (by decide) (by decide) rfl
    rfl (Or.inl rfl) rfl (by decide) (by decide)
  exact ⟨hpreview.mpr (Or.inl rfl), hvideo.mpr (Or.inl rfl), hcallback.mpr (Or.inl rfl),
    hpicture.mpr (Or.inl rfl), hface.mpr (Or.inl rfl)⟩

/-- The rows of 648 samples are read as rows of 656, in a window of either kind; and a frame of
176x144 is 1.5 times 192 times 144 bytes to one side and 1.5 times 176 times 144 to the other. -/
theorem not_layoutAgrees :
    ¬ PreviewAgrees 648 480 656 ∧ ¬ VideoAgrees (nv21View 648 480) ∧ ¬ CallbackAgrees 648 480 ∧
      ¬ PictureAgrees (nv21View 648 480) ∧
      (faceFrame ((Capture.started 176 144 true).publish 0 0)).1 ≠
        ((Capture.started 176 144 true).publish 0 0).thumb.addrVir := by
  have hne : ¬ ((648 : ℤ) % 16 = 0 ∨ (480 : ℤ) = 0) := by decide
  refine ⟨fun h => ?_, fun h => ?_, fun h => ?_, fun h => ?_, by decide⟩
  · exact hne ((previewAgrees_iff (by decide) (by decide) rfl (Or.inl rfl)).mp h)
  · exact hne ((videoAgrees_iff (v := nv21View 648 480) (by decide) (by decide)).mp h)
  · exact hne ((callbackAgrees_iff (by decide) (by decide) rfl rfl).mp h)
  · exact hne (pictureAgrees_iff.mp h)

end Softwinner.Camera
