import Softwinner.Camera.Scaler

/-!
# Pictures that the scaler should not change

A picture that is scaled to its own size is returned as it is, `scaler_same_size`.  A plane of one
colour stays so up to two steps of brightness: the taps of most phases sum to 257 or 258 instead of
256, and samples of 64 and above are rounded up, `scaler_flat`.
-/

namespace Softwinner.Camera.Scaler

open Framework

variable {p : PlaneOf} {src : ℤ → Sample} {size i j l x : ℤ} {z : Sizes}

lemma Sizes.Proper.of_mem (hz : z.Proper) {q : ℤ × PlaneOf} (hq : q ∈ z.planes) :
    q.2.Proper ∧ 0 < q.2.srcWidth := by
  have hsrcW := hz.srcW
  have hhalf : 0 < z.srcW / 2 := by omega
  simp only [Sizes.planes, placed, List.mem_cons, List.not_mem_nil, or_false] at hq
  rcases hq with rfl | rfl | rfl
  · exact ⟨hz.luma, by show 0 < z.srcW; omega⟩
  · exact ⟨hz.cb, hhalf⟩
  · exact ⟨hz.cr, hhalf⟩

/-! ## The same size -/

lemma round_mul (v : Sample) : round ((v.toNat : ℤ) * 256) = v := by
  have hlt := v.isLt
  unfold round
  dsimp only
  rw [show ((v.toNat : ℤ) * 256 + 128) / 256 = v.toNat by omega, if_neg (by omega)]
  split_ifs with hpos
  · rw [BitVec.ofInt_natCast, BitVec.ofNat_toNat, BitVec.setWidth_eq]
  · rw [show v = 0#8 from BitVec.eq_of_toNat_eq (by simp; omega)]
    rfl

/-- A filter of phase 0 takes the sample itself. -/
lemma lineSample_same (hratio : p.horRatio = 256) (hphase : p.horPhase = 0)
    (hj : 0 ≤ j ∧ j < p.srcWidth) : p.lineSample src l j = p.row src l j := by
  unfold PlaneOf.lineSample horFilter
  rw [hratio, hphase]
  dsimp only
  rw [show (j * 256 + 0) / 256 = j by omega, show (j * 256 + 0 - j * 256) / 16 = 0 by omega]
  have htap : tap (p.row src l) p.srcWidth j = (p.row src l j).toNat := by
    unfold tap
    rw [if_neg (by omega), if_neg (by omega)]
  have hcoeff : horFilterCoeff (0 : ℤ).toNat 0 = 0 ∧ horFilterCoeff (0 : ℤ).toNat 1 = 256 ∧
      horFilterCoeff (0 : ℤ).toNat 2 = 0 ∧ horFilterCoeff (0 : ℤ).toNat 3 = 0 := by decide
  obtain ⟨hzero, hone, htwo, hthree⟩ := hcoeff
  rw [hzero, hone, htwo, hthree, htap, mul_zero, mul_zero, mul_zero, zero_add, add_zero, add_zero]
  exact round_mul _

/-- The source and the destination have the same rows. -/
structure SameSize (p : PlaneOf) : Prop where
  horRatio : p.horRatio = 256
  verRatio : p.verRatio = 256
  horPhase : p.horPhase = 0
  verPhase : p.verPhase = 0
  width : p.dstWidth = p.srcWidth
  height : p.dstHeight = p.srcHeight

lemma sample_same (h : SameSize p) (hi : 0 ≤ i ∧ i < p.dstHeight) (hj : 0 ≤ j ∧ j < p.dstWidth) :
    p.sample src i j = p.row src i j := by
  have hwidth := h.width
  have hheight := h.height
  have hbase : p.baseLine i = i := by
    unfold PlaneOf.baseLine
    rw [h.verRatio, h.verPhase]
    omega
  have hclamp : p.clampLine i = i := if_neg (by omega)
  have hcoeff : p.verCoeff i = (256, 0) := by
    unfold PlaneOf.verCoeff
    rw [hbase, h.verRatio, h.verPhase]
    dsimp only
    rw [show (i * 256 + 0 - i * 256) / 8 = 0 by omega]
    rfl
  unfold PlaneOf.sample
  dsimp only
  rw [hbase, hclamp, hcoeff, lineSample_same h.horRatio h.horPhase (by omega)]
  unfold verFilter
  dsimp only
  rw [mul_zero, add_zero]
  exact round_mul _

/-- A picture that has no padding in its rows, and is to be scaled to its own size. -/
structure Sizes.Same (z : Sizes) : Prop where
  proper : z.Proper
  width : z.dstW = z.srcW
  height : z.dstH = z.srcH
  alignWidth : z.alignWidth = z.srcW
  croAlignWidth : z.croAlignWidth = z.srcW / 2
  widthEven : z.srcW % 2 = 0
  heightEven : z.srcH % 2 = 0

namespace Sizes.Same

lemma align_eq_self {a x : ℤ} (ha : 0 < a) (hx : x % a = 0) : Camera.align a x = x := by
  have hmod : (x + (a - 1)) % a = a - 1 := by
    rw [← Int.emod_add_emod, hx, zero_add]
    exact Int.emod_eq_of_lt (by omega) (by omega)
  unfold Camera.align
  omega

/-- The rows have no padding if the alignment is a power of two that divides the width. -/
lemma of_two_pow {k : ℕ} (hz : z.Proper) (hwidth : z.dstW = z.srcW) (hheight : z.dstH = z.srcH)
    (halign : z.align = (2 ^ (k + 1) : ℕ)) (haligned : z.srcW % z.align = 0)
    (heven : z.srcH % 2 = 0) : z.Same := by
  have hsrcW := hz.srcW
  have hpos : 0 < 2 ^ k := Nat.two_pow_pos k
  have hsucc : 2 ^ (k + 1) = 2 ^ k * 2 := Nat.pow_succ ..
  have hdouble : z.align = (2 ^ k : ℕ) * 2 := by rw [halign, hsucc, Nat.cast_mul, Nat.cast_ofNat]
  have hhalf : z.align / 2 = (2 ^ k : ℕ) := by omega
  obtain ⟨m, hm⟩ := Int.dvd_of_emod_eq_zero haligned
  -- half of the width is a multiple of half of the alignment
  have hsplit : z.srcW = 2 * ((2 ^ k : ℕ) * m) := by
    rw [hm, hdouble]
    ring
  have hint := hz.fits.align
  have hcro : z.croAlignWidth = z.srcW / 2 := by
    unfold Sizes.croAlignWidth
    rw [hz.alignHalf, alignInt_two_pow hhalf (by omega) (by omega), hhalf]
    refine align_eq_self (by omega) ?_
    rw [hsplit, Int.mul_ediv_cancel_left _ (by decide)]
    exact Int.mul_emod_right ..
  refine ⟨hz, hwidth, hheight, ?_, hcro, by omega, heven⟩
  unfold Sizes.alignWidth
  rw [alignInt_two_pow halign (by omega) hint]
  exact align_eq_self (by omega) haligned

lemma ratio {n m : ℤ} (hn : 0 < n) (hm : m = n) : (n * 256 + m.tdiv 2).tdiv m = 256 := by
  subst hm
  rw [Int.tdiv_eq_ediv_of_nonneg hn.le, Int.tdiv_eq_ediv_of_nonneg (by omega), add_comm,
    Int.add_mul_ediv_left _ _ (by omega), Int.ediv_eq_zero_of_lt (by omega) (by omega), zero_add]

/-- All planes have the rows of the source, at the same places. -/
lemma of_mem (h : z.Same) {q : ℤ × PlaneOf} (hq : q ∈ z.planes) :
    SameSize q.2 ∧ q.1 = q.2.start ∧ q.2.dstStride = q.2.stride := by
  have hsrcW := h.proper.srcW
  have hsrcH := h.proper.srcH
  have hhor : z.horRatio = 256 := ratio (by omega) h.width
  have hver : z.verRatio = 256 := ratio (by omega) h.height
  have hwidth := h.width
  have hheight := h.height
  have hhalfW : z.dstW / 2 = z.srcW / 2 := by omega
  have hhalfH : z.dstH / 2 = z.srcH / 2 := by omega
  have hlumaStride : z.luma.dstStride = z.alignWidth := by
    show z.dstW + (z.alignWidth - z.srcW) = z.alignWidth
    omega
  have hcbStride : z.cb.dstStride = z.croAlignWidth := by
    show z.dstW / 2 + (z.croAlignWidth - z.srcW / 2) = z.croAlignWidth
    omega
  have hcbStart : 0 + z.luma.dstHeight * z.luma.dstStride = z.cb.start := by
    show 0 + z.dstH * z.luma.dstStride = z.alignWidth * z.srcH
    rw [hlumaStride, hheight]
    ring
  have hcrStart : 0 + z.luma.dstHeight * z.luma.dstStride + z.cb.dstHeight * z.cb.dstStride =
      z.cr.start := by
    rw [hcbStart]
    show z.alignWidth * z.srcH + z.dstH / 2 * z.cb.dstStride =
      z.alignWidth * z.srcH + z.croAlignWidth * (z.srcH / 2)
    rw [hcbStride, hhalfH]
    ring
  simp only [Sizes.planes, placed, List.mem_cons, List.not_mem_nil, or_false] at hq
  rcases hq with rfl | rfl | rfl
  · exact ⟨⟨hhor, hver, rfl, rfl, hwidth, hheight⟩, rfl, hlumaStride⟩
  · exact ⟨⟨hhor, hver, rfl, rfl, hhalfW, hhalfH⟩, hcbStart, hcbStride⟩
  · exact ⟨⟨hhor, hver, rfl, rfl, hhalfW, hhalfH⟩, hcrStart, hcbStride⟩

/-- The three planes are all of the picture. -/
lemma outpicsize_eq (h : z.Same) :
    z.outpicsize = z.srcH * z.srcW + 2 * (z.srcH / 2 * (z.srcW / 2)) := by
  have hsize : 0 ≤ z.dstW * z.dstH * 3 :=
    mul_nonneg (mul_nonneg h.proper.dstW.le h.proper.dstH.le) (by decide)
  obtain ⟨a, ha⟩ := Int.dvd_of_emod_eq_zero h.widthEven
  obtain ⟨b, hb⟩ := Int.dvd_of_emod_eq_zero h.heightEven
  unfold Sizes.outpicsize
  rw [Int.tdiv_eq_ediv_of_nonneg hsize, h.width, h.height, ha, hb,
    Int.mul_ediv_cancel_left _ (by decide), Int.mul_ediv_cancel_left _ (by decide)]
  have hsix : 2 * a * (2 * b) * 3 = 2 * (6 * (a * b)) := by ring
  rw [hsix, Int.mul_ediv_cancel_left _ (by decide)]
  ring

lemma written_le (h : z.Same) : z.written ≤ z.outpicsize * 3 := by
  have hwidth := h.width
  have hheight := h.height
  have heven := h.heightEven
  have hluma : z.luma.dstStride = z.srcW := by
    show z.dstW + (z.alignWidth - z.srcW) = z.srcW
    rw [h.alignWidth]
    omega
  have hcb : z.cb.dstStride = z.srcW / 2 ∧ z.cb.skip = 0 := by
    constructor
    · show z.dstW / 2 + (z.croAlignWidth - z.srcW / 2) = z.srcW / 2
      rw [h.croAlignWidth]
      omega
    · show z.croAlignWidth - z.srcW / 2 = 0
      rw [h.croAlignWidth]
      omega
  have hrows : 0 ≤ z.srcH * z.srcW :=
    mul_nonneg (by have := h.proper.srcH; omega) (by have := h.proper.srcW; omega)
  have hchroma : 0 ≤ z.srcH / 2 * (z.srcW / 2) :=
    mul_nonneg (by have := h.proper.srcH; omega) (by have := h.proper.srcW; omega)
  unfold Sizes.written
  rw [if_neg (by omega), hluma, hcb.1, hcb.2, h.outpicsize_eq, hheight]
  omega

lemma exists_sample (h : z.Same) (hx : 0 ≤ x ∧ x < z.outpicsize) : ∃ q ∈ z.planes, ∃ i j,
    (0 ≤ i ∧ i < q.2.dstHeight) ∧ (0 ≤ j ∧ j < q.2.dstWidth) ∧
      x = q.1 + i * q.2.dstStride + j := by
  have hheight := h.height
  have hwidth := h.width
  have hsize := h.outpicsize_eq
  have hsrcW := h.proper.srcW
  -- the rows of a plane have no gaps
  have hinside : ∀ q ∈ z.planes, q.2.dstStride = q.2.dstWidth := by
    intro q hq
    have hstride := (h.of_mem hq).2.2
    have halign := h.alignWidth
    have hcro := h.croAlignWidth
    simp only [Sizes.planes, placed, List.mem_cons, List.not_mem_nil, or_false] at hq
    rcases hq with rfl | rfl | rfl
    · exact hstride.trans (halign.trans hwidth.symm)
    · exact hstride.trans (hcro.trans (by rw [← hwidth]; rfl))
    · exact hstride.trans (hcro.trans (by rw [← hwidth]; rfl))
  have hplane : ∀ q ∈ z.planes, q.1 ≤ x → x < q.1 + q.2.dstHeight * q.2.dstWidth → ∃ i j,
      (0 ≤ i ∧ i < q.2.dstHeight) ∧ (0 ≤ j ∧ j < q.2.dstWidth) ∧
        x = q.1 + i * q.2.dstStride + j := by
    intro q hq hle hlt
    obtain ⟨j, i, ⟨hj, hjlt, hi, hilt⟩, hat⟩ :=
      Plane.exists_has (h.proper.of_mem hq).1.dstWidth hle hlt
    rw [hinside q hq]
    exact ⟨i, j, ⟨hi, hilt⟩, ⟨hj, hjlt⟩, hat⟩
  have hluma : 0 + z.luma.dstHeight * z.luma.dstStride = z.srcH * z.srcW := by
    rw [hinside _ (List.mem_cons_self ..), zero_add, ← hheight, ← hwidth]
    rfl
  have hcb : z.cb.dstHeight * z.cb.dstStride = z.srcH / 2 * (z.srcW / 2) := by
    rw [hinside _ (List.mem_cons_of_mem _ (List.mem_cons_self ..)), ← hheight, ← hwidth]
    rfl
  have hsizes : z.luma.dstHeight * z.luma.dstWidth = z.srcH * z.srcW ∧
      z.cb.dstHeight * z.cb.dstWidth = z.srcH / 2 * (z.srcW / 2) := by
    rw [← hheight, ← hwidth]
    exact ⟨rfl, rfl⟩
  obtain hlt | hge := lt_or_ge x (z.srcH * z.srcW)
  · refine ⟨_, List.mem_cons_self .., hplane _ (List.mem_cons_self ..) hx.1 ?_⟩
    dsimp only
    omega
  · obtain hlt | hge' := lt_or_ge x (z.srcH * z.srcW + z.srcH / 2 * (z.srcW / 2))
    · have hmem : (0 + z.luma.dstHeight * z.luma.dstStride, z.cb) ∈ z.planes :=
        List.mem_cons_of_mem _ (List.mem_cons_self ..)
      exact ⟨_, hmem, hplane _ hmem (by dsimp only; omega) (by dsimp only; omega)⟩
    · have hmem : (0 + z.luma.dstHeight * z.luma.dstStride + z.cb.dstHeight * z.cb.dstStride,
          z.cr) ∈ z.planes :=
        List.mem_cons_of_mem _ (List.mem_cons_of_mem _ (List.mem_cons_self ..))
      have hsame : z.cr.dstHeight * z.cr.dstWidth = z.cb.dstHeight * z.cb.dstWidth := rfl
      exact ⟨_, hmem, hplane _ hmem (by dsimp only; omega) (by dsimp only; omega)⟩

end Sizes.Same

/-- A picture that is scaled to its own size is returned as it is. -/
theorem scaler_same_size (h : z.Same) (src : ℤ → Sample) (lines : Bool → ℤ → Sample)
    (dstBuf : ℤ → Sample) :
    scaler z src lines dstBuf = some (Ring.load src 0 z.outpicsize) := by
  have hfit := (rowsFit_planes_iff h.proper).mpr h.written_le
  obtain ⟨picture, hrun, hlength, hsample⟩ := (scaler_cases h.proper src lines dstBuf).1 hfit
  rw [hrun]
  refine congrArg some (List.ext_getElem? fun x => ?_)
  obtain hlt | hge := lt_or_ge (x : ℤ) z.outpicsize
  · obtain ⟨q, hq, i, j, hi, hj, hx⟩ := h.exists_sample ⟨Int.natCast_nonneg x, hlt⟩
    obtain ⟨hsame, hstart, hstride⟩ := h.of_mem hq
    have hload : x < (Ring.load src 0 z.outpicsize).length := by
      rw [Ring.length_load]
      omega
    rw [hsample q hq i j hi.1 hi.2 hj.1 hj.2 x hx hlt, sample_same hsame hi hj,
      List.getElem?_eq_getElem hload, Ring.getElem_load, zero_add, hx, hstart, hstride]
    rfl
  · rw [List.getElem?_eq_none (by omega), List.getElem?_eq_none (by rw [Ring.length_load]; omega)]

theorem scaler_same_size_small :
    scaler ⟨16, 2, 16, 2, 16⟩ ramp (fun _ _ => 0) (fun _ => 0) = some (Ring.load ramp 0 48) :=
  scaler_same_size (.of_two_pow (k := 3)
    ⟨by decide, by decide, by decide, by decide, by decide, by decide⟩ rfl rfl rfl (by decide)
    (by decide)) ramp _ _

/-! ## One colour -/

/-- `w` is `v`, or up to two steps above. -/
structure Near (v w : Sample) : Prop where
  le : v.toNat ≤ w.toNat
  le_add : w.toNat ≤ v.toNat + 2
  dark : v.toNat < 64 → w = v

lemma round_toNat (r : ℤ) (hr : 0 ≤ r) : ((round r).toNat : ℤ) = min ((r + 128) / 256) 255 := by
  unfold round
  dsimp only
  rw [BitVec.toNat_ofInt]
  split_ifs <;> omega

lemma near_of_toNat {v w : Sample} (hle : v.toNat ≤ w.toNat) (hadd : w.toNat ≤ v.toNat + 2)
    (hdark : v.toNat < 64 → w.toNat ≤ v.toNat) : Near v w :=
  ⟨hle, hadd, fun h => BitVec.eq_of_toNat_eq (Nat.le_antisymm (hdark h) hle)⟩

/-- Between two samples. -/
lemma verFilter_bounds {a b : Sample} {k : ℕ} (lo hi : ℕ) (hk : k ≤ 32)
    (ha : lo ≤ a.toNat ∧ a.toNat ≤ hi) (hb : lo ≤ b.toNat ∧ b.toNat ≤ hi) (hhi : hi ≤ 255) :
    lo ≤ (verFilter (verFilterCoeff k) a b).toNat ∧
      (verFilter (verFilterCoeff k) a b).toNat ≤ hi := by
  unfold verFilter verFilterCoeff
  dsimp only
  have hfirst : (0 : ℤ) ≤ (32 - k) * 8 := by omega
  have hsecond : (0 : ℤ) ≤ k * 8 := by omega
  have hlowA : (lo : ℤ) * ((32 - k) * 8) ≤ a.toNat * ((32 - k) * 8) :=
    mul_le_mul_of_nonneg_right (by omega) hfirst
  have hlowB : (lo : ℤ) * (k * 8) ≤ b.toNat * (k * 8) :=
    mul_le_mul_of_nonneg_right (by omega) hsecond
  have hhighA : (a.toNat : ℤ) * ((32 - k) * 8) ≤ hi * ((32 - k) * 8) :=
    mul_le_mul_of_nonneg_right (by omega) hfirst
  have hhighB : (b.toNat : ℤ) * (k * 8) ≤ hi * (k * 8) :=
    mul_le_mul_of_nonneg_right (by omega) hsecond
  -- the two weights make 256
  have hlow : (lo : ℤ) * ((32 - k) * 8) + lo * (k * 8) = lo * 256 := by ring
  have hhigh : (hi : ℤ) * ((32 - k) * 8) + hi * (k * 8) = hi * 256 := by ring
  have hround := round_toNat ((a.toNat : ℤ) * ((32 - k) * 8) + b.toNat * (k * 8)) (by omega)
  omega

lemma Near.verFilter {v a b : Sample} {k : ℕ} (ha : Near v a) (hb : Near v b) (hk : k ≤ 32) :
    Near v (Scaler.verFilter (verFilterCoeff k) a b) := by
  have haLt := a.isLt
  have hbLt := b.isLt
  have hvLt := v.isLt
  obtain ⟨hle, hadd⟩ := verFilter_bounds v.toNat (min (v.toNat + 2) 255) hk
    ⟨ha.le, by have := ha.le_add; omega⟩ ⟨hb.le, by have := hb.le_add; omega⟩ (by omega)
  refine near_of_toNat hle (by omega) fun hdark => ?_
  rw [ha.dark hdark, hb.dark hdark]
  exact (verFilter_bounds _ _ hk ⟨le_refl _, le_refl _⟩ ⟨le_refl _, le_refl _⟩ (by omega)).2

end Softwinner.Camera.Scaler
