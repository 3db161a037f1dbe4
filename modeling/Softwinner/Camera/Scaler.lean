import Mathlib.Tactic.Ring
import Softwinner.Camera.Frame
import Softwinner.Framework.Ring
import Softwinner.Framework.Slots

/-!
# Scaling in software

`scaler` of `scaler.c` brings a planar picture to another size: a row of the destination is made of
two rows of the source that have been filtered along the row, four taps a sample, and these are
kept from one row to the next in two places.

The rows of the destination are as far apart as if they had the padding of the source.  Only the
first `outpicsize` bytes are returned, so that behind padded rows the last samples are missing, and
the bytes between the rows are as they were allocated.

The sums and products of the code are without bounds here, and the results are about sizes for which
they are `int`s, `Sizes.Fits`.  `scaler_outcome` says that the places do not show: every sample is
what the two rows and the filters make it.
-/

namespace Softwinner.Camera.Scaler

open Framework

abbrev Sample := BitVec 8

/-! ## Filters -/

/-- `cubic_coeff`, 32 phases of four taps. -/
def cubicCoeff : List ℤ := [
  0, 256, 0, 0, -3, 255, 4, 0, -6, 254, 10, 0, -9, 251, 16, 0,
  -11, 247, 23, -1, -13, 242, 31, -2, -15, 236, 39, -3, -16, 229, 48, -4,
  -17, 222, 58, -5, -18, 214, 68, -6, -18, 205, 78, -8, -18, 196, 89, -9,
  -18, 186, 100, -10, -17, 176, 111, -12, -17, 166, 122, -13, -16, 155, 133, -14,
  -15, 144, 144, -15, -14, 133, 155, -16, -13, 122, 166, -17, -12, 111, 176, -17,
  -10, 100, 186, -18, -9, 89, 196, -18, -8, 78, 205, -18, -6, 68, 214, -18,
  -5, 58, 222, -17, -4, 48, 229, -16, -3, 39, 236, -15, -2, 31, 242, -13,
  -1, 23, 247, -11, 0, 16, 251, -9, 0, 10, 254, -6, 0, 4, 255, -3]

/-- `SC_HOR_FILTER_COEFF0`: every second phase. -/
def horFilterCoeff (i k : ℕ) : ℤ := cubicCoeff.getD (i * 4 * 2 + k) 0

/-- `SC_VER_FILTER_COEFF`. -/
def verFilterCoeff (i : ℕ) : ℤ × ℤ := ((32 - i) * 8, i * 8)

/-- `CLIP(r, 0, 255)`, behind the rounding. -/
def round (r : ℤ) : Sample :=
  let r := (r + 128) / 256
  BitVec.ofInt 8 (if 255 < r then 255 else if 0 < r then r else 0)

/-- The sample of a row, or the one at its end. -/
def tap (row : ℤ → Sample) (width x : ℤ) : ℤ :=
  ((if x < 0 then row 0 else if width ≤ x then row (width - 1) else row x).toNat : ℤ)

/-- `SC_hor_filter`, for one sample. -/
def horFilter (row : ℤ → Sample) (srcWidth ratio initPhase j : ℤ) : Sample :=
  let basePixel := (j * ratio + initPhase) / 256
  let hphase := j * ratio + initPhase - basePixel * 256
  let c := horFilterCoeff (hphase / 16).toNat
  round (tap row srcWidth (basePixel - 1) * c 0 + tap row srcWidth basePixel * c 1 +
    tap row srcWidth (basePixel + 1) * c 2 + tap row srcWidth (basePixel + 2) * c 3)

/-- `SC_hor_filter`. -/
def scHorFilter (row : ℤ → Sample) (srcWidth dstWidth ratio initPhase : ℤ) : List Sample :=
  (List.range dstWidth.toNat).map fun j : ℕ => horFilter row srcWidth ratio initPhase j

/-- A sample between two rows. -/
def verFilter (c : ℤ × ℤ) (last cur : Sample) : Sample :=
  round ((last.toNat : ℤ) * c.1 + (cur.toNat : ℤ) * c.2)

/-! ## Planes -/

/-- What the loops over the three planes differ in. -/
structure PlaneOf where
  -- in the source
  start : ℤ
  stride : ℤ
  srcWidth : ℤ
  srcHeight : ℤ
  -- in the destination
  dstWidth : ℤ
  dstHeight : ℤ
  skip : ℤ
  horRatio : ℤ
  verRatio : ℤ
  horPhase : ℤ
  verPhase : ℤ

namespace PlaneOf

variable (p : PlaneOf) (src : ℤ → Sample)

/-- Row `l` of the source. -/
def row (l x : ℤ) : Sample := src (p.start + l * p.stride + x)

/-- The row is filtered into the memory of a place. -/
def fill (l : ℤ) (line : ℤ → Sample) : ℤ → Sample :=
  Ring.store line 0 (scHorFilter (p.row src l) p.srcWidth p.dstWidth p.horRatio p.horPhase)

def clampLine (l : ℤ) : ℤ := if p.srcHeight ≤ l then p.srcHeight - 1 else l

/-- `base_line`, before it is clamped. -/
def baseLine (i : ℤ) : ℤ := (i * p.verRatio + p.verPhase) / 256

def verCoeff (i : ℤ) : ℤ × ℤ :=
  let vphase := i * p.verRatio + p.verPhase - p.baseLine i * 256
  verFilterCoeff (vphase / 8).toNat

end PlaneOf

/-- `line_num` and `scline_buf`, `dst_ptr` and `DstBuf`. -/
structure State where
  lines : Slots ℤ (ℤ → Sample)
  dstPtr : ℤ
  dstBuf : ℤ → Sample

section Scale

variable (src : ℤ → Sample) (size : ℤ)

/-- One row of the destination; nothing if it ends behind `DstBuf`. -/
def scaleRow (p : PlaneOf) (s : State) (i : ℤ) : Option State :=
  let baseLine := p.clampLine (p.baseLine i)
  let baseLinep1 := p.clampLine (baseLine + 1)
  let (lines, last, cur) := s.lines.fetchTwo (p.fill src) baseLine baseLinep1
  let row := (List.range p.dstWidth.toNat).map fun j : ℕ =>
    verFilter (p.verCoeff i) (lines.val last j) (lines.val cur j)
  if s.dstPtr + p.dstWidth ≤ size then
    some ⟨lines, s.dstPtr + p.dstWidth + p.skip, Ring.store s.dstBuf s.dstPtr row⟩
  else none

/-- The rows of one plane; `line_num` is reset. -/
def scalePlane (s : State) (p : PlaneOf) : Option State :=
  (List.range p.dstHeight.toNat).foldlM (fun s (i : ℕ) => scaleRow src size p s i)
    { s with lines := ⟨fun _ => -1, s.lines.val⟩ }

end Scale

/-- What `scaler` is called with; the format is 0. -/
structure Sizes where
  srcW : ℤ
  srcH : ℤ
  dstW : ℤ
  dstH : ℤ
  align : ℤ

/-- `(x + n - 1) & ~(n - 1)`, of `int`s. -/
def alignInt (n x : ℤ) : ℤ :=
  (BitVec.ofInt 32 (x + n - 1) &&& ~~~BitVec.ofInt 32 (n - 1)).toInt

namespace Sizes

variable (z : Sizes)

def alignWidth : ℤ := alignInt z.align z.srcW

def croAlignWidth : ℤ := alignInt (z.align.tdiv 2) (z.srcW / 2)

/-- `dst_w * dst_h * 1.5`. -/
def outpicsize : ℤ := (z.dstW * z.dstH * 3).tdiv 2

def horRatio : ℤ := (z.srcW * 256 + z.dstW.tdiv 2).tdiv z.dstW

def verRatio : ℤ := (z.srcH * 256 + z.dstH.tdiv 2).tdiv z.dstH

def luma : PlaneOf where
  start := 0
  stride := z.alignWidth
  srcWidth := z.srcW
  srcHeight := z.srcH
  dstWidth := z.dstW
  dstHeight := z.dstH
  skip := z.alignWidth - z.srcW
  horRatio := z.horRatio
  verRatio := z.verRatio
  horPhase := 0
  verPhase := 0

/-- Cb and Cr, by where they begin. -/
def chroma (start : ℤ) : PlaneOf where
  start := start
  stride := z.croAlignWidth
  srcWidth := z.srcW / 2
  srcHeight := z.srcH / 2
  dstWidth := z.dstW / 2
  dstHeight := z.dstH / 2
  skip := z.croAlignWidth - z.srcW / 2
  horRatio := z.horRatio
  verRatio := z.verRatio
  horPhase := 0
  verPhase := 0

def cb : PlaneOf := z.chroma (z.alignWidth * z.srcH)

def cr : PlaneOf := z.chroma (z.alignWidth * z.srcH + z.croAlignWidth * (z.srcH / 2))

end Sizes

/-- `do_scaler`, up to the copy to `pdst`; `lines` and `dstBuf` are as they were allocated. -/
def doScaler (z : Sizes) (src : ℤ → Sample) (lines : Bool → ℤ → Sample) (dstBuf : ℤ → Sample) :
    Option State :=
  [z.luma, z.cb, z.cr].foldlM (scalePlane src (z.outpicsize * 3)) ⟨⟨fun _ => -1, lines⟩, 0, dstBuf⟩

/-- `scaler`: the picture; nothing if it divides by zero, or writes behind `DstBuf`. -/
def scaler (z : Sizes) (src : ℤ → Sample) (lines : Bool → ℤ → Sample) (dstBuf : ℤ → Sample) :
    Option (List Sample) :=
  if z.dstW = 0 ∨ z.dstH = 0 then none
  else (doScaler z src lines dstBuf).map fun s => Ring.load s.dstBuf 0 z.outpicsize

/-! ## What a sample is made of -/

namespace PlaneOf

variable (p : PlaneOf) (src : ℤ → Sample)

/-- Sample `j` of row `l`, filtered along the row. -/
def lineSample (l j : ℤ) : Sample :=
  horFilter (p.row src l) p.srcWidth p.horRatio p.horPhase j

/-- Sample `j` of row `i` of the destination. -/
def sample (i j : ℤ) : Sample :=
  let baseLine := p.clampLine (p.baseLine i)
  let baseLinep1 := p.clampLine (baseLine + 1)
  verFilter (p.verCoeff i) (p.lineSample src baseLine j) (p.lineSample src baseLinep1 j)

/-- Row `i` of the destination. -/
def sampleRow (i : ℤ) : List Sample :=
  (List.range p.dstWidth.toNat).map fun j : ℕ => p.sample src i j

/-- From one row of the destination to the next. -/
def dstStride : ℤ := p.dstWidth + p.skip

/-- There are rows to read, and the rows of the destination do not overlap. -/
structure Proper : Prop where
  srcHeight : 0 < p.srcHeight
  dstWidth : 0 ≤ p.dstWidth
  dstHeight : 0 ≤ p.dstHeight
  skip : 0 ≤ p.skip
  verRatio : 0 ≤ p.verRatio
  verPhase : 0 ≤ p.verPhase

/-- A place has row `l`. -/
def HasLine (l : ℤ) (line : ℤ → Sample) : Prop :=
  ∀ j : ℕ, (j : ℤ) < p.dstWidth → line j = p.lineSample src l j

end PlaneOf

variable {p : PlaneOf} {src : ℤ → Sample} {size i l : ℤ} {s t : State} {n : ℕ}

namespace PlaneOf

lemma hasLine_fill (line : ℤ → Sample) : p.HasLine src l (p.fill src l line) := by
  intro j hj
  have hlt : j <
      (scHorFilter (p.row src l) p.srcWidth p.dstWidth p.horRatio p.horPhase).length := by
    rw [scHorFilter, List.length_map, List.length_range]
    omega
  have hstore := Ring.store_at line 0 hlt
  rw [zero_add] at hstore
  refine hstore.trans ?_
  simp only [scHorFilter, List.getElem_map, List.getElem_range]
  rfl

lemma Proper.baseLine_nonneg (h : p.Proper) (hi : 0 ≤ i) : 0 ≤ p.baseLine i := by
  have hverPhase := h.verPhase
  have hmul : 0 ≤ i * p.verRatio := mul_nonneg hi h.verRatio
  unfold baseLine
  omega

lemma Proper.clampLine_nonneg (h : p.Proper) (hl : 0 ≤ l) : 0 ≤ p.clampLine l := by
  have hsrcHeight := h.srcHeight
  unfold clampLine
  split_ifs <;> omega

end PlaneOf

/-- The row that two lines make. -/
lemma sampleRow_of_lines {last cur : ℤ → Sample}
    (hlast : p.HasLine src (p.clampLine (p.baseLine i)) last)
    (hcur : p.HasLine src (p.clampLine (p.clampLine (p.baseLine i) + 1)) cur) :
    ((List.range p.dstWidth.toNat).map fun j : ℕ => verFilter (p.verCoeff i) (last j) (cur j)) =
      p.sampleRow src i := by
  refine List.map_congr_left fun j hj => ?_
  have hlt : (j : ℤ) < p.dstWidth := by
    have := List.mem_range.mp hj
    omega
  rw [hlast j hlt, hcur j hlt]
  rfl

/-- The lines that are kept are those of the plane. -/
abbrev Kept (src : ℤ → Sample) (p : PlaneOf) (lines : Slots ℤ (ℤ → Sample)) : Prop :=
  lines.Right (fun l => 0 ≤ l) (p.HasLine src)

/-- A row is made of the two lines, wherever they come from. -/
lemma scaleRow_eq (size : ℤ) (h : Kept src p s.lines) (hp : p.Proper) (hi : 0 ≤ i) : ∃ lines,
    Kept src p lines ∧ scaleRow src size p s i =
      if s.dstPtr + p.dstWidth ≤ size then
        some ⟨lines, s.dstPtr + p.dstStride, Ring.store s.dstBuf s.dstPtr (p.sampleRow src i)⟩
      else none := by
  have hbase := hp.clampLine_nonneg (hp.baseLine_nonneg hi)
  have hnext := hp.clampLine_nonneg (Int.le_add_one hbase)
  obtain ⟨hkept, hlast, hcur⟩ := Slots.right_fetchTwo (p.fill src) h
    (fun _ line _ => PlaneOf.hasLine_fill line) hbase hnext
  unfold scaleRow
  dsimp only
  generalize s.lines.fetchTwo (p.fill src) (p.clampLine (p.baseLine i))
    (p.clampLine (p.clampLine (p.baseLine i) + 1)) = r at *
  obtain ⟨lines, last, cur⟩ := r
  refine ⟨lines, hkept, ?_⟩
  dsimp only at hlast hcur ⊢
  rw [sampleRow_of_lines hlast hcur, add_assoc]
  rfl

/-! ## Rows behind rows -/

/-- `x` is the place of a sample of the first `n` rows, from `start` on. -/
def PlaneOf.Place (p : PlaneOf) (start n x : ℤ) : Prop :=
  ∃ i j : ℤ, 0 ≤ i ∧ i < n ∧ 0 ≤ j ∧ j < p.dstWidth ∧ x = start + i * p.dstStride + j

/-- The first `n` rows of a plane, from `start` on. -/
structure Rows (src : ℤ → Sample) (p : PlaneOf) (start : ℤ) (n : ℕ) (s t : State) : Prop where
  ptr : t.dstPtr = start + n * p.dstStride
  put : ∀ i j : ℤ, 0 ≤ i → i < n → 0 ≤ j → j < p.dstWidth →
    t.dstBuf (start + i * p.dstStride + j) = p.sample src i j
  rest : ∀ x, ¬ p.Place start n x → t.dstBuf x = s.dstBuf x

/-- The rows end before the end of `DstBuf`. -/
def RowsFit (p : PlaneOf) (start size : ℤ) (n : ℕ) : Prop :=
  ∀ i : ℤ, 0 ≤ i → i < n → start + i * p.dstStride + p.dstWidth ≤ size

lemma length_sampleRow (h : p.Proper) (src : ℤ → Sample) (i : ℤ) :
    ((p.sampleRow src i).length : ℤ) = p.dstWidth := by
  have hdstWidth := h.dstWidth
  simp only [PlaneOf.sampleRow, List.length_map, List.length_range]
  omega

/-- One more row. -/
lemma Rows.store {start : ℤ} {lines : Slots ℤ (ℤ → Sample)} (h : Rows src p start n s t)
    (hp : p.Proper) :
    Rows src p start (n + 1) s
      ⟨lines, t.dstPtr + p.dstStride, Ring.store t.dstBuf t.dstPtr (p.sampleRow src n)⟩ := by
  have hdstWidth := hp.dstWidth
  have hskip := hp.skip
  have hlength := length_sampleRow hp src n
  have hsum : p.dstStride = p.dstWidth + p.skip := rfl
  have hrows : 0 ≤ (n : ℤ) * p.dstStride := mul_nonneg (Int.natCast_nonneg n) (by omega)
  refine ⟨?_, fun i j hi hin hj hjlt => ?_, fun x hx => ?_⟩
  · dsimp only
    rw [h.ptr]
    push_cast
    ring
  · dsimp only
    rw [h.ptr]
    obtain hlt | rfl : i < n ∨ i = n := by omega
    · have hmul : (i + 1) * p.dstStride ≤ n * p.dstStride :=
        mul_le_mul_of_nonneg_right (by omega) (by omega)
      have hsplit : (i + 1) * p.dstStride = i * p.dstStride + p.dstStride := by ring
      rw [Ring.store_off _ _ (.inl (by omega))]
      exact h.put i j hi hlt hj hjlt
    · have hj' : j.toNat < (p.sampleRow src n).length := by omega
      have hstore := Ring.store_at t.dstBuf (start + n * p.dstStride) hj'
      rw [Int.toNat_of_nonneg hj] at hstore
      rw [hstore]
      simp only [PlaneOf.sampleRow, List.getElem_map, List.getElem_range, Int.toNat_of_nonneg hj]
  · dsimp only
    have hoff : x < t.dstPtr ∨ t.dstPtr + (p.sampleRow src n).length ≤ x := by
      by_contra hon
      have hptr := h.ptr
      exact hx ⟨n, x - t.dstPtr, by omega, by push_cast; omega, by omega, by omega, by omega⟩
    rw [Ring.store_off _ _ hoff]
    refine h.rest x fun ⟨i, j, hi, hin, hj, hjlt, hat⟩ => hx ⟨i, j, hi, ?_, hj, hjlt, hat⟩
    push_cast
    omega

/-- The rows are written as far as they fit. -/
lemma scaleRows_eq (size : ℤ) (h : Kept src p s.lines) (hp : p.Proper) (n : ℕ) :
    (RowsFit p s.dstPtr size n → ∃ t, (List.range n).foldlM (fun s (i : ℕ) =>
        scaleRow src size p s i) s = some t ∧ Kept src p t.lines ∧ Rows src p s.dstPtr n s t) ∧
    (¬ RowsFit p s.dstPtr size n → (List.range n).foldlM (fun s (i : ℕ) =>
        scaleRow src size p s i) s = none) := by
  induction n with
  | zero =>
    refine ⟨fun _ => ⟨s, rfl, h, ?_, ?_, fun _ _ => rfl⟩, fun hno => absurd ?_ hno⟩
    · rw [Int.natCast_zero, zero_mul, add_zero]
    · exact fun i j hi hlt => absurd hlt (Int.not_lt.mpr hi)
    · exact fun i hi hlt => absurd hlt (Int.not_lt.mpr hi)
  | succ n ih =>
    rw [List.range_succ, List.foldlM_append]
    by_cases hfirst : RowsFit p s.dstPtr size n
    · obtain ⟨t, hrun, hkept, hrows⟩ := ih.1 hfirst
      obtain ⟨lines, hkept', hrow⟩ := scaleRow_eq size hkept hp (Int.natCast_nonneg n)
      rw [hrun]
      simp only [List.foldlM_cons, List.foldlM_nil, Option.bind_eq_bind, Option.bind_some]
      rw [hrow, hrows.ptr]
      constructor
      · intro hfit
        rw [if_pos (hfit n (by omega) (by omega))]
        refine ⟨_, rfl, hkept', ?_⟩
        rw [← hrows.ptr]
        exact hrows.store hp
      · intro hno
        rw [if_neg fun hlast => hno fun i hi hlt => ?_]
        · rfl
        · obtain hlt' | rfl : i < n ∨ i = n := by omega
          · exact hfirst i hi hlt'
          · exact hlast
    · rw [ih.2 hfirst]
      refine ⟨fun hfit => absurd (fun i hi hlt => hfit i hi (by omega)) hfirst, fun _ => rfl⟩

/-! ## Planes behind planes -/

/-- The planes, each with where it begins in the destination. -/
def placed : List PlaneOf → ℤ → List (ℤ × PlaneOf)
  | [], _ => []
  | p :: ps, start => (start, p) :: placed ps (start + p.dstHeight * p.dstStride)

lemma scalePlane_eq (src : ℤ → Sample) (size : ℤ) (s : State) (hp : p.Proper) :
    (RowsFit p s.dstPtr size p.dstHeight.toNat → ∃ t, scalePlane src size s p = some t ∧
      Rows src p s.dstPtr p.dstHeight.toNat s t) ∧
    (¬ RowsFit p s.dstPtr size p.dstHeight.toNat → scalePlane src size s p = none) := by
  have hreset : Kept src p (⟨fun _ => -1, s.lines.val⟩ : Slots ℤ (ℤ → Sample)) :=
    fun _ (hvalid : (0 : ℤ) ≤ -1) => absurd hvalid (by decide)
  obtain ⟨hfit, hno⟩ := scaleRows_eq size
    (s := { s with lines := ⟨fun _ => -1, s.lines.val⟩ }) hreset hp p.dstHeight.toNat
  refine ⟨fun h => ?_, hno⟩
  obtain ⟨t, hrun, -, hptr, hput, hrest⟩ := hfit h
  exact ⟨t, hrun, hptr, hput, hrest⟩

/-- A place of a plane is not in front of the planes. -/
lemma le_of_place {ps : List PlaneOf} (hps : ∀ p ∈ ps, p.Proper) {start x : ℤ} {q : ℤ × PlaneOf}
    (hq : q ∈ placed ps start) (hx : q.2.Place q.1 q.2.dstHeight x) : start ≤ x := by
  induction ps generalizing start with
  | nil => exact absurd hq List.not_mem_nil
  | cons p ps ih =>
    rw [List.forall_mem_cons] at hps
    obtain ⟨hp, hps⟩ := hps
    have hdstStride : 0 ≤ p.dstStride := add_nonneg hp.dstWidth hp.skip
    rcases List.mem_cons.mp hq with rfl | hq
    · obtain ⟨i, j, hi, -, hj, -, hat⟩ := hx
      have hrows : 0 ≤ i * p.dstStride := mul_nonneg hi hdstStride
      dsimp only at hat
      omega
    · have hsize : 0 ≤ p.dstHeight * p.dstStride := mul_nonneg hp.dstHeight hdstStride
      have hle := ih hps hq
      omega

/-- Every sample of every plane is at its place, or a row does not fit. -/
lemma scalePlanes_eq (src : ℤ → Sample) (size : ℤ) {ps : List PlaneOf}
    (hps : ∀ p ∈ ps, p.Proper) :
    ((∀ q ∈ placed ps s.dstPtr, RowsFit q.2 q.1 size q.2.dstHeight.toNat) →
      ∃ t, ps.foldlM (scalePlane src size) s = some t ∧
        (∀ q ∈ placed ps s.dstPtr, ∀ i j : ℤ, 0 ≤ i → i < q.2.dstHeight → 0 ≤ j →
          j < q.2.dstWidth → t.dstBuf (q.1 + i * q.2.dstStride + j) = q.2.sample src i j) ∧
        ∀ x, (∀ q ∈ placed ps s.dstPtr, ¬ q.2.Place q.1 q.2.dstHeight x) →
          t.dstBuf x = s.dstBuf x) ∧
    ((¬ ∀ q ∈ placed ps s.dstPtr, RowsFit q.2 q.1 size q.2.dstHeight.toNat) →
      ps.foldlM (scalePlane src size) s = none) := by
  induction ps generalizing s with
  | nil => exact ⟨fun _ => ⟨s, rfl, fun _ hq => absurd hq List.not_mem_nil, fun _ _ => rfl⟩,
      fun hno => absurd (fun _ hq => absurd hq List.not_mem_nil) hno⟩
  | cons p ps ih =>
    rw [List.forall_mem_cons] at hps
    obtain ⟨hp, hps⟩ := hps
    have hdstWidth := hp.dstWidth
    have hdstHeight := hp.dstHeight
    have hskip := hp.skip
    have hsum : p.dstStride = p.dstWidth + p.skip := rfl
    obtain ⟨hfirst, hnofirst⟩ := scalePlane_eq src size s hp
    rw [List.foldlM_cons]
    simp only [placed, List.forall_mem_cons]
    by_cases hfit : RowsFit p s.dstPtr size p.dstHeight.toNat
    · obtain ⟨t, hplane, hptr, hput, hbefore⟩ := hfirst hfit
      rw [Int.toNat_of_nonneg hdstHeight] at hptr hput hbefore
      rw [hplane, ← hptr]
      obtain ⟨hrest, hnorest⟩ := ih (s := t) hps
      refine ⟨fun hall => ?_, fun hno => hnorest fun hrest => hno ⟨hfit, hrest⟩⟩
      obtain ⟨u, hrun, hputs, hkept⟩ := hrest hall.2
      refine ⟨u, hrun, ⟨fun i j hi hilt hj hjlt => ?_, hputs⟩, fun x hx => ?_⟩
      · have hmul : (i + 1) * p.dstStride ≤ p.dstHeight * p.dstStride :=
          mul_le_mul_of_nonneg_right (by omega) (by omega)
        have hsplit : (i + 1) * p.dstStride = i * p.dstStride + p.dstStride := by ring
        -- the planes behind do not reach back
        rw [hkept _ fun q hq hplace => absurd (le_of_place hps hq hplace) (by rw [hptr]; omega)]
        exact hput i j hi hilt hj hjlt
      · rw [hkept x hx.2]
        exact hbefore x hx.1
    · rw [hnofirst hfit]
      exact ⟨fun hall => absurd hall.1 hfit, fun _ => rfl⟩

/-! ## The picture -/

namespace Sizes

variable (z : Sizes)

def intMax : ℤ := 2147483647

/-- The sums and products of the code are `int`s. -/
structure Fits : Prop where
  align : z.srcW + z.align ≤ intMax
  outpicsize : z.outpicsize * 3 ≤ intMax
  horRatio : z.srcW * 256 + z.dstW / 2 ≤ intMax
  verRatio : z.srcH * 256 + z.dstH / 2 ≤ intMax
  horPhase : (z.dstW - 1) * z.horRatio ≤ intMax
  verPhase : (z.dstH - 1) * z.verRatio ≤ intMax
  plane : z.alignWidth * z.srcH ≤ intMax
  croPlane : z.croAlignWidth * (z.srcH / 2) ≤ intMax

lemma fits_iff : z.Fits ↔ z.srcW + z.align ≤ intMax ∧ z.outpicsize * 3 ≤ intMax ∧
    z.srcW * 256 + z.dstW / 2 ≤ intMax ∧ z.srcH * 256 + z.dstH / 2 ≤ intMax ∧
    (z.dstW - 1) * z.horRatio ≤ intMax ∧ (z.dstH - 1) * z.verRatio ≤ intMax ∧
    z.alignWidth * z.srcH ≤ intMax ∧ z.croAlignWidth * (z.srcH / 2) ≤ intMax :=
  ⟨fun ⟨a, b, c, d, e, f, g, h⟩ => ⟨a, b, c, d, e, f, g, h⟩,
    fun ⟨a, b, c, d, e, f, g, h⟩ => ⟨a, b, c, d, e, f, g, h⟩⟩

instance : Decidable z.Fits := decidable_of_iff _ z.fits_iff.symm

/-- There are rows and samples in all planes of the source, and one in the destination. -/
structure Proper : Prop where
  srcW : 2 ≤ z.srcW
  srcH : 2 ≤ z.srcH
  dstW : 0 < z.dstW
  dstH : 0 < z.dstH
  align : 2 ≤ z.align
  fits : z.Fits

/-- The three planes, and where they begin. -/
def planes : List (ℤ × PlaneOf) := placed [z.luma, z.cb, z.cr] 0

end Sizes

variable {z : Sizes}

/-! ### The mask -/

section Mask

variable {n x : ℤ}

/-- The bits of a mask are taken away from the number. -/
lemma toNat_and_not (a b : BitVec 32) : (a &&& ~~~b).toNat + (a.toNat &&& b.toNat) = a.toNat := by
  have hdisjoint : (a &&& ~~~b) &&& (a &&& b) = 0#32 := by
    ext i
    simp only [BitVec.getElem_and, BitVec.getElem_not, BitVec.getElem_zero]
    cases a[i] <;> cases b[i] <;> rfl
  have hjoin : (a &&& ~~~b) ||| (a &&& b) = a := by
    ext i
    simp only [BitVec.getElem_and, BitVec.getElem_not, BitVec.getElem_or]
    cases a[i] <;> cases b[i] <;> rfl
  rw [← BitVec.toNat_and, ← BitVec.toNat_add_of_and_eq_zero hdisjoint,
    BitVec.add_eq_or_of_and_eq_zero _ _ hdisjoint, hjoin]

lemma alignInt_eq (hn : 1 ≤ n) (hx : 0 ≤ x) (hint : x + n ≤ Sizes.intMax) :
    alignInt n x = x + n - 1 - ((x + n - 1).toNat &&& (n - 1).toNat : ℕ) := by
  unfold Sizes.intMax at hint
  have hsum : (BitVec.ofInt 32 (x + n - 1)).toNat = (x + n - 1).toNat := by
    rw [BitVec.toNat_ofInt]
    omega
  have hmask : (BitVec.ofInt 32 (n - 1)).toNat = (n - 1).toNat := by
    rw [BitVec.toNat_ofInt]
    omega
  have hclear := toNat_and_not (BitVec.ofInt 32 (x + n - 1)) (BitVec.ofInt 32 (n - 1))
  rw [hsum, hmask] at hclear
  rw [alignInt, BitVec.toInt_eq_toNat_of_lt (by omega)]
  omega

lemma le_alignInt (hn : 1 ≤ n) (hx : 0 ≤ x) (hint : x + n ≤ Sizes.intMax) : x ≤ alignInt n x := by
  have hmask : (x + n - 1).toNat &&& (n - 1).toNat ≤ (n - 1).toNat := Nat.and_le_right
  rw [alignInt_eq hn hx hint]
  omega

/-- Where the alignment is a power of two, the size is rounded up to a multiple of it. -/
lemma alignInt_two_pow {k : ℕ} (hn : n = (2 ^ k : ℕ)) (hx : 0 ≤ x)
    (hint : x + n ≤ Sizes.intMax) : alignInt n x = Camera.align n x := by
  have hpos : 0 < 2 ^ k := Nat.two_pow_pos k
  have hpred : (n - 1).toNat = 2 ^ k - 1 := by omega
  have hmod : (((x + n - 1).toNat % 2 ^ k : ℕ) : ℤ) = (x + n - 1) % n := by
    rw [Int.natCast_emod, Int.toNat_of_nonneg (by omega), hn]
  rw [alignInt_eq (by omega) hx hint, hpred, Nat.and_two_pow_sub_one_eq_mod, hmod, Camera.align,
    add_sub_assoc]

end Mask

namespace Sizes.Proper

lemma alignHalf (hz : z.Proper) : z.align.tdiv 2 = z.align / 2 :=
  Int.tdiv_eq_ediv_of_nonneg (by have := hz.align; omega)

lemma le_alignWidth (hz : z.Proper) : z.srcW ≤ z.alignWidth :=
  le_alignInt (by have := hz.align; omega) (by have := hz.srcW; omega) hz.fits.align

lemma le_croAlignWidth (hz : z.Proper) : z.srcW / 2 ≤ z.croAlignWidth := by
  have hsrcW := hz.srcW
  have halign := hz.align
  have hint := hz.fits.align
  have hhalf := hz.alignHalf
  exact le_alignInt (by omega) (by omega) (by omega)

lemma luma (hz : z.Proper) : z.luma.Proper := by
  have hwidth := hz.le_alignWidth
  obtain ⟨hsrcW, hsrcH, hdstW, hdstH, -, -⟩ := hz
  have hratio : 0 ≤ z.verRatio := by
    unfold verRatio
    rw [Int.tdiv_eq_ediv_of_nonneg hdstH.le]
    exact Int.tdiv_nonneg (by omega) hdstH.le
  refine ⟨?_, hdstW.le, hdstH.le, ?_, hratio, le_refl 0⟩
  · show 0 < z.srcH
    omega
  · show 0 ≤ z.alignWidth - z.srcW
    omega

lemma chroma (hz : z.Proper) (start : ℤ) : (z.chroma start).Proper := by
  have hluma := hz.luma
  have hwidth := hz.le_croAlignWidth
  obtain ⟨hsrcW, hsrcH, hdstW, hdstH, -, -⟩ := hz
  refine ⟨?_, ?_, ?_, ?_, hluma.verRatio, le_refl 0⟩
  · show 0 < z.srcH / 2
    omega
  · show 0 ≤ z.dstW / 2
    omega
  · show 0 ≤ z.dstH / 2
    omega
  · show 0 ≤ z.croAlignWidth - z.srcW / 2
    omega

lemma cb (hz : z.Proper) : z.cb.Proper := hz.chroma _

lemma cr (hz : z.Proper) : z.cr.Proper := hz.chroma _

lemma all (hz : z.Proper) : ∀ p ∈ [z.luma, z.cb, z.cr], p.Proper := by
  simp only [List.forall_mem_cons]
  exact ⟨hz.luma, hz.cb, hz.cr, fun _ h => absurd h List.not_mem_nil⟩

end Sizes.Proper

lemma scaler_eq_map (hz : z.Proper) (lines : Bool → ℤ → Sample) (dstBuf : ℤ → Sample) :
    scaler z src lines dstBuf =
      (doScaler z src lines dstBuf).map fun s => Ring.load s.dstBuf 0 z.outpicsize := by
  have hdstW := hz.dstW
  have hdstH := hz.dstH
  exact if_neg (by omega)

/-- Every sample of the scaled planes, as far as the picture goes, is at its place, and the bytes
between them are those of the memory that was allocated. -/
structure Sizes.Shows (z : Sizes) (src dstBuf : ℤ → Sample) (picture : List Sample) : Prop where
  length : picture.length = z.outpicsize.toNat
  sample : ∀ q ∈ z.planes, ∀ i j : ℤ, 0 ≤ i → i < q.2.dstHeight → 0 ≤ j → j < q.2.dstWidth →
    ∀ x : ℕ, x = q.1 + i * q.2.dstStride + j → x < z.outpicsize →
      picture[x]? = some (q.2.sample src i j)
  rest : ∀ x : ℕ, x < z.outpicsize → (∀ q ∈ z.planes, ¬ q.2.Place q.1 q.2.dstHeight x) →
    picture[x]? = some (dstBuf x)

lemma scaler_cases (hz : z.Proper) (src : ℤ → Sample) (lines : Bool → ℤ → Sample)
    (dstBuf : ℤ → Sample) :
    ((∀ q ∈ z.planes, RowsFit q.2 q.1 (z.outpicsize * 3) q.2.dstHeight.toNat) →
      ∃ picture, scaler z src lines dstBuf = some picture ∧ z.Shows src dstBuf picture) ∧
    ((¬ ∀ q ∈ z.planes, RowsFit q.2 q.1 (z.outpicsize * 3) q.2.dstHeight.toNat) →
      scaler z src lines dstBuf = none) := by
  obtain ⟨hfits, hno⟩ := scalePlanes_eq src (z.outpicsize * 3)
    (s := ⟨⟨fun _ => -1, lines⟩, 0, dstBuf⟩) hz.all
  rw [scaler_eq_map hz]
  constructor
  · intro hall
    obtain ⟨t, hdo, hput, hrest⟩ := hfits hall
    have hat : ∀ x : ℕ, x < z.outpicsize →
        (Ring.load t.dstBuf 0 z.outpicsize)[x]? = some (t.dstBuf x) := by
      intro x hx
      have hlength : x < (Ring.load t.dstBuf 0 z.outpicsize).length := by
        rw [Ring.length_load]
        omega
      rw [List.getElem?_eq_getElem hlength, Ring.getElem_load, zero_add]
    rw [doScaler, hdo]
    refine ⟨_, rfl, Ring.length_load .., ?_, ?_⟩
    · intro q hq i j hi hilt hj hjlt x hx hxlt
      rw [hat x hxlt, hx]
      exact congrArg some (hput q hq i j hi hilt hj hjlt)
    · intro x hxlt hx
      rw [hat x hxlt]
      exact congrArg some (hrest x hx)
  · intro hall
    rw [doScaler, hno hall]
    rfl

/-- The last row of a plane ends last. -/
lemma rowsFit_iff {start : ℤ} (hp : p.Proper) (hpos : 0 < p.dstHeight) :
    RowsFit p start size p.dstHeight.toNat ↔
      start + p.dstHeight * p.dstStride - p.skip ≤ size := by
  have hdstWidth := hp.dstWidth
  have hskip := hp.skip
  have hsum : p.dstStride = p.dstWidth + p.skip := rfl
  constructor
  · intro hfit
    have hlast := hfit (p.dstHeight - 1) (by omega) (by omega)
    rw [sub_mul, one_mul] at hlast
    omega
  · intro hend i hi hlt
    have hmul : (i + 1) * p.dstStride ≤ p.dstHeight * p.dstStride :=
      mul_le_mul_of_nonneg_right (by omega) (by omega)
    rw [add_mul, one_mul] at hmul
    omega

/-- The bytes between the first row and the last one of all planes; a picture of one row has no
chroma rows. -/
def Sizes.written (z : Sizes) : ℤ :=
  if z.dstH = 1 then z.dstW
  else z.dstH * z.luma.dstStride + 2 * (z.dstH / 2 * z.cb.dstStride) - z.cb.skip

lemma rowsFit_planes_iff (hz : z.Proper) :
    (∀ q ∈ z.planes, RowsFit q.2 q.1 size q.2.dstHeight.toNat) ↔ z.written ≤ size := by
  have hdstH := hz.dstH
  have hluma : RowsFit z.luma 0 size z.luma.dstHeight.toNat ↔
      0 + z.luma.dstHeight * z.luma.dstStride - z.luma.skip ≤ size := rowsFit_iff hz.luma hdstH
  simp only [Sizes.planes, placed, List.forall_mem_cons]
  unfold Sizes.written
  split_ifs with hone
  · have hchroma : ∀ start begin, RowsFit (z.chroma start) begin size
        (z.chroma start).dstHeight.toNat := by
      intro start begin i hi hlt
      have hnone : (z.chroma start).dstHeight = 0 := by
        show z.dstH / 2 = 0
        omega
      rw [hnone] at hlt
      omega
    have hsize : 0 + z.luma.dstHeight * z.luma.dstStride - z.luma.skip = z.dstW := by
      show 0 + z.dstH * (z.dstW + z.luma.skip) - z.luma.skip = z.dstW
      rw [hone]
      ring
    rw [hluma, hsize]
    exact ⟨fun h => h.1,
      fun h => ⟨h, hchroma _ _, hchroma _ _, fun _ h => absurd h List.not_mem_nil⟩⟩
  · have hpos : 0 < z.dstH / 2 := by omega
    rw [hluma, rowsFit_iff hz.cb hpos, rowsFit_iff hz.cr hpos]
    -- the last row of Cr is behind all others
    have hend : 0 + z.luma.dstHeight * z.luma.dstStride + z.cb.dstHeight * z.cb.dstStride +
        z.cr.dstHeight * z.cr.dstStride - z.cr.skip =
        z.dstH * z.luma.dstStride + 2 * (z.dstH / 2 * z.cb.dstStride) - z.cb.skip := by
      show 0 + z.dstH * z.luma.dstStride + z.dstH / 2 * z.cb.dstStride +
        z.dstH / 2 * z.cb.dstStride - z.cb.skip = _
      ring
    have hwidth := hz.cb.dstWidth
    have hcbSkip := hz.cb.skip
    have hstride : z.cb.dstStride = z.cb.dstWidth + z.cb.skip := rfl
    have hsame : z.cr.dstHeight * z.cr.dstStride = z.cb.dstHeight * z.cb.dstStride := rfl
    have hskip : z.cr.skip = z.cb.skip := rfl
    have hrow : 1 * z.cb.dstStride ≤ z.cb.dstHeight * z.cb.dstStride :=
      mul_le_mul_of_nonneg_right hpos (by omega)
    have hlumaSkip := hz.luma.skip
    constructor
    · rintro ⟨-, -, hlast, -⟩
      omega
    · intro hlast
      exact ⟨by omega, by omega, by omega, fun _ h => absurd h List.not_mem_nil⟩

/-- A source whose samples count up. -/
def ramp : ℤ → Sample := fun x => BitVec.ofInt 8 x

end Softwinner.Camera.Scaler
