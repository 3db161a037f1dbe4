import Mathlib.Data.List.GetD
import Mathlib.Tactic.Linarith
import Mathlib.Tactic.Ring
import Softwinner.Camera.FocusArea
import Softwinner.Framework.Runs

/-!
# The filter of the focus areas

`parse_focus_areas` leaves the device alone while an area is close to the one of the last commands.
It compares the area as it was given, and remembers it as it has been scaled by the zoom.
`filters_iff` says when that makes no difference.
-/

namespace Softwinner.Camera.FocusArea

open Framework
open Audio.VolumeConfig (atoi digits isSpace digitChar IntText)

/-- `v4l2_win_coordinate`. -/
@[ext] structure Win where
  x1 : ℤ
  y1 : ℤ
  x2 : ℤ
  y2 : ℤ
  deriving DecidableEq

/-- A coordinate differs by 40 or more. -/
def Win.Far (v w : Win) : Prop :=
  40 ≤ |v.x1 - w.x1| ∨ 40 ≤ |v.y1 - w.y1| ∨ 40 ≤ |v.x2 - w.x2| ∨ 40 ≤ |v.y2 - w.y2|

instance (v w : Win) : Decidable (v.Far w) := inferInstanceAs (Decidable (_ ∨ _))

def scale (ratio c : ℤ) : ℤ := (c * 100).tdiv ratio

def Win.scale (ratio : ℤ) (w : Win) : Win :=
  ⟨FocusArea.scale ratio w.x1, FocusArea.scale ratio w.y1, FocusArea.scale ratio w.x2,
    FocusArea.scale ratio w.y2⟩

/-- What is asked of the device; `set3ALock` takes the three locks off. -/
inductive Command
  | set3ALock
  | setAutoFocusRange
  | setAutoFocusWind (num : ℤ) (win : Win)
  | setExposureWind (num : ℤ) (win : Win)
  deriving DecidableEq

/-- What `parse_focus_areas` has of the camera. -/
structure Focus where
  supportFocusMode : Bool
  zoomRatio : ℤ
  lastFocusAreas : Win

/-- The numbers of the fields; the last one is not used. -/
def area (fs : List (List Char)) : Win :=
  ⟨atoi (fs.getD 0 []), atoi (fs.getD 1 []), atoi (fs.getD 2 []), atoi (fs.getD 3 [])⟩

namespace Focus

variable {s s' t : Focus} {str : List Char} {fs : List (List Char)} {isFace : Bool} {a b : Win}

/-- The window for an area. -/
def window (s : Focus) (a : Win) (isFace : Bool) : Win :=
  if !isFace ∧ s.zoomRatio ≠ 0 then a.scale s.zoomRatio else a

def commands (a win : Win) : List Command :=
  if a = ⟨0, 0, 0, 0⟩ then
    [.set3ALock, .setAutoFocusRange, .setAutoFocusWind 0 win, .setExposureWind 0 win]
  else [.setAutoFocusWind 1 win, .setExposureWind 1 win]

/-- `parse_focus_areas` behind the numbers. -/
def setArea (s : Focus) (a : Win) (isFace : Bool) : List Command × Focus :=
  if s.lastFocusAreas.Far a then
    (commands a (s.window a isFace), { s with lastFocusAreas := s.window a isFace })
  else ([], s)

def parseFocusAreas (s : Focus) (str : List Char) (isFace : Bool) :
    Option (List Command × Focus) :=
  if !s.supportFocusMode then some ([], s)
  else (parseFields str).map fun fs => s.setArea (area fs) isFace

/-- What happens to the camera: a zoom is set, or an area. -/
inductive Event
  | zoom (newZoom maxZoom : ℤ)
  | focus (str : List Char) (isFace : Bool)

def perform (s : Focus) : Event → Option (List Command × Focus)
  | .zoom newZoom maxZoom =>
    if 0 ≤ newZoom ∧ newZoom ≤ maxZoom then
      if maxZoom = 0 then none
      else some ([], { s with zoomRatio := SetParameters.zoomRatio newZoom maxZoom })
    else some ([], s)
  | .focus str isFace => s.parseFocusAreas str isFace

def step (s : Focus) (e : Event) : Option Focus := (s.perform e).map Prod.snd

/-- Nothing is asked of the device. -/
def Quiet (e : Event) (s : Focus) : Prop := ∃ t, s.perform e = some ([], t)

/-- The second of two calls asks for nothing; and after a call that has asked for something, a later
one does so exactly when its area is far from that of the call. -/
def Filters (s : Focus) (str : List Char) (fs : List (List Char)) (isFace : Bool) : Prop :=
  ∃ cs s', s.parseFocusAreas str isFace = some (cs, s') ∧
    (∃ t, s'.parseFocusAreas str isFace = some ([], t)) ∧
    (cs ≠ [] → ∀ t, Runs step Quiet s' t → ∀ str' fs' isFace', Bracketed str' fs' →
      ∃ cs' t', t.parseFocusAreas str' isFace' = some (cs', t') ∧
        (cs' ≠ [] ↔ (area fs).Far (area fs')))

end Focus

/-! ## Scaling -/

/-- A number that lies between zero and another one. -/
def Toward (c d : ℤ) : Prop := 0 ≤ c ∧ c ≤ d ∨ d ≤ c ∧ c ≤ 0

lemma toward_scale {ratio : ℤ} (hratio : 100 ≤ ratio) (c : ℤ) : Toward (scale ratio c) c := by
  have hbound (n : ℤ) (hn : 0 ≤ n) : 0 ≤ scale ratio n ∧ scale ratio n ≤ n := by
    rw [scale, Int.tdiv_eq_ediv_of_nonneg (by omega)]
    exact ⟨Int.ediv_nonneg (by omega) (by omega),
      Int.ediv_le_of_le_mul (by omega) (mul_le_mul_of_nonneg_left hratio hn)⟩
  rcases le_total 0 c with hc | hc
  · exact Or.inl (hbound c hc)
  · have hneg : scale ratio c = -scale ratio (-c) := by
      rw [scale, scale, Int.neg_mul, Int.neg_tdiv, neg_neg]
    have hpos := hbound (-c) (by omega)
    exact Or.inr (by omega)

lemma scale_eq_self_iff {ratio : ℤ} (hratio : 100 ≤ ratio) (c : ℤ) :
    scale ratio c = c ↔ ratio = 100 ∨ c = 0 := by
  constructor
  · intro h
    -- the remainder has the sign of `c`, and what it is here the other one
    have hdiv := Int.mul_tdiv_add_tmod (c * 100) ratio
    rw [← scale, h] at hdiv
    have hrest : (ratio - 100) * c = -(c * 100).tmod ratio := by linarith
    have hzero : (ratio - 100) * c = 0 := by
      rcases le_total 0 c with hc | hc
      · have hrem := Int.tmod_nonneg ratio (a := c * 100) (by omega)
        have hprod := mul_nonneg (a := ratio - 100) (by omega) hc
        omega
      · have hrem := Int.tmod_nonneg ratio (a := -c * 100) (by omega)
        rw [Int.neg_mul, Int.neg_tmod] at hrem
        have hprod := mul_nonneg (a := ratio - 100) (b := -c) (by omega) (by omega)
        rw [mul_neg] at hprod
        omega
    exact (mul_eq_zero.mp hzero).imp (fun h => by omega) id
  · rintro (rfl | rfl)
    · exact Int.mul_tdiv_cancel c (by decide)
    · rw [scale, Int.zero_mul, Int.zero_tdiv]

/-- A number that is close to the one, and far from the other one if that differs. -/
lemma exists_tells {c d : ℤ} (hto : Toward c d) (hd : -9999 ≤ d ∧ d ≤ 99999) :
    ∃ v, |c - v| < 40 ∧ (c ≠ d → 40 ≤ |d - v|) ∧ -9999 ≤ v ∧ v ≤ 99999 := by
  rw [Toward] at hto
  by_cases hfar : 40 ≤ |d - c| ∨ c = d
  · exact ⟨c, by simp, fun hne => hfar.resolve_right hne, by omega⟩
  · rw [not_or, le_abs, not_or] at hfar
    rcases hto with hto | hto
    · refine ⟨d - 40, abs_lt.mpr ?_, fun _ => le_abs.mpr ?_, by omega⟩ <;> omega
    · refine ⟨d + 40, abs_lt.mpr ?_, fun _ => le_abs.mpr ?_, by omega⟩ <;> omega

/-! ## Fields -/

lemma foldl_bounds (ds : List Char) (hds : ∀ c ∈ ds, c.isDigit = true) : ∀ {m : ℤ}, 0 ≤ m →
    0 ≤ ds.foldl (fun (n : ℤ) c => 10 * n + (c.toNat - 48 : ℕ)) m ∧
      ds.foldl (fun (n : ℤ) c => 10 * n + (c.toNat - 48 : ℕ)) m < (m + 1) * 10 ^ ds.length := by
  induction ds with
  | nil =>
    intro m hm
    rw [List.foldl_nil, List.length_nil, pow_zero, mul_one]
    exact ⟨hm, Int.lt_succ m⟩
  | cons c ds ih =>
    intro m hm
    obtain ⟨hc, hds⟩ := List.forall_mem_cons.mp hds
    have hdigit : c.toNat - 48 ≤ 9 := by
      have hle : c.toNat ≤ 57 := of_decide_eq_true (Bool.and_eq_true_iff.mp hc).2
      omega
    obtain ⟨hnonneg, hlt⟩ := ih hds (m := 10 * m + (c.toNat - 48 : ℕ)) (by omega)
    refine ⟨hnonneg, hlt.trans_le ?_⟩
    rw [List.length_cons, pow_succ', ← mul_assoc]
    exact mul_le_mul_of_nonneg_right (by omega) (by positivity)

lemma digits_bounds (t : List Char) : 0 ≤ digits t ∧ digits t < 10 ^ t.length := by
  have hall : ∀ c ∈ t.takeWhile Char.isDigit, c.isDigit = true := fun c hc =>
    List.mem_takeWhile_imp hc
  obtain ⟨hnonneg, hlt⟩ := foldl_bounds _ hall (m := 0) le_rfl
  refine ⟨hnonneg, hlt.trans_le ?_⟩
  rw [zero_add, one_mul]
  exact pow_le_pow_right₀ (by decide) (List.takeWhile_prefix _).length_le

/-- What five characters can say. -/
lemma atoi_bounds {f : List Char} (h : f.length ≤ 5) : -9999 ≤ atoi f ∧ atoi f ≤ 99999 := by
  have hbound (t : List Char) (n : ℕ) (ht : t.length ≤ n) : 0 ≤ digits t ∧ digits t < 10 ^ n :=
    ⟨(digits_bounds t).1, (digits_bounds t).2.trans_le (pow_le_pow_right₀ (by decide) ht)⟩
  have hlength : (f.dropWhile isSpace).length ≤ 5 := (List.length_dropWhile_le ..).trans h
  unfold atoi
  split
  · rename_i t heq
    rw [heq, List.length_cons] at hlength
    have ht := hbound t 4 (by omega)
    omega
  · rename_i t heq
    rw [heq, List.length_cons] at hlength
    have ht := hbound t 4 (by omega)
    omega
  · have ht := hbound _ 5 hlength
    omega

/-- Every number of the range has a field. -/
lemma exists_plain {n : ℤ} (h : -9999 ≤ n ∧ n ≤ 99999) : ∃ f, Plain f ∧ atoi f = n := by
  have htext (t : IntText) (hne : t.digits ≠ []) (hlength : t.text.length ≤ 5) :
      Plain t.text ∧ atoi t.text = t.value := by
    refine ⟨⟨Audio.VolumeConfig.text_ne_nil hne, hlength, fun c hc => ?_⟩, ?_⟩
    · have hdigit : ∀ d, isSeparator (digitChar d) = false := by decide
      obtain rfl | rfl | ⟨d, rfl⟩ := Audio.VolumeConfig.mem_text hc
      · rfl
      · rfl
      · exact hdigit d
    · have hvalue := Audio.VolumeConfig.atoi_text t hne (Or.inl rfl)
      rwa [List.append_nil] at hvalue
  have hdigit (k : ℕ) : ((Fin.ofNat 10 (n.natAbs / k) : Fin 10) : ℕ) = n.natAbs / k % 10 := rfl
  rcases lt_or_ge n 0 with hn | hn
  · obtain ⟨hplain, hvalue⟩ := htext ⟨0, true, [1000, 100, 10, 1].map fun k =>
      Fin.ofNat 10 (n.natAbs / k)⟩ (List.cons_ne_nil _ _) le_rfl
    refine ⟨_, hplain, hvalue.trans ?_⟩
    simp only [IntText.value, List.map_cons, List.map_nil, List.foldl_cons, List.foldl_nil, hdigit,
      if_true]
    omega
  · obtain ⟨hplain, hvalue⟩ := htext ⟨0, false, [10000, 1000, 100, 10, 1].map fun k =>
      Fin.ofNat 10 (n.natAbs / k)⟩ (List.cons_ne_nil _ _) le_rfl
    refine ⟨_, hplain, hvalue.trans ?_⟩
    simp only [IntText.value, List.map_cons, List.map_nil, List.foldl_cons, List.foldl_nil, hdigit,
      if_neg Bool.false_ne_true]
    omega

/-- All coordinates can be written. -/
def Win.Fits (w : Win) : Prop := ∀ c ∈ [w.x1, w.y1, w.x2, w.y2], -9999 ≤ c ∧ c ≤ 99999

lemma fits_area {str : List Char} {fs : List (List Char)} (h : Bracketed str fs) :
    (area fs).Fits := by
  obtain ⟨-, -, -, -, hfields⟩ := h
  have hshort (i : ℕ) : (fs.getD i []).length ≤ 5 := by
    by_cases hi : i < fs.length
    · rw [List.getD_eq_getElem _ _ hi]
      obtain ⟨-, hall⟩ := List.forall₂_iff_get.mp hfields
      exact (hall i (hfields.length_eq.symm ▸ hi) hi).2
    · rw [List.getD_eq_default _ _ (by omega)]
      exact Nat.zero_le 5
  have hbounds (i : ℕ) := atoi_bounds (hshort i)
  intro c hc
  simp only [area, List.mem_cons, List.not_mem_nil, or_false] at hc
  obtain rfl | rfl | rfl | rfl := hc
  · exact hbounds 0
  · exact hbounds 1
  · exact hbounds 2
  · exact hbounds 3

lemma exists_bracketed {w : Win} (h : w.Fits) : ∃ str fs, Bracketed str fs ∧ area fs = w := by
  obtain ⟨f₁, hf₁, h₁⟩ := exists_plain (h w.x1 (by simp))
  obtain ⟨f₂, hf₂, h₂⟩ := exists_plain (h w.y1 (by simp))
  obtain ⟨f₃, hf₃, h₃⟩ := exists_plain (h w.x2 (by simp))
  obtain ⟨f₄, hf₄, h₄⟩ := exists_plain (h w.y2 (by simp))
  refine ⟨_, [f₁, f₂, f₃, f₄, f₁], bracketed_of_plain rfl fun f hf => ?_, Win.ext h₁ h₂ h₃ h₄⟩
  simp only [List.mem_cons, List.not_mem_nil, or_false] at hf
  obtain rfl | rfl | rfl | rfl | rfl := hf <;> assumption

namespace Win

variable {a b v w : Win} {ratio : ℤ}

lemma not_far_self (w : Win) : ¬ w.Far w := by
  simp [Far]

lemma scale_eq_self_iff (hratio : 100 ≤ ratio) :
    w.scale ratio = w ↔ ratio = 100 ∨ w = ⟨0, 0, 0, 0⟩ := by
  simp only [scale, Win.ext_iff, FocusArea.scale_eq_self_iff hratio]
  omega

/-- An area that is close to what is remembered of another one, and far from that. -/
lemma exists_tells (hfits : a.Fits) (hratio : 100 ≤ ratio) (hne : a.scale ratio ≠ a) :
    ∃ b, b.Fits ∧ ¬ (a.scale ratio).Far b ∧ a.Far b := by
  obtain ⟨h₁, h₂, h₃, h₄⟩ : (-9999 ≤ a.x1 ∧ a.x1 ≤ 99999) ∧ (-9999 ≤ a.y1 ∧ a.y1 ≤ 99999) ∧
      (-9999 ≤ a.x2 ∧ a.x2 ≤ 99999) ∧ (-9999 ≤ a.y2 ∧ a.y2 ≤ 99999) := by
    simpa [Fits] using hfits
  obtain ⟨v₁, hnear₁, hfar₁, hv₁⟩ := FocusArea.exists_tells (toward_scale hratio _) h₁
  obtain ⟨v₂, hnear₂, hfar₂, hv₂⟩ := FocusArea.exists_tells (toward_scale hratio _) h₂
  obtain ⟨v₃, hnear₃, hfar₃, hv₃⟩ := FocusArea.exists_tells (toward_scale hratio _) h₃
  obtain ⟨v₄, hnear₄, hfar₄, hv₄⟩ := FocusArea.exists_tells (toward_scale hratio _) h₄
  refine ⟨⟨v₁, v₂, v₃, v₄⟩, by simp [Fits, hv₁, hv₂, hv₃, hv₄], ?_, ?_⟩
  · rintro (hfar | hfar | hfar | hfar)
    · exact hfar.not_gt hnear₁
    · exact hfar.not_gt hnear₂
    · exact hfar.not_gt hnear₃
    · exact hfar.not_gt hnear₄
  · -- a coordinate has been moved by the scaling, and tells the two apart
    by_contra hnear
    simp only [Far, not_or] at hnear
    obtain ⟨hnot₁, hnot₂, hnot₃, hnot₄⟩ := hnear
    exact hne (Win.ext (not_not.mp (mt hfar₁ hnot₁)) (not_not.mp (mt hfar₂ hnot₂))
      (not_not.mp (mt hfar₃ hnot₃)) (not_not.mp (mt hfar₄ hnot₄)))

end Win

namespace Focus

variable {s s' t : Focus} {str : List Char} {fs : List (List Char)} {isFace : Bool} {a b : Win}

lemma setArea_ne_nil_iff : (s.setArea a isFace).1 ≠ [] ↔ s.lastFocusAreas.Far a := by
  rw [setArea]
  split_ifs with hfar
  · refine iff_of_true ?_ hfar
    rw [commands]
    split_ifs <;> simp
  · exact iff_of_false (fun h => h rfl) hfar

/-- Where nothing is asked for, nothing is remembered either. -/
lemma setArea_of_not_far (h : ¬ s.lastFocusAreas.Far a) : s.setArea a isFace = ([], s) := by
  rw [setArea, if_neg h]

lemma setArea_of_far (h : s.lastFocusAreas.Far a) : (s.setArea a isFace).2 =
    { s with lastFocusAreas := s.window a isFace } := by
  rw [setArea, if_pos h]

lemma parseFocusAreas_eq (h : Bracketed str fs) (hsupport : s.supportFocusMode = true) :
    s.parseFocusAreas str isFace = some (s.setArea (area fs) isFace) := by
  rw [parseFocusAreas, hsupport, parseFields_eq_some.mpr h]
  rfl

/-- A call of a text that is taken apart. -/
lemma exists_parseFocusAreas (h : Bracketed str fs) (hsupport : s.supportFocusMode = true)
    (isFace : Bool) : ∃ cs s', s.parseFocusAreas str isFace = some (cs, s') ∧
      (cs ≠ [] ↔ s.lastFocusAreas.Far (area fs)) ∧ s'.supportFocusMode = true ∧
      (cs ≠ [] → s'.lastFocusAreas = s.window (area fs) isFace) := by
  refine ⟨(s.setArea (area fs) isFace).1, (s.setArea (area fs) isFace).2,
    parseFocusAreas_eq h hsupport, setArea_ne_nil_iff, ?_, fun hne => ?_⟩
  · rw [setArea]
    split_ifs <;> exact hsupport
  · rw [setArea_of_far (setArea_ne_nil_iff.mp hne)]

lemma parseFocusAreas_of_not_far (h : Bracketed str fs) (hsupport : s.supportFocusMode = true)
    (hnear : ¬ s.lastFocusAreas.Far (area fs)) :
    s.parseFocusAreas str isFace = some ([], s) :=
  (parseFocusAreas_eq h hsupport).trans (congrArg some (setArea_of_not_far hnear))

/-- Only a call that asks for something changes what is remembered. -/
lemma keeps_of_quiet {e : Event} (hquiet : Quiet e s) (hstep : s.step e = some s') :
    s'.lastFocusAreas = s.lastFocusAreas ∧ s'.supportFocusMode = s.supportFocusMode := by
  obtain ⟨t, hperform⟩ := hquiet
  rw [step, hperform] at hstep
  obtain rfl := Option.some.inj hstep
  cases e with
  | zoom newZoom maxZoom =>
    rw [perform] at hperform
    split_ifs at hperform
    · obtain rfl := (Prod.mk.inj (Option.some.inj hperform)).2
      exact ⟨rfl, rfl⟩
    · obtain rfl := (Prod.mk.inj (Option.some.inj hperform)).2
      exact ⟨rfl, rfl⟩
  | focus str isFace =>
    rw [perform, parseFocusAreas] at hperform
    split_ifs at hperform
    · obtain rfl := (Prod.mk.inj (Option.some.inj hperform)).2
      exact ⟨rfl, rfl⟩
    · obtain ⟨fs, -, hset⟩ := Option.map_eq_some_iff.mp hperform
      have hnear : ¬ s.lastFocusAreas.Far (area fs) := fun hfar =>
        setArea_ne_nil_iff.mpr hfar (congrArg Prod.fst hset)
      rw [setArea_of_not_far hnear] at hset
      obtain rfl := (Prod.mk.inj hset).2
      exact ⟨rfl, rfl⟩

lemma keeps_of_runs (h : Runs step Quiet s t) :
    t.lastFocusAreas = s.lastFocusAreas ∧ t.supportFocusMode = s.supportFocusMode := by
  refine h.invariant (P := fun u => u.lastFocusAreas = s.lastFocusAreas ∧
    u.supportFocusMode = s.supportFocusMode) ?_ ⟨rfl, rfl⟩
  intro u u' e hu hquiet hstep
  obtain ⟨hlast, hsupport⟩ := keeps_of_quiet hquiet hstep
  exact ⟨hlast.trans hu.1, hsupport.trans hu.2⟩

lemma window_eq_self_iff (hratio : 100 ≤ s.zoomRatio) :
    s.window a isFace = a ↔ isFace = true ∨ s.zoomRatio = 100 ∨ a = ⟨0, 0, 0, 0⟩ := by
  rw [window]
  cases isFace with
  | true => simp
  | false =>
    rw [if_pos ⟨rfl, by omega⟩, Win.scale_eq_self_iff hratio]
    simp

/-- Where the area itself is remembered, the filter does what it is for. -/
lemma filters_of_window_eq (hstr : Bracketed str fs) (hsupport : s.supportFocusMode = true)
    (hfar : s.lastFocusAreas.Far (area fs)) (hwindow : s.window (area fs) isFace = area fs) :
    s.Filters str fs isFace := by
  obtain ⟨cs, s', hfirst, hissues, hkept, hlast⟩ := exists_parseFocusAreas hstr hsupport isFace
  have hlast := hlast (hissues.mpr hfar)
  rw [hwindow] at hlast
  have hsame : ¬ s'.lastFocusAreas.Far (area fs) := hlast ▸ Win.not_far_self _
  refine ⟨cs, s', hfirst, ⟨s', parseFocusAreas_of_not_far hstr hkept hsame⟩,
    fun _ t hrun str' fs' isFace' hstr' => ?_⟩
  obtain ⟨hlast', hkept'⟩ := keeps_of_runs hrun
  obtain ⟨cs', t', hlater, hissues', -, -⟩ :=
    exists_parseFocusAreas hstr' (hkept'.trans hkept) isFace'
  rw [hlast', hlast] at hissues'
  exact ⟨cs', t', hlater, hissues'⟩

/-- Where the scaled area is remembered, there is one that it is close to and the area is not. -/
lemma not_filters_of_window_ne (hstr : Bracketed str fs) (hratio : 100 ≤ s.zoomRatio)
    (hsupport : s.supportFocusMode = true) (hfar : s.lastFocusAreas.Far (area fs))
    (hwindow : s.window (area fs) isFace ≠ area fs) : ¬ s.Filters str fs isFace := by
  rintro ⟨cs, s', hfirst, -, hlater⟩
  obtain ⟨cs₁, s₁, hfirst₁, hissues, hkept, hlast⟩ := exists_parseFocusAreas hstr hsupport isFace
  obtain ⟨rfl, rfl⟩ := Prod.mk.inj (Option.some.inj (hfirst.symm.trans hfirst₁))
  have hne := hissues.mpr hfar
  have hscaled : s.window (area fs) isFace = (area fs).scale s.zoomRatio := by
    rw [window] at hwindow ⊢
    split_ifs at hwindow ⊢ with hscale
    · rfl
    · exact absurd rfl hwindow
  rw [hscaled] at hlast hwindow
  obtain ⟨b, hfits, hnear, hdiffers⟩ := Win.exists_tells (fits_area hstr) hratio hwindow
  obtain ⟨str', fs', hstr', hb⟩ := exists_bracketed hfits
  obtain ⟨cs', t', hcall, hmeasured⟩ := hlater hne s' Relation.ReflTransGen.refl str' fs' true hstr'
  obtain ⟨cs₂, t₂, hcall₂, hissues₂, -, -⟩ := exists_parseFocusAreas hstr' hkept true
  obtain ⟨rfl, rfl⟩ := Prod.mk.inj (Option.some.inj (hcall.symm.trans hcall₂))
  rw [hb] at hmeasured hissues₂
  rw [hlast hne] at hissues₂
  exact hnear (hissues₂.mp (hmeasured.mpr hdiffers))

/-- What is remembered is the area itself, or nothing has to be remembered. -/
theorem filters_iff (hstr : Bracketed str fs) (hratio : 100 ≤ s.zoomRatio) :
    s.Filters str fs isFace ↔ s.supportFocusMode = false ∨ isFace = true ∨ s.zoomRatio = 100 ∨
      area fs = ⟨0, 0, 0, 0⟩ ∨ ¬ s.lastFocusAreas.Far (area fs) := by
  cases hsupport : s.supportFocusMode with
  | false =>
    have hsilent : s.parseFocusAreas str isFace = some ([], s) := by
      rw [parseFocusAreas, hsupport]
      rfl
    exact iff_of_true ⟨[], s, hsilent, ⟨s, hsilent⟩, fun h => absurd rfl h⟩ (Or.inl rfl)
  | true =>
    by_cases hfar : s.lastFocusAreas.Far (area fs)
    · by_cases hwindow : s.window (area fs) isFace = area fs
      · have hcondition := (window_eq_self_iff hratio).mp hwindow
        exact iff_of_true (filters_of_window_eq hstr hsupport hfar hwindow) (by tauto)
      · refine iff_of_false (not_filters_of_window_ne hstr hratio hsupport hfar hwindow) fun h => ?_
        exact hwindow ((window_eq_self_iff hratio).mpr (by tauto))
    · have hsilent : s.parseFocusAreas str isFace = some ([], s) :=
        parseFocusAreas_of_not_far hstr hsupport hfar
      exact iff_of_true ⟨[], s, hsilent, ⟨s, hsilent⟩, fun h => absurd rfl h⟩ (by tauto)

/-- The fields of an area in the middle. -/
lemma bracketed_middle : Bracketed "(-100,-100,100,100,1)".toList
    ["-100".toList, "-100".toList, "100".toList, "100".toList, "1".toList] :=
  parseFields_eq_some.mp (by decide +kernel)

theorem filters_face : Focus.Filters ⟨true, 200, ⟨-1000, -1000, -1000, -1000⟩⟩
    "(-100,-100,100,100,1)".toList
    ["-100".toList, "-100".toList, "100".toList, "100".toList, "1".toList] true :=
  (filters_iff bracketed_middle (by decide)).mpr (Or.inr (Or.inl rfl))

/-- At twice the size the same area is set again and again. -/
theorem not_filters : ¬ Focus.Filters ⟨true, 200, ⟨-1000, -1000, -1000, -1000⟩⟩
    "(-100,-100,100,100,1)".toList
    ["-100".toList, "-100".toList, "100".toList, "100".toList, "1".toList] false := by
  rintro ⟨cs, s', hfirst, ⟨t, hsecond⟩, -⟩
  obtain ⟨cs₁, s₁, hfirst₁, hissues, hkept, hlast⟩ := exists_parseFocusAreas
    (s := ⟨true, 200, ⟨-1000, -1000, -1000, -1000⟩⟩) bracketed_middle rfl false
  obtain ⟨rfl, rfl⟩ := Prod.mk.inj (Option.some.inj (hfirst.symm.trans hfirst₁))
  obtain ⟨cs₂, t₂, hsecond₂, hissues₂, -, -⟩ := exists_parseFocusAreas bracketed_middle hkept false
  obtain ⟨rfl, rfl⟩ := Prod.mk.inj (Option.some.inj (hsecond.symm.trans hsecond₂))
  rw [hlast (hissues.mpr (by decide +kernel))] at hissues₂
  exact hissues₂.mpr (by decide +kernel) rfl

end Focus

end Softwinner.Camera.FocusArea
