import Softwinner.Camera.SetParameters

/-!
# What `commandThread` sees of `setParameters`

`SetParameters.lean` has all writes of `setParameters`.  `Parameters.lean` has the ones that
`commandThread` can see, and the entries of `mParameters` that they depend on; of all else it keeps
the outcome of the checks.

`setParameters_accesses` derives the second from the first.  The accesses are what the writes of the
stages are when only the entries of `Env.view` can be seen, and the call ends with the view of the
parameters, or with an error, in the same cases.  `queue_runAccesses` adds that the command queue is
what these accesses make of it.
-/

namespace Softwinner.Camera.SetParameters

/-! ## The view -/

/-- The entries that `Camera.setParameters` looks at. -/
def Env.view (e : Env) (m : Parameters) : Params where
  effect := m .effect
  whiteBalance := m .whiteBalance
  exposureCompensation := e.lib.getInt (m .exposureCompensation)
  maxExposureCompensation := e.lib.getInt (m .maxExposureCompensation)
  minExposureCompensation := e.lib.getInt (m .minExposureCompensation)
  flashMode := (m .flashMode).getD ""
  zoom := e.lib.getInt (m .zoom)
  maxZoom := e.lib.getInt (m .maxZoom)
  focusMode := (m .focusMode).getD ""
  focusAreas := (m .focusAreas).getD ""

/-- The stages that write something that can be seen. -/
def Stage.visible : Stage → Bool
  | .stopContinuous | .effect | .whiteBalance | .exposure | .flash | .zoom | .focus
  | .finish => true
  | _ => false

@[simp] lemma visible_cmdStage (cmd : Cmd) : (cmdStage cmd).visible = true := by
  cases cmd <;> rfl

/-- The accesses that a write is, with `m` behind it. -/
def Write.accesses (e : Env) (m : Parameters) : Write → List Access
  | .param k _ => if k.stage.any Stage.visible then [.setParam (e.view m)] else []
  | .stopContinuous => [.queue .stopContinuousSnap]
  | .send cmd data => [.setData cmd data, .queue cmd]
  | .queueSetElem cmd => [.queueSetElem cmd]
  | .clearFirst => [.clearFirst, .signal]
  | _ => []

/-- The accesses of writes that are made in `s`. -/
def accesses (e : Env) : List Write → State → List Access
  | [], _ => []
  | w :: ws, s => w.accesses e (s.apply w).params ++ accesses e ws (s.apply w)

/-- The accesses of stages. -/
def runAccesses (e : Env) (r : Parameters) : List Stage → State → List Access
  | [], _ => []
  | st :: sts, s =>
    match part e r s st with
    | some (.ok ws) => accesses e ws s ++ runAccesses e r sts (s.applyAll ws)
    | _ => []

/-- The stages between the stop of the continuous pictures and the image effect. -/
def Stage.early : List Stage :=
  [.pictureMode, .singlePicture, .captureIntent, .previewFormat, .pictureFormat, .pictureSize,
    .previewSize, .captureSize, .videoSize, .recordingHint, .frameRate, .jpegQuality, .rotation]

/-- The call as `Camera.setParameters` takes it. -/
structure Describes (e : Env) (r : Parameters) (s : State) (req : Request) : Prop where
  params : req.params = e.view r
  device : req.device = e.device
  stopsContinuous : req.stopsContinuous = true ↔
    s.params .pictureMode = some "continuous" ∧ r .cancelContinuousPicture = some "true"
  accepted : req.accepted = true ↔ ∀ st ∈ Stage.early, Passes e r s st
  focusArea : req.focusAreaOk = true ↔ checkFocusArea e (r .focusAreas) = some true
  focusMode : req.focusModeOk = true ↔
    checkFocusMode (s.params .supportedFocusModes) (r .focusMode) = some true

/-- A number that has been read is read again as it was written, and `set` takes the texts of the
call that it is given unchecked. -/
structure Stores (e : Env) (r : Parameters) : Prop where
  getInt : ∀ o, e.lib.getInt (some (e.lib.ofInt (e.lib.getInt o))) = e.lib.getInt o
  flashMode : ∀ v, r .flashMode = some v → e.lib.storable v = true
  focusMode : ∀ v, r .focusMode = some v → e.lib.storable v = true
  focusAreas : ∀ v, r .focusAreas = some v → e.lib.storable v = true

/-! ## Writes that cannot be seen -/

section View

variable {e : Env} {r : Parameters} {s s₀ s' : State} {st : Stage} {sts : List Stage} {w : Write}
  {ws ws' : List Write} {ret : ℤ} {p q : Part} {req : Request}

@[simp] lemma accesses_nil : accesses e [] s = [] := rfl

lemma accesses_cons : accesses e (w :: ws) s =
    w.accesses e (s.apply w).params ++ accesses e ws (s.apply w) := rfl

lemma accesses_append :
    accesses e (ws ++ ws') s = accesses e ws s ++ accesses e ws' (s.applyAll ws) := by
  induction ws generalizing s with
  | nil => rfl
  | cons w ws ih => rw [List.cons_append, accesses_cons, accesses_cons, ih, List.append_assoc,
      applyAll_cons]

lemma view_congr {m m' : Parameters} (h : ∀ k : Key, k.stage.any Stage.visible = true ∨
    k.stage = none → m' k = m k) : e.view m' = e.view m := by
  simp only [Env.view, h .effect (.inl rfl), h .whiteBalance (.inl rfl),
    h .exposureCompensation (.inl rfl), h .maxExposureCompensation (.inr rfl),
    h .minExposureCompensation (.inr rfl), h .flashMode (.inl rfl), h .zoom (.inl rfl),
    h .maxZoom (.inr rfl), h .focusMode (.inl rfl), h .focusAreas (.inl rfl)]

/-- A stage that cannot be seen leaves the view, and makes no access. -/
lemma accesses_of_not_visible (hst : st.visible = false) (hws : ∀ w ∈ ws, w.stage = some st) :
    accesses e ws s = [] ∧ e.view (s.applyAll ws).params = e.view s.params := by
  induction ws generalizing s with
  | nil => exact ⟨rfl, rfl⟩
  | cons w ws ih =>
    rw [List.forall_mem_cons] at hws
    obtain ⟨hrest, hview⟩ := ih hws.2 (s := s.apply w)
    have hhidden : ∀ st', w.stage = some st' → st'.visible = false := by
      intro st' hst'
      obtain rfl := Option.some.inj (hws.1.symm.trans hst')
      exact hst
    rw [accesses_cons, hrest, applyAll_cons, hview, List.append_nil]
    cases w with
    | param k v =>
      have hkey : k.stage.any Stage.visible = false := by
        rw [show k.stage = some st from hws.1]
        exact hst
      refine ⟨by rw [Write.accesses, hkey]; rfl, view_congr fun k' hk' => ?_⟩
      refine Function.update_of_ne ?_ _ _
      rintro rfl
      rcases hk' with hk' | hk'
      · exact absurd (hkey.symm.trans hk') (by decide)
      · exact absurd (hk'.symm.trans hws.1) nofun
    | stopContinuous | clearFirst => exact absurd (hhidden _ rfl) (by decide)
    | queueSetElem cmd | send cmd data => exact absurd (hhidden _ rfl) (by simp)
    | _ => exact ⟨rfl, rfl⟩

lemma first_applyAll (hws : ∀ w ∈ ws, w.stage ≠ some .finish) :
    (s.applyAll ws).first = s.first := by
  induction ws generalizing s with
  | nil => rfl
  | cons w ws ih =>
    rw [List.forall_mem_cons] at hws
    rw [applyAll_cons, ih hws.2]
    cases w with
    | clearFirst => exact absurd rfl hws.1
    | _ => rfl

/-! ## Parts and stages -/

/-- The states of a call from `s₀` on, as far as its parts depend on them. -/
structure During (s₀ s : State) : Prop where
  first : s.first = s₀.first
  readOnly : ReadOnly s₀ s

/-- A stage makes the accesses of `p`, and returns an error where `p` does. -/
def Shows (e : Env) (r : Parameters) (s₀ : State) (st : Stage) (p : Part) : Prop :=
  ∀ s, During s₀ s → ∀ res, part e r s st = some res →
    p (e.view s.params) = match res with
      | .error _ => ([], none)
      | .ok ws => (accesses e ws s, some (e.view (s.applyAll ws).params))

/-- Stages make the accesses of `p`, and return an error where `p` does. -/
def RunShows (e : Env) (r : Parameters) (s₀ : State) (sts : List Stage) (p : Part) : Prop :=
  ∀ s s' ret, During s₀ s → runStages e r sts s = some (ret, s') →
    p (e.view s.params) =
      (runAccesses e r sts s, if ret = 0 then some (e.view s'.params) else none)

lemma During.applyAll (h : During s₀ s) (hst : st ≠ .finish)
    (hws : ∀ w ∈ ws, w.stage = some st) : During s₀ (s.applyAll ws) where
  first := by
    refine (first_applyAll fun w hw heq => hst ?_).trans h.first
    exact Option.some.inj ((hws w hw).symm.trans heq)
  readOnly k hk := by
    refine (readOnly_applyAll (fun w hw => ?_) k hk).trans (h.readOnly k hk)
    rw [hws w hw]
    exact nofun

/-- The first stage of a run. -/
lemma runStages_cons (hrun : runStages e r (st :: sts) s = some (ret, s')) :
    (ret ≠ 0 ∧ s' = s ∧ ¬ Passes e r s st ∧ runAccesses e r (st :: sts) s = [] ∧
      part e r s st = some (.error ret)) ∨
    ∃ ws, part e r s st = some (.ok ws) ∧ (∀ w ∈ ws, w.stage = some st) ∧ Passes e r s st ∧
      runStages e r sts (s.applyAll ws) = some (ret, s') ∧
      runAccesses e r (st :: sts) s = accesses e ws s ++ runAccesses e r sts (s.applyAll ws) := by
  have hgood : Good e r s st (part e r s st) := good_part
  unfold runStages at hrun
  rw [runAccesses]
  cases hpart : part e r s st with
  | none =>
    rw [hpart] at hrun
    cases hrun
  | some res =>
    rw [hpart] at hrun hgood
    cases res with
    | error err =>
      obtain ⟨rfl, rfl⟩ := Prod.mk.inj (Option.some.inj hrun)
      exact .inl ⟨hgood.1, rfl, hgood.2, rfl, rfl⟩
    | ok ws => exact .inr ⟨ws, rfl, hgood.1, hgood.2.1, hrun, rfl⟩

lemma seq_none {cur : Params} {as : List Access} (hp : p cur = (as, none)) :
    (p.seq q) cur = (as, none) := by
  rw [Part.seq, hp]

lemma seq_some {cur cur' : Params} {as : List Access} (hp : p cur = (as, some cur')) :
    (p.seq q) cur = (as ++ (q cur').1, (q cur').2) := by
  rw [Part.seq, hp]

lemma Shows.cons (hp : Shows e r s₀ st p) (hst : st ≠ .finish) (hq : RunShows e r s₀ sts q) :
    RunShows e r s₀ (st :: sts) (p.seq q) := by
  intro s s' ret hs hrun
  rcases runStages_cons hrun with ⟨hret, rfl, -, hacc, hpart⟩ | ⟨ws, hpart, hws, -, hrest, hacc⟩
  · rw [seq_none (hp s' hs _ hpart), hacc, if_neg hret]
  · rw [seq_some (hp s hs _ hpart), hacc, hq _ _ _ (hs.applyAll hst hws) hrest]

/-- Stages that cannot be seen either return an error or change nothing that `q` looks at. -/
lemma RunShows.hidden {hid : List Stage} (hhid : ∀ st ∈ hid, st.visible = false)
    (hq : RunShows e r s₀ sts q) : ∀ {s s' : State} {ret : ℤ}, During s₀ s →
      runStages e r (hid ++ sts) s = some (ret, s') →
      ((∀ st ∈ hid, Passes e r s₀ st) ∧ q (e.view s.params) =
        (runAccesses e r (hid ++ sts) s, if ret = 0 then some (e.view s'.params) else none)) ∨
      ((¬ ∀ st ∈ hid, Passes e r s₀ st) ∧ ret ≠ 0 ∧ runAccesses e r (hid ++ sts) s = []) := by
  induction hid with
  | nil => exact fun hs hrun => .inl ⟨by simp, hq _ _ _ hs hrun⟩
  | cons st hid ih =>
    intro s s' ret hs hrun
    rw [List.forall_mem_cons] at hhid
    rw [List.cons_append] at hrun ⊢
    have hne : st ≠ .finish := by
      rintro rfl
      exact absurd hhid.1 (by decide)
    rcases runStages_cons hrun with ⟨hret, -, hfails, hacc, -⟩ | ⟨ws, -, hws, hpass, hrest, hacc⟩
    · refine .inr ⟨fun hall => hfails ?_, hret, hacc⟩
      exact (passes_congr hs.readOnly).mpr (hall st List.mem_cons_self)
    · obtain ⟨hnone, hview⟩ := accesses_of_not_visible (e := e) (s := s) hhid.1 hws
      rw [hacc, hnone, List.nil_append, ← hview, List.forall_mem_cons]
      rcases ih hhid.2 (hs.applyAll hne hws) hrest with ⟨hall, heq⟩ | ⟨hnot, hret, hacc'⟩
      · exact .inl ⟨⟨(passes_congr hs.readOnly).mp hpass, hall⟩, heq⟩
      · exact .inr ⟨fun hall => hnot hall.2, hret, hacc'⟩

/-! ## The stages that can be seen -/

section Each

variable {k : Key} {v : String} {n : ℤ}

lemma accesses_set (hv : e.lib.storable v = true) (hk : k.stage.any Stage.visible = true) :
    accesses e (set e k v) s = [.setParam (e.view (s.apply (.param k (some v))).params)] := by
  rw [set, if_pos hv, accesses_cons, Write.accesses, if_pos hk]
  rfl

lemma accesses_setInt (hk : k.stage.any Stage.visible = true) : accesses e (setInt e k n) s =
    [.setParam (e.view (s.apply (.param k (some (e.lib.ofInt n)))).params)] := by
  rw [setInt, accesses_cons, Write.accesses, if_pos hk]
  rfl

/-- A stage without writes. -/
lemma shows_done {res : Except ℤ (List Write)} :
    done [] = some res → (([] : List Access), some (e.view s.params)) = match res with
      | .error _ => ([], none)
      | .ok ws => (accesses e ws s, some (e.view (s.applyAll ws).params)) := by
  intro hres
  obtain rfl := Option.some.inj hres
  rfl

/-- The writes for a new name. -/
lemma shows_named (cmd : Cmd) {code : String → ℤ} {also : String → List Write}
    {put : Params → String → Params} (ws : List Write) (hk : k.stage.any Stage.visible = true)
    (hput : ∀ (s : State) v, e.view (s.apply (.param k (some v))).params = put (e.view s.params) v)
    (hstore : 0 ≤ code v → e.lib.storable v = true)
    (halso : accesses e (also v) s = [] ∧ (s.applyAll (also v)).params = s.params)
    (hws : ws = also v ++ if 0 ≤ code v then set e k v ++ [.send cmd (code v)] else []) :
    (if 0 ≤ code v then Part.send cmd (code v) (put (e.view s.params) v)
      else ([], some (e.view s.params))) =
      (accesses e ws s, some (e.view (s.applyAll ws).params)) := by
  obtain ⟨hnone, hparams⟩ := halso
  subst hws
  by_cases hcode : 0 ≤ code v
  · rw [if_pos hcode, if_pos hcode, accesses_append, accesses_append, hnone, List.nil_append,
      accesses_set (hstore hcode) hk, applyAll_append, applyAll_append, applyAll_set (hstore hcode),
      hput, hparams]
    simp only [applyAll_cons, applyAll_nil, params_send]
    rw [hput, hparams]
    rfl
  · rw [if_neg hcode, if_neg hcode, List.append_nil, hnone, hparams]

/-- A setting by name. -/
lemma shows_changedPart {supported : Bool} {cmd : Cmd} {code : String → ℤ}
    {also : String → List Write} {now : Params → Option String} {put : Params → String → Params}
    (hpart : ∀ s, part e r s st = changedPart e r s supported cmd code k also)
    (hk : k.stage.any Stage.visible = true) (hnow : ∀ m, now (e.view m) = m k)
    (hput : ∀ (s : State) v, e.view (s.apply (.param k (some v))).params = put (e.view s.params) v)
    (hstore : ∀ v, 0 ≤ code v → e.lib.storable v = true)
    (halso : ∀ (s : State) v, accesses e (also v) s = [] ∧
      (s.applyAll (also v)).params = s.params) :
    Shows e r s₀ st (Camera.changedPart s₀.first supported cmd code (r k) now put) := by
  intro s hs res hres
  rw [hpart, changedPart] at hres
  unfold Camera.changedPart
  rw [← hs.first]
  cases hnew : r k with
  | none =>
    rw [hnew, ite_self] at hres
    exact shows_done hres
  | some new =>
    rw [hnew] at hres
    simp only [hnow]
    by_cases hsup : supported = true
    swap
    · rw [if_neg hsup] at hres
      rw [if_neg fun h => hsup h.1]
      exact shows_done hres
    rw [if_pos hsup] at hres
    simp only at hres
    have hsent := fun ws => shows_named cmd ws hk hput (hstore new) (halso s new)
    generalize also new ++ (if 0 ≤ code new then set e k new ++ [.send cmd (code new)] else []) = ws
      at hres hsent
    replace hsent := hsent ws rfl
    cases hfirst : s.first with
    | true =>
      simp only [hfirst, if_true] at hres
      obtain rfl := Option.some.inj hres
      simpa only [hsup, true_or, true_and] using hsent
    | false =>
      simp only [hfirst, Bool.false_eq_true, if_false] at hres
      cases hold : s.params k with
      | none =>
        rw [hold] at hres
        cases hres
      | some old =>
        simp only [hold] at hres
        by_cases hne : old = new
        · rw [if_neg (not_not.mpr hne)] at hres
          rw [if_neg fun h => h.2.1.elim (by simp) fun h => h (congrArg some hne)]
          exact shows_done hres
        · rw [if_pos hne] at hres
          obtain rfl := Option.some.inj hres
          simpa only [hsup, Bool.false_eq_true, false_or, ne_eq, Option.some.injEq, hne,
            not_false_eq_true, true_and] using hsent

lemma shows_effect (hreq : Describes e r s₀ req) : Shows e r s₀ .effect
    (imageEffectPart e.codes e.config s₀.first req) := by
  rw [imageEffectPart, hreq.params]
  exact shows_changedPart (fun _ => rfl) rfl (fun _ => rfl) (fun _ _ => rfl)
    (fun _ => storable_imageEffect) fun _ _ => ⟨rfl, rfl⟩

lemma shows_whiteBalance (hreq : Describes e r s₀ req) : Shows e r s₀ .whiteBalance
    (Camera.whiteBalancePart e.codes e.config s₀.first req) := by
  rw [Camera.whiteBalancePart, hreq.params]
  exact shows_changedPart (fun _ => rfl) rfl (fun _ => rfl) (fun _ _ => rfl)
    (fun _ => storable_white) fun _ _ => ⟨rfl, rfl⟩

lemma shows_exposure (hreq : Describes e r s₀ req) (hlib : Stores e r) : Shows e r s₀ .exposure
    (exposureCompensationPart e.config s₀.first req) := by
  intro s hs res hres
  have hview : e.view (s.apply (.param .exposureCompensation
      (some (e.lib.ofInt (exposure e r))))).params =
      { e.view s.params with exposureCompensation := exposure e r } := by
    simp [Env.view, State.apply, exposure, hlib.getInt]
  change exposurePart e r s = some res at hres
  unfold exposurePart changedInt at hres
  unfold exposureCompensationPart
  rw [hreq.params, ← hs.first]
  change (if e.config.exposureCompensation = false then ([], some (e.view s.params))
    else if e.lib.getInt (r .minExposureCompensation) ≤ exposure e r ∧
      exposure e r ≤ e.lib.getInt (r .maxExposureCompensation) then
      if s.first = true ∨ e.lib.getInt (s.params .exposureCompensation) ≠ exposure e r then
        Part.send .setExposureCompensation (exposure e r)
          { e.view s.params with exposureCompensation := exposure e r }
      else ([], some (e.view s.params))
    else ([], none)) = _
  by_cases hsup : e.config.exposureCompensation = true
  swap
  · rw [if_neg hsup] at hres
    obtain rfl := Option.some.inj hres
    rw [if_pos (by simpa using hsup)]
    rfl
  rw [if_pos hsup] at hres
  rw [if_neg (by simp [hsup])]
  by_cases hrange : e.lib.getInt (r .minExposureCompensation) ≤ exposure e r ∧
      exposure e r ≤ e.lib.getInt (r .maxExposureCompensation)
  swap
  · rw [if_neg hrange] at hres
    obtain rfl := Option.some.inj hres
    rw [if_neg hrange]
  rw [if_pos hrange] at hres ⊢
  split_ifs at hres ⊢ with hnew
  · obtain rfl := Option.some.inj hres
    simp only
    rw [accesses_append, accesses_setInt rfl, applyAll_append, applyAll_setInt, hview]
    simp only [applyAll_cons, applyAll_nil, params_send]
    rw [hview]
    rfl
  · obtain rfl := Option.some.inj hres
    rfl

lemma shows_flash (hreq : Describes e r s₀ req) (hlib : Stores e r) : Shows e r s₀ .flash
    (flashModePart e.codes e.config req) := by
  intro s hs res hres
  change flashPart e r = some res at hres
  unfold flashPart at hres
  unfold flashModePart
  rw [hreq.params]
  by_cases hsup : e.config.flashMode = true
  swap
  · rw [if_neg hsup] at hres
    obtain rfl := Option.some.inj hres
    rw [if_pos (by simpa using hsup)]
    rfl
  rw [if_pos hsup] at hres
  rw [if_neg (by simp [hsup])]
  cases hnew : r .flashMode with
  | none =>
    rw [hnew] at hres
    cases hres
  | some new =>
    rw [hnew] at hres
    obtain rfl := Option.some.inj hres
    have hstore := hlib.flashMode new hnew
    have hview : ∀ s : State, e.view (s.apply (.param .flashMode (some new))).params =
        { e.view s.params with flashMode := new } := fun _ => rfl
    simp only [Env.view, hnew, Option.getD_some]
    by_cases hcode : 0 ≤ e.codes.flash new
    · rw [if_pos hcode, if_pos hcode, accesses_append, accesses_set hstore rfl, accesses_append,
        accesses_set hstore rfl, applyAll_append, applyAll_append, applyAll_set hstore,
        applyAll_set hstore]
      rfl
    · rw [if_neg hcode, if_neg hcode, List.append_nil, accesses_set hstore rfl,
        applyAll_set hstore]
      rfl

lemma shows_zoom (hreq : Describes e r s₀ req) (hlib : Stores e r) : Shows e r s₀ .zoom
    (Camera.zoomPart req) := by
  intro s hs res hres
  have hview : e.view (s.apply (.param .zoom (some (e.lib.ofInt (zoom e r))))).params =
      { e.view s.params with zoom := zoom e r } := by
    simp [Env.view, State.apply, zoom, hlib.getInt]
  change zoomPart e r s = some res at hres
  unfold zoomPart at hres
  unfold Camera.zoomPart
  rw [hreq.params]
  change (if 0 ≤ zoom e r ∧ zoom e r ≤ maxZoom e s then
    ([Access.setParam { e.view s.params with zoom := zoom e r }],
      some { e.view s.params with zoom := zoom e r }) else ([], none)) = _
  split_ifs at hres ⊢ with hok hmax
  · obtain rfl := Option.some.inj hres
    simp only
    rw [accesses_append, accesses_setInt rfl, applyAll_append, applyAll_setInt, hview]
    simp only [applyAll_cons, applyAll_nil, params_zoomRatio]
    rw [hview]
    rfl
  · obtain rfl := Option.some.inj hres
    rfl

/-- What a part that queues the focus mode does to the view. -/
lemma shows_focusModeWrites {mode : String} (hstore : e.lib.storable mode = true)
    (h : focusModeWrites e s mode = some ws) :
    (if s.first = true ∨ (e.view s.params).focusMode ≠ mode then
        ([Access.setParam { e.view s.params with focusMode := mode }, .queueSetElem .setFocusMode],
          { e.view s.params with focusMode := mode })
      else ([], e.view s.params)) = (accesses e ws s, e.view (s.applyAll ws).params) := by
  have hsent : ([Access.setParam { e.view s.params with focusMode := mode },
      .queueSetElem .setFocusMode], { e.view s.params with focusMode := mode }) =
      (accesses e (set e .focusMode mode ++ [.queueSetElem .setFocusMode]) s,
        e.view (s.applyAll (set e .focusMode mode ++ [.queueSetElem .setFocusMode])).params) := by
    rw [accesses_append, accesses_set hstore rfl, applyAll_append, applyAll_set hstore]
    rfl
  unfold focusModeWrites at h
  cases hfirst : s.first with
  | true =>
    rw [hfirst, if_pos rfl] at h
    obtain rfl := Option.some.inj h
    rw [if_pos (.inl rfl), hsent]
  | false =>
    rw [hfirst, if_neg (by decide)] at h
    cases hnow : s.params .focusMode with
    | none =>
      rw [hnow] at h
      cases h
    | some now =>
      rw [hnow] at h
      obtain rfl := Option.some.inj h
      have hview : (e.view s.params).focusMode = now := by simp [Env.view, hnow]
      rw [hview]
      by_cases hne : now ≠ mode
      · rw [if_pos (.inr hne), if_pos hne, hsent]
      · rw [if_neg (by simpa using hne), if_neg hne]
        rfl

/-- The focus areas behind the mode. -/
lemma shows_focusWrites {mode areas : String} (hmode : e.lib.storable mode = true)
    (hareas : e.lib.storable areas = true) (h : focusWrites e s mode areas = some ws) :
    (match if s.first = true ∨ (e.view s.params).focusMode ≠ mode then
        ([Access.setParam { e.view s.params with focusMode := mode }, .queueSetElem .setFocusMode],
          { e.view s.params with focusMode := mode })
      else ([], e.view s.params) with
    | (as, cur) =>
      if cur.focusAreas ≠ areas then
        (as ++ [.setParam { cur with focusAreas := areas }], some { cur with focusAreas := areas })
      else (as, some cur)) = (accesses e ws s, some (e.view (s.applyAll ws).params)) := by
  unfold focusWrites at h
  obtain ⟨ws', hws', h⟩ := Option.bind_eq_some_iff.mp h
  obtain ⟨now, hnow, h⟩ := Option.bind_eq_some_iff.mp h
  rw [shows_focusModeWrites hmode hws']
  have hsame : (e.view (s.applyAll ws').params).focusAreas = now := by
    simp [Env.view, (focusModeWrites_spec hws').2.2, hnow]
  simp only [hsame]
  split_ifs at h ⊢ with hne
  · obtain ⟨-, -, h⟩ := Option.bind_eq_some_iff.mp h
    obtain rfl := Option.some.inj h
    rw [accesses_append, accesses_set hareas rfl, applyAll_append, applyAll_set hareas]
    rfl
  · obtain rfl := Option.some.inj h
    rfl

lemma shows_focus (hreq : Describes e r s₀ req) (hlib : Stores e r) : Shows e r s₀ .focus
    (Camera.focusPart e.config s₀.first req) := by
  intro s hs res hres
  change focusPart e r s = some res at hres
  unfold focusPart at hres
  unfold Camera.focusPart
  have harea := hreq.focusArea
  have hmode := hreq.focusMode
  rw [← hs.readOnly .supportedFocusModes rfl] at hmode
  rw [← hs.first, hreq.params]
  by_cases hsup : e.config.focusMode = true
  · rw [if_pos hsup] at hres ⊢
    have hok : ¬ (req.focusAreaOk = false ∨ req.focusModeOk = false) ↔
        checkFocusArea e (r .focusAreas) = some true ∧
          checkFocusMode (s.params .supportedFocusModes) (r .focusMode) = some true := by
      rw [← harea, ← hmode, not_or, Bool.not_eq_false, Bool.not_eq_false]
    split at hres
    next => cases hres
    next hbad =>
      obtain rfl := Option.some.inj hres
      rw [if_pos]
      by_contra hgood
      exact absurd (hbad.symm.trans (hok.mp hgood).1) (by decide)
    next hgood =>
      split at hres
      next => cases hres
      next hbad =>
        obtain rfl := Option.some.inj hres
        rw [if_pos]
        by_contra hgood
        exact absurd (hbad.symm.trans (hok.mp hgood).2) (by decide)
      next hgood' =>
        obtain ⟨ws, hws, rfl⟩ := Option.map_eq_some_iff.mp hres
        obtain ⟨mode, hnew, hws⟩ := Option.bind_eq_some_iff.mp hws
        obtain ⟨areas, hnew', hws⟩ := Option.bind_eq_some_iff.mp hws
        rw [if_neg (hok.mpr ⟨hgood, hgood'⟩)]
        have hmode' : (e.view r).focusMode = mode := by simp [Env.view, hnew]
        have hareas' : (e.view r).focusAreas = areas := by simp [Env.view, hnew']
        rw [hmode', hareas']
        exact shows_focusWrites (hlib.focusMode _ hnew) (hlib.focusAreas _ hnew') hws
  · rw [if_neg hsup] at hres ⊢
    cases hnew : r .focusMode with
    | none =>
      rw [hnew] at hres
      cases hres
    | some mode =>
      rw [hnew] at hres
      simp only [Env.view, hnew, Option.getD_some] at hres ⊢
      split_ifs at hres ⊢ with hfixed
      · subst hfixed
        obtain rfl := Option.some.inj hres
        have hstore := hlib.focusMode _ hnew
        simp only [accesses_set (k := .focusMode) hstore rfl, applyAll_set hstore]
        rfl
      · obtain rfl := Option.some.inj hres
        rfl

lemma shows_finish : Shows e r s₀ .finish finishPart := by
  intro s _ res hres
  obtain rfl := Option.some.inj hres
  rfl

end Each

/-! ## A call -/

/-- The stages behind the ones that are not spelled out. -/
lemma runShows_settings (hreq : Describes e r s₀ req) (hlib : Stores e r) :
    RunShows e r s₀ [.effect, .whiteBalance, .exposure, .flash, .zoom, .focus, .gps, .thumbnail,
      .finish] ((imageEffectPart e.codes e.config s₀.first req).seq <|
        (Camera.whiteBalancePart e.codes e.config s₀.first req).seq <|
        (exposureCompensationPart e.config s₀.first req).seq <|
        (flashModePart e.codes e.config req).seq <| (Camera.zoomPart req).seq <|
        (Camera.focusPart e.config s₀.first req).seq finishPart) := by
  have hfinish : RunShows e r s₀ [.finish] finishPart := by
    intro s s' ret hs hrun
    rcases runStages_cons hrun with ⟨-, -, -, -, hpart⟩ | ⟨ws, hpart, -, -, hrest, hacc⟩
    · cases hpart
    · obtain ⟨rfl, rfl⟩ := Prod.mk.inj (Option.some.inj hrest)
      rw [shows_finish s hs _ hpart, hacc, runAccesses, List.append_nil]
      rfl
  have hlast : RunShows e r s₀ [.gps, .thumbnail, .finish] finishPart := by
    intro s s' ret hs hrun
    have hrun' : runStages e r ([.gps, .thumbnail] ++ [.finish]) s = some (ret, s') := hrun
    rcases hfinish.hidden (by decide) hs hrun' with ⟨-, heq⟩ | ⟨hnot, -⟩
    · exact heq
    · simp [Passes] at hnot
  exact (shows_effect hreq).cons (by decide) <| (shows_whiteBalance hreq).cons (by decide) <|
    (shows_exposure hreq hlib).cons (by decide) <| (shows_flash hreq hlib).cons (by decide) <|
    (shows_zoom hreq hlib).cons (by decide) <| (shows_focus hreq hlib).cons (by decide) hlast

/-- **The accesses of a call.**  `Camera.setParameters` makes the accesses that the writes of the
call show, and returns the view of the parameters where the call returns `NO_ERROR`. -/
theorem setParameters_accesses (hreq : Describes e r s req) (hlib : Stores e r)
    (hrun : setParameters e r s = some (ret, s')) :
    Camera.setParameters e.codes e.config s.first req (e.view s.params) =
      (runAccesses e r Stage.all s, if ret = 0 then some (e.view s'.params) else none) := by
  unfold Camera.setParameters
  rcases runStages_cons hrun with ⟨hret, -, hfails, hacc, -⟩ | ⟨ws, hpart, -, hpass, hrest, hacc⟩
  · -- there is no device
    have hdev : devicePart req (e.view s.params) = ([], none) := by
      rw [devicePart, hreq.device, if_neg (show ¬ e.device = true from hfails)]
    rw [seq_none hdev, Stage.all, hacc, if_neg hret]
  have hdevice : e.device = true := hpass
  have hdev : devicePart req (e.view s.params) = ([], some (e.view s.params)) := by
    rw [devicePart, hreq.device, if_pos hdevice]
  have hws : ws = [] := by
    rw [part, if_pos hdevice] at hpart
    exact (Except.ok.inj (Option.some.inj hpart)).symm
  subst hws
  rcases runStages_cons hrest with ⟨-, -, hfails, -⟩ | ⟨ws, hpart, hws, -, hrest, hacc'⟩
  · exact absurd trivial hfails
  have hstop : Camera.stopContinuousPart req (e.view s.params) =
      (accesses e ws s, some (e.view (s.applyAll ws).params)) := by
    rw [part, stopContinuousPart] at hpart
    rw [Camera.stopContinuousPart]
    split_ifs at hpart with hcond
    · obtain rfl := Except.ok.inj (Option.some.inj hpart)
      rw [if_pos (hreq.stopsContinuous.mpr hcond)]
      rfl
    · obtain rfl := Except.ok.inj (Option.some.inj hpart)
      rw [if_neg fun h => hcond (hreq.stopsContinuous.mp h)]
      rfl
  have hs : During s (s.applyAll ws) := During.applyAll ⟨rfl, fun _ _ => rfl⟩ (by decide) hws
  have hearly :=
    (runShows_settings hreq hlib).hidden (show ∀ st ∈ Stage.early, _ by decide) hs hrest
  rw [seq_some hdev, seq_some hstop, Stage.all, hacc, accesses_nil, hacc']
  rcases hearly with ⟨hall, heq⟩ | ⟨hnot, hret, hnone⟩
  · have hacc : acceptedPart req (e.view (s.applyAll ws).params) =
        ([], some (e.view (s.applyAll ws).params)) := by
      rw [acceptedPart, if_pos (hreq.accepted.mpr hall)]
    rw [seq_some hacc, heq]
    rfl
  · have hacc : acceptedPart req (e.view (s.applyAll ws).params) = ([], none) := by
      rw [acceptedPart, if_neg fun h => hnot (hreq.accepted.mp h)]
    rw [seq_none hacc, if_neg hret]
    exact congrArg (fun as => ([] ++ (accesses e ws s ++ as), none)) hnone.symm

/-- There is always a description. -/
lemma exists_describes (e : Env) (r : Parameters) (s : State) : ∃ req, Describes e r s req := by
  classical
  exact ⟨⟨e.view r, e.device, decide _, decide _, decide _, decide _⟩, rfl, rfl, decide_eq_true_iff,
    decide_eq_true_iff, decide_eq_true_iff, decide_eq_true_iff⟩

/-! ### The queue -/

/-- What an access does to the command queue. -/
def enqueue (q : List Command) : Access → List Command
  | .queue cmd => (push commandQueueSize q (.set cmd)).getD q
  | .queueSetElem cmd => (pushNew commandQueueSize q (.set cmd)).getD q
  | _ => q

lemma queue_accesses : (s.applyAll ws).queue = (accesses e ws s).foldl enqueue s.queue := by
  induction ws generalizing s with
  | nil => rfl
  | cons w ws ih =>
    rw [applyAll_cons, ih, accesses_cons, List.foldl_append]
    congr 1
    cases w with
    | param k v =>
      rw [Write.accesses]
      split_ifs
      · rfl
      · rfl
    | _ => rfl

/-- The queue behind a call is what its accesses make of it, also behind one that returns an
error. -/
lemma queue_runAccesses (hrun : runStages e r sts s = some (ret, s')) :
    s'.queue = (runAccesses e r sts s).foldl enqueue s.queue := by
  induction sts generalizing s with
  | nil =>
    obtain ⟨-, rfl⟩ := Prod.mk.inj (Option.some.inj hrun)
    rfl
  | cons st sts ih =>
    rcases runStages_cons hrun with ⟨-, rfl, -, hacc, -⟩ | ⟨ws, -, -, -, hrest, hacc⟩
    · rw [hacc]
      rfl
    · rw [hacc, List.foldl_append, ← queue_accesses]
      exact ih hrest

end View

end Softwinner.Camera.SetParameters
