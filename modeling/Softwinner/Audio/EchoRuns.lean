import Softwinner.Audio.EchoReference

/-!
# The echo reference in all runs

As long as all steps meet the condition `Ok`, no stream and no echo reference is used behind its
release, and the streams have the reference of the device or none; a step that fails it leaves a
pointer that dangles (`good_iff`).
-/

namespace Softwinner.Audio.EchoReference

open Framework
open InputStream (ParamsInput)

section Release

variable {s t : State} {i o r : ℕ}

/-! ## What is used -/

lemma useOut_eq (h : s.outStreams.Live o) : s.useOut o = s := by
  unfold State.useOut
  rw [Ledger.use_of_live h]

lemma useIn_eq (h : s.inStreams.Live i) : s.useIn i = s := by
  unfold State.useIn
  rw [Ledger.use_of_live h]

lemma Good.use_reference (h : Good s) (hr : s.echoReference = some r) :
    s.references.use r = s.references := Ledger.use_of_live (h.references.live hr)

lemma Good.useIf_reference (h : Good s) (ho : s.outStreams.Live o) :
    s.references.useIf (s.outs o).echoReference = s.references := by
  cases hecho : (s.outs o).echoReference with
  | none => rfl
  | some r => exact h.use_reference (h.outs o ho r hecho)

lemma Good.lookAtInput_eq (h : Good s) : s.lookAtInput = s := by
  unfold State.lookAtInput
  split
  next i hi => exact useIn_eq (h.activeInput i hi)
  next => rfl

/-! ## The release -/

/-- The active output has no reference. -/
def dropped (s : State) : ℕ → Out :=
  match s.activeOutput with
  | some o => Function.update s.outs o { s.outs o with echoReference := none }
  | none => s.outs

lemma dropped_some (h : s.activeOutput = some o) :
    dropped s = Function.update s.outs o { s.outs o with echoReference := none } := by
  unfold dropped
  rw [h]

lemma dropped_none (h : s.activeOutput = none) : dropped s = s.outs := by
  unfold dropped
  rw [h]

lemma dropped_of_ne (h : s.activeOutput ≠ some o) : dropped s o = s.outs o := by
  cases hactive : s.activeOutput with
  | none => rw [dropped_none hactive]
  | some o' =>
    rw [dropped_some hactive]
    refine Function.update_of_ne (fun heq => h ?_) ..
    rw [hactive, heq]

lemma dropped_self (h : s.activeOutput = some o) : (dropped s o).echoReference = none := by
  rw [dropped_some h, Function.update_self]

lemma dropped_standby : (dropped s o).standby = (s.outs o).standby := by
  by_cases hactive : s.activeOutput = some o
  · rw [dropped_some hactive, Function.update_self]
  · rw [dropped_of_ne hactive]

/-- An output without a reference is left as it is. -/
lemma update_none (h : (s.outs o).echoReference = none) :
    Function.update s.outs o { s.outs o with echoReference := none } = s.outs := by
  rw [← h]
  exact Function.update_eq_self o s.outs

lemma Good.removeEchoReference_eq (h : Good s) (hr : s.echoReference = some r)
    (ho : s.activeOutput = some o) :
    s.removeEchoReference o r = { s with outs := dropped s } := by
  unfold State.removeEchoReference
  rw [useOut_eq (h.activeOutput o ho), dropped_some ho]
  simp only
  split_ifs with hecho
  · simp only [State.setOut, h.use_reference hr]
  · rw [update_none]
    cases hecho' : (s.outs o).echoReference with
    | none => rfl
    | some r' =>
      have hr' := h.outs o (h.activeOutput o ho) r' hecho'
      exact absurd (hecho'.trans (hr'.symm.trans hr)) hecho

/-- The active output has no more than the device has. -/
lemma Good.dropped_eq (h : Good s) (hnone : s.echoReference = none) : dropped s = s.outs := by
  cases hactive : s.activeOutput with
  | none => exact dropped_none hactive
  | some o =>
    rw [dropped_some hactive]
    refine update_none ?_
    cases hecho : (s.outs o).echoReference with
    | none => rfl
    | some r => exact (h.outs o (h.activeOutput o hactive) r hecho).symm.trans hnone

lemma Good.putEchoReference_eq (h : Good s) : s.putEchoReference s.echoReference =
    { s with
      references := s.references.releaseIf s.echoReference, echoReference := none
      outs := dropped s } := by
  unfold State.putEchoReference
  split
  next hnone =>
    rw [h.dropped_eq hnone, hnone]
    show s = { s with references := s.references, echoReference := none, outs := s.outs }
    rw [← hnone]
  next r hr =>
    rw [if_pos hr]
    simp only
    split
    next o ho =>
      rw [h.removeEchoReference_eq hr ho, hr]
      rfl
    next hnone =>
      rw [dropped_none hnone, hr]
      rfl

/-- A state in which the device has another reference, or none; the streams have kept what they
had, but for the input and the active output. -/
structure Renews (s t : State) (i : ℕ) : Prop where
  references : t.references.Balanced fun r => t.echoReference = some r
  outStreams : t.outStreams = s.outStreams
  inStreams : t.inStreams = s.inStreams
  ins : ∀ j, j ≠ i → (t.ins j).echoReference = (s.ins j).echoReference
  self : ∀ r, (t.ins i).echoReference = some r → t.echoReference = some r
  outs : ∀ o, s.activeOutput ≠ some o → (t.outs o).echoReference = (s.outs o).echoReference
  active : ∀ o, s.activeOutput = some o → ∀ r, (t.outs o).echoReference = some r →
    t.echoReference = some r
  renewed : ∀ r, s.echoReference = some r → t.echoReference ≠ some r
  activeOutput : ∀ o, t.activeOutput = some o → s.outStreams.Live o
  activeInput : ∀ j, t.activeInput = some j → s.inStreams.Live j

/-- Then nothing dangles exactly if nobody else had a reference. -/
lemma Renews.good_iff (hr : Renews s t i) (h : Good s) : Good t ↔ Alone s i := by
  constructor
  · intro ht
    constructor
    · intro j hj hne
      cases hecho : (s.ins j).echoReference with
      | none => rfl
      | some r =>
        have hlive : t.inStreams.Live j := hr.inStreams ▸ hj
        have hkept := ht.ins j hlive r ((hr.ins j hne).trans hecho)
        exact absurd hkept (hr.renewed r (h.ins j hj r hecho))
    · intro o ho hne
      cases hecho : (s.outs o).echoReference with
      | none => rfl
      | some r =>
        have hlive : t.outStreams.Live o := hr.outStreams ▸ ho
        have hkept := ht.outs o hlive r ((hr.outs o hne).trans hecho)
        exact absurd hkept (hr.renewed r (h.outs o ho r hecho))
  · intro halone
    refine ⟨hr.references, ?_, ?_, fun o ho r hecho => ?_, fun j hj r hecho => ?_, ?_, ?_⟩
    · rw [hr.outStreams]
      exact h.outStreams
    · rw [hr.inStreams]
      exact h.inStreams
    · by_cases hactive : s.activeOutput = some o
      · exact hr.active o hactive r hecho
      · rw [hr.outs o hactive, halone.outs o (hr.outStreams ▸ ho) hactive] at hecho
        cases hecho
    · by_cases hji : j = i
      · exact hr.self r (hji ▸ hecho)
      · rw [hr.ins j hji, halone.ins j (hr.inStreams ▸ hj) hji] at hecho
        cases hecho
    · rw [hr.outStreams]
      exact hr.activeOutput
    · rw [hr.inStreams]
      exact hr.activeInput

/-! ## Standby -/

/-- Behind the release of what the device had. -/
lemma Good.released (h : Good s) : (s.references.releaseIf s.echoReference).Balanced
    fun r => (none : Option ℕ) = some r := by
  refine h.references.releaseIf (fun _ hr => hr) fun r => ?_
  exact ⟨fun hno => (by cases hno), fun hr => absurd hr.2 hr.1⟩

lemma Good.of_activeInput (h : Good s) : Good { s with activeInput := none } :=
  ⟨h.references, h.outStreams, h.inStreams, h.outs, h.ins, h.activeOutput,
    fun _ hno => by cases hno⟩

/-- The standby of an input that is not in standby, with a reference. -/
lemma Good.doInputStandby_some (h : Good s) (hi : s.inStreams.Live i)
    (hstandby : (s.ins i).standby = false) (hecho : (s.ins i).echoReference = some r) :
    s.doInputStandby i =
      { s with
        references := s.references.release r, echoReference := none, outs := dropped s
        ins := Function.update s.ins i { s.ins i with echoReference := none, standby := true }
        activeInput := none } := by
  have hr : s.echoReference = some r := h.ins i hi r hecho
  have hput := h.of_activeInput.putEchoReference_eq
  unfold State.doInputStandby
  rw [if_neg (by rw [hstandby]; decide)]
  simp only [hecho]
  rw [h.use_reference hr, show some r = s.echoReference from hr.symm]
  simp only [hput, State.setIn]
  rw [hr]
  rfl

lemma doInputStandby_none (hstandby : (s.ins i).standby = false)
    (hecho : (s.ins i).echoReference = none) : s.doInputStandby i =
      { s with
        ins := Function.update s.ins i { s.ins i with echoReference := none, standby := true }
        activeInput := none } := by
  unfold State.doInputStandby
  rw [if_neg (by rw [hstandby]; decide)]
  simp only [hecho]
  rfl

lemma doInputStandby_of_standby (h : (s.ins i).standby = true) : s.doInputStandby i = s := if_pos h

/-- An input that has or gets nothing. -/
lemma Good.setIn (h : Good s) {x : In} {a : Option ℕ}
    (hx : ∀ r, x.echoReference = some r → s.echoReference = some r)
    (ha : ∀ j, a = some j → s.inStreams.Live j) :
    Good { s with ins := Function.update s.ins i x, activeInput := a } := by
  refine ⟨h.references, h.outStreams, h.inStreams, h.outs, fun j hj r hecho => ?_,
    h.activeOutput, ha⟩
  by_cases hji : j = i
  · refine hx r ?_
    rw [← hecho, hji]
    exact congrArg In.echoReference (Function.update_self i x s.ins).symm
  · refine h.ins j hj r ?_
    rw [← hecho]
    exact congrArg In.echoReference (Function.update_of_ne hji x s.ins).symm

lemma doInputStandby_iff (h : Good s) (hi : s.inStreams.Live i) :
    Good (s.doInputStandby i) ↔ StandbyOk s i := by
  cases hstandby : (s.ins i).standby with
  | true =>
    rw [doInputStandby_of_standby hstandby]
    exact iff_of_true h fun hno => absurd (hstandby.symm.trans hno) (by decide)
  | false =>
    cases hecho : (s.ins i).echoReference with
    | none =>
      rw [doInputStandby_none hstandby hecho]
      refine iff_of_true (h.setIn (fun r hno => (by cases hno)) fun _ hno => by cases hno) ?_
      exact fun _ hno => absurd hecho hno
    | some r =>
      have hr : s.echoReference = some r := h.ins i hi r hecho
      have hstandbyOk : StandbyOk s i ↔ Alone s i := by
        refine ⟨fun hok => hok hstandby ?_, fun halone _ _ => halone⟩
        rw [hecho]
        exact Option.some_ne_none r
      rw [h.doInputStandby_some hi hstandby hecho, hstandbyOk]
      refine Renews.good_iff ⟨?_, rfl, rfl, fun j hne => ?_, fun r' hno => ?_, fun o ho => ?_,
        fun o ho r' hno => ?_, fun _ _ hno => (by cases hno), h.activeOutput,
        fun _ hno => by cases hno⟩ h
      · have hreleased := h.released
        rw [hr] at hreleased
        exact hreleased
      · exact congrArg In.echoReference (Function.update_of_ne hne _ s.ins)
      · simp only [Function.update_self, reduceCtorEq] at hno
      · exact congrArg Out.echoReference (dropped_of_ne ho)
      · exact hno.symm.trans (dropped_self ho) |>.symm

/-! ## A new reference -/

lemma Good.getEchoReference_cases (h : Good s) (creates : Bool) :
    s.getEchoReference creates =
      { s with
        references := s.references.releaseIf s.echoReference, echoReference := none
        outs := dropped s } ∨
    ∃ o, s.activeOutput = some o ∧ s.getEchoReference creates =
      { s with
        references := (s.references.releaseIf s.echoReference).alloc
        echoReference := some s.references.next
        outs := Function.update (dropped s) o
          { dropped s o with echoReference := some s.references.next } } := by
  have hput := h.putEchoReference_eq
  unfold State.getEchoReference
  generalize s.putEchoReference s.echoReference = u at hput ⊢
  have hactive : u.activeOutput = s.activeOutput := by rw [hput]
  have hstreams : u.outStreams = s.outStreams := by rw [hput]
  dsimp only
  cases hu : u.activeOutput with
  | none => exact .inl hput
  | some o =>
    have ho : s.activeOutput = some o := hactive.symm.trans hu
    simp only [useOut_eq (hstreams.symm ▸ h.activeOutput o ho)]
    split_ifs
    · refine .inr ⟨o, ho, ?_⟩
      simp only [hput, State.setOut, Ledger.releaseIf_next]
    · exact .inl hput

lemma ins_setIn {x : In} : (s.setIn i x).ins i = x := Function.update_self ..

lemma ins_setIn_of_ne {x : In} {j : ℕ} (hne : j ≠ i) : (s.setIn i x).ins j = s.ins j :=
  Function.update_of_ne hne ..

/-- The input has what the device has. -/
lemma needReference_iff (h : Good s) (creates : Bool) : Good (s.needReference i creates) ↔
    ((s.ins i).needEchoReference = true → (s.ins i).echoReference = none → Alone s i) := by
  unfold State.needReference
  split_ifs with hneeds
  · refine Iff.trans (Renews.good_iff (i := i) ?_ h)
      ⟨fun halone _ _ => halone, fun hall => hall hneeds.1 hneeds.2⟩
    have hfresh : ∀ r, s.echoReference = some r → s.references.next ≠ r :=
      fun r hr heq => absurd (h.references.owned_lt r hr) (Nat.not_lt.mpr (Nat.le_of_eq heq))
    rcases h.getEchoReference_cases creates with hget | ⟨o, ho, hget⟩
    · rw [hget]
      refine ⟨h.released, rfl, rfl, fun j hne => ?_, fun r hecho => ?_, fun o ho => ?_,
        fun o ho r hno => ?_, fun _ _ hno => (by cases hno), h.activeOutput, h.activeInput⟩
      · exact congrArg In.echoReference (Function.update_of_ne hne _ s.ins)
      · simp only [ins_setIn] at hecho
        exact hecho
      · exact congrArg Out.echoReference (dropped_of_ne ho)
      · exact hno.symm.trans (dropped_self ho) |>.symm
    · rw [hget]
      refine ⟨h.released.alloc fun r => ?_, rfl, rfl, fun j hne => ?_, fun r hecho => ?_,
        fun o' ho' => ?_, fun o' ho' r hecho => ?_, fun r hr heq => ?_, h.activeOutput,
        h.activeInput⟩
      · rw [Ledger.releaseIf_next]
        refine ⟨fun heq => .inl (Option.some.inj heq).symm, fun hr => ?_⟩
        rcases hr with rfl | hno
        · rfl
        · cases hno
      · exact congrArg In.echoReference (Function.update_of_ne hne _ s.ins)
      · simp only [ins_setIn] at hecho
        exact hecho
      · have hne : o' ≠ o := fun heq => ho' (heq ▸ ho)
        refine (congrArg Out.echoReference (Function.update_of_ne hne _ (dropped s))).trans ?_
        exact congrArg Out.echoReference (dropped_of_ne ho')
      · obtain rfl := Option.some.inj (ho.symm.trans ho')
        exact (congrArg Out.echoReference (Function.update_self o _ (dropped s))).symm.trans hecho
      · exact hfresh r hr (Option.some.inj heq)
  · exact iff_of_true h fun hneed hnone => absurd ⟨hneed, hnone⟩ hneeds

lemma needReference_kept (h : Good s) (creates : Bool) :
    (s.needReference i creates).inStreams = s.inStreams ∧
      (s.needReference i creates).activeInput = s.activeInput := by
  unfold State.needReference
  split_ifs
  · rcases h.getEchoReference_cases creates with hget | ⟨o, ho, hget⟩
    · rw [hget]
      exact ⟨rfl, rfl⟩
    · rw [hget]
      exact ⟨rfl, rfl⟩
  · exact ⟨rfl, rfl⟩

end Release

/-! ## Input streams -/

section Inputs

variable {s t : State} {i : ℕ}

/-- An input that keeps what it has. -/
lemma good_setIn_iff {x : In} (hx : x.echoReference = (s.ins i).echoReference) :
    Good (s.setIn i x) ↔ Good s := by
  have hsame : ∀ j, (Function.update s.ins i x j).echoReference = (s.ins j).echoReference := by
    intro j
    by_cases hj : j = i
    · rw [hj, Function.update_self, hx]
    · rw [Function.update_of_ne hj]
  constructor
  · intro h
    refine ⟨h.references, h.outStreams, h.inStreams, h.outs, fun j hj r hecho => ?_,
      h.activeOutput, h.activeInput⟩
    exact h.ins j hj r ((hsame j).trans hecho)
  · intro h
    refine ⟨h.references, h.outStreams, h.inStreams, h.outs, fun j hj r hecho => ?_,
      h.activeOutput, h.activeInput⟩
    exact h.ins j hj r ((hsame j).symm.trans hecho)

lemma Good.startInput (h : Good s) (hi : s.inStreams.Live i) :
    Good { s with activeInput := some i } :=
  ⟨h.references, h.outStreams, h.inStreams, h.outs, h.ins, h.activeOutput,
    fun _ hj => Option.some.inj hj ▸ hi⟩

lemma startInputStream_iff (h : Good s) (hi : s.inStreams.Live i) {x : ReadInput} :
    Good (s.startInputStream i x).1 ↔ (s.mode ≠ .inCall → (s.ins i).needEchoReference = true →
      (s.ins i).echoReference = none → Alone s i) := by
  have hstart := h.startInput hi
  have hneed := needReference_iff (i := i) hstart x.creates
  have halone : Alone { s with activeInput := some i } i ↔ Alone s i :=
    ⟨fun ha => ⟨ha.ins, ha.outs⟩, fun ha => ⟨ha.ins, ha.outs⟩⟩
  rw [halone] at hneed
  unfold State.startInputStream
  simp only
  split_ifs with hmode hopens
  · exact iff_of_true hstart fun hno => absurd hmode hno
  · exact hneed.trans ⟨fun hall _ => hall, fun hall => hall hmode⟩
  · obtain ⟨hstreams, hactive⟩ := needReference_kept (i := i) hstart x.creates
    refine Iff.trans ⟨fun ht => ?_, fun ht => ht.of_activeInput⟩
      (hneed.trans ⟨fun hall _ => hall, fun hall => hall hmode⟩)
    refine ⟨ht.references, ht.outStreams, ht.inStreams, ht.outs, ht.ins, ht.activeOutput, ?_⟩
    rw [hstreams, hactive]
    exact hstart.activeInput

lemma inRead_iff (h : Good s) (hi : s.inStreams.Live i) {x : ReadInput} :
    Good (s.inRead i x) ↔ (Makes s i x → Alone s i) := by
  unfold State.inRead
  split_ifs with hmode haf hstandby
  · exact iff_of_true h fun hmakes => absurd hmode hmakes.mode
  · exact iff_of_true (h.setIn (h.ins i hi) h.activeInput)
      fun hmakes => absurd (haf.symm.trans hmakes.card) (by decide)
  · have hiff := startInputStream_iff h hi (x := x)
    have hmakes : (Makes s i x → Alone s i) ↔ Good (s.startInputStream i x).1 := by
      rw [hiff]
      refine ⟨fun hall hmode hneed hnone => hall ⟨hmode, ?_, hstandby, hneed, hnone⟩,
        fun hall hmakes => hall hmakes.mode hmakes.need hmakes.none⟩
      exact Bool.eq_false_iff.mpr haf
    rw [hmakes]
    split
    next t ht =>
      rw [ht]
      exact good_setIn_iff rfl
    next t ht =>
      rw [ht]
  · exact iff_of_true h fun hmakes => absurd hmakes.standby hstandby

end Inputs

/-! ## Output streams -/

section Outputs

variable {s t : State} {i o : ℕ} {x : WriteInput}

lemma outs_setOut {y : Out} : (s.setOut o y).outs o = y := Function.update_self ..

lemma outs_setOut_of_ne {y : Out} {o' : ℕ} (hne : o' ≠ o) : (s.setOut o y).outs o' = s.outs o' :=
  Function.update_of_ne hne ..

/-- An output that has what the device has, or nothing. -/
lemma Good.setOut (h : Good s) {y : Out} {a : Option ℕ}
    (hy : ∀ r, y.echoReference = some r → s.echoReference = some r)
    (ha : ∀ o', a = some o' → s.outStreams.Live o') :
    Good { s with outs := Function.update s.outs o y, activeOutput := a } := by
  refine ⟨h.references, h.outStreams, h.inStreams, fun o' ho' r hecho => ?_, h.ins, ha,
    h.activeInput⟩
  by_cases heq : o' = o
  · refine hy r ?_
    rw [← hecho, heq]
    exact congrArg Out.echoReference (Function.update_self o y s.outs).symm
  · refine h.outs o' ho' r ?_
    rw [← hecho]
    exact congrArg Out.echoReference (Function.update_of_ne heq y s.outs).symm

lemma Good.doOutputStandby_eq (h : Good s) (ho : s.outStreams.Live o)
    (hstandby : (s.outs o).standby = false) : s.doOutputStandby o =
      { s with
        outs := Function.update s.outs o { s.outs o with standby := true, echoReference := none }
        activeOutput := none } := by
  unfold State.doOutputStandby
  rw [if_neg (by rw [hstandby]; decide), h.useIf_reference ho]
  rfl

/-- What the standby of an output leaves alone. -/
structure OutputKept (s t : State) : Prop where
  good : Good t
  outStreams : t.outStreams = s.outStreams
  inStreams : t.inStreams = s.inStreams
  ins : t.ins = s.ins
  activeInput : t.activeInput = s.activeInput
  mode : t.mode = s.mode

lemma Good.kept (h : Good s) : OutputKept s s := ⟨h, rfl, rfl, rfl, rfl, rfl⟩

lemma OutputKept.trans {u : State} (h : OutputKept s t) (h' : OutputKept t u) : OutputKept s u :=
  ⟨h'.good, h'.outStreams.trans h.outStreams, h'.inStreams.trans h.inStreams, h'.ins.trans h.ins,
    h'.activeInput.trans h.activeInput, h'.mode.trans h.mode⟩

lemma Good.doOutputStandby (h : Good s) (ho : s.outStreams.Live o) :
    OutputKept s (s.doOutputStandby o) := by
  cases hstandby : (s.outs o).standby with
  | true =>
    rw [show s.doOutputStandby o = s from if_pos hstandby]
    exact h.kept
  | false =>
    rw [h.doOutputStandby_eq ho hstandby]
    exact ⟨h.setOut (fun r hno => (by cases hno)) fun _ hno => (by cases hno), rfl, rfl, rfl, rfl,
      rfl⟩

lemma Good.openCards (cs : List Card) : ∀ {s : State}, Good s → s.outStreams.Live o →
    OutputKept s (openCards o cs s).1 := by
  induction cs with
  | nil => exact fun h _ => h.kept
  | cons c cs ih =>
    intro s h ho
    have hgiven : OutputKept s (match s.echoReference with
        | some r => s.setOut o { s.outs o with echoReference := some r }
        | none => s) := by
      split
      next r hr =>
        refine ⟨h.setOut (fun r' hr' => ?_) h.activeOutput, rfl, rfl, rfl, rfl, rfl⟩
        exact hr.trans hr'
      next => exact h.kept
    simp only [EchoReference.openCards]
    split_ifs
    · exact hgiven.trans (ih hgiven.good (hgiven.outStreams ▸ ho))
    · exact hgiven
    · exact ⟨⟨h.references, h.outStreams, h.inStreams, h.outs, h.ins, fun _ hno => (by cases hno),
        h.activeInput⟩, rfl, rfl, rfl, rfl, rfl⟩

lemma Good.writeCards (cs : List Card) : ∀ {s : State}, Good s → s.outStreams.Live o →
    OutputKept s (writeCards o cs s) := by
  induction cs with
  | nil => exact fun h _ => h.kept
  | cons c cs ih =>
    intro s h ho
    simp only [EchoReference.writeCards]
    rw [h.useIf_reference ho]
    split_ifs
    · exact ih h ho
    · exact h.doOutputStandby ho

lemma Good.startOutputStream (h : Good s) (ho : s.outStreams.Live o) :
    OutputKept s (s.startOutputStream o x).1 := by
  unfold State.startOutputStream
  split_ifs
  · exact h.kept
  · have hactive : OutputKept s
        { s with outDevice := s.routed x.routing, activeOutput := some o } := by
      refine ⟨⟨h.references, h.outStreams, h.inStreams, h.outs, h.ins, fun _ ho' => ?_,
        h.activeInput⟩, rfl, rfl, rfl, rfl, rfl⟩
      exact Option.some.inj ho' ▸ ho
    exact hactive.trans (hactive.good.openCards x.cards ho)

lemma Good.leaveStandby (h : Good s) (ho : s.outStreams.Live o) :
    OutputKept s (s.leaveStandby o) := by
  unfold State.leaveStandby
  rw [h.lookAtInput_eq]
  exact ⟨h.setOut (h.outs o ho) h.activeOutput, rfl, rfl, rfl, rfl, rfl⟩

/-- A write releases nothing. -/
lemma Good.write (h : Good s) (ho : s.outStreams.Live o) : OutputKept s (s.write o x) := by
  have hstart := h.startOutputStream ho (x := x)
  unfold State.write
  split_ifs
  · exact h.kept
  · split
    next t ht =>
      rw [ht] at hstart
      exact hstart
    next t ht =>
      rw [ht] at hstart
      have hot : t.outStreams.Live o := hstart.outStreams ▸ ho
      have hleave := hstart.good.leaveStandby hot
      exact hstart.trans (hleave.trans (hleave.good.writeCards _ (hleave.outStreams ▸ hot)))
  · exact h.writeCards _ ho

lemma Good.outWrite (h : Good s) (ho : s.outStreams.Live o) : OutputKept s (s.outWrite o x) := by
  have hstandby := h.doOutputStandby ho
  unfold State.outWrite
  split_ifs
  · exact h.kept
  · exact hstandby.trans (hstandby.good.write (hstandby.outStreams ▸ ho))
  · exact h.write ho

/-! ## Forcing the active streams to standby -/

lemma forceActiveInput_iff (h : Good s) : Good s.forceActiveInput ↔ ForceOk s := by
  unfold State.forceActiveInput ForceOk
  cases hactive : s.activeInput with
  | none => exact iff_of_true h fun _ hno => by cases hno
  | some i =>
    have hi := h.activeInput i hactive
    simp only [useIn_eq hi]
    rw [doInputStandby_iff h hi]
    exact ⟨fun hok j hj => Option.some.inj hj ▸ hok, fun hall => hall i rfl⟩

/-- The standby of the active output takes its reference away, as the release would. -/
lemma Good.alone_doOutputStandby (h : Good s) (ho : s.activeOutput = some o) :
    Alone (s.doOutputStandby o) i ↔ Alone s i := by
  have hlive := h.activeOutput o ho
  cases hstandby : (s.outs o).standby with
  | true => rw [show s.doOutputStandby o = s from if_pos hstandby]
  | false =>
    rw [h.doOutputStandby_eq hlive hstandby]
    constructor
    · intro halone
      refine ⟨halone.ins, fun o' ho' hne => ?_⟩
      have heq : o' ≠ o := fun heq => hne (heq ▸ ho)
      rw [← halone.outs o' ho' fun hno => by cases hno]
      exact congrArg Out.echoReference (Function.update_of_ne heq _ s.outs).symm
    · intro halone
      refine ⟨halone.ins, fun o' ho' _ => ?_⟩
      by_cases heq : o' = o
      · rw [heq]
        exact congrArg Out.echoReference (Function.update_self o _ s.outs)
      · refine (congrArg Out.echoReference (Function.update_of_ne heq _ s.outs)).trans ?_
        exact halone.outs o' ho' fun hno => heq (Option.some.inj (hno.symm.trans ho))

lemma Good.forceOk_doOutputStandby (h : Good s) (ho : s.activeOutput = some o) :
    ForceOk (s.doOutputStandby o) ↔ ForceOk s := by
  have hkept := h.doOutputStandby (h.activeOutput o ho)
  unfold ForceOk StandbyOk
  rw [hkept.activeInput, hkept.ins]
  simp only [h.alone_doOutputStandby ho]

lemma Good.forceActiveOutput (h : Good s) : OutputKept s s.forceActiveOutput ∧
    (ForceOk s.forceActiveOutput ↔ ForceOk s) := by
  unfold State.forceActiveOutput
  cases hactive : s.activeOutput with
  | none => exact ⟨h.kept, Iff.rfl⟩
  | some o =>
    have ho := h.activeOutput o hactive
    simp only [useOut_eq ho]
    exact ⟨h.doOutputStandby ho, h.forceOk_doOutputStandby hactive⟩

lemma forceAllStandby_iff (h : Good s) : Good s.forceAllStandby ↔ ForceOk s := by
  obtain ⟨hkept, hiff⟩ := h.forceActiveOutput
  exact (forceActiveInput_iff hkept.good).trans hiff

/-- An output that keeps what it has. -/
lemma good_setOut_iff {y : Out} (hy : y.echoReference = (s.outs o).echoReference) :
    Good (s.setOut o y) ↔ Good s := by
  have hsame : ∀ o', (Function.update s.outs o y o').echoReference = (s.outs o').echoReference := by
    intro o'
    by_cases heq : o' = o
    · rw [heq, Function.update_self, hy]
    · rw [Function.update_of_ne heq]
  constructor
  · intro h
    refine ⟨h.references, h.outStreams, h.inStreams, fun o' ho' r hecho => ?_, h.ins,
      h.activeOutput, h.activeInput⟩
    exact h.outs o' ho' r ((hsame o').trans hecho)
  · intro h
    refine ⟨h.references, h.outStreams, h.inStreams, fun o' ho' r hecho => ?_, h.ins,
      h.activeOutput, h.activeInput⟩
    exact h.outs o' ho' r ((hsame o').symm.trans hecho)

lemma outWriteEnd_iff (h : Good s) :
    Good (s.outWriteEnd o) ↔ ((s.outs o).forceInputStandby = true → ForceOk s) := by
  unfold State.outWriteEnd
  split_ifs with hforce
  · refine Iff.trans ?_ ((forceActiveInput_iff h).trans (imp_iff_right hforce).symm)
    exact good_setOut_iff (o := o) rfl
  · exact iff_of_true h fun hno => absurd hno hforce

lemma Good.moveOutput (h : Good s) (ho : s.activeOutput = some o) (val : BitVec 32) :
    Good (s.moveOutput o val) ∧ (ForceOk (s.moveOutput o val) ↔ ForceOk s) := by
  have hdevice : ∀ {t : State}, Good t → Good { t with outDevice := val } := fun ht =>
    ⟨ht.references, ht.outStreams, ht.inStreams, ht.outs, ht.ins, ht.activeOutput, ht.activeInput⟩
  have hforce : ∀ {t : State}, ForceOk { t with outDevice := val } ↔ ForceOk t := by
    intro t
    refine forall_congr' fun i => imp_congr_right fun _ => imp_congr_right fun _ =>
      imp_congr_right fun _ => ?_
    exact ⟨fun ha => ⟨ha.ins, ha.outs⟩, fun ha => ⟨ha.ins, ha.outs⟩⟩
  unfold State.moveOutput
  split_ifs
  · exact ⟨hdevice (h.doOutputStandby (h.activeOutput o ho)).good,
      hforce.trans (h.forceOk_doOutputStandby ho)⟩
  · exact ⟨hdevice h, hforce⟩

lemma setRouting_iff (h : Good s) {val : BitVec 32} :
    Good (s.setRouting o val) ↔ (Reroutes s o val → ForceOk s) := by
  unfold State.setRouting
  split_ifs with hfirst hchanges hactive hvoice
  · refine iff_of_true ⟨h.references, h.outStreams, h.inStreams, h.outs, h.ins, h.activeOutput,
      h.activeInput⟩ fun hno => ?_
    exact absurd (hfirst.symm.trans hno.first) (by decide)
  · rw [h.lookAtInput_eq]
    obtain ⟨hmoved, hforce⟩ := h.moveOutput hactive val
    rw [forceActiveInput_iff hmoved, hforce]
    refine (imp_iff_right ?_).symm
    exact ⟨Bool.eq_false_iff.mpr hfirst, hchanges, hactive, hvoice⟩
  · rw [h.lookAtInput_eq]
    exact iff_of_true (h.moveOutput hactive val).1 fun hno => absurd hno.voice hvoice
  · refine iff_of_true ⟨h.references, h.outStreams, h.inStreams, h.outs, h.ins, h.activeOutput,
      h.activeInput⟩ fun hno => ?_
    exact absurd hno.active hactive
  · exact iff_of_true h fun hno => absurd hno.changes hchanges

lemma Good.setRawDataOut (h : Good s) (ho : s.outStreams.Live o) {val : Bool} :
    Good (s.setRawDataOut o val) := by
  have hflag : Good { s with rawFlag := val } :=
    ⟨h.references, h.outStreams, h.inStreams, h.outs, h.ins, h.activeOutput, h.activeInput⟩
  unfold State.setRawDataOut
  split_ifs
  · exact (hflag.doOutputStandby ho).good
  · exact h

/-- A stream is closed while it is not the active one. -/
lemma closeOutputStream_iff (h : Good s) (ho : s.outStreams.Live o) :
    Good (s.closeOutputStream o) ↔ (s.mode.blocked = false → (s.outs o).standby = true →
      s.activeOutput ≠ some o) := by
  unfold State.closeOutputStream
  split_ifs with hblocked
  · exact iff_of_true h fun hno => absurd (hblocked.symm.trans hno) (by decide)
  · have hkept := h.doOutputStandby ho
    have hot : (s.doOutputStandby o).outStreams.Live o := hkept.outStreams.symm ▸ ho
    have hactive : (s.doOutputStandby o).activeOutput = some o ↔
        (s.outs o).standby = true ∧ s.activeOutput = some o := by
      cases hstandby : (s.outs o).standby with
      | true =>
        rw [show s.doOutputStandby o = s from if_pos hstandby]
        exact (and_iff_right rfl).symm
      | false =>
        rw [h.doOutputStandby_eq ho hstandby]
        exact iff_of_false (fun hno => by cases hno) fun hno => by cases hno.1
    generalize s.doOutputStandby o = t at hkept hot hactive ⊢
    have ht := hkept.good
    constructor
    · intro hgood _ hstandby hno
      have hlive := hgood.activeOutput o (hactive.mpr ⟨hstandby, hno⟩)
      exact (Ledger.live_release_iff.mp hlive).1 rfl
    · intro hall
      refine ⟨ht.references, Ledger.balanced_live_release ht.outStreams hot, ht.inStreams,
        fun o' ho' => ht.outs o' (Ledger.live_release_iff.mp ho').2, ht.ins, fun o' ho' => ?_,
        ht.activeInput⟩
      refine Ledger.live_release_iff.mpr ⟨fun heq => ?_, ht.activeOutput o' ho'⟩
      obtain ⟨hstandby, hno⟩ := hactive.mp (heq ▸ ho')
      exact hall (Bool.eq_false_iff.mpr hblocked) hstandby hno

end Outputs

/-! ## Changes to an input -/

section Changes

variable {s : State} {i : ℕ}

lemma alone_setIn_iff {x : In} : Alone (s.setIn i x) i ↔ Alone s i := by
  have hsame : ∀ {j}, j ≠ i → ((s.setIn i x).ins j).echoReference = (s.ins j).echoReference :=
    fun hne => congrArg In.echoReference (ins_setIn_of_ne hne)
  constructor
  · exact fun ha => ⟨fun j hj hne => (hsame hne).symm.trans (ha.ins j hj hne), ha.outs⟩
  · exact fun ha => ⟨fun j hj hne => (hsame hne).trans (ha.ins j hj hne), ha.outs⟩

/-- A change that keeps the reference, and standby. -/
lemma change_iff (h : Good s) (hi : s.inStreams.Live i) {x : In × Bool}
    (hstandby : x.1.standby = (s.ins i).standby)
    (hecho : x.1.echoReference = (s.ins i).echoReference) :
    Good (s.change i x) ↔ (x.2 = true → StandbyOk s i) := by
  have hset : Good (s.setIn i x.1) := (good_setIn_iff hecho).mpr h
  have hok : StandbyOk (s.setIn i x.1) i ↔ StandbyOk s i := by
    unfold StandbyOk
    rw [ins_setIn, hstandby, hecho, alone_setIn_iff]
  unfold State.change
  split_ifs with hasks
  · exact (doInputStandby_iff hset hi).trans (hok.trans (imp_iff_right hasks).symm)
  · exact iff_of_true hset fun hno => absurd hno hasks

variable {x : In} {mode : OutputStream.Mode} {params : ParamsInput} {effect : ℕ}
  {descriptor : Option Bool}

lemma setParameters_kept : (x.setParameters mode params).1.standby = x.standby ∧
    (x.setParameters mode params).1.echoReference = x.echoReference := by
  unfold In.setParameters
  dsimp only
  split <;> split <;> try split_ifs
  all_goals exact ⟨rfl, rfl⟩

lemma addAudioEffect_kept : (x.addAudioEffect effect descriptor).1.standby = x.standby ∧
    (x.addAudioEffect effect descriptor).1.echoReference = x.echoReference := by
  unfold In.addAudioEffect
  split_ifs
  · exact ⟨rfl, rfl⟩
  · split <;> exact ⟨rfl, rfl⟩

lemma removeAudioEffect_kept : (x.removeAudioEffect effect descriptor).1.standby = x.standby ∧
    (x.removeAudioEffect effect descriptor).1.echoReference = x.echoReference := by
  unfold In.removeAudioEffect
  split_ifs
  · dsimp only
    split <;> exact ⟨rfl, rfl⟩
  · exact ⟨rfl, rfl⟩

/-- What the standby of an input leaves alone. -/
lemma doInputStandby_kept (h : Good s) (hi : s.inStreams.Live i) :
    (s.doInputStandby i).outStreams = s.outStreams ∧ (s.doInputStandby i).inStreams = s.inStreams ∧
    (s.doInputStandby i).activeOutput = s.activeOutput ∧ (s.doInputStandby i).mode = s.mode ∧
    (∀ o, ((s.doInputStandby i).outs o).standby = (s.outs o).standby) ∧
    ∀ j, (s.doInputStandby i).activeInput = some j →
      s.activeInput = some j ∧ (s.ins i).standby = true ∧ s.doInputStandby i = s := by
  cases hstandby : (s.ins i).standby with
  | true =>
    have hsame := doInputStandby_of_standby hstandby
    rw [hsame]
    exact ⟨rfl, rfl, rfl, rfl, fun _ => rfl, fun j hj => ⟨hj, rfl, rfl⟩⟩
  | false =>
    cases hecho : (s.ins i).echoReference with
    | none =>
      rw [doInputStandby_none hstandby hecho]
      exact ⟨rfl, rfl, rfl, rfl, fun _ => rfl, fun _ hno => by cases hno⟩
    | some r =>
      rw [h.doInputStandby_some hi hstandby hecho]
      exact ⟨rfl, rfl, rfl, rfl, fun _ => dropped_standby, fun _ hno => by cases hno⟩

lemma doInputStandby_echo (h : Good s) (hi : s.inStreams.Live i)
    (hstandby : (s.ins i).standby = false) : ((s.doInputStandby i).ins i).echoReference = none := by
  cases hecho : (s.ins i).echoReference with
  | none =>
    rw [doInputStandby_none hstandby hecho]
    exact congrArg In.echoReference (Function.update_self i _ s.ins)
  | some r =>
    rw [h.doInputStandby_some hi hstandby hecho]
    exact congrArg In.echoReference (Function.update_self i _ s.ins)

lemma closeInputStream_iff (h : Good s) (hi : s.inStreams.Live i) :
    Good (s.closeInputStream i) ↔
      StandbyOk s i ∧ ((s.ins i).standby = true → s.activeInput ≠ some i) := by
  obtain ⟨-, hstreams, -, -, -, hactive⟩ := doInputStandby_kept h hi
  rw [← doInputStandby_iff h hi]
  unfold State.closeInputStream
  have hbefore : (s.ins i).standby = true → s.doInputStandby i = s := doInputStandby_of_standby
  have hecho := doInputStandby_echo h hi
  generalize s.doInputStandby i = t at hstreams hactive hbefore hecho ⊢
  have hit : t.inStreams.Live i := hstreams.symm ▸ hi
  constructor
  · intro hgood
    have hlive : ∀ {j}, (t.inStreams.release i).Live j → j ≠ i ∧ t.inStreams.Live j :=
      Ledger.live_release_iff.mp
    refine ⟨⟨hgood.references, hgood.outStreams, hstreams.symm ▸ h.inStreams, hgood.outs,
      fun j hj r hr => ?_, hgood.activeOutput, fun j hj => (hlive (hgood.activeInput j hj)).2⟩,
      fun hstandby hno => ?_⟩
    · by_cases hji : j = i
      · cases hstandby : (s.ins i).standby with
        | true =>
          rw [hbefore hstandby] at hr ⊢
          exact h.ins j (hstreams ▸ hj) r hr
        | false =>
          rw [hji, hecho hstandby] at hr
          cases hr
      · exact hgood.ins j (Ledger.live_release_iff.mpr ⟨hji, hj⟩) r hr
    · refine (hlive (hgood.activeInput i ?_)).1 rfl
      rw [hbefore hstandby]
      exact hno
  · rintro ⟨ht, hnot⟩
    refine ⟨ht.references, ht.outStreams, Ledger.balanced_live_release ht.inStreams hit, ht.outs,
      fun j hj => ht.ins j (Ledger.live_release_iff.mp hj).2, ht.activeOutput, fun j hj => ?_⟩
    obtain ⟨hwas, hstandby, -⟩ := hactive j hj
    refine Ledger.live_release_iff.mpr ⟨fun heq => hnot hstandby (heq ▸ hwas), ht.activeInput j hj⟩

end Changes

/-! ## The mode -/

section Mode

variable {s : State} {mode : OutputStream.Mode}

/-- The active streams are in standby already. -/
structure Settled (s : State) : Prop where
  outs : ∀ o, s.activeOutput = some o → s.outStreams.Live o ∧ (s.outs o).standby = true
  ins : ∀ i, s.activeInput = some i → s.inStreams.Live i ∧ (s.ins i).standby = true

lemma Settled.forceAllStandby_eq (h : Settled s) : s.forceAllStandby = s := by
  have hout : s.forceActiveOutput = s := by
    unfold State.forceActiveOutput
    split
    next o ho =>
      rw [useOut_eq (h.outs o ho).1]
      exact if_pos (h.outs o ho).2
    next => rfl
  unfold State.forceAllStandby
  rw [hout]
  unfold State.forceActiveInput
  split
  next i hi =>
    rw [useIn_eq (h.ins i hi).1]
    exact doInputStandby_of_standby (h.ins i hi).2
  next => rfl

lemma Good.activeOutput_standby (h : Good s) {o : ℕ}
    (ho : s.forceActiveOutput.activeOutput = some o) :
    (s.forceActiveOutput.outs o).standby = true := by
  unfold State.forceActiveOutput at ho ⊢
  cases hactive : s.activeOutput with
  | none =>
    simp only [hactive] at ho
    cases ho
  | some o' =>
    have hlive := h.activeOutput o' hactive
    simp only [hactive, useOut_eq hlive] at ho ⊢
    cases hstandby : (s.outs o').standby with
    | true =>
      rw [show s.doOutputStandby o' = s from if_pos hstandby] at ho ⊢
      obtain rfl := Option.some.inj (hactive.symm.trans ho)
      exact hstandby
    | false =>
      rw [h.doOutputStandby_eq hlive hstandby] at ho
      cases ho

/-- Once is enough. -/
lemma Good.settled (h : Good s) :
    Settled s.forceAllStandby ∧ s.forceAllStandby.mode = s.mode := by
  obtain ⟨hkept, -⟩ := h.forceActiveOutput
  have houts := fun {o : ℕ} => h.activeOutput_standby (o := o)
  have hu := hkept.good
  have hmode := hkept.mode
  unfold State.forceAllStandby
  generalize s.forceActiveOutput = u at hu houts hmode ⊢
  unfold State.forceActiveInput
  cases hactive : u.activeInput with
  | none =>
    refine ⟨⟨fun o ho => ⟨hu.activeOutput o ho, houts ho⟩, fun i hi => ?_⟩, hmode⟩
    rw [hactive] at hi
    cases hi
  | some i =>
    have hi := hu.activeInput i hactive
    simp only [useIn_eq hi]
    obtain ⟨houtStreams, hinStreams, hoactive, hsame, hstandby, hiactive⟩ :=
      doInputStandby_kept hu hi
    refine ⟨⟨fun o ho => ?_, fun j hj => ?_⟩, hsame.trans hmode⟩
    · rw [houtStreams, hstandby o]
      exact ⟨hu.activeOutput o (hoactive ▸ ho), houts (hoactive ▸ ho)⟩
    · obtain ⟨hwas, hin, heq⟩ := hiactive j hj
      obtain rfl := Option.some.inj (hactive.symm.trans hwas)
      rw [heq]
      exact ⟨hi, hin⟩

/-- The fields that no pointer is in. -/
lemma good_flags_iff {b : Bool} {d : BitVec 32} :
    Good { s with mode := mode, inCall := b, outDevice := d } ↔ Good s := by
  constructor <;> intro h <;>
    exact ⟨h.references, h.outStreams, h.inStreams, h.outs, h.ins, h.activeOutput, h.activeInput⟩

lemma forceOk_flags_iff {b : Bool} {d : BitVec 32} :
    ForceOk { s with mode := mode, inCall := b, outDevice := d } ↔ ForceOk s := by
  refine forall_congr' fun i => imp_congr_right fun _ => imp_congr_right fun _ =>
    imp_congr_right fun _ => ?_
  exact ⟨fun ha => ⟨ha.ins, ha.outs⟩, fun ha => ⟨ha.ins, ha.outs⟩⟩

/-- A call that is entered or left sends the active streams to standby; otherwise nothing
happens. -/
lemma selectCall_cases (h : Good s) : s.selectCall.mode = s.mode ∧
    (Calls s s.mode ∧ (Good s.selectCall ↔ ForceOk s) ∧ Settled s.selectCall ∨
      ¬ Calls s s.mode ∧ s.selectCall = s) := by
  unfold State.selectCall Calls
  split_ifs with hcall hin hin
  · exact ⟨rfl, .inr ⟨fun hno => absurd (hin.symm.trans hno) (by decide), rfl⟩⟩
  · obtain ⟨hsettled, hmode⟩ := h.settled
    refine ⟨hmode, .inl ⟨Bool.eq_false_iff.mpr hin, ?_, hsettled.outs, hsettled.ins⟩⟩
    exact good_flags_iff.trans (forceAllStandby_iff h)
  · have hout : Good { s with inCall := false } := good_flags_iff.mpr h
    obtain ⟨hsettled, hmode⟩ := hout.settled
    exact ⟨hmode, .inl ⟨hin, (forceAllStandby_iff hout).trans forceOk_flags_iff, hsettled⟩⟩
  · exact ⟨rfl, .inr ⟨hin, rfl⟩⟩

lemma selectMode_iff (h : Good s) :
    Good s.selectMode ↔ (s.mode = .fm ∨ Calls s s.mode → ForceOk s) := by
  obtain ⟨hmode, ⟨hcalls, hiff, hsettled⟩ | ⟨hno, hsame⟩⟩ := selectCall_cases h
  · have honce : s.selectMode = s.selectCall := by
      unfold State.selectMode
      rw [hsettled.forceAllStandby_eq, ite_self]
    rw [honce, hiff]
    exact (imp_iff_right (.inr hcalls)).symm
  · unfold State.selectMode
    rw [hsame]
    split_ifs with hfm
    · exact (forceAllStandby_iff h).trans (imp_iff_right (.inl hfm)).symm
    · exact iff_of_true h fun hforces => absurd hforces (not_or.mpr ⟨hfm, hno⟩)

lemma setMode_iff (h : Good s) : Good (s.setMode mode) ↔ (Forces s mode → ForceOk s) := by
  unfold State.setMode Forces
  split_ifs with hnew
  · have hset : Good { s with mode := mode } := good_flags_iff.mpr h
    rw [selectMode_iff hset, forceOk_flags_iff]
    exact ⟨fun hall hforces => hall hforces.2, fun hall hforces => hall ⟨hnew, hforces⟩⟩
  · exact iff_of_true h fun hforces => absurd hforces.1 hnew

end Mode

/-! ## Steps -/

section Steps

variable {s t : State}

lemma Good.openOutputStream (h : Good s) :
    Good { s.setOut s.outStreams.next newOut with outStreams := s.outStreams.alloc } := by
  have hold : ∀ {o}, s.outStreams.alloc.Live o → o ≠ s.outStreams.next → s.outStreams.Live o :=
    fun ho hne => ⟨Nat.lt_of_le_of_ne (Nat.le_of_lt_succ ho.1) hne, ho.2⟩
  refine ⟨h.references, Ledger.balanced_live_alloc h.outStreams, h.inStreams,
    fun o ho r hecho => ?_, h.ins, fun o ho => ?_, h.activeInput⟩
  · by_cases heq : o = s.outStreams.next
    · rw [heq] at hecho
      have hnone : ((s.setOut s.outStreams.next newOut).outs s.outStreams.next).echoReference =
          none := congrArg Out.echoReference outs_setOut
      rw [hnone] at hecho
      cases hecho
    · refine h.outs o (hold ho heq) r (Eq.trans ?_ hecho)
      exact congrArg Out.echoReference (outs_setOut_of_ne heq).symm
  · have hlive := h.activeOutput o ho
    exact ⟨Nat.lt_succ_of_lt hlive.1, hlive.2⟩

lemma Good.openInputStream (h : Good s) {device : BitVec 32} :
    Good { s.setIn s.inStreams.next (newIn device) with inStreams := s.inStreams.alloc } := by
  have hold : ∀ {i}, s.inStreams.alloc.Live i → i ≠ s.inStreams.next → s.inStreams.Live i :=
    fun hi hne => ⟨Nat.lt_of_le_of_ne (Nat.le_of_lt_succ hi.1) hne, hi.2⟩
  refine ⟨h.references, h.outStreams, Ledger.balanced_live_alloc h.inStreams, h.outs,
    fun i hi r hecho => ?_, h.activeOutput, fun i hi => ?_⟩
  · by_cases heq : i = s.inStreams.next
    · rw [heq] at hecho
      have hnone : ((s.setIn s.inStreams.next (newIn device)).ins s.inStreams.next).echoReference =
          none := congrArg In.echoReference ins_setIn
      rw [hnone] at hecho
      cases hecho
    · refine h.ins i (hold hi heq) r (Eq.trans ?_ hecho)
      exact congrArg In.echoReference (ins_setIn_of_ne heq).symm
  · have hlive := h.activeInput i hi
    exact ⟨Nat.lt_succ_of_lt hlive.1, hlive.2⟩

/-- Every step keeps the pointers under its condition, and only then. -/
lemma Good.step_iff (h : Good s) {a : Act} (hstep : step s a = some t) : Good t ↔ Ok a s := by
  cases a with
  | openOutputStream =>
    obtain rfl := Option.some.inj hstep
    exact iff_of_true h.openOutputStream trivial
  | outWrite o x =>
    obtain ⟨⟨ho, -⟩, hstep⟩ := Option.ite_none_right_eq_some.mp hstep
    exact Option.some.inj hstep ▸ iff_of_true (h.outWrite ho).good trivial
  | outWriteEnd o =>
    obtain ⟨ho, hstep⟩ := Option.ite_none_right_eq_some.mp hstep
    exact Option.some.inj hstep ▸ outWriteEnd_iff h
  | outStandby o =>
    obtain ⟨ho, hstep⟩ := Option.ite_none_right_eq_some.mp hstep
    exact Option.some.inj hstep ▸ iff_of_true (h.doOutputStandby ho).good trivial
  | setRouting o val =>
    obtain ⟨ho, hstep⟩ := Option.ite_none_right_eq_some.mp hstep
    exact Option.some.inj hstep ▸ setRouting_iff h
  | setDevicesOutActive o =>
    obtain ⟨ho, hstep⟩ := Option.ite_none_right_eq_some.mp hstep
    obtain rfl := Option.some.inj hstep
    unfold State.setDevicesOutActive
    split_ifs
    · exact iff_of_true h trivial
    · exact iff_of_true (h.doOutputStandby ho).good trivial
  | setRawDataOut o val =>
    obtain ⟨ho, hstep⟩ := Option.ite_none_right_eq_some.mp hstep
    exact Option.some.inj hstep ▸ iff_of_true (h.setRawDataOut ho) trivial
  | closeOutputStream o =>
    obtain ⟨ho, hstep⟩ := Option.ite_none_right_eq_some.mp hstep
    exact Option.some.inj hstep ▸ closeOutputStream_iff h ho
  | openInputStream device =>
    obtain rfl := Option.some.inj hstep
    exact iff_of_true h.openInputStream trivial
  | inRead i x =>
    obtain ⟨hi, hstep⟩ := Option.ite_none_right_eq_some.mp hstep
    exact Option.some.inj hstep ▸ inRead_iff h hi
  | inStandby i =>
    obtain ⟨hi, hstep⟩ := Option.ite_none_right_eq_some.mp hstep
    exact Option.some.inj hstep ▸ doInputStandby_iff h hi
  | inSetParameters i params =>
    obtain ⟨hi, hstep⟩ := Option.ite_none_right_eq_some.mp hstep
    exact Option.some.inj hstep ▸ change_iff h hi setParameters_kept.1 setParameters_kept.2
  | inAddAudioEffect i effect descriptor =>
    obtain ⟨hi, hstep⟩ := Option.ite_none_right_eq_some.mp hstep
    exact Option.some.inj hstep ▸ change_iff h hi addAudioEffect_kept.1 addAudioEffect_kept.2
  | inRemoveAudioEffect i effect descriptor =>
    obtain ⟨hi, hstep⟩ := Option.ite_none_right_eq_some.mp hstep
    exact Option.some.inj hstep ▸ change_iff h hi removeAudioEffect_kept.1 removeAudioEffect_kept.2
  | closeInputStream i =>
    obtain ⟨hi, hstep⟩ := Option.ite_none_right_eq_some.mp hstep
    exact Option.some.inj hstep ▸ closeInputStream_iff h hi
  | setMode mode => exact Option.some.inj hstep ▸ setMode_iff h

end Steps

lemma good_initial : Good initial := by
  have hempty : Ledger.empty.Balanced Ledger.empty.Live :=
    Ledger.balanced_empty fun o ho => Nat.not_lt_zero o ho.1
  exact ⟨Ledger.balanced_empty fun r hr => (by cases hr), hempty, hempty,
    fun o ho => absurd ho.1 (Nat.not_lt_zero o), fun i hi => absurd hi.1 (Nat.not_lt_zero i),
    fun o ho => (by cases ho), fun i hi => by cases hi⟩

/-- In all states of a run no pointer dangles and nothing has been used behind its release,
exactly if all steps met the condition: no reference was released while another input or an output
that is not the active one had it, and no stream was closed whose start had failed. -/
theorem pointers_iff (as : List Act) :
    Along step Good (fun _ _ _ => True) initial as ↔ Meets step Ok initial as :=
  along_iff_meets id (fun hs hok hstep => ⟨(hs.step_iff hstep).mpr hok, trivial⟩)
    (fun hs hstep _ ht => (hs.step_iff hstep).mp ht) as good_initial

end Softwinner.Audio.EchoReference
