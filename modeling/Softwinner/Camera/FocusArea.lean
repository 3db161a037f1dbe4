import Softwinner.Audio.VolumeConfig
import Softwinner.Camera.SetParameters

/-!
# Focus areas

An application gives a focus area as a text.  `checkFocusArea` takes it apart with `strtok`, and
`parse_focus_areas` looks for the brackets and the commas themselves, and does not ask whether it
has found them.  `protects_iff` says for which texts the check is good enough for the parser.

A text is a list of bytes, written as characters.
-/

namespace Softwinner.Camera.FocusArea

open Framework
open Audio.VolumeConfig (atoi digits isSpace)

variable {str field rest post : List Char} {fs ts : List (List Char)} {arr : List ℤ} {c : Char}

/-! ## The check -/

/-- `"(,)"`. -/
def isSeparator (c : Char) : Bool := c == '(' || c == ',' || c == ')'

/-- The tests of the numbers; nothing if one that has not been assigned is read. -/
def checkNumbers (arr : List ℤ) : Option Bool := do
  if ← [0, 1, 2, 3, 4].allM fun i => (arr[i]?).map fun a => a == 0 then return true
  if (← arr[4]?) < 1 then return false
  if !(← [0, 1, 2, 3].allM fun i => (arr[i]?).map fun a => !(a < -1000 || 1000 < a)) then
    return false
  if (← arr[2]?) ≤ (← arr[0]?) then return false
  if (← arr[3]?) ≤ (← arr[1]?) then return false
  return true

/-- `checkFocusArea`; nothing if it writes behind `temp` or reads what it has not assigned. -/
def checkFocusArea (area : List Char) : Option Bool :=
  -- `temp` has 128 bytes
  if 128 ≤ area.length then none
  else if 5 < (tokens isSeparator area).length then some false
  else checkNumbers ((tokens isSeparator area).map atoi)

/-! ## The parser -/

/-- `strchr`, with what is before the character and behind it. -/
def cut (c : Char) (str : List Char) : Option (List Char × List Char) :=
  match str.span (· ≠ c) with
  | (field, _ :: rest) => some (field, rest)
  | (_, []) => none

/-- The copy to an array of six bytes, the last of which ends the text. -/
def cutField (c : Char) (str : List Char) : Option (List Char × List Char) := do
  let (field, rest) ← cut c str
  if field.length ≤ 5 then return (field, rest) else none

/-- One search behind the other. -/
def cutFields : List Char → List Char → Option (List (List Char))
  | [], _ => some []
  | c :: cs, str => do
    let (field, rest) ← cutField c str
    let fields ← cutFields cs rest
    return field :: fields

/-- `p1` to `p5` of `parse_focus_areas`; nothing if a search fails or an array is too short. -/
def parseFields (str : List Char) : Option (List (List Char)) := do
  let (_, rest) ← cut '(' str
  cutFields [',', ',', ',', ',', ')'] rest

/-! ## Texts -/

/-- The fields, each up to its character. -/
def layout : List Char → List (List Char) → List Char → List Char
  | c :: cs, f :: fs, post => f ++ c :: layout cs fs post
  | _, _, post => post

/-- A bracket, four commas and a bracket, with not more than five bytes between them. -/
def Bracketed (str : List Char) (fs : List (List Char)) : Prop :=
  ∃ pre post, '(' ∉ pre ∧ str = pre ++ '(' :: layout [',', ',', ',', ',', ')'] fs post ∧
    List.Forall₂ (fun c f => c ∉ f ∧ f.length ≤ 5) [',', ',', ',', ',', ')'] fs

lemma span_eq (hnot : c ∉ field) (rest : List Char) :
    (field ++ c :: rest).span (· ≠ c) = (field, c :: rest) := by
  have hall : ∀ d ∈ field, decide (d ≠ c) = true := fun d hd =>
    decide_eq_true fun heq => hnot (heq ▸ hd)
  rw [List.span_eq_takeWhile_dropWhile, List.takeWhile_append_of_pos hall,
    List.dropWhile_append_of_pos hall]
  simp

lemma cut_eq_some : cut c str = some (field, rest) ↔ str = field ++ c :: rest ∧ c ∉ field := by
  rw [cut]
  constructor
  · intro h
    rw [List.span_eq_takeWhile_dropWhile] at h
    have hsplit := List.takeWhile_append_dropWhile (p := (· ≠ c)) (l := str)
    have hhead := List.head?_dropWhile_not (· ≠ c) str
    cases hdrop : str.dropWhile (· ≠ c) with
    | nil =>
      rw [hdrop] at h
      exact absurd h (Option.some_ne_none _).symm
    | cons d tail =>
      rw [hdrop] at h hsplit hhead
      obtain ⟨rfl, rfl⟩ := Prod.mk.inj (Option.some.inj h)
      obtain rfl : d = c := by simpa using hhead
      refine ⟨hsplit.symm, fun hmem => ?_⟩
      simpa using List.mem_takeWhile_imp hmem
  · rintro ⟨rfl, hnot⟩
    rw [span_eq hnot]

lemma cutField_eq_some : cutField c str = some (field, rest) ↔
    str = field ++ c :: rest ∧ c ∉ field ∧ field.length ≤ 5 := by
  rw [cutField]
  constructor
  · intro h
    obtain ⟨⟨field', rest'⟩, hcut, h⟩ := Option.bind_eq_some_iff.mp h
    dsimp only at h
    split_ifs at h with hlength
    obtain ⟨rfl, rfl⟩ := Prod.mk.inj (Option.some.inj h)
    obtain ⟨hstr, hnot⟩ := cut_eq_some.mp hcut
    exact ⟨hstr, hnot, hlength⟩
  · rintro ⟨hstr, hnot, hlength⟩
    exact Option.bind_eq_some_iff.mpr ⟨_, cut_eq_some.mpr ⟨hstr, hnot⟩, if_pos hlength⟩

lemma cutFields_eq_some {cs : List Char} : cutFields cs str = some fs ↔
    (∃ post, str = layout cs fs post) ∧ List.Forall₂ (fun c f => c ∉ f ∧ f.length ≤ 5) cs fs := by
  induction cs generalizing str fs with
  | nil =>
    rw [cutFields, List.forall₂_nil_left_iff]
    constructor
    · rintro h
      obtain rfl := Option.some.inj h
      exact ⟨⟨str, rfl⟩, rfl⟩
    · rintro ⟨-, rfl⟩
      rfl
  | cons c cs ih =>
    rw [cutFields]
    constructor
    · intro h
      obtain ⟨⟨f, rest⟩, hfield, hrest⟩ := Option.bind_eq_some_iff.mp h
      obtain ⟨fs', hfields, hfs⟩ := Option.bind_eq_some_iff.mp hrest
      obtain rfl := Option.some.inj hfs
      obtain ⟨rfl, hok⟩ := cutField_eq_some.mp hfield
      obtain ⟨⟨post, rfl⟩, hall⟩ := ih.mp hfields
      exact ⟨⟨post, rfl⟩, .cons hok hall⟩
    · rintro ⟨⟨post, rfl⟩, hall⟩
      obtain ⟨f, fs', hok, hrest, rfl⟩ := List.forall₂_cons_left_iff.mp hall
      exact Option.bind_eq_some_iff.mpr ⟨_, cutField_eq_some.mpr ⟨rfl, hok⟩,
        Option.bind_eq_some_iff.mpr ⟨fs', ih.mpr ⟨⟨post, rfl⟩, hrest⟩, rfl⟩⟩

lemma parseFields_eq_some : parseFields str = some fs ↔ Bracketed str fs := by
  rw [parseFields]
  constructor
  · intro h
    obtain ⟨⟨pre, rest⟩, hcut, hfields⟩ := Option.bind_eq_some_iff.mp h
    obtain ⟨rfl, hnot⟩ := cut_eq_some.mp hcut
    obtain ⟨⟨post, rfl⟩, hall⟩ := cutFields_eq_some.mp hfields
    exact ⟨pre, post, hnot, rfl, hall⟩
  · rintro ⟨pre, post, hnot, rfl, hall⟩
    exact Option.bind_eq_some_iff.mpr ⟨_, cut_eq_some.mpr ⟨rfl, hnot⟩,
      cutFields_eq_some.mpr ⟨⟨post, rfl⟩, hall⟩⟩

/-! ## Numbers -/

lemma not_isDigit_of_isSeparator (hc : isSeparator c = true) :
    isSpace c = false ∧ c.isDigit = false ∧ c ≠ '-' ∧ c ≠ '+' := by
  have hsep : c = '(' ∨ c = ',' ∨ c = ')' := by simpa [isSeparator, or_assoc] using hc
  obtain rfl | rfl | rfl := hsep <;> decide

/-- Digits up to something else. -/
lemma takeWhile_isDigit_append (hc : c.isDigit = false) (t rest : List Char) :
    (t ++ c :: rest).takeWhile Char.isDigit = t.takeWhile Char.isDigit := by
  induction t with
  | nil => rw [List.nil_append, List.takeWhile_cons_of_neg (by simp [hc]), List.takeWhile_nil]
  | cons d t ih =>
    rw [List.cons_append]
    cases hd : d.isDigit with
    | true => rw [List.takeWhile_cons_of_pos hd, List.takeWhile_cons_of_pos hd, ih]
    | false =>
      rw [List.takeWhile_cons_of_neg (by simp [hd]), List.takeWhile_cons_of_neg (by simp [hd])]

/-- A number ends at a separator. -/
lemma atoi_append (hc : isSeparator c = true) (t rest : List Char) :
    atoi (t ++ c :: rest) = atoi t := by
  obtain ⟨hspace, hdigit, hminus, hplus⟩ := not_isDigit_of_isSeparator hc
  have hdigits (u : List Char) : digits (u ++ c :: rest) = digits u := by
    rw [digits, takeWhile_isDigit_append hdigit, digits]
  unfold atoi
  induction t with
  | nil =>
    rw [List.nil_append, List.dropWhile_cons_of_neg (by simp [hspace]), List.dropWhile_nil]
    split
    · rename_i heq
      exact absurd (List.cons.inj heq).1 hminus
    · rename_i heq
      exact absurd (List.cons.inj heq).1 hplus
    · exact hdigits []
  | cons d t ih =>
    cases hd : isSpace d with
    | true => rwa [List.cons_append, List.dropWhile_cons_of_pos hd, List.dropWhile_cons_of_pos hd]
    | false =>
      rw [List.cons_append, List.dropWhile_cons_of_neg (by simp [hd]),
        List.dropWhile_cons_of_neg (by simp [hd])]
      have hwhole := hdigits (d :: t)
      rw [List.cons_append] at hwhole
      by_cases hminus : d = '-'
      · subst hminus
        exact congrArg Neg.neg (hdigits t)
      · by_cases hplus : d = '+'
        · subst hplus
          exact hdigits t
        · split
          · rename_i heq
            exact absurd (List.cons.inj heq).1 hminus
          · rename_i heq
            exact absurd (List.cons.inj heq).1 hplus
          · split
            · rename_i heq
              exact absurd (List.cons.inj heq).1 hminus
            · rename_i heq
              exact absurd (List.cons.inj heq).1 hplus
            · exact hwhole

/-- The token at the beginning of a field; it may be empty. -/
def headToken (f : List Char) : List Char := f.takeWhile fun c => !isSeparator c

lemma atoi_headToken (f : List Char) : atoi (headToken f) = atoi f := by
  have hsplit := List.takeWhile_append_dropWhile (p := fun c => !isSeparator c) (l := f)
  have hhead := List.head?_dropWhile_not (fun c => !isSeparator c) f
  cases hdrop : f.dropWhile fun c => !isSeparator c with
  | nil =>
    rw [hdrop, List.append_nil] at hsplit
    rw [headToken, hsplit]
  | cons c rest =>
    rw [hdrop] at hsplit hhead
    have hc : isSeparator c = true := by simpa using hhead
    conv_rhs => rw [← hsplit]
    exact (atoi_append hc _ rest).symm

/-! ## The numbers of the check -/

/-- An area is none at all, or four coordinates in their order with a weight. -/
def ValidArea (l t r b w : ℤ) : Prop :=
  l = 0 ∧ t = 0 ∧ r = 0 ∧ b = 0 ∧ w = 0 ∨
    1 ≤ w ∧ (∀ a ∈ [l, t, r, b], -1000 ≤ a ∧ a ≤ 1000) ∧ l < r ∧ t < b

instance (l t r b w : ℤ) : Decidable (ValidArea l t r b w) :=
  inferInstanceAs (Decidable (_ ∨ _))

/-- A test of all entries that are there. -/
lemma allM_eq_some {read : ℕ → Option ℤ} {p : ℤ → Bool} {is : List ℕ} {vs : List ℤ}
    (h : List.Forall₂ (fun i v => read i = some v) is vs) :
    is.allM (fun i => (read i).map p) = some (vs.all p) := by
  induction h with
  | nil => rfl
  | @cons i v is vs hread _ ih =>
    rw [List.allM, hread, List.all_cons]
    cases hp : p v with
    | true => simp [hp, ih]
    | false => simp [hp]

/-- A test of all entries does not succeed if one is not there. -/
lemma allM_ne_some_true (read : ℕ → Option ℤ) {p : ℤ → Bool} {is : List ℕ}
    (h : ∃ i ∈ is, read i = none) : is.allM (fun i => (read i).map p) ≠ some true := by
  induction is with
  | nil =>
    obtain ⟨i, hi, -⟩ := h
    exact absurd hi List.not_mem_nil
  | cons i is ih =>
    obtain ⟨j, hj, hnone⟩ := h
    rw [List.allM]
    cases hread : read i with
    | none => simp
    | some v =>
      cases hp : p v with
      | false => simp [hp]
      | true =>
        have hrest : j ∈ is := (List.mem_cons.mp hj).resolve_left fun hji => by
          rw [hji, hread] at hnone
          exact Option.some_ne_none v hnone
        simpa [hp] using ih ⟨j, hrest, hnone⟩

lemma checkNumbers_of_length_lt (h : arr.length < 5) : checkNumbers arr = none := by
  have hlast : arr[4]? = none := List.getElem?_eq_none (by omega)
  have hzero : ([0, 1, 2, 3, 4].allM fun i => (arr[i]?).map fun a => a == 0) ≠ some true :=
    allM_ne_some_true (fun i => arr[i]?) ⟨4, by simp, hlast⟩
  rw [checkNumbers]
  cases hall : [0, 1, 2, 3, 4].allM fun i => (arr[i]?).map fun a => a == 0 with
  | none => rfl
  | some all =>
    cases all with
    | true => exact absurd hall hzero
    | false => simp [hlast]

lemma checkNumbers_eq (l t r b w : ℤ) :
    checkNumbers [l, t, r, b, w] = some (decide (ValidArea l t r b w)) := by
  have hreads : List.Forall₂ (fun i v => [l, t, r, b, w][i]? = some v) [0, 1, 2, 3]
      [l, t, r, b] := .cons rfl (.cons rfl (.cons rfl (.cons rfl .nil)))
  have hreads' : List.Forall₂ (fun i v => [l, t, r, b, w][i]? = some v) [0, 1, 2, 3, 4]
      [l, t, r, b, w] := .cons rfl (.cons rfl (.cons rfl (.cons rfl (.cons rfl .nil))))
  have hzero := allM_eq_some (p := fun a => a == 0) hreads'
  have hrange := allM_eq_some (p := fun a => !(a < -1000 || 1000 < a)) hreads
  rw [checkNumbers, hzero, hrange]
  simp [ValidArea]
  split_ifs <;> simp <;> omega

lemma exists_eq_of_length (arr : List ℤ) (h : arr.length = 5) :
    ∃ l t r b w, arr = [l, t, r, b, w] :=
  match arr, h with
  | [l, t, r, b, w], _ => ⟨l, t, r, b, w, rfl⟩

/-- The numbers between the separators. -/
def numbers (str : List Char) : List ℤ := (tokens isSeparator str).map atoi

lemma checkFocusArea_eq_some {ok : Bool} : checkFocusArea str = some ok ↔ str.length ≤ 127 ∧
    (5 < (numbers str).length ∧ ok = false ∨ ∃ l t r b w, numbers str = [l, t, r, b, w] ∧
      ok = decide (ValidArea l t r b w)) := by
  have hcount : (tokens isSeparator str).length = (numbers str).length := by
    rw [numbers, List.length_map]
  rw [checkFocusArea, hcount]
  by_cases hlength : 128 ≤ str.length
  · rw [if_pos hlength]
    exact iff_of_false (Option.some_ne_none ok ∘ Eq.symm) fun h => by omega
  rw [if_neg hlength, and_iff_right (by omega)]
  by_cases hmany : 5 < (numbers str).length
  · rw [if_pos hmany, Option.some.injEq]
    constructor
    · exact fun h => Or.inl ⟨hmany, h.symm⟩
    · rintro (⟨-, hok⟩ | ⟨l, t, r, b, w, hnumbers, -⟩)
      · exact hok.symm
      · rw [hnumbers] at hmany
        exact absurd hmany (by simp)
  rw [if_neg hmany, or_iff_right fun h => hmany h.1]
  show checkNumbers (numbers str) = some ok ↔ _
  constructor
  · intro h
    have henough : ¬ (numbers str).length < 5 := fun hlt => by
      rw [checkNumbers_of_length_lt hlt] at h
      exact Option.some_ne_none ok h.symm
    obtain ⟨l, t, r, b, w, hnumbers⟩ := exists_eq_of_length (numbers str) (by omega)
    rw [hnumbers, checkNumbers_eq, Option.some.injEq] at h
    exact ⟨l, t, r, b, w, hnumbers, h.symm⟩
  · rintro ⟨l, t, r, b, w, hnumbers, rfl⟩
    rw [hnumbers, checkNumbers_eq]

/-! ## What the check is good for -/

/-- The check keeps to what it has, and where it accepts a text, `parse_focus_areas` finds its
fields and the same coordinates. -/
def Protects (str : List Char) : Prop :=
  ∃ ok, checkFocusArea str = some ok ∧ (ok = true →
    ∃ fs, parseFields str = some fs ∧ (fs.take 4).map atoi = (numbers str).take 4)

/-- Fields without separators. -/
def Plain (f : List Char) : Prop := f ≠ [] ∧ f.length ≤ 5 ∧ ∀ c ∈ f, isSeparator c = false

lemma tokens_layout {cs : List Char} (hcs : ∀ c ∈ cs, isSeparator c = true)
    (h : List.Forall₂ (fun _ f => Plain f) cs fs) :
    tokens isSeparator (layout cs fs []) = fs := by
  induction h with
  | nil => rfl
  | @cons c f cs fs hf _ ih =>
    obtain ⟨hc, hcs⟩ := List.forall_mem_cons.mp hcs
    rw [layout, tokens_append hc hf.2.2 hf.1, ih hcs]

lemma length_layout_le {cs : List Char} (hlength : cs.length = fs.length)
    (h : ∀ f ∈ fs, f.length ≤ 5) : (layout cs fs []).length ≤ 6 * fs.length := by
  induction cs generalizing fs with
  | nil => exact Nat.zero_le _
  | cons c cs ih =>
    cases fs with
    | nil => exact absurd hlength (Nat.succ_ne_zero _)
    | cons f fs =>
      obtain ⟨hf, h⟩ := List.forall_mem_cons.mp h
      have hrest := ih (Nat.succ.inj hlength) h
      rw [layout, List.length_append, List.length_cons, List.length_cons]
      omega

lemma isSeparator_of_mem (c : Char) (hc : c ∈ [',', ',', ',', ',', ')']) :
    isSeparator c = true := by
  simp only [List.mem_cons, List.not_mem_nil, or_false] at hc
  obtain rfl | rfl | rfl | rfl | rfl := hc <;> rfl

lemma bracketed_of_plain (hlength : fs.length = 5) (h : ∀ f ∈ fs, Plain f) :
    Bracketed ('(' :: layout [',', ',', ',', ',', ')'] fs []) fs := by
  refine ⟨[], [], List.not_mem_nil, rfl, List.forall₂_iff_zip.mpr ⟨hlength.symm, ?_⟩⟩
  intro c f hmem
  obtain ⟨hc, hf⟩ := List.of_mem_zip hmem
  obtain ⟨-, hshort, hnone⟩ := h f hf
  refine ⟨fun hcf => ?_, hshort⟩
  exact Bool.false_ne_true ((hnone c hcf).symm.trans (isSeparator_of_mem c hc))

/-- Every text of a bracket, five plain fields and a bracket is taken as it is meant. -/
lemma protects_of_plain (hlength : fs.length = 5) (h : ∀ f ∈ fs, Plain f) :
    Protects ('(' :: layout [',', ',', ',', ',', ')'] fs []) := by
  have hbracketed := bracketed_of_plain hlength h
  have htokens : tokens isSeparator ('(' :: layout [',', ',', ',', ',', ')'] fs []) = fs :=
    tokens_layout isSeparator_of_mem
      (List.forall₂_iff_zip.mpr ⟨hlength.symm, fun hmem => h _ (List.of_mem_zip hmem).2⟩)
  have hnumbers : numbers ('(' :: layout [',', ',', ',', ',', ')'] fs []) = fs.map atoi := by
    rw [numbers, htokens]
  have hbytes : (layout [',', ',', ',', ',', ')'] fs []).length ≤ 6 * fs.length :=
    length_layout_le hlength.symm fun f hf => (h f hf).2.1
  obtain ⟨l, t, r, b, w, hfive⟩ := exists_eq_of_length (fs.map atoi) (by simpa using hlength)
  refine ⟨decide (ValidArea l t r b w), checkFocusArea_eq_some.mpr ⟨?_, Or.inr
    ⟨l, t, r, b, w, hnumbers.trans hfive, rfl⟩⟩, fun _ => ⟨fs, parseFields_eq_some.mpr hbracketed,
      ?_⟩⟩
  · rw [List.length_cons]
    omega
  · rw [hnumbers, List.map_take]

/-! ## In `setParameters` -/

lemma focusTokens_eq (area : String) :
    SetParameters.focusTokens area = tokens isSeparator area.toList := by
  rw [SetParameters.focusTokens, tokens_eq]
  rfl

/-- `setParameters` runs this check. -/
lemma checkFocusArea_setParameters {e : SetParameters.Env} (hatoi : e.lib.atoi = atoi)
    {area : String} (hbytes : area.utf8ByteSize < 128) {ok : Bool}
    (h : checkFocusArea area.toList = some ok) :
    SetParameters.checkFocusArea e (some area) = some ok := by
  rw [SetParameters.checkFocusArea, if_neg (by omega), focusTokens_eq, hatoi]
  have hcount : (tokens isSeparator area.toList).length = (numbers area.toList).length := by
    rw [numbers, List.length_map]
  obtain ⟨-, ⟨hmany, rfl⟩ | ⟨l, t, r, b, w, hnumbers, rfl⟩⟩ := checkFocusArea_eq_some.mp h
  · simp only
    rw [if_pos (hcount ▸ hmany)]
  · have hfive : (tokens isSeparator area.toList).length = 5 := by rw [hcount, hnumbers]; rfl
    have hread (i : ℕ) : ((tokens isSeparator area.toList)[i]?.map atoi).getD (e.stack i) =
        ([l, t, r, b, w][i]?).getD (e.stack i) := by
      rw [← hnumbers, numbers, List.getElem?_map]
    simp only [hread, hfive]
    show (if l = 0 ∧ t = 0 ∧ r = 0 ∧ b = 0 ∧ w = 0 then some true
      else if w < 1 then some false
      else if [l, t, r, b].any fun a => a < -1000 || 1000 < a then some false
      else some (decide ¬(r ≤ l ∨ b ≤ t))) = _
    split_ifs with hnone hweight hrange
    · exact congrArg some (decide_eq_true (p := ValidArea l t r b w) (Or.inl hnone)).symm
    · refine congrArg some (decide_eq_false (p := ValidArea l t r b w) fun hvalid => ?_).symm
      exact hvalid.elim hnone fun h => by omega
    · refine congrArg some (decide_eq_false (p := ValidArea l t r b w) fun hvalid => ?_).symm
      obtain ⟨a, ha, hout⟩ := List.any_eq_true.mp hrange
      have hout : a < -1000 ∨ 1000 < a := by simpa using hout
      have hin := (hvalid.resolve_left hnone).2.1 a ha
      omega
    · have hin : ∀ a ∈ [l, t, r, b], -1000 ≤ a ∧ a ≤ 1000 := fun a ha => by
        by_contra hout
        exact hrange (List.any_eq_true.mpr ⟨a, ha, by simp; omega⟩)
      refine congrArg some (decide_eq_decide.mpr ⟨fun h => Or.inr ⟨by omega, hin, by omega⟩,
        fun hvalid => ?_⟩)
      have horder := (hvalid.resolve_left hnone).2.2
      omega

lemma cutField_setParameters {c : Char} {str field rest : List Char}
    (h : cutField c str = some (field, rest)) : SetParameters.cutField c str = some rest := by
  obtain ⟨rfl, hnot, hlength⟩ := cutField_eq_some.mp h
  rw [SetParameters.cutField, span_eq hnot]
  exact if_pos (by omega)

/-- A text of which the fields are found passes the parser there. -/
lemma parseFocusAreas_setParameters {area : String} {fs : List (List Char)}
    (h : parseFields area.toList = some fs) : SetParameters.parseFocusAreas area = some () := by
  obtain ⟨⟨pre, rest⟩, hcut, hfields⟩ := Option.bind_eq_some_iff.mp h
  have hstep {c : Char} {cs str : List Char} {fs : List (List Char)}
      (h : cutFields (c :: cs) str = some fs) :
      ∃ rest fs', SetParameters.cutField c str = some rest ∧ cutFields cs rest = some fs' := by
    obtain ⟨⟨field, rest⟩, hfield, hrest⟩ := Option.bind_eq_some_iff.mp h
    obtain ⟨fs', hrest, -⟩ := Option.bind_eq_some_iff.mp hrest
    exact ⟨rest, fs', cutField_setParameters hfield, hrest⟩
  obtain ⟨r₁, f₁, h₁, hfields⟩ := hstep hfields
  obtain ⟨r₂, f₂, h₂, hfields⟩ := hstep hfields
  obtain ⟨r₃, f₃, h₃, hfields⟩ := hstep hfields
  obtain ⟨r₄, f₄, h₄, hfields⟩ := hstep hfields
  obtain ⟨r₅, f₅, h₅, hfields⟩ := hstep hfields
  obtain ⟨hstr, hnot⟩ := cut_eq_some.mp hcut
  rw [SetParameters.parseFocusAreas, hstr, span_eq hnot]
  simp [h₁, h₂, h₃, h₄, h₅]

/-! ## The texts -/

/-- The text is refused for its numbers, or the fields of the brackets begin with the first four of
them.  Every text of a bracket, five plain fields and a bracket is of this kind.  What the check and
the parser do with a text is what they do with it in `setParameters`. -/
theorem protects_iff :
    (Protects str ↔ str.length ≤ 127 ∧
      (5 < (tokens isSeparator str).length ∨ ∃ l t r b w, numbers str = [l, t, r, b, w] ∧
        (ValidArea l t r b w → ∃ fs, Bracketed str fs ∧
          (fs.take 4).map (fun f => atoi (headToken f)) = [l, t, r, b]))) ∧
    (∀ fs : List (List Char), fs.length = 5 → (∀ f ∈ fs, Plain f) →
      Protects ('(' :: layout [',', ',', ',', ',', ')'] fs [])) ∧
    (∀ (e : SetParameters.Env) (area : String), e.lib.atoi = atoi → area.utf8ByteSize < 128 →
      ∀ ok, checkFocusArea area.toList = some ok →
        SetParameters.checkFocusArea e (some area) = some ok) ∧
    ∀ (area : String) (fs : List (List Char)), parseFields area.toList = some fs →
      SetParameters.parseFocusAreas area = some () := by
  refine ⟨?_, fun _ hlength h => protects_of_plain hlength h,
    fun _ _ hatoi hbytes _ h => checkFocusArea_setParameters hatoi hbytes h,
    fun _ _ h => parseFocusAreas_setParameters h⟩
  have hcount : (tokens isSeparator str).length = (numbers str).length := by
    rw [numbers, List.length_map]
  have hheads (fs : List (List Char)) :
      (fs.take 4).map (fun f => atoi (headToken f)) = (fs.take 4).map atoi :=
    List.map_congr_left fun f _ => atoi_headToken f
  rw [hcount]
  constructor
  · rintro ⟨ok, hcheck, hparse⟩
    obtain ⟨hlength, ⟨hmany, -⟩ | ⟨l, t, r, b, w, hnumbers, rfl⟩⟩ :=
      checkFocusArea_eq_some.mp hcheck
    · exact ⟨hlength, Or.inl hmany⟩
    · refine ⟨hlength, Or.inr ⟨l, t, r, b, w, hnumbers, fun hvalid => ?_⟩⟩
      obtain ⟨fs, hfields, hsame⟩ := hparse (decide_eq_true hvalid)
      rw [hnumbers] at hsame
      exact ⟨fs, parseFields_eq_some.mp hfields, (hheads fs).trans hsame⟩
  · rintro ⟨hlength, hmany | ⟨l, t, r, b, w, hnumbers, hfields⟩⟩
    · exact ⟨false, checkFocusArea_eq_some.mpr ⟨hlength, Or.inl ⟨hmany, rfl⟩⟩,
        fun h => absurd h Bool.false_ne_true⟩
    · refine ⟨decide (ValidArea l t r b w), checkFocusArea_eq_some.mpr
        ⟨hlength, Or.inr ⟨l, t, r, b, w, hnumbers, rfl⟩⟩, fun hvalid => ?_⟩
      obtain ⟨fs, hbracketed, hsame⟩ := hfields (of_decide_eq_true hvalid)
      refine ⟨fs, parseFields_eq_some.mpr hbracketed, ?_⟩
      rw [hnumbers, ← hheads fs, hsame]
      rfl

/-- The check does not ask for brackets, nor for five numbers. -/
theorem not_protects : ¬ Protects "1,1,2,2,1".toList ∧ ¬ Protects "(0,0,0,0)".toList := by
  have hcheck : checkFocusArea "1,1,2,2,1".toList = some true := by decide +kernel
  have hparse : parseFields "1,1,2,2,1".toList = none := by decide +kernel
  have hunassigned : checkFocusArea "(0,0,0,0)".toList = none := by decide +kernel
  refine ⟨fun ⟨ok, hok, hfields⟩ => ?_, fun ⟨ok, hok, _⟩ => ?_⟩
  · obtain rfl := Option.some.inj (hok.symm.trans hcheck)
    obtain ⟨fs, hfs, -⟩ := hfields rfl
    exact Option.some_ne_none fs (hfs.symm.trans hparse)
  · exact Option.some_ne_none ok (hok.symm.trans hunassigned)

end Softwinner.Camera.FocusArea
