import Mathlib.Algebra.Group.Int.Defs
import Mathlib.Algebra.GroupWithZero.Nat
import Mathlib.Data.List.Basic
import Mathlib.Tactic.Common

/-!
# C strings in memory

Code that handles texts in fixed arrays with the functions of the C library, where the arrays and
what is around them are one memory of characters.  `Holds m a t` says that the string at the
address `a` is the text `t`; the functions are total, and `strlen` takes a bound on what it looks
through.

`strtok` on a text is `tokens`: the non-empty parts between separators.

A loop that joins texts, with a separator behind each one and the last separator taken away at the
end, is `appendAll` and `dropLast` on `Arrays`, which records what is written.  `inside_appendAll`
says when the texts fit, and `holds_dropLast` what is in the array then.
-/

namespace Framework

/-- Characters by their address. -/
abbrev TextMemory := ℤ → Char

/-- The end of a string. -/
def nul : Char := Char.ofNat 0

namespace TextMemory

variable {m : TextMemory} {a b : ℤ} {s t : List Char} {n : ℕ}

/-- The string at `a` is `t`. -/
def Holds (m : TextMemory) (a : ℤ) : List Char → Prop
  | [] => m a = nul
  | c :: t => m a = c ∧ Holds m (a + 1) t

def strcpy (m : TextMemory) (a : ℤ) (t : List Char) : TextMemory := fun k =>
  if a ≤ k ∧ k ≤ a + t.length then t.getD (k - a).toNat nul else m k

/-- Whether `strcmp` finds the text `t` at `a`. -/
def strcmp (t : List Char) (m : TextMemory) (a : ℤ) : Bool :=
  match t with
  | [] => m a == nul
  | c :: t => m a == c && strcmp t m (a + 1)

/-- `strlen`, of a string of at most `n` characters. -/
def strlen (m : TextMemory) (a : ℤ) : ℕ → ℕ
  | 0 => 0
  | n + 1 => if m a = nul then 0 else strlen m (a + 1) n + 1

def strcat (n : ℕ) (m : TextMemory) (a : ℤ) (t : List Char) : TextMemory :=
  m.strcpy (a + m.strlen a n) t

lemma strcmp_iff (t : List Char) : ∀ a, strcmp t m a = true ↔ m.Holds a t := by
  induction t with
  | nil => simp [strcmp, Holds]
  | cons c t ih => simp [strcmp, Holds, ih]

/-- A string is given by its characters up to the first end. -/
lemma Holds.unique (ht : nul ∉ t) : ∀ {a s}, nul ∉ s → m.Holds a s → m.Holds a t → s = t := by
  induction t with
  | nil =>
    intro a s hs h h'
    cases s with
    | nil => rfl
    | cons c s => exact absurd (List.mem_cons.mpr (Or.inl (h'.symm.trans h.1))) hs
  | cons d t ih =>
    intro a s hs h h'
    obtain ⟨hd, ht⟩ := not_or.mp (mt List.mem_cons.mpr ht)
    cases s with
    | nil => exact absurd (h.symm.trans h'.1) hd
    | cons c s =>
      obtain ⟨-, hs⟩ := not_or.mp (mt List.mem_cons.mpr hs)
      rw [h.1.symm.trans h'.1, ih ht hs h.2 h'.2]

lemma strlen_of_holds (t : List Char) (ht : nul ∉ t) :
    ∀ {a n}, t.length ≤ n → m.Holds a t → m.strlen a n = t.length := by
  induction t with
  | nil =>
    intro a n _ h
    cases n with
    | zero => rfl
    | succ n =>
      have hend : m a = nul := h
      rw [strlen, if_pos hend, List.length_nil]
  | cons c t ih =>
    intro a n hn h
    obtain ⟨hc, ht⟩ := not_or.mp (mt List.mem_cons.mpr ht)
    cases n with
    | zero => exact absurd hn (by simp)
    | succ n =>
      rw [List.length_cons] at hn
      have hne : m a ≠ nul := fun heq => hc (heq.symm.trans h.1)
      rw [strlen, if_neg hne, ih ht (by omega) h.2, List.length_cons]

lemma holds_congr {m' : TextMemory} (t : List Char) :
    ∀ {a : ℤ}, (∀ k, a ≤ k → k ≤ a + t.length → m k = m' k) → (m.Holds a t ↔ m'.Holds a t) := by
  induction t with
  | nil =>
    intro a h
    rw [Holds, Holds, h a (Int.le_refl a) (by simp)]
  | cons c t ih =>
    intro a h
    rw [List.length_cons] at h
    rw [Holds, Holds, h a (Int.le_refl a) (by omega)]
    exact and_congr_right fun _ => ih fun k h1 h2 => h k (by omega) (by omega)

lemma strcpy_of_lt {k : ℤ} (h : k < a) : m.strcpy a t k = m k := by
  rw [strcpy, if_neg (by omega)]

lemma strcpy_of_gt {k : ℤ} (h : a + t.length < k) : m.strcpy a t k = m k := by
  rw [strcpy, if_neg (by omega)]

lemma strcpy_cons (m : TextMemory) (a : ℤ) (c : Char) (t : List Char) (k : ℤ) :
    m.strcpy a (c :: t) k = if k = a then c else m.strcpy (a + 1) t k := by
  unfold strcpy
  rw [List.length_cons]
  by_cases hk : k = a
  · rw [if_pos (by omega), if_pos hk, hk, Int.sub_self]
    rfl
  · rw [if_neg hk]
    by_cases hin : a + 1 ≤ k ∧ k ≤ a + 1 + t.length
    · have hpos : (k - a).toNat = (k - (a + 1)).toNat + 1 := by omega
      rw [if_pos (by omega), if_pos hin, hpos, List.getD_cons_succ]
    · rw [if_neg (by omega), if_neg hin]

/-- What is copied is the string there. -/
lemma holds_strcpy (t : List Char) : ∀ (m : TextMemory) (a : ℤ), (m.strcpy a t).Holds a t := by
  induction t with
  | nil =>
    intro m a
    show m.strcpy a [] a = nul
    rw [strcpy, if_pos (by simp)]
    rfl
  | cons c t ih =>
    intro m a
    refine ⟨by rw [strcpy_cons, if_pos rfl], (holds_congr t fun k h _ => ?_).mpr (ih m (a + 1))⟩
    rw [strcpy_cons, if_neg (by omega)]

/-- A text is appended at the end of a string. -/
lemma holds_append (m : TextMemory) (s : List Char) : ∀ {a : ℤ}, m.Holds a s →
    (m.strcpy (a + s.length) t).Holds a (s ++ t) := by
  induction s with
  | nil =>
    intro a _
    have hstart : a + (([] : List Char).length : ℤ) = a := by simp
    rw [hstart]
    exact holds_strcpy t m a
  | cons c s ih =>
    intro a h
    have hshift : a + ((c :: s).length : ℤ) = a + 1 + s.length := by
      rw [List.length_cons]
      omega
    rw [hshift]
    refine ⟨?_, ih h.2⟩
    rw [strcpy_of_lt (by omega)]
    exact h.1

lemma holds_strcat (hs : nul ∉ s) (hn : s.length ≤ n) (h : m.Holds a s) :
    (m.strcat n a t).Holds a (s ++ t) := by
  rw [strcat, strlen_of_holds s hs hn h]
  exact holds_append m s h

end TextMemory

/-! ## Tokens -/

/-- The tokens of a text, with the characters of the current one. -/
def tokensFrom (sep : Char → Bool) : List Char → List Char → List (List Char)
  | current, [] => if current.isEmpty then [] else [current]
  | current, c :: s =>
    if sep c then (if current.isEmpty then [] else [current]) ++ tokensFrom sep [] s
    else tokensFrom sep (current ++ [c]) s

/-- What `strtok` finds in a text, one call after the other. -/
def tokens (sep : Char → Bool) (s : List Char) : List (List Char) := tokensFrom sep [] s

lemma mem_of_mem_tokensFrom {sep : Char → Bool} {c : Char} (s : List Char) :
    ∀ {current t : List Char}, t ∈ tokensFrom sep current s → c ∈ t → c ∈ current ∨ c ∈ s := by
  induction s with
  | nil =>
    intro current t ht hc
    rw [tokensFrom] at ht
    split_ifs at ht
    · exact absurd ht List.not_mem_nil
    · obtain rfl := List.mem_singleton.mp ht
      exact Or.inl hc
  | cons d s ih =>
    intro current t ht hc
    rw [tokensFrom] at ht
    split_ifs at ht
    · rcases ih (show t ∈ tokensFrom sep [] s from ht) hc with h | h
      · exact absurd h List.not_mem_nil
      · exact Or.inr (List.mem_cons_of_mem _ h)
    · rcases List.mem_append.mp ht with ht | ht
      · obtain rfl := List.mem_singleton.mp ht
        exact Or.inl hc
      · rcases ih ht hc with h | h
        · exact absurd h List.not_mem_nil
        · exact Or.inr (List.mem_cons_of_mem _ h)
    · rcases ih ht hc with h | h
      · rcases List.mem_append.mp h with h | h
        · exact Or.inl h
        · exact Or.inr (List.mem_cons.mpr (Or.inl (List.mem_singleton.mp h)))
      · exact Or.inr (List.mem_cons_of_mem _ h)

/-- A token has only characters of the text. -/
lemma mem_of_mem_tokens {sep : Char → Bool} {c : Char} {s t : List Char} (ht : t ∈ tokens sep s)
    (hc : c ∈ t) : c ∈ s :=
  (mem_of_mem_tokensFrom s ht hc).resolve_left List.not_mem_nil

lemma tokensFrom_append {sep : Char → Bool} {c : Char} (hc : sep c = true) {rest : List Char}
    (t : List Char) (ht : ∀ d ∈ t, sep d = false) : ∀ {current : List Char}, current ++ t ≠ [] →
      tokensFrom sep current (t ++ c :: rest) = (current ++ t) :: tokens sep rest := by
  induction t with
  | nil =>
    intro current hne
    rw [List.append_nil] at hne
    rw [List.nil_append, tokensFrom, if_pos hc, List.isEmpty_eq_false_iff.mpr hne, List.append_nil]
    rfl
  | cons d t ih =>
    intro current _
    obtain ⟨hd, ht⟩ := List.forall_mem_cons.mp ht
    have happend : current ++ d :: t = current ++ [d] ++ t := by simp
    rw [List.cons_append, tokensFrom, hd, happend]
    exact ih ht (by simp)

lemma tokensFrom_last {sep : Char → Bool} (t : List Char) (ht : ∀ d ∈ t, sep d = false) :
    ∀ {current : List Char}, current ++ t ≠ [] → tokensFrom sep current t = [current ++ t] := by
  induction t with
  | nil =>
    intro current hne
    rw [List.append_nil] at hne ⊢
    rw [tokensFrom, List.isEmpty_eq_false_iff.mpr hne]
    rfl
  | cons d t ih =>
    intro current _
    obtain ⟨hd, ht⟩ := List.forall_mem_cons.mp ht
    have happend : current ++ d :: t = current ++ [d] ++ t := by simp
    rw [tokensFrom, hd, happend]
    exact ih ht (by simp)

/-- The first of several texts. -/
lemma tokens_append {sep : Char → Bool} {c : Char} (hc : sep c = true) {t rest : List Char}
    (ht : ∀ d ∈ t, sep d = false) (hne : t ≠ []) :
    tokens sep (t ++ c :: rest) = t :: tokens sep rest :=
  tokensFrom_append hc t ht hne

/-- The last one. -/
lemma tokens_last {sep : Char → Bool} {t : List Char} (ht : ∀ d ∈ t, sep d = false)
    (hne : t ≠ []) : tokens sep t = [t] :=
  tokensFrom_last t ht hne

/-- The tokens are the non-empty parts between the separators. -/
lemma tokensFrom_eq (sep : Char → Bool) (s : List Char) : ∀ current : List Char,
    tokensFrom sep current s =
      ((s.splitOnP sep).modifyHead (current ++ ·)).filter fun t => t ≠ [] := by
  induction s with
  | nil =>
    intro current
    rw [tokensFrom, List.splitOnP_nil]
    cases current <;> simp
  | cons c s ih =>
    intro current
    rw [tokensFrom, List.splitOnP_cons_eq_if_modifyHead]
    cases hc : sep c with
    | true =>
      have hsame : (s.splitOnP sep).modifyHead ([] ++ ·) = s.splitOnP sep := by
        cases s.splitOnP sep <;> rfl
      rw [if_pos rfl, if_pos rfl, List.modifyHead_cons, List.append_nil, ih, hsame]
      cases current <;> simp
    | false =>
      rw [if_neg Bool.false_ne_true, if_neg Bool.false_ne_true, ih, List.modifyHead_modifyHead]
      congr 2
      funext t
      simp

lemma tokens_eq (sep : Char → Bool) (s : List Char) :
    tokens sep s = (s.splitOnP sep).filter fun t => t ≠ [] := by
  rw [tokens, tokensFrom_eq]
  congr 1
  cases s.splitOnP sep <;> rfl

/-- The tokens have all characters but the separators. -/
lemma flatten_tokensFrom (sep : Char → Bool) (s : List Char) : ∀ current : List Char,
    (tokensFrom sep current s).flatten = current ++ s.filter fun c => !sep c := by
  induction s with
  | nil =>
    intro current
    rw [tokensFrom]
    cases current <;> simp
  | cons c s ih =>
    intro current
    rw [tokensFrom]
    cases hc : sep c with
    | true =>
      rw [if_pos rfl, List.flatten_append, ih, List.filter_cons_of_neg (by simp [hc])]
      cases current <;> simp
    | false =>
      rw [if_neg Bool.false_ne_true, ih, List.filter_cons_of_pos (by simp [hc])]
      simp

lemma flatten_tokens (sep : Char → Bool) (s : List Char) :
    (tokens sep s).flatten = s.filter fun c => !sep c :=
  flatten_tokensFrom sep s []

/-! ## Texts that are joined in arrays -/

/-- A write to a range of an array, from the address `first` to `last`. -/
structure Write where
  array : ℤ
  first : ℤ
  last : ℤ

def Write.Inside (size : ℕ) (w : Write) : Prop := w.array ≤ w.first ∧ w.last < w.array + size

/-- Memory with arrays, and for the specification, what has been written. -/
structure Arrays where
  text : TextMemory
  writes : List Write

namespace Arrays

/-- A bound for `strlen`, which is more than all texts together have. -/
def maxText : ℕ := 4096

def strlen (x : Arrays) (a : ℤ) : ℕ := x.text.strlen a maxText

def strcat (x : Arrays) (a : ℤ) (t : List Char) : Arrays :=
  ⟨x.text.strcat maxText a t,
    x.writes ++ [⟨a, a + x.strlen a, a + x.strlen a + t.length⟩]⟩

/-- The string ends before its last character. -/
def dropLast (x : Arrays) (a : ℤ) : Arrays :=
  ⟨Function.update x.text (a + x.strlen a - 1) nul,
    x.writes ++ [⟨a, a + x.strlen a - 1, a + x.strlen a - 1⟩]⟩

/-- Texts are appended to the strings in arrays, with a separator behind each one. -/
def appendAll {ι : Type} (base : ι → ℤ) (sep : Char) (ops : List (ι × List Char)) (x : Arrays) :
    Arrays :=
  ops.foldl (fun x op => (x.strcat (base op.1) op.2).strcat (base op.1) [sep]) x

def Inside (size : ℕ) (x : Arrays) : Prop := ∀ w ∈ x.writes, w.Inside size

variable {x y : Arrays} {a : ℤ} {s t : List Char} {size : ℕ}

lemma holds_strcat (hs : nul ∉ s) (hlen : s.length ≤ maxText) (h : x.text.Holds a s) :
    (x.strcat a t).text.Holds a (s ++ t) :=
  TextMemory.holds_strcat hs hlen h

lemma strlen_of_holds (hs : nul ∉ s) (hlen : s.length ≤ maxText) (h : x.text.Holds a s) :
    x.strlen a = s.length :=
  TextMemory.strlen_of_holds s hs hlen h

lemma inside_strcat (size : ℕ) (hs : nul ∉ s) (hlen : s.length ≤ maxText)
    (h : x.text.Holds a s) :
    (x.strcat a t).Inside size ↔ x.Inside size ∧ s.length + t.length < size := by
  unfold Inside strcat
  rw [List.forall_mem_append, List.forall_mem_singleton, strlen_of_holds hs hlen h]
  refine and_congr_right fun _ => ?_
  unfold Write.Inside
  simp only
  omega

/-- What is before the string, or behind what is appended, stays. -/
lemma strcat_frame (hs : nul ∉ s) (hlen : s.length ≤ maxText) (h : x.text.Holds a s) {k : ℤ}
    (hk : k < a ∨ a + s.length + t.length < k) : (x.strcat a t).text k = x.text k := by
  show (x.text.strcat maxText a t) k = x.text k
  rw [TextMemory.strcat, TextMemory.strlen_of_holds s hs hlen h]
  rcases hk with hk | hk
  · exact TextMemory.strcpy_of_lt (by omega)
  · exact TextMemory.strcpy_of_gt hk

lemma holds_update (s : List Char) : ∀ {m : TextMemory} {a : ℤ} {c : Char}, m.Holds a (s ++ [c]) →
    TextMemory.Holds (Function.update m (a + s.length) nul) a s := by
  induction s with
  | nil =>
    intro m a c _
    have hend : a + (([] : List Char).length : ℤ) = a := by simp
    rw [hend]
    exact Function.update_self ..
  | cons d s ih =>
    intro m a c h
    have hshift : a + ((d :: s).length : ℤ) = a + 1 + s.length := by
      rw [List.length_cons]
      omega
    rw [hshift]
    refine ⟨?_, ih h.2⟩
    rw [Function.update_of_ne (by omega)]
    exact h.1

lemma inside_dropLast (hs : nul ∉ s) (hlen : s.length ≤ maxText) (h : x.text.Holds a s)
    (hlt : s.length < size) : (x.dropLast a).Inside size ↔ x.Inside size ∧ s ≠ [] := by
  unfold Inside dropLast
  rw [List.forall_mem_append, List.forall_mem_singleton, strlen_of_holds hs hlen h,
    ← List.length_pos_iff]
  refine and_congr_right fun _ => ?_
  unfold Write.Inside
  simp only
  omega

lemma holds_dropLast {c : Char} (hs : nul ∉ s ++ [c]) (hlen : (s ++ [c]).length ≤ maxText)
    (h : x.text.Holds a (s ++ [c])) : (x.dropLast a).text.Holds a s := by
  have hplace : a + ((s ++ [c]).length : ℤ) - 1 = a + s.length := by
    rw [List.length_append, List.length_singleton]
    omega
  rw [dropLast, strlen_of_holds hs hlen h, hplace]
  exact holds_update s h

lemma dropLast_frame {b : ℤ} (hs : nul ∉ s) (hlen : s.length ≤ maxText) (h : x.text.Holds a s)
    (hne : s ≠ []) (ht : x.text.Holds b t) (hdisj : b + t.length < a ∨ a + s.length ≤ b) :
    (x.dropLast a).text.Holds b t := by
  have hpos := List.length_pos_iff.mpr hne
  refine (TextMemory.holds_congr t fun k h1 h2 => ?_).mpr ht
  rw [dropLast, strlen_of_holds hs hlen h]
  exact Function.update_of_ne (by omega) ..

/-- What was written outside before stays written. -/
lemma Inside.of_appendAll {ι : Type} {base : ι → ℤ} {sep : Char} {ops : List (ι × List Char)} :
    ∀ {x : Arrays}, (appendAll base sep ops x).Inside size → x.Inside size := by
  induction ops with
  | nil => exact fun h => h
  | cons op ops ih =>
    intro x h w hw
    exact ih h w (List.mem_append_left _ (List.mem_append_left _ hw))

end Arrays

/-- The texts, with a separator behind each one. -/
def separated (sep : Char) (ts : List (List Char)) : List Char := ts.flatMap (· ++ [sep])

lemma separated_append (sep : Char) (ts us : List (List Char)) :
    separated sep (ts ++ us) = separated sep ts ++ separated sep us :=
  List.flatMap_append

lemma separated_eq {sep : Char} (ts : List (List Char)) (hts : ts ≠ []) :
    separated sep ts = [sep].intercalate ts ++ [sep] := by
  induction ts with
  | nil => exact absurd rfl hts
  | cons t ts ih =>
    cases ts with
    | nil => simp [separated]
    | cons u us =>
      rw [List.intercalate_cons_cons, List.append_assoc, ← ih (List.cons_ne_nil u us)]
      simp [separated]

lemma length_separated (sep : Char) (ts : List (List Char)) :
    (separated sep ts).length = (ts.map fun t => t.length + 1).sum := by
  simp [separated, List.length_flatMap]

lemma nul_notMem_separated {sep : Char} (hsep : nul ≠ sep) {ts : List (List Char)}
    (hts : ∀ t ∈ ts, nul ∉ t) : nul ∉ separated sep ts := by
  intro hmem
  obtain ⟨t, ht, hmem⟩ := List.mem_flatMap.mp hmem
  rcases List.mem_append.mp hmem with hmem | hmem
  · exact hts t ht hmem
  · exact hsep (List.mem_singleton.mp hmem)

/-- The texts that are appended to one of the arrays. -/
def textsOf {ι : Type} [DecidableEq ι] (i : ι) (ops : List (ι × List Char)) : List (List Char) :=
  (ops.filter fun op => op.1 = i).map Prod.snd

namespace Arrays

variable {ι : Type} [DecidableEq ι] {base : ι → ℤ} {sep : Char} {size : ℕ} {x : Arrays}
  {lines : ι → List (List Char)}

/-- Every array holds its texts, with what is behind them. -/
structure Lines (base : ι → ℤ) (sep : Char) (size : ℕ) (lines : ι → List (List Char))
    (x : Arrays) : Prop where
  holds : ∀ i, x.text.Holds (base i) (separated sep (lines i))
  nul : ∀ i, ∀ t ∈ lines i, nul ∉ t
  length : ∀ i, (separated sep (lines i)).length < size

lemma length_separated_snoc (sep : Char) (ts : List (List Char)) (t : List Char) :
    (separated sep (ts ++ [t])).length = (separated sep ts).length + t.length + 1 := by
  rw [separated_append, List.length_append]
  simp [separated, Nat.add_assoc]

/-- One text is appended to its array. -/
lemma Lines.append (h : Lines base sep size lines x) (hsep : Framework.nul ≠ sep)
    (hsize : size ≤ maxText)
    (hgap : ∀ i j, i ≠ j → base i + size ≤ base j ∨ base j + size ≤ base i) {i : ι}
    {t : List Char} (ht : Framework.nul ∉ t) :
    let y := (x.strcat (base i) t).strcat (base i) [sep]
    (y.Inside size ↔ x.Inside size ∧ (separated sep (lines i ++ [t])).length < size) ∧
    ((separated sep (lines i ++ [t])).length < size →
      Lines base sep size (Function.update lines i (lines i ++ [t])) y) := by
  intro y
  have hs := nul_notMem_separated hsep (h.nul i)
  have hlt := h.length i
  have hlen : (separated sep (lines i)).length ≤ maxText := by omega
  have hfirst := inside_strcat (t := t) size hs hlen (h.holds i)
  have hgrown := length_separated_snoc sep (lines i) t
  by_cases hfit : (separated sep (lines i)).length + t.length < size
  · have hs' : Framework.nul ∉ separated sep (lines i) ++ t := by
      rw [List.mem_append, not_or]
      exact ⟨hs, ht⟩
    have hlen' : (separated sep (lines i) ++ t).length ≤ maxText := by
      rw [List.length_append]
      omega
    have hholds := holds_strcat (t := t) hs hlen (h.holds i)
    have hsecond := inside_strcat (t := [sep]) size hs' hlen' hholds
    rw [List.length_append, List.length_singleton] at hsecond
    constructor
    · rw [hsecond, hfirst, hgrown]
      simp only [hfit, and_true]
    · intro hlong
      refine ⟨fun j => ?_, fun j => ?_, fun j => ?_⟩
      all_goals by_cases hj : j = i
      · rw [hj, Function.update_self, separated_append]
        have hholds' := holds_strcat (t := [sep]) hs' hlen' hholds
        rw [List.append_assoc] at hholds'
        simpa [separated] using hholds'
      · rw [Function.update_of_ne hj]
        have hother := h.length j
        have hgap := hgap j i hj
        refine (TextMemory.holds_congr _ fun k h1 h2 => ?_).mpr (h.holds j)
        rw [strcat_frame hs' hlen' hholds, strcat_frame hs hlen (h.holds i)]
        · omega
        · rw [List.length_append, List.length_singleton]
          omega
      · rw [hj, Function.update_self]
        exact List.forall_mem_append.mpr ⟨h.nul i, List.forall_mem_singleton.mpr ht⟩
      · rw [Function.update_of_ne hj]
        exact h.nul j
      · rw [hj, Function.update_self]
        exact hlong
      · rw [Function.update_of_ne hj]
        exact h.length j
  · refine ⟨iff_of_false (fun hinside => ?_) fun hlong => ?_, fun hlong => ?_⟩
    · have hinside : (x.strcat (base i) t).Inside size :=
        fun w hw => hinside w (List.mem_append_left _ hw)
      exact hfit (hfirst.mp hinside).2
    · omega
    · omega

/-- All texts are appended. -/
lemma Lines.appendAll (hsep : Framework.nul ≠ sep) (hsize : size ≤ maxText)
    (hgap : ∀ i j, i ≠ j → base i + size ≤ base j ∨ base j + size ≤ base i)
    (ops : List (ι × List Char)) : (∀ op ∈ ops, Framework.nul ∉ op.2) →
    ∀ {lines : ι → List (List Char)} {x : Arrays}, Lines base sep size lines x →
      ((x.appendAll base sep ops).Inside size ↔
        x.Inside size ∧ ∀ i, (separated sep (lines i ++ textsOf i ops)).length < size) ∧
      ((∀ i, (separated sep (lines i ++ textsOf i ops)).length < size) →
        Lines base sep size (fun i => lines i ++ textsOf i ops) (x.appendAll base sep ops)) := by
  induction ops with
  | nil =>
    intro _ lines x h
    simp only [textsOf, List.filter_nil, List.map_nil, List.append_nil]
    exact ⟨(and_iff_left h.length).symm, fun _ => h⟩
  | cons op ops ih =>
    intro hnul lines x h
    obtain ⟨i, t⟩ := op
    obtain ⟨ht, hnul⟩ := List.forall_mem_cons.mp hnul
    obtain ⟨hinside, hlines⟩ := h.append hsep hsize hgap (i := i) ht
    have htexts : ∀ j, Function.update lines i (lines i ++ [t]) j ++ textsOf j ops =
        lines j ++ textsOf j ((i, t) :: ops) := by
      intro j
      by_cases hj : j = i
      · rw [hj, Function.update_self]
        simp [textsOf]
      · rw [Function.update_of_ne hj]
        simp [textsOf, Ne.symm hj]
    by_cases hfit : (separated sep (lines i ++ [t])).length < size
    · obtain ⟨hall, hgrown⟩ := ih hnul (hlines hfit)
      simp only [htexts] at hall hgrown
      refine ⟨hall.trans ?_, hgrown⟩
      rw [hinside, and_iff_left hfit]
    · have hlong : ¬ ∀ j, (separated sep (lines j ++ textsOf j ((i, t) :: ops))).length < size := by
        intro hshort
        have hi := hshort i
        rw [← htexts, Function.update_self, separated_append, List.length_append] at hi
        omega
      refine ⟨iff_of_false (fun h => hfit (hinside.mp ?_).2) fun h => hlong h.2,
        fun h => absurd h hlong⟩
      exact Inside.of_appendAll h

end Arrays

end Framework
