import Mathlib.Data.List.Forall2
import Mathlib.Data.List.TakeWhile
import Softwinner.Framework.Runs
import Softwinner.Framework.Text

/-!
# The volume configuration

`get_volume_config` reads the lines of `phone_volume.conf`.  A line in square brackets starts a
section, and the lines behind it are read by `process_line`, one for each array of the section,
whatever they begin with.

The position from which a line is looked at is a variable that is set once, before the loop over the
lines; it is only ever advanced, over spaces.  `process_line` goes on from the result of `strstr`
without a test, and six values are copied from an array that has as many as the line.
`volumeConfig_iff` has both: a file of the format is read as it should be if the indentation never
decreases, and the exact condition for a file not to crash, or to give values it does not have.

`malloc` succeeds, and `heap` is what is behind the values in the memory that it returns.
-/

namespace Softwinner.Audio.VolumeConfig

open Framework Framework.TextMemory

/-! ## Data -/

/-- The arrays of `volume_array`, and `up_pcm_gain`. -/
inductive Field
  | earpiecePhonepnGain | earpieceMixerGain | earpieceHpGain
  | headsetPhonepnGain | headsetMixerGain | headsetHpGain
  | speakerPhonepnGain | speakerMixerGain | speakerSpkGain
  | fmHeadsetLineGain | fmHeadsetHpGain
  | fmSpeakerLineGain | fmSpeakerSpkGain
  | upPcmGain
  deriving DecidableEq

def Field.count : Field → ℕ
  | .upPcmGain => 1
  | _ => 6

inductive Section
  | phoneEarpiece | phoneHeadset | phoneSpeaker | bluetoothUp | fmHeadset | fmSpeaker
  deriving DecidableEq

namespace Section

/-- `KEY_PHONE_EARPIECE` and so on. -/
def key : Section → List Char
  | phoneEarpiece => "PHONE_EARPIECE".toList
  | phoneHeadset => "PHONE_HEADSET".toList
  | phoneSpeaker => "PHONE_SPEAKER".toList
  | bluetoothUp => "BLUETOOTH_UP".toList
  | fmHeadset => "FM_HEADSET".toList
  | fmSpeaker => "FM_SPEAKER".toList

/-- What the lines of a section are copied to. -/
def fields : Section → List Field
  | phoneEarpiece => [.earpiecePhonepnGain, .earpieceMixerGain, .earpieceHpGain]
  | phoneHeadset => [.headsetPhonepnGain, .headsetMixerGain, .headsetHpGain]
  | phoneSpeaker => [.speakerPhonepnGain, .speakerMixerGain, .speakerSpkGain]
  | bluetoothUp => [.upPcmGain]
  | fmHeadset => [.fmHeadsetLineGain, .fmHeadsetHpGain]
  | fmSpeaker => [.fmSpeakerLineGain, .fmSpeakerSpkGain]

/-- All sections, in the order of the comparisons. -/
def all : List Section :=
  [phoneEarpiece, phoneHeadset, phoneSpeaker, bluetoothUp, fmHeadset, fmSpeaker]

end Section

abbrev VolumeArray := (f : Field) → Fin f.count → ℤ

structure State where
  i : ℕ
  linebuf : TextMemory
  /-- What the next lines are copied to, within a section. -/
  pending : List Field
  volArray : VolumeArray
  /-- `val_array` is not `NULL`. -/
  valArray : Bool
  /-- `strstr` found nothing in a line that is read for its values. -/
  crashed : Bool
  /-- For the specification: a value has been copied that is not one of the line. -/
  unparsed : Bool

/-! ## Lines and values -/

def maxLineSz : ℕ := 100

/-- What `fgets` reads with room for `n` characters, and the rest of the file. -/
def fgets : ℕ → List Char → List Char × List Char
  | 0, file => ([], file)
  | _, [] => ([], [])
  | n + 1, c :: file =>
    if c = '\n' then ([c], file)
    else
      let (line, rest) := fgets n file
      (c :: line, rest)

/-- The lines of a file, as `fgets` gives them one after the other; at most `n`. -/
def linesUpTo : ℕ → List Char → List (List Char)
  | 0, _ => []
  | _, [] => []
  | n + 1, c :: file =>
    let (line, rest) := fgets (maxLineSz - 1) (c :: file)
    line :: linesUpTo n rest

def lines (file : List Char) : List (List Char) := linesUpTo file.length file

/-- A string ends at the first `nul`. -/
def cstring (line : List Char) : List Char := line.takeWhile (· != nul)

def isSpace (c : Char) : Bool := c == ' ' || (9 ≤ c.toNat && c.toNat ≤ 13)

def digits (t : List Char) : ℤ :=
  (t.takeWhile Char.isDigit).foldl (fun n c => 10 * n + (c.toNat - 48 : ℕ)) 0

/-- A number that is not an `int`, for which the result of the function is not defined, is taken as
it is. -/
def atoi (t : List Char) : ℤ :=
  match t.dropWhile isSpace with
  | '-' :: t => -digits t
  | '+' :: t => digits t
  | t => digits t

/-- `process_line`; nothing is returned if there is no `=`. -/
def processLine (line : List Char) : Option (List ℤ) :=
  match (cstring line).dropWhile (· != '=') with
  | [] => none
  | _ :: t => some ((tokens (· == ',') t).map atoi)

/-! ## The loop -/

/-- `while (linebuf[i] == CONF_SPACE) i++`; what is behind the array is not followed for longer than
the array. -/
def skipSpaces (m : TextMemory) : ℕ → ℕ → ℕ
  | 0, i => i
  | n + 1, i => if m i = ' ' then skipSpaces m n (i + 1) else i

/-- The string at an address, of at most `n` characters. -/
def textAt (m : TextMemory) : ℕ → ℤ → List Char
  | 0, _ => []
  | n + 1, a => if m a = nul then [] else m a :: textAt m n (a + 1)

/-- `strtok(line, "]")`, and the memory behind it. -/
def strtok (m : TextMemory) (a : ℤ) : Option (List Char) × TextMemory :=
  let text := textAt m maxLineSz a
  let rest := text.dropWhile (· == ']')
  let token := rest.takeWhile (· != ']')
  if rest = [] then (none, m)
  else
    (some token,
      if token.length < rest.length then
        Function.update m (a + (text.length - rest.length + token.length : ℕ)) nul
      else m)

namespace State

variable (heap : ℕ → ℤ) (s : State)

/-- A line outside of the sections. -/
def readHeader (line : List Char) : State :=
  let linebuf := s.linebuf.strcpy 0 line
  let i := skipSpaces linebuf maxLineSz s.i
  if linebuf i = '#' then { s with linebuf := linebuf, i := i }
  else
    let (token, linebuf) := strtok linebuf i
    let name := token.map List.tail
    let found := Section.all.find? fun x => name = some x.key
    { s with linebuf := linebuf, i := i, pending := (found.map Section.fields).getD [] }

/-- A line of a section. -/
def readValues (f : Field) (fs : List Field) (line : List Char) : State :=
  match processLine line with
  | none => { s with crashed := true }
  | some vals =>
    { s with
      pending := fs
      volArray := Function.update s.volArray f fun j => vals.getD j (heap j)
      valArray := true
      unparsed := s.unparsed || decide (vals.length < f.count) }

def step (line : List Char) : State :=
  if s.crashed then s
  else
    match s.pending with
    | [] => s.readHeader line
    | f :: fs => s.readValues heap f fs line

end State

def start (stack : TextMemory) : State where
  i := 0
  linebuf := stack
  pending := []
  volArray := fun _ _ => 0
  valArray := false
  crashed := false
  unparsed := false

/-- The state at the end of the file; `stack` is what is in `linebuf` before. -/
def readFile (stack : TextMemory) (heap : ℕ → ℤ) (file : List Char) : State :=
  (lines file).foldl (State.step heap) (start stack)

/-- `get_volume_config`, with what is in `vol_array` then; -1 is returned if there is no file, or if
it ends within a section, or before the first one. -/
def getVolumeConfig (stack : TextMemory) (heap : ℕ → ℤ) (file : Option (List Char)) :
    Option (ℤ × VolumeArray) :=
  match file with
  | none => some (-1, fun _ _ => 0)
  | some file =>
    let s := readFile stack heap file
    if s.crashed then none
    else some (if s.pending = [] ∧ s.valArray then 0 else -1, s.volArray)

/-! ## The format -/

def blanks (n : ℕ) : List Char := List.replicate n ' '

@[simp] lemma length_blanks (n : ℕ) : (blanks n).length = n := List.length_replicate

def digitChar (d : Fin 10) : Char := Char.ofNat (48 + d)

/-- An integer as it is written. -/
structure IntText where
  indent : ℕ
  negative : Bool
  digits : List (Fin 10)

def IntText.text (t : IntText) : List Char :=
  blanks t.indent ++ ((if t.negative then ['-'] else []) ++ t.digits.map digitChar)

def IntText.value (t : IntText) : ℤ :=
  let n := t.digits.foldl (fun (n : ℤ) (d : Fin 10) => 10 * n + (d : ℕ)) 0
  if t.negative then -n else n

/-- The key of the lines for an array. -/
def Field.key : Field → List Char
  | .earpiecePhonepnGain | .headsetPhonepnGain | .speakerPhonepnGain => "phonepn_gain".toList
  | .earpieceMixerGain | .headsetMixerGain | .speakerMixerGain => "mixer_gain".toList
  | .earpieceHpGain | .headsetHpGain | .fmHeadsetHpGain => "hp_gain".toList
  | .speakerSpkGain | .fmSpeakerSpkGain => "spk_gain".toList
  | .fmHeadsetLineGain | .fmSpeakerLineGain => "line_gain".toList
  | .upPcmGain => "pcm_vol".toList

/-- A line of the format. -/
inductive Line
  | comment (indent : ℕ) (text : List Char)
  | blank (indent : ℕ)
  | header (indent : ℕ) (x : Section)
  | entry (indent : ℕ) (f : Field) (space : List Char) (ints : List IntText)

namespace Line

def text : Line → List Char
  | comment indent text => blanks indent ++ '#' :: text
  | blank indent => blanks indent
  | header indent x => blanks indent ++ '[' :: (x.key ++ [']'])
  | entry indent f space ints =>
    blanks indent ++ (f.key ++ space) ++ '=' :: [','].intercalate (ints.map IntText.text)

/-- What is in a line besides its fixed text. -/
def Ok : Line → Prop
  | comment _ text => nul ∉ text
  | blank _ => True
  | header _ _ => True
  | entry _ f space ints => (∀ c ∈ space, c = ' ' ∨ c = '\t') ∧ ints.length = f.count ∧
      ∀ t ∈ ints, t.digits ≠ [] ∧ -2 ^ 31 ≤ t.value ∧ t.value < 2 ^ 31

/-- The indentation of a line outside of the sections. -/
def scanned : Line → Option ℕ
  | comment indent _ => some indent
  | blank indent => some indent
  | header indent _ => some indent
  | entry .. => none

def section? : Line → Option Section
  | header _ x => some x
  | _ => none

end Line

/-- The order of the lines, with the arrays whose lines come next. -/
inductive Follows : List Field → List Line → Prop
  | nil : Follows [] []
  | comment {indent text ls} : Follows [] ls → Follows [] (.comment indent text :: ls)
  | blank {indent ls} : Follows [] ls → Follows [] (.blank indent :: ls)
  | header {indent x ls} : Follows x.fields ls → Follows [] (.header indent x :: ls)
  | entry {indent f fs space ints ls} : Follows fs ls →
    Follows (f :: fs) (.entry indent f space ints :: ls)

/-- A line as it is read, with its end; the last line may have none. -/
def Ended (l : Line) (line : List Char) : Prop := line = l.text ++ ['\n'] ∨ line = l.text

/-- A file of the format, by its lines. -/
structure WellFormed (ls : List Line) (file : List Char) : Prop where
  follows : Follows [] ls
  sections : (ls.filterMap Line.section?).Perm Section.all
  ok : ∀ l ∈ ls, l.Ok ∧ l.text.length < 99
  lines : List.Forall₂ Ended ls (lines file)

/-- What is expected for a file of the format. -/
def Configures (stack : TextMemory) (heap : ℕ → ℤ) (ls : List Line) (file : List Char) : Prop :=
  ∃ volArray, getVolumeConfig stack heap (some file) = some (0, volArray) ∧
    ∀ f, ∃ indent space ints, .entry indent f space ints ∈ ls ∧
      List.ofFn (volArray f) = ints.map IntText.value

/-- Only values of the lines have been copied, and no search has failed. -/
def Safe (s : State) : Prop := s.crashed = false ∧ s.unparsed = false

/-- A line that is read for its values has an `=`, and enough values behind it. -/
def ValuesOk (line : List Char) (s : State) : Prop :=
  ∀ f ∈ s.pending.head?, ∃ key values, cstring line = key ++ '=' :: values ∧ '=' ∉ key ∧
    f.count ≤ (tokens (· == ',') values).length

/-! ## Values -/

lemma digitChar_isDigit (d : Fin 10) : (digitChar d).isDigit = true := by
  revert d
  decide

lemma toNat_digitChar (d : Fin 10) : (digitChar d).toNat - 48 = d := by
  revert d
  decide

/-- Digits up to something else. -/
lemma digits_append (ds : List (Fin 10)) {rest : List Char}
    (hrest : rest.takeWhile Char.isDigit = []) :
    digits (ds.map digitChar ++ rest) =
      ds.foldl (fun (n : ℤ) (d : Fin 10) => 10 * n + (d : ℕ)) 0 := by
  have hall : ∀ c ∈ ds.map digitChar, c.isDigit = true := by
    intro c hc
    obtain ⟨d, -, rfl⟩ := List.mem_map.mp hc
    exact digitChar_isDigit d
  rw [digits, List.takeWhile_append_of_pos hall, hrest, List.append_nil, List.foldl_map]
  simp only [toNat_digitChar]

/-- What is behind a value in a line. -/
def IsEnd (t : List Char) : Prop := t = [] ∨ t = ['\n']

lemma atoi_text (t : IntText) (hne : t.digits ≠ []) {last : List Char} (hlast : IsEnd last) :
    atoi (t.text ++ last) = t.value := by
  have hrest : last.takeWhile Char.isDigit = [] := by
    rcases hlast with rfl | rfl <;> rfl
  have hspaces : ∀ c ∈ blanks t.indent, isSpace c = true := by
    intro c hc
    rw [List.eq_of_mem_replicate hc]
    rfl
  have hvalue := digits_append t.digits hrest
  obtain ⟨d, ds, hds⟩ := List.exists_cons_of_ne_nil hne
  have hfirst : ∀ d : Fin 10, isSpace (digitChar d) = false ∧ digitChar d ≠ '-' ∧
      digitChar d ≠ '+' := by decide
  obtain ⟨hspace, hminus, hplus⟩ := hfirst d
  unfold atoi IntText.text IntText.value
  rw [List.append_assoc, List.dropWhile_append_of_pos hspaces]
  cases t.negative with
  | true => simp [isSpace, hvalue]
  | false =>
    rw [hds] at hvalue ⊢
    simp only [Bool.false_eq_true, if_false, List.nil_append, List.map_cons,
      List.cons_append] at hvalue ⊢
    rw [List.dropWhile_cons_of_neg (by simp [hspace])]
    split
    · rename_i heq
      exact absurd (List.cons.inj heq).1 hminus
    · rename_i heq
      exact absurd (List.cons.inj heq).1 hplus
    · exact hvalue

lemma mem_text {t : IntText} {c : Char} (hc : c ∈ t.text) :
    c = ' ' ∨ c = '-' ∨ ∃ d, c = digitChar d := by
  rcases List.mem_append.mp hc with hc | hc
  · exact Or.inl (List.eq_of_mem_replicate hc)
  · rcases List.mem_append.mp hc with hc | hc
    · split_ifs at hc
      · exact Or.inr (Or.inl (List.mem_singleton.mp hc))
      · exact absurd hc List.not_mem_nil
    · obtain ⟨d, -, rfl⟩ := List.mem_map.mp hc
      exact Or.inr (Or.inr ⟨d, rfl⟩)

/-- A character that cannot stand in an integer. -/
lemma notMem_text {t : IntText} {c : Char} (hspace : c ≠ ' ') (hminus : c ≠ '-')
    (hdigit : ∀ d, c ≠ digitChar d) : c ∉ t.text := by
  intro hc
  rcases mem_text hc with h | h | ⟨d, h⟩
  · exact hspace h
  · exact hminus h
  · exact hdigit d h

lemma text_ne_nil {t : IntText} (hne : t.digits ≠ []) : t.text ≠ [] := by
  unfold IntText.text
  simp [hne]

/-- The values of a line. -/
lemma values_eq {last : List Char} (hlast : IsEnd last) (ints : List IntText) (hne : ints ≠ [])
    (hints : ∀ t ∈ ints, t.digits ≠ []) :
    (tokens (· == ',') ([','].intercalate (ints.map IntText.text) ++ last)).map atoi =
      ints.map IntText.value := by
  have hcomma : ∀ t : IntText, ∀ c ∈ t.text, (c == ',') = false := by
    intro t c hc
    have hnot : ',' ∉ t.text := notMem_text (by decide) (by decide) (by decide)
    exact beq_eq_false_iff_ne.mpr fun h => hnot (h ▸ hc)
  induction ints with
  | nil => exact absurd rfl hne
  | cons t ts ih =>
    obtain ⟨ht, hts⟩ := List.forall_mem_cons.mp hints
    cases ts with
    | nil =>
      have hall : ∀ c ∈ t.text ++ last, (c == ',') = false := by
        intro c hc
        rcases List.mem_append.mp hc with hc | hc
        · exact hcomma t c hc
        · rcases hlast with rfl | rfl
          · exact absurd hc List.not_mem_nil
          · rw [List.mem_singleton.mp hc]
            decide
      rw [List.map_singleton, List.intercalate_singleton,
        tokens_last hall (List.append_ne_nil_of_left_ne_nil (text_ne_nil ht) _),
        List.map_singleton, atoi_text t ht hlast, List.map_singleton]
    | cons u us =>
      have hrest := ih (List.cons_ne_nil u us) hts
      have hfirst := atoi_text t ht (Or.inl rfl)
      rw [List.append_nil] at hfirst
      rw [List.map_cons, List.map_cons, List.intercalate_cons_cons, List.append_assoc,
        List.append_assoc, List.singleton_append, tokens_append (by decide) (hcomma t)
          (text_ne_nil ht), List.map_cons, hfirst]
      rw [List.map_cons] at hrest
      rw [hrest, List.map_cons]
      rfl

lemma mem_joined {c : Char} (ts : List (List Char)) (hc : c ∈ [','].intercalate ts) :
    c = ',' ∨ ∃ t ∈ ts, c ∈ t := by
  induction ts with
  | nil => exact absurd hc List.not_mem_nil
  | cons t ts ih =>
    cases ts with
    | nil =>
      rw [List.intercalate_singleton] at hc
      exact Or.inr ⟨t, List.mem_singleton_self t, hc⟩
    | cons u us =>
      rw [List.intercalate_cons_cons, List.append_assoc] at hc
      rcases List.mem_append.mp hc with hc | hc
      · exact Or.inr ⟨t, List.mem_cons_self, hc⟩
      · rcases List.mem_cons.mp hc with hc | hc
        · exact Or.inl hc
        · rcases ih hc with h | ⟨v, hv, hc⟩
          · exact Or.inl h
          · exact Or.inr ⟨v, List.mem_cons_of_mem _ hv, hc⟩

/-- What stands before the values has no other characters than those of the key. -/
lemma notMem_front {indent : ℕ} {f : Field} {space : List Char} {c : Char}
    (hspace : ∀ d ∈ space, d = ' ' ∨ d = '\t') (hc : c ≠ ' ' ∧ c ≠ '\t') (hkey : c ∉ f.key) :
    c ∉ blanks indent ++ (f.key ++ space) := by
  intro hmem
  rcases List.mem_append.mp hmem with hmem | hmem
  · exact hc.1 (List.eq_of_mem_replicate hmem)
  · rcases List.mem_append.mp hmem with hmem | hmem
    · exact hkey hmem
    · rcases hspace c hmem with h | h
      · exact hc.1 h
      · exact hc.2 h

lemma nul_notMem_end {last : List Char} (hlast : IsEnd last) : nul ∉ last := by
  rcases hlast with rfl | rfl <;> decide

/-- A line of the format gives its values. -/
lemma processLine_entry {indent : ℕ} {f : Field} {space : List Char} {ints : List IntText}
    (hok : (Line.entry indent f space ints).Ok) {last : List Char} (hlast : IsEnd last) :
    processLine ((Line.entry indent f space ints).text ++ last) =
      some (ints.map IntText.value) := by
  obtain ⟨hspace, hcount, hints⟩ := hok
  have hne : ints ≠ [] := by
    rintro rfl
    cases f <;> exact nomatch hcount
  have hkeys : ∀ f : Field, nul ∉ f.key ∧ '=' ∉ f.key := fun f => by
    cases f <;> exact ⟨by decide, by decide⟩
  have hequals : '=' ∉ blanks indent ++ (f.key ++ space) :=
    notMem_front hspace (by decide) (hkeys f).2
  have hnul : nul ∉ (Line.entry indent f space ints).text ++ last := by
    rw [Line.text, List.append_assoc, List.mem_append, not_or]
    refine ⟨notMem_front hspace (by decide) (hkeys f).1, fun hmem => ?_⟩
    rcases List.mem_cons.mp hmem with h | hmem
    · exact absurd h (by decide)
    · rcases List.mem_append.mp hmem with hmem | hmem
      · rcases mem_joined _ hmem with h | ⟨t, ht, hmem⟩
        · exact absurd h (by decide)
        · obtain ⟨t, -, rfl⟩ := List.mem_map.mp ht
          exact notMem_text (by decide) (by decide) (by decide) hmem
      · exact nul_notMem_end hlast hmem
  have hcstring : cstring ((Line.entry indent f space ints).text ++ last) =
      (Line.entry indent f space ints).text ++ last :=
    List.takeWhile_eq_self_iff.mpr fun c hc => bne_iff_ne.mpr fun h => hnul (h ▸ hc)
  have hfront : ∀ c ∈ blanks indent ++ (f.key ++ space), (c != '=') = true :=
    fun c hc => bne_iff_ne.mpr fun h => hequals (h ▸ hc)
  rw [processLine, hcstring, Line.text, List.append_assoc,
    List.dropWhile_append_of_pos hfront, List.cons_append,
    List.dropWhile_cons_of_neg (by decide)]
  exact congrArg some (values_eq hlast ints hne fun t ht => (hints t ht).1)

/-! ## The position in a line -/

variable {m : TextMemory} {heap : ℕ → ℤ} {s : State}

lemma holds_drop (t u : List Char) : ∀ {a : ℤ}, m.Holds a (t ++ u) → m.Holds (a + t.length) u := by
  induction t with
  | nil =>
    intro a h
    have hstart : a + (([] : List Char).length : ℤ) = a := by simp
    rw [hstart]
    exact h
  | cons c t ih =>
    intro a h
    have hshift : a + ((c :: t).length : ℤ) = a + 1 + t.length := by
      rw [List.length_cons]
      omega
    rw [hshift]
    exact ih h.2

lemma textAt_of_holds (t : List Char) (ht : nul ∉ t) : ∀ {n : ℕ} {a : ℤ}, t.length ≤ n →
    m.Holds a t → textAt m n a = t := by
  induction t with
  | nil =>
    intro n a _ h
    have hend : m a = nul := h
    cases n with
    | zero => rfl
    | succ n => rw [textAt, if_pos hend]
  | cons c t ih =>
    intro n a hn h
    obtain ⟨hc, ht⟩ := not_or.mp (mt List.mem_cons.mpr ht)
    cases n with
    | zero => exact absurd hn (Nat.not_succ_le_zero _)
    | succ n =>
      have hne : m a ≠ nul := fun heq => hc (heq.symm.trans h.1)
      rw [textAt, if_neg hne, h.1, ih ht (Nat.le_of_succ_le_succ hn) h.2]

/-- Spaces up to another character, or the end, are skipped. -/
lemma skipSpaces_of_holds {t : List Char} (ht : t.head? ≠ some ' ') : ∀ {k n i : ℕ}, k ≤ n →
    m.Holds i (blanks k ++ t) → skipSpaces m n i = i + k := by
  intro k
  induction k with
  | zero =>
    intro n i _ h
    have hstop : m i ≠ ' ' := by
      cases t with
      | nil =>
        have hend : m i = nul := h
        rw [hend]
        decide
      | cons c t =>
        have hc : m i = c := h.1
        rw [hc]
        exact fun heq => ht (congrArg some heq)
    cases n with
    | zero => rfl
    | succ n => rw [skipSpaces, if_neg hstop, Nat.add_zero]
  | succ k ih =>
    intro n i hn h
    cases n with
    | zero => exact absurd hn (Nat.not_succ_le_zero _)
    | succ n =>
      have hspace : m i = ' ' := h.1
      have hrest : m.Holds ((i + 1 : ℕ) : ℤ) (blanks k ++ t) := h.2
      rw [skipSpaces, if_pos hspace, ih (Nat.le_of_succ_le_succ hn) hrest]
      omega

/-- A line is looked at from its first character that is no space, if the position is not behind
it. -/
lemma skipSpaces_line {i k : ℕ} (hi : i ≤ k) {t : List Char} (ht : t.head? ≠ some ' ')
    (hlen : (blanks k ++ t).length ≤ maxLineSz) (m : TextMemory) :
    skipSpaces (m.strcpy 0 (blanks k ++ t)) maxLineSz i = k ∧
      (m.strcpy 0 (blanks k ++ t)).Holds k t := by
  have hholds := holds_strcpy (blanks k ++ t) m 0
  have hsplit : blanks k = blanks i ++ blanks (k - i) := by
    rw [blanks, blanks, blanks, List.replicate_append_replicate, Nat.add_sub_cancel' hi]
  have hlong : k + t.length ≤ maxLineSz := by
    rwa [List.length_append, length_blanks] at hlen
  constructor
  · have hfrom : (m.strcpy 0 (blanks k ++ t)).Holds 0 (blanks i ++ (blanks (k - i) ++ t)) := by
      rw [← List.append_assoc, ← hsplit]
      exact hholds
    have hdrop := holds_drop _ _ hfrom
    rw [length_blanks, Int.zero_add] at hdrop
    rw [skipSpaces_of_holds ht (by omega) hdrop]
    omega
  · have hdrop := holds_drop _ _ hholds
    rwa [length_blanks, Int.zero_add] at hdrop

/-- The token of a text. -/
def token (t : List Char) : Option (List Char) :=
  if t.dropWhile (· == ']') = [] then none
  else some ((t.dropWhile (· == ']')).takeWhile (· != ']'))

lemma strtok_of_holds {t : List Char} {a : ℤ} (h : m.Holds a t) (ht : nul ∉ t)
    (hlen : t.length ≤ maxLineSz) : (strtok m a).1 = token t := by
  unfold strtok token
  simp only [textAt_of_holds t ht hlen h]
  split_ifs <;> rfl

/-- What a line outside of the sections starts, if it is a header. -/
def started (t : List Char) : List Field :=
  ((Section.all.find? fun x => (token t).map List.tail = some x.key).map Section.fields).getD []

/-- A line outside of the sections, looked at from the right place. -/
lemma readHeader_eq {k : ℕ} (hi : s.i ≤ k) {t : List Char} (ht : t.head? ≠ some ' ')
    (hnul : nul ∉ t) (hlen : (blanks k ++ t).length ≤ maxLineSz) :
    ∃ linebuf, s.readHeader (blanks k ++ t) = { s with
      i := k
      linebuf := linebuf
      pending := if t.head? = some '#' then s.pending else started t } := by
  obtain ⟨hskip, hholds⟩ := skipSpaces_line hi ht hlen s.linebuf
  have hlong : t.length ≤ maxLineSz := by
    rw [List.length_append] at hlen
    omega
  have hfirst : s.linebuf.strcpy 0 (blanks k ++ t) k = '#' ↔ t.head? = some '#' := by
    cases t with
    | nil =>
      have hend : s.linebuf.strcpy 0 (blanks k ++ []) k = nul := hholds
      rw [hend]
      decide
    | cons c t =>
      have hc : s.linebuf.strcpy 0 (blanks k ++ c :: t) k = c := hholds.1
      rw [hc, List.head?_cons, Option.some_inj]
  unfold State.readHeader
  simp only [hskip, hfirst, strtok_of_holds hholds hnul hlong]
  split_ifs
  · exact ⟨_, rfl⟩
  · exact ⟨_, rfl⟩

/-! ## A file of the format -/

lemma started_header (x : Section) (last : List Char) :
    started ('[' :: (x.key ++ [']']) ++ last) = x.fields := by
  have hall : x.key.all (· != ']') = true := by
    cases x <;> decide
  have hkey := List.all_eq_true.mp hall
  have htoken : token ('[' :: (x.key ++ [']']) ++ last) = some ('[' :: x.key) := by
    have hdrop : ('[' :: (x.key ++ [']']) ++ last).dropWhile (· == ']') =
        '[' :: (x.key ++ ']' :: last) := by
      rw [List.cons_append, List.dropWhile_cons_of_neg (by decide), List.append_assoc]
      rfl
    have htake : (x.key ++ ']' :: last).takeWhile (· != ']') = x.key := by
      rw [List.takeWhile_append_of_pos hkey]
      simp
    rw [token, hdrop, if_neg (List.cons_ne_nil _ _), List.takeWhile_cons_of_pos (by decide), htake]
  have hfind : Section.all.find? (fun y => some x.key = some y.key) = some x := by
    cases x <;> decide
  rw [started, htoken, Option.map_some, List.tail_cons, hfind]
  rfl

lemma started_end {last : List Char} (hlast : IsEnd last) : started last = [] := by
  rcases hlast with rfl | rfl <;> decide +kernel

/-- A line outside of the sections that is a comment, a blank line or a header. -/
lemma step_scanned (heap : ℕ → ℤ) {l : Line} {k : ℕ} (hl : l.scanned = some k) (hok : l.Ok)
    (hlen : l.text.length < 99) {line : List Char} (hline : Ended l line) (hi : s.i ≤ k)
    (hpending : s.pending = []) (hrunning : s.crashed = false) :
    ∃ linebuf, s.step heap line = { s with
      i := k, linebuf := linebuf, pending := (l.section?.map Section.fields).getD [] } := by
  obtain ⟨last, hlast, rfl⟩ : ∃ last, IsEnd last ∧ line = l.text ++ last := by
    rcases hline with rfl | rfl
    · exact ⟨_, Or.inr rfl, rfl⟩
    · exact ⟨[], Or.inl rfl, (List.append_nil _).symm⟩
  have hshort : last.length ≤ 1 := by
    rcases hlast with rfl | rfl <;> decide
  have hsize : (l.text ++ last).length ≤ maxLineSz := by
    rw [List.length_append, maxLineSz]
    omega
  have hstep : s.step heap (l.text ++ last) = s.readHeader (l.text ++ last) := by
    rw [State.step, hrunning, hpending]
    rfl
  rw [hstep]
  cases l with
  | comment indent text =>
    obtain rfl := Option.some.inj hl
    rw [Line.text, List.append_assoc] at hsize ⊢
    have hnul : nul ∉ '#' :: text ++ last := by
      rw [List.mem_append, List.mem_cons, not_or, not_or]
      exact ⟨⟨by decide, hok⟩, nul_notMem_end hlast⟩
    have hhash : ('#' :: text ++ last).head? = some '#' := rfl
    obtain ⟨linebuf, heq⟩ := readHeader_eq hi (by rw [hhash]; decide) hnul hsize
    rw [if_pos hhash, hpending] at heq
    exact ⟨linebuf, heq⟩
  | blank indent =>
    obtain rfl := Option.some.inj hl
    have hhead : last.head? ≠ some ' ' ∧ last.head? ≠ some '#' := by
      rcases hlast with rfl | rfl <;> decide
    obtain ⟨linebuf, heq⟩ := readHeader_eq hi hhead.1 (nul_notMem_end hlast) hsize
    rw [if_neg hhead.2, started_end hlast] at heq
    exact ⟨linebuf, heq⟩
  | header indent x =>
    obtain rfl := Option.some.inj hl
    rw [Line.text, List.append_assoc] at hsize ⊢
    have hkey : nul ∉ x.key := by
      cases x <;> decide
    have hnul : nul ∉ '[' :: (x.key ++ [']']) ++ last := by
      rw [List.mem_append, List.mem_cons, List.mem_append, not_or, not_or, not_or]
      exact ⟨⟨by decide, hkey, by decide⟩, nul_notMem_end hlast⟩
    have hbracket : ('[' :: (x.key ++ [']']) ++ last).head? = some '[' := rfl
    obtain ⟨linebuf, heq⟩ := readHeader_eq hi (by rw [hbracket]; decide) hnul hsize
    rw [if_neg (by rw [hbracket]; decide), started_header] at heq
    exact ⟨linebuf, heq⟩
  | entry => exact nomatch hl

/-- A line of a section. -/
lemma step_entry (heap : ℕ → ℤ) {indent : ℕ} {f : Field} {fs : List Field} {space : List Char}
    {ints : List IntText} (hok : (Line.entry indent f space ints).Ok) {line : List Char}
    (hline : Ended (.entry indent f space ints) line) (hpending : s.pending = f :: fs)
    (hrunning : s.crashed = false) :
    s.step heap line = { s with
      pending := fs
      volArray := Function.update s.volArray f fun j => (ints.map IntText.value).getD j (heap j)
      valArray := true } := by
  have hvals : processLine line = some (ints.map IntText.value) := by
    rcases hline with rfl | rfl
    · exact processLine_entry hok (Or.inr rfl)
    · have hplain := processLine_entry hok (Or.inl rfl)
      rwa [List.append_nil] at hplain
  have henough : ¬ (ints.map IntText.value).length < f.count := by
    rw [List.length_map, hok.2.1]
    exact Nat.lt_irrefl _
  have hstep : s.step heap line = s.readValues heap f fs line := by
    rw [State.step, hrunning, hpending]
    rfl
  rw [hstep, State.readValues, hvals]
  simp only [decide_eq_false henough, Bool.or_false]

/-- The arrays for which there are lines. -/
def entered (ls : List Line) : List Field :=
  ls.filterMap fun
    | .entry _ f _ _ => some f
    | _ => none

lemma Follows.entered {pending : List Field} {ls : List Line} (h : Follows pending ls) :
    entered ls = pending ++ (ls.filterMap Line.section?).flatMap Section.fields := by
  induction h with
  | nil => rfl
  | comment _ ih => exact ih
  | blank _ ih => exact ih
  | header _ ih => exact ih
  | entry _ ih => exact congrArg (List.cons _) ih

/-- What a run over lines of the format leaves. -/
structure Reads (s t : State) (ls : List Line) : Prop where
  pending : t.pending = []
  running : t.crashed = false
  valArray : s.valArray = true ∨ entered ls ≠ [] → t.valArray = true
  frame : ∀ f ∉ entered ls, t.volArray f = s.volArray f
  values : ∀ indent f space ints, Line.entry indent f space ints ∈ ls →
    List.ofFn (t.volArray f) = ints.map IntText.value

/-- A comment, a blank line or a header, before lines that are read. -/
lemma reads_scanned {l : Line} {k : ℕ} {ls : List Line} (hl : l.scanned = some k)
    {lines : List (List Char)} (hpending : s.pending = []) (hrunning : s.crashed = false)
    (hok : ∀ l' ∈ l :: ls, l'.Ok ∧ l'.text.length < 99)
    (hlines : List.Forall₂ Ended (l :: ls) lines)
    (hindent : (s.i :: (l :: ls).filterMap Line.scanned).Pairwise (· ≤ ·))
    (hnodup : (entered (l :: ls)).Nodup)
    (ih : ∀ {s : State} {lines : List (List Char)},
      s.pending = (l.section?.map Section.fields).getD [] → s.crashed = false →
      (∀ l ∈ ls, l.Ok ∧ l.text.length < 99) → List.Forall₂ Ended ls lines →
      (s.i :: ls.filterMap Line.scanned).Pairwise (· ≤ ·) → (entered ls).Nodup →
      Reads s (lines.foldl (State.step heap) s) ls) :
    Reads s (lines.foldl (State.step heap) s) (l :: ls) := by
  have hentered : entered (l :: ls) = entered ls := by
    cases l <;> first | rfl | exact nomatch hl
  obtain ⟨line, lines', hline, hlines', rfl⟩ := List.forall₂_cons_left_iff.mp hlines
  obtain ⟨⟨hok, hlen⟩, hrestOk⟩ := List.forall_mem_cons.mp hok
  rw [List.filterMap_cons_some hl] at hindent
  obtain ⟨hle, hindent⟩ := List.pairwise_cons.mp hindent
  obtain ⟨linebuf, hstep⟩ :=
    step_scanned heap hl hok hlen hline (hle k List.mem_cons_self) hpending hrunning
  rw [hentered] at hnodup
  rw [List.foldl_cons, hstep]
  obtain ⟨hpending', hrunning', hval, hframe, hvalues⟩ := @ih { s with
    i := k, linebuf := linebuf, pending := (l.section?.map Section.fields).getD [] } lines' rfl
      hrunning hrestOk hlines' hindent hnodup
  refine ⟨hpending', hrunning', by rw [hentered]; exact hval, by rw [hentered]; exact hframe, ?_⟩
  intro indent f space ints hmem
  rcases List.mem_cons.mp hmem with rfl | hmem
  · exact nomatch hl
  · exact hvalues indent f space ints hmem

lemma reads_run {pending : List Field} {ls : List Line} (h : Follows pending ls) :
    ∀ {s : State} {lines : List (List Char)}, s.pending = pending → s.crashed = false →
      (∀ l ∈ ls, l.Ok ∧ l.text.length < 99) → List.Forall₂ Ended ls lines →
      (s.i :: ls.filterMap Line.scanned).Pairwise (· ≤ ·) → (entered ls).Nodup →
      Reads s (lines.foldl (State.step heap) s) ls := by
  induction h with
  | nil =>
    intro s lines hpending hrunning _ hlines _ _
    cases hlines
    exact ⟨hpending, hrunning, fun h => h.resolve_right fun h => h rfl, fun _ _ => rfl, nofun⟩
  | comment _ ih =>
    intro s lines hpending hrunning hok hlines hindent hnodup
    exact reads_scanned rfl hpending hrunning hok hlines hindent hnodup @ih
  | blank _ ih =>
    intro s lines hpending hrunning hok hlines hindent hnodup
    exact reads_scanned rfl hpending hrunning hok hlines hindent hnodup @ih
  | header _ ih =>
    intro s lines hpending hrunning hok hlines hindent hnodup
    exact reads_scanned rfl hpending hrunning hok hlines hindent hnodup @ih
  | @entry indent f fs space ints ls hrest ih =>
    intro s lines hpending hrunning hok hlines hindent hnodup
    obtain ⟨line, lines', hline, hlines', rfl⟩ := List.forall₂_cons_left_iff.mp hlines
    obtain ⟨⟨hok, -⟩, hrestOk⟩ := List.forall_mem_cons.mp hok
    obtain ⟨hf, hnodup⟩ := List.nodup_cons.mp hnodup
    have hstep := step_entry heap hok hline hpending hrunning
    rw [List.foldl_cons, hstep]
    obtain ⟨hpending', hrunning', hval, hframe, hvalues⟩ :=
      @ih { s with
        pending := fs
        volArray := Function.update s.volArray f fun j => (ints.map IntText.value).getD j (heap j)
        valArray := true } lines' rfl hrunning hrestOk hlines' hindent hnodup
    refine ⟨hpending', hrunning', fun _ => hval (Or.inl rfl), fun f' hf' => ?_, ?_⟩
    · obtain ⟨hne, hf'⟩ := not_or.mp (mt List.mem_cons.mpr hf')
      rw [hframe f' hf']
      exact Function.update_of_ne hne ..
    · intro indent' f' space' ints' hmem
      rcases List.mem_cons.mp hmem with heq | hmem
      · -- the lines behind this one are for other arrays
        obtain ⟨rfl, rfl, rfl, rfl⟩ := Line.entry.inj heq
        rw [hframe f' hf]
        simp only [Function.update_self]
        refine List.ext_getElem (by rw [List.length_ofFn, List.length_map, hok.2.1]) ?_
        intro j h1 h2
        rw [List.getElem_ofFn, List.getD_eq_getElem?_getD, List.getElem?_eq_getElem h2,
          Option.getD_some]
      · exact hvalues indent' f' space' ints' hmem

lemma nodup_fields : (Section.all.flatMap Section.fields).Nodup := by decide

lemma mem_fields (f : Field) : f ∈ Section.all.flatMap Section.fields := by
  cases f <;> decide

/-- A file of the format whose indentation never decreases. -/
lemma configures {stack : TextMemory} {ls : List Line} {file : List Char}
    (hfile : WellFormed ls file) (hindent : (ls.filterMap Line.scanned).Pairwise (· ≤ ·)) :
    Configures stack heap ls file := by
  have hentered : (entered ls).Perm (Section.all.flatMap Section.fields) := by
    rw [hfile.follows.entered]
    exact hfile.sections.flatMap_right _
  have hpos : ((start stack).i :: ls.filterMap Line.scanned).Pairwise (· ≤ ·) :=
    List.pairwise_cons.mpr ⟨fun _ _ => Nat.zero_le _, hindent⟩
  have hreads : Reads (start stack) (readFile stack heap file) ls :=
    reads_run hfile.follows rfl rfl hfile.ok hfile.lines hpos (hentered.nodup_iff.mpr nodup_fields)
  have hne : entered ls ≠ [] := by
    intro hnil
    have hmem := hentered.mem_iff.mpr (mem_fields .upPcmGain)
    rw [hnil] at hmem
    exact absurd hmem List.not_mem_nil
  refine ⟨(readFile stack heap file).volArray, ?_, fun f => ?_⟩
  · have hval := hreads.valArray (Or.inr hne)
    simp [getVolumeConfig, hreads.running, hreads.pending, hval]
  · have hmem := hentered.mem_iff.mpr (mem_fields f)
    obtain ⟨l, hl, hf⟩ := List.mem_filterMap.mp hmem
    cases l with
    | entry indent f' space ints =>
      obtain rfl := Option.some.inj hf
      exact ⟨indent, space, ints, hl, hreads.values _ _ _ _ hl⟩
    | comment => exact nomatch hf
    | blank => exact nomatch hf
    | header => exact nomatch hf

/-! ## Any file -/

lemma processLine_of_split {line key values : List Char}
    (hline : cstring line = key ++ '=' :: values) (hkey : '=' ∉ key) :
    processLine line = some ((tokens (· == ',') values).map atoi) := by
  have hfront : ∀ c ∈ key, (c != '=') = true := fun c hc => bne_iff_ne.mpr fun h => hkey (h ▸ hc)
  rw [processLine, hline, List.dropWhile_append_of_pos hfront,
    List.dropWhile_cons_of_neg (by decide)]

lemma split_of_processLine {line : List Char} {vals : List ℤ} (h : processLine line = some vals) :
    ∃ key values, cstring line = key ++ '=' :: values ∧ '=' ∉ key := by
  have hsplit := List.takeWhile_append_dropWhile (p := (· != '=')) (l := cstring line)
  have hhead := List.head?_dropWhile_not (· != '=') (cstring line)
  unfold processLine at h
  cases hdrop : (cstring line).dropWhile (· != '=') with
  | nil =>
    rw [hdrop] at h
    exact nomatch h
  | cons c values =>
    rw [hdrop] at hsplit hhead
    have hc : c = '=' := by simpa using hhead
    refine ⟨_, values, hc ▸ hsplit.symm, fun hmem => ?_⟩
    have hne := List.mem_takeWhile_imp hmem
    exact absurd hne (by decide)

/-- A line that is read for its values. -/
lemma readValues_safe_iff {f : Field} {fs : List Field} {line : List Char} (hs : Safe s) :
    Safe (s.readValues heap f fs line) ↔
      ∃ key values, cstring line = key ++ '=' :: values ∧ '=' ∉ key ∧
        f.count ≤ (tokens (· == ',') values).length := by
  unfold State.readValues
  constructor
  · intro hsafe
    cases hvals : processLine line with
    | none =>
      rw [hvals] at hsafe
      exact nomatch hsafe.1
    | some vals =>
      rw [hvals] at hsafe
      obtain ⟨key, values, hline, hkey⟩ := split_of_processLine hvals
      rw [processLine_of_split hline hkey] at hvals
      obtain rfl := Option.some.inj hvals
      have hread := hsafe.2
      simp only [hs.2, Bool.false_or, decide_eq_false_iff_not, List.length_map, Nat.not_lt] at hread
      exact ⟨key, values, hline, hkey, hread⟩
  · rintro ⟨key, values, hline, hkey, henough⟩
    rw [processLine_of_split hline hkey]
    refine ⟨hs.1, ?_⟩
    simp only [hs.2, Bool.false_or, decide_eq_false_iff_not, List.length_map, Nat.not_lt]
    exact henough

lemma safe_readHeader (hs : Safe s) (line : List Char) : Safe (s.readHeader line) := by
  unfold State.readHeader
  dsimp only
  split_ifs
  · exact hs
  · exact hs

/-- A step keeps to the values of its line if and only if the line has them. -/
lemma step_safe_iff (hs : Safe s) (line : List Char) :
    Safe (s.step heap line) ↔ ValuesOk line s := by
  unfold State.step ValuesOk
  rw [hs.1]
  cases hpending : s.pending with
  | nil => exact iff_of_true (safe_readHeader hs line) nofun
  | cons f fs =>
    simp only [List.head?_cons, Option.mem_some_iff, forall_eq']
    exact readValues_safe_iff hs

/-- **The volume configuration.**  Every file of the format is read as it is expected if the numbers
of spaces before its headers, comments and blank lines never decrease; and whatever is in a file, no
search fails and no value is made up if and only if every line that is read for its values has an
`=`, and as many values as are copied. -/
theorem volumeConfig_iff (stack : TextMemory) (heap : ℕ → ℤ) :
    (∀ ls file, WellFormed ls file → (ls.filterMap Line.scanned).Pairwise (· ≤ ·) →
      Configures stack heap ls file) ∧
    ∀ file, Along (fun s line => some (State.step heap s line)) Safe (fun _ _ _ => True)
        (start stack) (lines file) ↔
      Meets (fun s line => some (State.step heap s line)) ValuesOk (start stack) (lines file) := by
  refine ⟨fun ls file hfile hindent => configures hfile hindent, fun file => ?_⟩
  refine along_iff_meets (fun hs : Safe _ => hs) ?_ ?_ (lines file) ⟨rfl, rfl⟩
  · intro line s s' hs hok hstep
    obtain rfl := Option.some.inj hstep
    exact ⟨(step_safe_iff hs line).mpr hok, trivial⟩
  · intro line s s' hs hstep _ hs'
    obtain rfl := Option.some.inj hstep
    exact (step_safe_iff hs line).mp hs'

/-! ### Two files -/

/-- A line with the values 1 to 6, or with 7. -/
def entryLine (f : Field) : Line :=
  .entry 0 f [] (if f = .upPcmGain then [⟨0, false, [7]⟩]
    else [1, 2, 3, 4, 5, 6].map fun d => ⟨0, false, [d]⟩)

/-- All sections, behind a comment. -/
def sample (indent : ℕ) : List Line :=
  .comment indent [] ::
    Section.all.flatMap fun x => .header 0 x :: x.fields.map entryLine

def sampleFile (indent : ℕ) : List Char := (sample indent).flatMap fun l => l.text ++ ['\n']

lemma follows_entryLine (fs : List Field) {ls : List Line} (h : Follows [] ls) :
    Follows fs (fs.map entryLine ++ ls) := by
  induction fs with
  | nil => exact h
  | cons f fs ih => exact .entry ih

lemma ok_entryLine (f : Field) : (entryLine f).Ok ∧ (entryLine f).text.length < 99 := by
  refine ⟨⟨nofun, ?_, ?_⟩, ?_⟩
  · cases f <;> rfl
  · cases f <;> decide
  · cases f <;> decide +kernel

lemma wellFormed_sample (indent : ℕ) (hindent : indent = 0 ∨ indent = 1) :
    WellFormed (sample indent) (sampleFile indent) where
  follows := by
    refine .comment ?_
    generalize Section.all = xs
    induction xs with
    | nil => exact .nil
    | cons x xs ih => exact .header (follows_entryLine x.fields ih)
  sections := by
    rcases hindent with rfl | rfl <;> decide +kernel
  ok l hl := by
    rcases List.mem_cons.mp hl with rfl | hl
    · rcases hindent with rfl | rfl <;> exact ⟨List.not_mem_nil, by decide⟩
    · obtain ⟨x, -, hl⟩ := List.mem_flatMap.mp hl
      rcases List.mem_cons.mp hl with rfl | hl
      · exact ⟨trivial, by cases x <;> decide⟩
      · obtain ⟨f, -, rfl⟩ := List.mem_map.mp hl
        exact ok_entryLine f
  lines := by
    have hlines : lines (sampleFile indent) = (sample indent).map fun l => l.text ++ ['\n'] := by
      rcases hindent with rfl | rfl <;> decide +kernel
    rw [hlines, List.forall₂_map_right_iff]
    exact List.forall₂_same.mpr fun _ _ => Or.inl rfl

theorem volumeConfig_iff_sample :
    Configures (fun _ => nul) (fun _ => 0) (sample 0) (sampleFile 0) :=
  (volumeConfig_iff (fun _ => nul) fun _ => 0).1 _ _ (wellFormed_sample 0 (Or.inl rfl))
    (by decide +kernel)

/-- A comment with a space before it, and sections without; and a header without its line. -/
theorem indented_comment : (WellFormed (sample 1) (sampleFile 1) ∧
      ¬ Configures (fun _ => nul) (fun _ => 0) (sample 1) (sampleFile 1)) ∧
    (readFile (fun _ => nul) (fun _ => 0) "[BLUETOOTH_UP]\n\n".toList).crashed = true := by
  refine ⟨⟨wellFormed_sample 1 (Or.inr rfl), ?_⟩, by decide +kernel⟩
  rintro ⟨volArray, hret, -⟩
  have hfail : (getVolumeConfig (fun _ => nul) (fun _ => 0) (some (sampleFile 1))).map Prod.fst =
      some (-1) := by
    decide +kernel
  rw [hret, Option.map_some] at hfail
  have hzero : (0 : ℤ) = -1 := Option.some.inj hfail
  exact absurd hzero (by decide)

end Softwinner.Audio.VolumeConfig
