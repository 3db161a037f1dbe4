import Mathlib.Data.List.Find
import Softwinner.Audio.VolumeConfig
import Softwinner.Framework.Runs

/-!
# The camera configuration

`CCameraConfig` looks its values up in a file of lines `key = value`, in sections that begin with a
`camera_id` line.  `readKey` compares the beginnings of lines, and `getValue` writes a value without
asking for its length.  `looksUp_iff` says when the lookup is the one that is meant.  The
constructor and `initParameters` read the values of a camera to arrays of different sizes, and
return if all of them fit.

A string in an array is a list of characters without its end; `none` is a write behind an array.
-/

namespace Softwinner.Camera.CCameraConfig

open Framework
open Audio.VolumeConfig (atoi cstring fgets)

section Lookup

variable {file key line value : List Char} {id : ℤ} {size : ℕ} {ls : List (List Char)}

/-! ## The code -/

/-- `KEY_LENGTH`. -/
def keyLength : ℕ := 256

/-- `" \n\r\t"`. -/
def isSeparator (c : Char) : Bool := c == ' ' || c == '\n' || c == '\r' || c == '\t'

/-- The strings that `fgets` reads; at most `n`. -/
def readsUpTo : ℕ → List Char → List (List Char)
  | 0, _ => []
  | _, [] => []
  | n + 1, c :: file =>
    let (str, rest) := fgets (keyLength - 1) (c :: file)
    cstring str :: readsUpTo n rest

def reads (file : List Char) : List (List Char) := readsUpTo file.length file

/-- What is written to an array, with its end. -/
def store (size : ℕ) (value : List Char) : Option (List Char) :=
  if value.length < size then some value else none

def getValue (line : List Char) (size : ℕ) : Option (List Char) :=
  store size (tokens isSeparator ((line.dropWhile (· ≠ '=')).drop 1)).flatten

/-- The keys that are looked for before the first section. -/
def isGlobal (key : List Char) : Bool :=
  key == "number_of_camera".toList || key == "key_camera_exif_make".toList ||
    key == "key_camera_exif_model".toList

/-- Whether `strncmp` finds `"camera_id"` at the beginning of a line. -/
def isMark (line : List Char) : Bool := "camera_id".toList.isPrefixOf line

/-- The loop of `readKey`; the flag is `bFlagBegin`. -/
def readLoop (id : ℤ) (key : List Char) (size : ℕ) :
    Bool → List (List Char) → Option (Option (List Char))
  | _, [] => some none
  | begun, str :: strs => do
    if !(begun || isGlobal key) then
      if isMark str then
        let strId ← getValue str 2
        readLoop id key size (atoi strId == id) strs
      else readLoop id key size false strs
    else if isMark str then return none
    else if key.isPrefixOf str then return some (← getValue str size)
    else readLoop id key size true strs

/-- `readKey`, with the size of the array for the value. -/
def readKey (keyFile : Option (List Char)) (id : ℤ) (key : List Char) (size : ℕ) :
    Option (Option (List Char)) :=
  match keyFile with
  | none => some none
  | some file => readLoop id key size false (reads file)

/-! ## The lookup that is meant -/

/-- The lines of a file, with their ends. -/
def fileLines : List Char → List (List Char)
  | [] => []
  | c :: file =>
    if c = '\n' then [c] :: fileLines file
    else
      match fileLines file with
      | [] => [[c]]
      | line :: lines => (c :: line) :: lines

/-- The lines as texts. -/
def texts (file : List Char) : List (List Char) := (fileLines file).map cstring

/-- A text without the blanks around it. -/
def trim (t : List Char) : List Char :=
  ((t.dropWhile isSeparator).reverse.dropWhile isSeparator).reverse

def keyText (line : List Char) : List Char := trim (line.takeWhile (· ≠ '='))

/-- What is behind `=`, without any blanks. -/
def valueText (line : List Char) : List Char :=
  ((line.dropWhile (· ≠ '=')).drop 1).filter fun c => !isSeparator c

/-- Whether a line is the one of the camera. -/
def own (mark : List Char → Bool) (id : ℤ) (line : List Char) : Bool :=
  mark line && atoi (valueText line) == id

/-- The lines between the mark of the camera and the next one, or before the first one. -/
def between (mark : List Char → Bool) (id : ℤ) (key : List Char) (ls : List (List Char)) :
    List (List Char) :=
  (if isGlobal key then ls else (ls.dropWhile fun l => !own mark id l).drop 1).takeWhile
    fun l => !mark l

def isCameraId (line : List Char) : Bool := keyText line == "camera_id".toList

/-- The section for a key. -/
def sectionOf (id : ℤ) (key : List Char) (ls : List (List Char)) : List (List Char) :=
  between isCameraId id key ls

/-- The lookup succeeds exactly if the section has a line with the key, and returns the value of the
first such line; and no value is written behind its array. -/
def LooksUp (file : List Char) (id : ℤ) (key : List Char) (size : ℕ) : Prop :=
  readKey (some file) id key size =
    some (((sectionOf id key (texts file)).find? fun l => keyText l == key).map valueText)

lemma getValue_eq (line : List Char) (size : ℕ) :
    getValue line size = store size (valueText line) := by
  rw [getValue, flatten_tokens, valueText]

/-! ## Reading lines -/

lemma fgets_nil (n : ℕ) : fgets n [] = ([], []) := by
  cases n <;> rfl

lemma fileLines_cons {c : Char} (hc : c ≠ '\n') (file : List Char) : fileLines (c :: file) =
    (c :: (fileLines file).head?.getD []) :: (fileLines file).tail := by
  rw [fileLines, if_neg hc]
  cases fileLines file <;> rfl

/-- A line with room for it is read as a whole. -/
lemma fileLines_fgets (file : List Char) : ∀ {n : ℕ}, file ≠ [] →
    (∀ l ∈ (fileLines file).head?, l.length ≤ n) →
      fileLines file = (fgets n file).1 :: fileLines (fgets n file).2 ∧
        (fgets n file).2.length < file.length := by
  induction file with
  | nil => exact fun hne => absurd rfl hne
  | cons c file ih =>
    intro n _ hhead
    by_cases hc : c = '\n'
    · have hsplit : fileLines (c :: file) = [c] :: fileLines file := by
        rw [fileLines, if_pos hc]
      rw [hsplit] at hhead ⊢
      cases n with
      | zero => exact absurd (hhead [c] rfl) (Nat.not_succ_le_zero 0)
      | succ n =>
        rw [fgets, if_pos hc]
        exact ⟨rfl, Nat.lt_succ_self _⟩
    · rw [fileLines_cons hc] at hhead ⊢
      have hlength := hhead _ rfl
      rw [List.length_cons] at hlength
      cases n with
      | zero => exact absurd hlength (Nat.not_succ_le_zero _)
      | succ n =>
        rw [fgets, if_neg hc]
        by_cases hfile : file = []
        · rw [hfile, fgets_nil]
          exact ⟨rfl, Nat.lt_succ_self _⟩
        · have hrest (l : List Char) (hl : l ∈ (fileLines file).head?) : l.length ≤ n := by
            rw [Option.mem_def.mp hl, Option.getD_some] at hlength
            omega
          obtain ⟨hsplit, hlt⟩ := ih hfile hrest
          rw [hsplit]
          exact ⟨rfl, hlt.trans (Nat.lt_succ_self _)⟩

/-- Where the lines are short, the strings are the lines. -/
lemma reads_eq (hlines : ∀ l ∈ fileLines file, l.length < keyLength) :
    reads file = texts file := by
  have hall : ∀ (n : ℕ) (file : List Char), file.length ≤ n →
      (∀ l ∈ fileLines file, l.length < keyLength) → readsUpTo n file = texts file := by
    intro n
    induction n with
    | zero =>
      intro file hn _
      obtain rfl := List.length_eq_zero_iff.mp (Nat.le_zero.mp hn)
      rfl
    | succ n ih =>
      intro file hn hlines
      cases file with
      | nil => rfl
      | cons c file =>
        obtain ⟨hsplit, hlt⟩ := fileLines_fgets (c :: file) (n := keyLength - 1)
          (List.cons_ne_nil c file) fun l hl =>
            Nat.le_sub_one_of_lt (hlines l (List.mem_of_mem_head? hl))
        rw [hsplit] at hlines
        rw [List.length_cons] at hn hlt
        rw [texts, hsplit, List.map_cons, ← texts,
          ← ih _ (by omega) fun l hl => hlines l (List.mem_cons_of_mem _ hl)]
        rfl
  exact hall _ file le_rfl hlines

/-! ## The loop -/

/-- The camera's own mark with the lines before it, or all lines. -/
def scanned (id : ℤ) (ls : List (List Char)) : List (List Char) :=
  ls.takeWhile (fun l => !own isMark id l) ++ (ls.dropWhile fun l => !own isMark id l).take 1

/-- The first line that begins with the key. -/
def firstWith (key : List Char) (ls : List (List Char)) : Option (List Char) :=
  ls.find? fun l => key.isPrefixOf l

/-- The values of the marks and the one that is looked for are shorter than their arrays. -/
def Fits (id : ℤ) (key : List Char) (size : ℕ) (ls : List (List Char)) : Prop :=
  (isGlobal key = false → ∀ l ∈ scanned id ls, isMark l = true → (valueText l).length < 2) ∧
    ∀ l, firstWith key (between isMark id key ls) = some l → (valueText l).length < size

lemma store_eq_some {r : List Char} :
    store size value = some r ↔ value.length < size ∧ value = r := by
  rw [store]
  split_ifs with h
  · rw [Option.some.injEq, and_iff_right h]
  · simp [h]

/-- Behind `bFlagBegin`. -/
lemma readLoop_begun {begun : Bool} {r : Option (List Char)}
    (hbegun : (begun || isGlobal key) = true) (ls : List (List Char)) :
    readLoop id key size begun ls = some r ↔
      (∀ l, firstWith key (ls.takeWhile fun l => !isMark l) = some l →
        (valueText l).length < size) ∧
      (firstWith key (ls.takeWhile fun l => !isMark l)).map valueText = r := by
  induction ls generalizing begun with
  | nil => simp [readLoop, firstWith]
  | cons l ls ih =>
    rw [readLoop, hbegun]
    cases hmark : isMark l with
    | true =>
      rw [List.takeWhile_cons_of_neg (by simp [hmark])]
      simp [firstWith]
    | false =>
      rw [List.takeWhile_cons_of_pos (by simp [hmark])]
      cases hkey : key.isPrefixOf l with
      | true =>
        have hfirst (rest : List (List Char)) : firstWith key (l :: rest) = some l :=
          List.find?_cons_of_pos hkey
        rw [hfirst]
        show (getValue l size).bind (fun v => some (some v)) = some r ↔ _
        rw [getValue_eq, Option.bind_eq_some_iff]
        constructor
        · rintro ⟨v, hstore, hv⟩
          obtain ⟨hlt, rfl⟩ := store_eq_some.mp hstore
          exact ⟨fun l' hl' => Option.some.inj hl' ▸ hlt, Option.some.inj hv⟩
        · rintro ⟨hlt, hr⟩
          exact ⟨_, store_eq_some.mpr ⟨hlt l rfl, rfl⟩, congrArg some hr⟩
      | false =>
        have hfirst (rest : List (List Char)) : firstWith key (l :: rest) = firstWith key rest :=
          List.find?_cons_of_neg (by simp [hkey])
        rw [hfirst]
        exact ih rfl

lemma scanned_cons (id : ℤ) (l : List Char) (ls : List (List Char)) :
    scanned id (l :: ls) = l :: if own isMark id l then [] else scanned id ls := by
  rw [scanned]
  cases hown : own isMark id l <;> simp [hown, scanned]

lemma between_cons {mark : List Char → Bool} (hglobal : isGlobal key = false) (l : List Char)
    (ls : List (List Char)) : between mark id key (l :: ls) =
      if own mark id l then ls.takeWhile fun l => !mark l else between mark id key ls := by
  rw [between, between]
  cases hown : own mark id l <;> simp [hown, hglobal]

/-- Before `bFlagBegin`. -/
lemma readLoop_false {r : Option (List Char)} (hglobal : isGlobal key = false)
    (ls : List (List Char)) : readLoop id key size false ls = some r ↔ Fits id key size ls ∧
      (firstWith key (between isMark id key ls)).map valueText = r := by
  rw [Fits, and_assoc, imp_iff_right hglobal]
  induction ls with
  | nil => simp [readLoop, firstWith, scanned, between]
  | cons l ls ih =>
    rw [readLoop, hglobal, scanned_cons, between_cons hglobal, List.forall_mem_cons]
    cases hmark : isMark l with
    | false =>
      rw [own, hmark, Bool.false_and, if_neg Bool.false_ne_true, if_neg Bool.false_ne_true,
        and_iff_right fun h => absurd h Bool.false_ne_true]
      exact ih
    | true =>
      show (getValue l 2).bind (fun strId => readLoop id key size (atoi strId == id) ls) =
        some r ↔ _
      rw [getValue_eq, own, hmark, Bool.true_and, imp_iff_right rfl]
      by_cases hlength : (valueText l).length < 2
      · rw [store_eq_some.mpr ⟨hlength, rfl⟩, Option.bind_some, and_iff_right hlength]
        cases hid : atoi (valueText l) == id with
        | false => exact ih
        | true =>
          rw [if_pos rfl, if_pos rfl, and_iff_right fun l hl => absurd hl List.not_mem_nil]
          exact readLoop_begun rfl ls
      · rw [store, if_neg hlength, Option.bind_none]
        exact iff_of_false (Option.some_ne_none r ∘ Eq.symm) fun h => hlength h.1.1

lemma readKey_eq_some {r : Option (List Char)} : readKey (some file) id key size = some r ↔
    Fits id key size (reads file) ∧
      (firstWith key (between isMark id key (reads file))).map valueText = r := by
  show readLoop id key size false (reads file) = some r ↔ _
  cases hglobal : isGlobal key with
  | false => exact readLoop_false hglobal _
  | true =>
    rw [readLoop_begun (by rw [hglobal]; rfl), Fits, hglobal, between, hglobal, if_pos rfl,
      and_assoc, and_iff_right fun h => absurd h Bool.false_ne_true.symm]

/-! ## Lookups -/

/-- The first line that has the key. -/
def firstOf (key : List Char) (ls : List (List Char)) : Option (List Char) :=
  ls.find? fun l => keyText l == key

/-- The first line that begins with the key or has it as its key text does both, or the first one
that does the other has the same value. -/
def Plain (key : List Char) (ls : List (List Char)) : Prop :=
  ∀ l, (ls.find? fun l => key.isPrefixOf l || keyText l == key) = some l →
    key.isPrefixOf l = true ∧ (keyText l == key) = true ∨ ∃ l', valueText l' = valueText l ∧
      (firstWith key ls = some l ∧ firstOf key ls = some l' ∨
        firstWith key ls = some l' ∧ firstOf key ls = some l)

/-- Two searches that differ in what they look for. -/
lemma map_find?_eq_iff {α β : Type} {p q : α → Bool} {f : α → β} (xs : List α) :
    (xs.find? p).map f = (xs.find? q).map f ↔
      ∀ x, (xs.find? fun x => p x || q x) = some x → p x = true ∧ q x = true ∨
        ∃ y, f y = f x ∧ (xs.find? p = some x ∧ xs.find? q = some y ∨
          xs.find? p = some y ∧ xs.find? q = some x) := by
  induction xs with
  | nil => simp
  | cons x xs ih =>
    cases hp : p x with
    | true =>
      cases hq : q x with
      | true =>
        simp only [List.find?_cons, hp, hq, Bool.or_true]
        refine iff_of_true trivial fun y hy => Or.inl ?_
        obtain rfl := Option.some.inj hy
        exact ⟨hp, hq⟩
      | false =>
        simp only [List.find?_cons, hp, hq, Bool.or_false]
        constructor
        · intro h z hz
          obtain rfl := Option.some.inj hz
          obtain ⟨y, hy, hvalue⟩ := Option.map_eq_some_iff.mp h.symm
          exact Or.inr ⟨y, hvalue, Or.inl ⟨rfl, hy⟩⟩
        · intro h
          obtain ⟨-, hqx⟩ | ⟨y, hvalue, ⟨-, hy⟩ | ⟨hxy, hy⟩⟩ := h x rfl
          · exact absurd (hq.symm.trans hqx) Bool.false_ne_true
          · rw [hy, Option.map_some, Option.map_some, hvalue]
          · rw [hy]
    | false =>
      cases hq : q x with
      | true =>
        simp only [List.find?_cons, hp, hq, Bool.or_true]
        constructor
        · intro h z hz
          obtain rfl := Option.some.inj hz
          obtain ⟨y, hy, hvalue⟩ := Option.map_eq_some_iff.mp h
          exact Or.inr ⟨y, hvalue, Or.inr ⟨hy, rfl⟩⟩
        · intro h
          obtain ⟨hpx, -⟩ | ⟨y, hvalue, ⟨hy, -⟩ | ⟨hy, -⟩⟩ := h x rfl
          · exact absurd (hp.symm.trans hpx) Bool.false_ne_true
          · rw [hy]
          · rw [hy, Option.map_some, Option.map_some, hvalue]
      | false =>
        simp only [List.find?_cons, hp, hq, Bool.or_false]
        exact ih

/-- What the lookup is, without the reading. -/
lemma looksUp_iff_map (hlines : ∀ l ∈ fileLines file, l.length < keyLength) :
    LooksUp file id key size ↔ Fits id key size (texts file) ∧
      (firstWith key (between isMark id key (texts file))).map valueText =
        (firstOf key (sectionOf id key (texts file))).map valueText := by
  rw [LooksUp, readKey_eq_some, reads_eq hlines]
  rfl

end Lookup

/-! ## The values of a camera -/

/-- The parameters of `MEMBER_DEF`. -/
inductive Parameter
  | previewSize | pictureSize | flashMode | colorEffect
  | frameRate | focusMode | sceneMode | whiteBalance
  deriving DecidableEq

namespace Parameter

/-- What its three keys end with. -/
def name : Parameter → String
  | previewSize => "preview_size"
  | pictureSize => "picture_size"
  | flashMode => "flash_mode"
  | colorEffect => "color_effect"
  | frameRate => "frame_rate"
  | focusMode => "focus_mode"
  | sceneMode => "scene_mode"
  | whiteBalance => "white_balance"

def all : List Parameter :=
  [previewSize, pictureSize, flashMode, colorEffect, frameRate, focusMode, sceneMode, whiteBalance]

end Parameter

/-- The arrays that values are read to. -/
inductive Dest
  | cameraMake | cameraModel | numberOfCamera | cameraFacing | cameraDevice | deviceID | orientation
  | fastPictureMode | useBuiltinIsp
  | used (p : Parameter) | supportValue (p : Parameter) | defaultValue (p : Parameter)
  | usedExposureCompensation | minExposureCompensation | maxExposureCompensation
  | stepExposureCompensation | defaultExposureCompensation
  | usedZoom | zoomSupported | smoothZoomSupported | zoomRatios | maxZoom | defaultZoom
  deriving DecidableEq

namespace Dest

def key : Dest → List Char
  | cameraMake => "key_camera_exif_make".toList
  | cameraModel => "key_camera_exif_model".toList
  | numberOfCamera => "number_of_camera".toList
  | cameraFacing => "camera_facing".toList
  | cameraDevice => "camera_device".toList
  | deviceID => "device_id".toList
  | orientation => "camera_orientation".toList
  | fastPictureMode => "fast_picture_mode".toList
  | useBuiltinIsp => "use_builtin_isp".toList
  | used p => ("used_" ++ p.name).toList
  | supportValue p => ("key_support_" ++ p.name).toList
  | defaultValue p => ("key_default_" ++ p.name).toList
  | usedExposureCompensation => "used_exposure_compensation".toList
  | minExposureCompensation => "key_min_exposure_compensation".toList
  | maxExposureCompensation => "key_max_exposure_compensation".toList
  | stepExposureCompensation => "key_step_exposure_compensation".toList
  | defaultExposureCompensation => "key_default_exposure_compensation".toList
  | usedZoom => "used_zoom".toList
  | zoomSupported => "key_zoom_supported".toList
  | smoothZoomSupported => "key_smooth_zoom_supported".toList
  | zoomRatios => "key_zoom_ratios".toList
  | maxZoom => "key_max_zoom".toList
  | defaultZoom => "key_default_zoom".toList

def size : Dest → ℕ
  | cameraMake | cameraModel | cameraDevice => 64
  | supportValue _ | defaultValue _ | zoomRatios => keyLength
  | zoomSupported | smoothZoomSupported => 8
  | numberOfCamera | cameraFacing | deviceID | used _ | usedExposureCompensation | usedZoom => 2
  | _ => 4

end Dest

/-- The object.  A text is missing where the pointer is null, and where an array has not been
written yet. -/
structure State where
  keyFile : Option (List Char)
  constructOk : Bool
  curCameraId : ℤ
  numberOfCamera : ℤ
  cameraFacing : ℤ
  orientation : ℤ
  deviceID : ℤ
  fastPictureMode : Bool
  text : Dest → Option (List Char)

namespace State

def set (s : State) (d : Dest) (t : Option (List Char)) : State :=
  { s with text := Function.update s.text d t }

def setAll (s : State) (ds : List Dest) (t : Option (List Char)) : State :=
  ds.foldl (fun s d => s.set d t) s

/-- A call of `readKey`, and what it has found. -/
def read (s : State) (d : Dest) : Option (Option (List Char) × State) := do
  match ← readKey s.keyFile s.curCameraId d.key d.size with
  | some value => return (some value, s.set d (some value))
  | none => return (none, s)

/-- Calls whose results are not looked at. -/
def readAll (s : State) (ds : List Dest) : Option State :=
  ds.foldlM (fun s d => (s.read d).map Prod.snd) s

def usedKey (value : Option (List Char)) : Bool := value == some ['1']

/-- `INIT_PARAMETER`. -/
def initParameter (s : State) (p : Parameter) : Option State := do
  let s := (s.set (.used p) (some ['0'])).setAll [.supportValue p, .defaultValue p] none
  let (value, s) ← s.read (.used p)
  if usedKey value then
    let s ← (s.set (.supportValue p) (some [])).readAll [.supportValue p]
    (s.set (.defaultValue p) (some [])).readAll [.defaultValue p]
  else return s

def clearExposureCompensation (s : State) : State :=
  (s.set .usedExposureCompensation (some ['0'])).setAll [.maxExposureCompensation,
    .minExposureCompensation, .stepExposureCompensation, .defaultExposureCompensation] (some [])

def clearZoom (s : State) : State :=
  (s.set .usedZoom (some ['0'])).setAll
    [.zoomSupported, .smoothZoomSupported, .zoomRatios, .maxZoom, .defaultZoom] (some [])

/-- The constructor. -/
def construct (file : Option (List Char)) (id : ℤ) : Option State := do
  let s : State := ⟨none, false, id, 0, 0, 0, 0, false, fun _ => none⟩
  -- the file is not open yet, and no key is found
  let s ← Parameter.all.foldlM initParameter s
  let s := { s.clearExposureCompensation.clearZoom with keyFile := file }
  if s.keyFile = none then return s
  let s ← s.readAll [.cameraMake, .cameraModel]
  let (value, s) ← s.read .numberOfCamera
  let s := { s with numberOfCamera := (value.map atoi).getD s.numberOfCamera }
  if s.numberOfCamera < s.curCameraId + 1 then return s
  let (value, s) ← s.read .cameraFacing
  let s := { s with cameraFacing := (value.map atoi).getD s.cameraFacing }
  let s ← (s.set .cameraDevice (some [])).readAll [.cameraDevice]
  let (value, s) ← s.read .deviceID
  let s := { s with deviceID := (value.map atoi).getD s.deviceID }
  let (value, s) ← s.read .orientation
  let s := { s with orientation := (value.map atoi).getD s.orientation }
  return { s with constructOk := true }

def initFastPictureMode (s : State) : Option State := do
  let (value, s) ← s.read .fastPictureMode
  match value with
  | some value => return { s with fastPictureMode := atoi value == 1 }
  | none =>
    let (value, s) ← s.read .useBuiltinIsp
    return { s with fastPictureMode := (value.map (atoi · == 1)).getD s.fastPictureMode }

/-- Arrays that are only read to if they are used. -/
def initUsed (s : State) (used : Dest) (values : List Dest) : Option State := do
  let (value, s) ← s.read used
  if usedKey value then s.readAll values else return s

def initParameters (s : State) : Option State := do
  if !s.constructOk || s.keyFile.isNone then return s
  let s ← s.initFastPictureMode
  let s ← Parameter.all.foldlM initParameter s
  let s ← s.clearExposureCompensation.initUsed .usedExposureCompensation [.minExposureCompensation,
    .maxExposureCompensation, .stepExposureCompensation, .defaultExposureCompensation]
  s.clearZoom.initUsed .usedZoom
    [.zoomSupported, .smoothZoomSupported, .zoomRatios, .maxZoom, .defaultZoom]

/-! ### Long enough arrays -/

variable {s t : State} {file : Option (List Char)} {file' : List Char} {id : ℤ} {d : Dest}

/-- The camera reads its values from the file. -/
def Reads (file : Option (List Char)) (id : ℤ) (s : State) : Prop :=
  s.keyFile = file ∧ s.curCameraId = id

lemma Reads.set (hs : s.Reads file id) {d : Dest} {t : Option (List Char)} :
    (s.set d t).Reads file id :=
  hs

lemma Reads.setAll (hs : s.Reads file id) (ds : List Dest) (t : Option (List Char)) :
    (s.setAll ds t).Reads file id := by
  induction ds generalizing s with
  | nil => exact hs
  | cons d ds ih => exact ih hs.set

lemma Reads.clearExposureCompensation (hs : s.Reads file id) :
    s.clearExposureCompensation.Reads file id :=
  hs.set.setAll _ _

lemma Reads.clearZoom (hs : s.Reads file id) : s.clearZoom.Reads file id :=
  hs.set.setAll _ _

/-- No read writes behind an array. -/
def Fit (file : Option (List Char)) (id : ℤ) : Prop :=
  ∀ d : Dest, ∃ value, readKey file id d.key d.size = some value

/-- In a file of which all values fit, no call writes behind its array. -/
lemma fit_of_fits (hfits : ∀ d : Dest, Fits id d.key d.size (reads file')) : Fit (some file') id :=
  fun d => ⟨_, readKey_eq_some.mpr ⟨hfits d, rfl⟩⟩

lemma exists_read (hfit : Fit file id) (d : Dest) (hs : s.Reads file id) :
    ∃ r, s.read d = some r ∧ r.2.Reads file id := by
  obtain ⟨value, hvalue⟩ := hfit d
  rw [read, hs.1, hs.2, hvalue]
  cases value with
  | none => exact ⟨(none, s), rfl, hs⟩
  | some value => exact ⟨(some value, s.set d (some value)), rfl, hs⟩

lemma exists_readAll (hfit : Fit file id) (ds : List Dest) (hs : s.Reads file id) :
    ∃ t, s.readAll ds = some t ∧ t.Reads file id := by
  refine exists_foldlM ds (fun d hs => ?_) hs
  obtain ⟨r, hread, hr⟩ := exists_read hfit d hs
  exact ⟨r.2, by rw [hread]; rfl, hr⟩

lemma exists_initParameter (hfit : Fit file id) (p : Parameter) (hs : s.Reads file id) :
    ∃ t, s.initParameter p = some t ∧ t.Reads file id := by
  rw [initParameter]
  refine exists_bind (exists_read hfit (.used p) (hs.set.setAll _ _)) fun r hr => ?_
  dsimp only
  split_ifs
  · exact exists_bind (exists_readAll hfit _ hr.set) fun t ht => exists_readAll hfit _ ht.set
  · exact ⟨r.2, rfl, hr⟩

lemma exists_construct (hfit : Fit (some file') id) :
    ∃ s, construct (some file') id = some s ∧ s.Reads (some file') id := by
  have hclosed : Fit none id := fun d => ⟨none, rfl⟩
  rw [construct]
  refine exists_bind (exists_foldlM (P := Reads none id) Parameter.all
    (fun p hs => exists_initParameter hclosed p hs) ⟨rfl, rfl⟩) fun s₁ hs₁ => ?_
  have hs₁ : Reads (some file') id { s₁.clearExposureCompensation.clearZoom with
      keyFile := some file' } := ⟨rfl, (hs₁.clearExposureCompensation.clearZoom).2⟩
  dsimp only
  rw [if_neg (Option.some_ne_none _)]
  refine exists_bind (exists_readAll hfit _ hs₁) fun s₂ hs₂ => ?_
  refine exists_bind (exists_read hfit .numberOfCamera hs₂) fun ⟨number, s₃⟩ hs₃ => ?_
  dsimp only
  split_ifs
  · exact ⟨_, rfl, hs₃⟩
  refine exists_bind (exists_read hfit .cameraFacing
    (s := { s₃ with numberOfCamera := _ }) hs₃) fun ⟨facing, s₄⟩ hs₄ => ?_
  refine exists_bind (exists_readAll hfit [.cameraDevice]
    (s := State.set { s₄ with cameraFacing := _ } .cameraDevice (some [])) hs₄) fun s₅ hs₅ => ?_
  refine exists_bind (exists_read hfit .deviceID hs₅) fun ⟨device, s₆⟩ hs₆ => ?_
  refine exists_bind (exists_read hfit .orientation
    (s := { s₆ with deviceID := _ }) hs₆) fun ⟨angle, s₇⟩ hs₇ => ?_
  exact ⟨_, rfl, hs₇⟩

lemma exists_initFastPictureMode (hfit : Fit file id) (hs : s.Reads file id) :
    ∃ t, s.initFastPictureMode = some t ∧ t.Reads file id := by
  rw [initFastPictureMode]
  refine exists_bind (exists_read hfit .fastPictureMode hs) fun ⟨value, s₁⟩ hs₁ => ?_
  cases value with
  | some value => exact ⟨_, rfl, hs₁⟩
  | none =>
    exact exists_bind (exists_read hfit .useBuiltinIsp hs₁) fun r hr => ⟨_, rfl, hr⟩

lemma exists_initUsed (hfit : Fit file id) (used : Dest) (values : List Dest)
    (hs : s.Reads file id) : ∃ t, s.initUsed used values = some t ∧ t.Reads file id := by
  rw [initUsed]
  refine exists_bind (exists_read hfit used hs) fun r hr => ?_
  dsimp only
  split_ifs
  · exact exists_readAll hfit values hr
  · exact ⟨r.2, rfl, hr⟩

lemma exists_initParameters (hfit : Fit file id) (hs : s.Reads file id) :
    ∃ t, s.initParameters = some t ∧ t.Reads file id := by
  rw [initParameters]
  split_ifs
  · exact ⟨s, rfl, hs⟩
  refine exists_bind (exists_initFastPictureMode hfit hs) fun s₁ hs₁ => ?_
  refine exists_bind (exists_foldlM Parameter.all (fun p hs => exists_initParameter hfit p hs) hs₁)
    fun s₂ hs₂ => ?_
  exact exists_bind (exists_initUsed hfit _ _ hs₂.clearExposureCompensation) fun s₃ hs₃ =>
    exists_initUsed hfit _ _ hs₃.clearZoom

lemma exists_construct_initParameters
    (hfits : ∀ d : Dest, Fits id d.key d.size (reads file')) :
    ∃ s t, construct (some file') id = some s ∧ s.initParameters = some t := by
  obtain ⟨s, hconstruct, hs⟩ := exists_construct (fit_of_fits hfits)
  obtain ⟨t, hinit, -⟩ := exists_initParameters (fit_of_fits hfits) hs
  exact ⟨s, t, hconstruct, hinit⟩

/-- A read fills its array with the value of the section, if the lookup is right. -/
lemma exists_read_of_looksUp (hlooks : LooksUp file' id d.key d.size)
    (hs : s.Reads (some file') id) :
    ∃ t, s.read d = some ((firstOf d.key (sectionOf id d.key (texts file'))).map valueText, t) ∧
      ∀ line, firstOf d.key (sectionOf id d.key (texts file')) = some line →
        t.text d = some (valueText line) := by
  have hread : readKey (some file') id d.key d.size =
      some ((firstOf d.key (sectionOf id d.key (texts file'))).map valueText) := hlooks
  rw [read, hs.1, hs.2, hread]
  cases firstOf d.key (sectionOf id d.key (texts file')) with
  | none => exact ⟨s, rfl, fun line h => absurd h.symm (Option.some_ne_none line)⟩
  | some line =>
    refine ⟨s.set d (some (valueText line)), rfl, fun line' h => ?_⟩
    obtain rfl := Option.some.inj h
    exact Function.update_self ..

end State

/-! ## The configuration of a camera -/

variable {file key : List Char} {id : ℤ} {size : ℕ}

/-- The arrays are long enough; and where the marks delimit the section, the line that is found is
that of the key, or has its value.  Where they do not, only the values are left to agree.  The
constructor and `initParameters` return where all their arrays are long enough, and a read of theirs
fills its array with the value of the section where the lookup is right. -/
theorem looksUp_iff (hlines : ∀ l ∈ fileLines file, l.length < keyLength) :
    (LooksUp file id key size ↔ Fits id key size (texts file) ∧
      (between isMark id key (texts file) = sectionOf id key (texts file) →
        Plain key (sectionOf id key (texts file))) ∧
      (between isMark id key (texts file) ≠ sectionOf id key (texts file) →
        (firstWith key (between isMark id key (texts file))).map valueText =
          (firstOf key (sectionOf id key (texts file))).map valueText)) ∧
    ((∀ d : Dest, Fits id d.key d.size (texts file)) →
      ∃ s t, State.construct (some file) id = some s ∧ s.initParameters = some t) ∧
    ∀ (s : State) (d : Dest), s.Reads (some file) id → LooksUp file id d.key d.size →
      ∃ t, s.read d = some ((firstOf d.key (sectionOf id d.key (texts file))).map valueText, t) ∧
        ∀ line, firstOf d.key (sectionOf id d.key (texts file)) = some line →
          t.text d = some (valueText line) := by
  refine ⟨?_, fun hfits => ?_, fun s d hs hlooks => State.exists_read_of_looksUp hlooks hs⟩
  · rw [looksUp_iff_map hlines]
    refine and_congr_right fun _ => ?_
    by_cases hpart : between isMark id key (texts file) = sectionOf id key (texts file)
    · rw [hpart, and_iff_left fun h => absurd rfl h, imp_iff_right rfl]
      exact map_find?_eq_iff _
    · rw [and_iff_right fun h => absurd h hpart, imp_iff_right hpart]
  · exact State.exists_construct_initParameters (by rw [reads_eq hlines]; exact hfits)

/-- A camera that looks forward. -/
theorem looksUp_facing :
    LooksUp "camera_id = 0\ncamera_facing = 1\n".toList 0 "camera_facing".toList 2 := by
  have hfits : Fits 0 "camera_facing".toList 2
      (texts "camera_id = 0\ncamera_facing = 1\n".toList) := by
    have hfirst : firstWith "camera_facing".toList (between isMark 0 "camera_facing".toList
        (texts "camera_id = 0\ncamera_facing = 1\n".toList)) =
          some "camera_facing = 1\n".toList := by decide +kernel
    refine ⟨fun _ => by decide +kernel, fun l hl => ?_⟩
    obtain rfl := Option.some.inj (hfirst.symm.trans hl)
    decide +kernel
  refine (looksUp_iff (by decide +kernel)).1.mpr ⟨hfits, fun _ l hl => Or.inl ?_,
    fun hne => absurd (by decide +kernel) hne⟩
  have hfirst : ((sectionOf 0 "camera_facing".toList
      (texts "camera_id = 0\ncamera_facing = 1\n".toList)).find? fun l =>
        "camera_facing".toList.isPrefixOf l || keyText l == "camera_facing".toList) =
          some "camera_facing = 1\n".toList := by decide +kernel
  obtain rfl := Option.some.inj (hfirst.symm.trans hl)
  decide +kernel

/-- A line with a longer key is taken for that of the key; and ten cameras are one too many for two
characters. -/
theorem not_looksUp :
    ¬ LooksUp "camera_id = 0\ncamera_facing_front = 1\n".toList 0 "camera_facing".toList 2 ∧
      ¬ LooksUp "number_of_camera = 10\n".toList 0 "number_of_camera".toList 2 := by
  constructor <;> rw [LooksUp] <;> decide +kernel

end Softwinner.Camera.CCameraConfig
