import Softwinner.SecureStorage.Api

/-!
# What a write of the private store touches

`modify_env_parameter` stores a record in one of four places, each time with `strcpy` of the name to
a field of 32 bytes and of the value to one of 128.  `private_data_write` admits values of up to 4096
bytes and does not look at the length of the name.

`modifyStores` lists the stores of a call with their offsets; `modifyEnvParameter_eq` says that the
call makes these stores and no others.  `WriteFramed` is the frame of a call: one record, which has
the name or is not in use, and the count of the header.  `privateStore_framed_iff` says for which
tables, names and values a call keeps to it.
-/

namespace Softwinner.SecureStorage

open Framework Prog

/-! ## The stores of a call -/

/-- Value and `valid` of record `j`. -/
def valueStores (j : ℕ) (v : Bytes) : List (ℕ × Bytes) :=
  [(recordOffset j + 32, v ++ [0]), (recordOffset j + 160, le32 1)]

/-- Name, value and `valid` of record `j`. -/
def recordStores (j : ℕ) (a v : Bytes) : List (ℕ × Bytes) :=
  (recordOffset j, a ++ [0]) :: valueStores j v

/-- The stores of `modify_env_parameter` behind the initialisation; `none` where a string it reads
has no end. -/
def modifyStores (privateBuf name value : Bytes) : Option (List (ℕ × Bytes)) :=
  let buf := initSpace privateBuf
  if firstUnused buf then (cstr value).map fun v => (8, le32 1) :: recordStores 0 name v
  else if i32 buf 8 > 0 then
    match scanRecords buf name (i32 buf 8) userDataParameterMaxCount 0 with
    | none => none
    | some (j, true) => (cstr value).map fun v => valueStores j v
    | some (j, false) =>
      if (j : ℤ) = i32 buf 8 then
        (cstr value).map fun v => recordStores j name v ++ [(8, le32 (u32 buf 8 + 1))]
      else some []
  else (cstr value).map fun v => recordStores 0 name v ++ [(8, le32 (u32 buf 8 + 1))]

/-- The bytes of the two strings of record `j`. -/
def InFields (j : ℕ) (w : ℕ × Bytes) : Prop :=
  recordOffset j ≤ w.1 ∧ w.1 + w.2.length ≤ recordOffset j + 160

/-- The `count` of the header, or the `valid` of record `j`. -/
def IsFlag (j : ℕ) (w : ℕ × Bytes) : Prop :=
  (w.1 = 8 ∨ w.1 = recordOffset j + 160) ∧ w.2.length = 4

/-- Record `j` has the name, or is not in use. -/
def RecordFor (buf a : Bytes) (j : ℕ) : Prop :=
  (j : ℤ) < i32 buf 8 ∧ nameAt buf j = some a ∨ firstUnused buf = true ∧ j = 0 ∨ i32 buf 8 ≤ j

/-- Byte `i` belongs neither to record `j` nor to the count. -/
def OutsideRecord (j i : ℕ) : Prop := (i < 8 ∨ 12 ≤ i) ∧ (i < recordOffset j ∨ recordOffset j + 164 ≤ i)

/-- The frame of a write of `a`: all stores are to the strings and the `valid` of one record for
`a` and to the count, and whatever is reported to fail, no other byte of the store is different
afterwards. -/
def WriteFramed (t : EnvStore) (a src : Bytes) : Prop :=
  ∃ j stores, modifyStores t.userData a src = some stores ∧
    (stores ≠ [] → RecordFor t.userData a j) ∧ (∀ w ∈ stores, InFields j w ∨ IsFlag j w) ∧
    ∀ (h : Bool) (env : ℕ → Choice), (∀ n, (env n).Reported) →
      Yields performEnv (sunxiPrivateStoreWrite a src) ⟨h, env, t⟩ fun _ c =>
        ∀ i, OutsideRecord j i → c.st.userData[i]? = t.userData[i]?

/-! ## The exact condition -/

/-- An initialised store: each record in use that the loops reach has two strings that end in
their fields. -/
structure WellFormed (buf : Bytes) : Prop where
  length : buf.length = userDataMaxsize
  magic : buf.take 5 = envMagic
  fields : ∀ j : ℕ, (j : ℤ) < i32 buf 8 → j < userDataParameterMaxCount →
    nameAt buf j ≠ none ∧ valueAt buf j ≠ none

/-- The search finds the name. -/
def HasName (buf a : Bytes) : Prop :=
  firstUnused buf = false ∧
    ∃ j < userDataParameterMaxCount, (j : ℤ) < i32 buf 8 ∧ nameAt buf j = some a

/-- The table is full and does not have the name, so that nothing is stored. -/
def NoPlace (buf a : Bytes) : Prop :=
  firstUnused buf = false ∧ (userDataParameterMaxCount : ℤ) < i32 buf 8 ∧ ¬ HasName buf a

/-- A table of the records of a history of writes is well-formed. -/
lemma TableOf.wellFormed {buf : Bytes} {recs : Records} (h : TableOf buf recs) : WellFormed buf := by
  refine ⟨h.length, h.magic, fun j hj _ => ?_⟩
  rw [h.i32_count] at hj
  obtain ⟨hname, hvalue⟩ := h.fields j _ (List.getElem?_eq_getElem (Int.ofNat_lt.mp hj))
  constructor
  · rw [hname]
    exact Option.some_ne_none _
  · rw [hvalue]
    exact Option.some_ne_none _

/-- The value fits its field, and a new name with its NUL the two string fields of a record. -/
def StoreFits (buf a b : Bytes) : Prop :=
  NoPlace buf a ∨ (cvalue b).length ≤ 127 ∧ (HasName buf a ∨ a.length ≤ 159)

/-! ## The call makes its stores -/

section Stores

variable {buf buf' a v src : Bytes} {j : ℕ}

lemma putValue_stores (hsrc : cstr src = some v) :
    putValue buf j src = storeAll buf (valueStores j v) := by
  simp only [putValue, strcpyAt, hsrc, valueStores, storeAll_cons, storeAll_nil, Option.bind_some,
    Option.bind_eq_bind, Option.bind_fun_some]

lemma putRecord_stores (hsrc : cstr src = some v) :
    putRecord buf j a src = storeAll buf (recordStores j a v) := by
  have hvalue : ∀ b : Bytes, putValue b j src = storeAll b (valueStores j v) :=
    fun _ => putValue_stores hsrc
  rw [recordStores, storeAll_cons]
  simp only [← hvalue]
  rfl

/-- Without a value that ends, nothing is stored. -/
lemma putRecord_none (hsrc : cstr src = none) : putRecord buf j a src = none := by
  unfold putRecord strcpyAt
  rw [hsrc]
  cases store buf (recordOffset j) (a ++ [0]) with
  | none => rfl
  | some b => rfl

/-- The stores of a record leave the header alone. -/
lemma u32_recordStores (h : storeAll buf (recordStores j a v) = some buf') :
    u32 buf' 8 = u32 buf 8 := by
  have hoff : recordOffset j = 24 + 176 * j := rfl
  refine u32_congr fun i hi => storeAll_frame h fun w hw => ?_
  simp only [recordStores, valueStores, List.mem_cons, List.not_mem_nil, or_false] at hw
  rcases hw with rfl | rfl | rfl
  · exact Or.inl (by omega)
  · exact Or.inl (by omega)
  · exact Or.inl (by omega)

lemma putRecord_setCount (hsrc : cstr src = some v) :
    ((putRecord buf j a src).bind fun b => setCount b (u32 b 8 + 1)) =
      storeAll buf (recordStores j a v ++ [(8, le32 (u32 buf 8 + 1))]) := by
  rw [putRecord_stores hsrc, storeAll_append]
  cases hrec : storeAll buf (recordStores j a v) with
  | none => rfl
  | some b =>
    rw [Option.bind_some, Option.bind_some, u32_recordStores hrec, storeAll_cons, setCount]
    simp only [storeAll_nil, Option.bind_fun_some]

/-- `modify_env_parameter` makes these stores. -/
lemma modifyEnvParameter_eq (buf a src : Bytes) :
    modifyEnvParameter buf a src = (modifyStores buf a src).bind (storeAll (initSpace buf)) := by
  have hnone : cstr src = none → ∀ (b : Bytes) (j : ℕ),
      ((putRecord b j a src).bind fun b => setCount b (u32 b 8 + 1)) = none := by
    intro hsrc b j
    rw [putRecord_none hsrc, Option.bind_none]
  simp only [modifyEnvParameter, modifyStores, Option.bind_eq_bind]
  split_ifs with hunused hcount
  · cases hsrc : cstr src with
    | none =>
      rw [Option.map_none, Option.bind_none]
      cases setCount (initSpace buf) 1 with
      | none => rfl
      | some b => exact putRecord_none hsrc
    | some v =>
      rw [Option.map_some, Option.bind_some, storeAll_cons]
      congr 1
      funext b
      exact putRecord_stores hsrc
  · cases scanRecords (initSpace buf) a (i32 (initSpace buf) 8) userDataParameterMaxCount 0 with
    | none => rfl
    | some x =>
      obtain ⟨j, found⟩ := x
      cases found with
      | true =>
        rw [Option.bind_some]
        simp only [if_true]
        cases hsrc : cstr src with
        | none =>
          simp only [putValue, strcpyAt, hsrc, Option.bind_none, Option.map_none,
            Option.bind_eq_bind]
        | some v => exact putValue_stores hsrc
      | false =>
        simp only [Option.bind_some, Bool.false_eq_true, if_false]
        split_ifs
        · cases hsrc : cstr src with
          | none => exact hnone hsrc _ _
          | some v => exact putRecord_setCount hsrc
        · rfl
  · cases hsrc : cstr src with
    | none => exact hnone hsrc _ _
    | some v => exact putRecord_setCount hsrc

end Stores

/-! ## The search in a well-formed store -/

section Search

variable {buf a : Bytes}

/-- Where the search loop stops. -/
lemma scanRecords_spec (ha : (0 : UInt8) ∉ a) (count : ℤ) (n : ℕ) :
    ∀ {j : ℕ}, (∀ i, j ≤ i → i < j + n → (i : ℤ) < count → nameAt buf i ≠ none) →
      ∃ k found, scanRecords buf a count n j = some (k, found) ∧ j ≤ k ∧ k ≤ j + n ∧
        (∀ i, j ≤ i → i < k → (i : ℤ) < count ∧ nameAt buf i ≠ some a) ∧
        if found then k < j + n ∧ (k : ℤ) < count ∧ nameAt buf k = some a
        else k = j + n ∨ count ≤ k := by
  induction n with
  | zero =>
    intro j _
    exact ⟨j, false, rfl, Nat.le_refl _, Nat.le_refl _, fun i h1 h2 => by omega, Or.inl rfl⟩
  | succ n ih =>
    intro j hnames
    unfold scanRecords
    by_cases hlt : (j : ℤ) < count
    · rw [if_pos hlt]
      obtain ⟨name, hname⟩ := Option.ne_none_iff_exists'.mp
        (hnames j (Nat.le_refl _) (by omega) hlt)
      obtain ⟨h0, t, ht⟩ := exists_of_nameAt hname
      rw [ht, strcmp_append_nul ha h0]
      by_cases heq : a = name
      · simp only [heq, decide_true]
        refine ⟨j, true, rfl, Nat.le_refl _, by omega, fun i h1 h2 => by omega, ?_⟩
        rw [if_pos rfl]
        exact ⟨by omega, hlt, hname⟩
      · simp only [heq, decide_false]
        obtain ⟨k, found, hscan, hle, hle', hbefore, hend⟩ := ih (j := j + 1) fun i h1 h2 hc =>
          hnames i (by omega) (by omega) hc
        refine ⟨k, found, hscan, by omega, by omega, fun i h1 h2 => ?_, ?_⟩
        · by_cases hij : i = j
          · subst hij
            refine ⟨hlt, ?_⟩
            rw [hname]
            exact fun h => heq (Option.some.inj h).symm
          · exact hbefore i (by omega) h2
        · rw [show j + (n + 1) = j + 1 + n by omega]
          exact hend
    · rw [if_neg hlt]
      exact ⟨j, false, rfl, Nat.le_refl _, by omega, fun i h1 h2 => by omega,
        Or.inr (Int.not_lt.mp hlt)⟩

/-- How a write of a well-formed store goes on: a value is replaced, a record is stored, or
nothing is stored. -/
inductive Places (buf a src : Bytes) : Prop
  | value {j : ℕ} (hhas : HasName buf a) (hfor : RecordFor buf a j)
      (hj : j ≤ userDataParameterMaxCount)
      (heq : modifyStores buf a src = (cstr src).map (valueStores j)) : Places buf a src
  | record {j : ℕ} {pre post : List (ℕ × Bytes)} (hno : ¬ HasName buf a) (hplace : ¬ NoPlace buf a)
      (hfor : RecordFor buf a j) (hj : j ≤ userDataParameterMaxCount)
      (hcount : ∀ w ∈ pre ++ post, w.1 = 8 ∧ w.2.length = 4)
      (heq : modifyStores buf a src = (cstr src).map fun v => pre ++ recordStores j a v ++ post) :
      Places buf a src
  | nothing (hplace : NoPlace buf a) (heq : modifyStores buf a src = some []) : Places buf a src

lemma WellFormed.places (src : Bytes) (h : WellFormed buf) (ha : (0 : UInt8) ∉ a) :
    Places buf a src := by
  have hmax : userDataParameterMaxCount = 30 := rfl
  have hinit : initSpace buf = buf := if_pos h.magic
  by_cases hunused : firstUnused buf = true
  · have hnot : ¬ firstUnused buf = false := by simp [hunused]
    refine @Places.record _ _ _ 0 [(8, le32 1)] [] (fun hhas => hnot hhas.1)
      (fun hplace => hnot hplace.1) (Or.inr (Or.inl ⟨hunused, rfl⟩)) (Nat.zero_le _) (by simp) ?_
    rw [modifyStores, hinit, if_pos hunused]
    simp
  have hused : firstUnused buf = false := by simpa using hunused
  by_cases hcount : i32 buf 8 > 0
  swap
  · refine @Places.record _ _ _ 0 [] [(8, le32 (u32 buf 8 + 1))] ?_ ?_ ?_
      (Nat.zero_le _) (by simp) ?_
    · rintro ⟨-, j, -, hj, -⟩
      omega
    · rintro ⟨-, hfull, -⟩
      omega
    · exact Or.inr (Or.inr (by omega))
    · rw [modifyStores, hinit, if_neg (by simp [hused]), if_neg hcount]
      simp only [List.nil_append]
  obtain ⟨k, found, hscan, -, hle, hbefore, hend⟩ := scanRecords_spec ha (i32 buf 8)
    userDataParameterMaxCount (j := 0)
    fun i _ hi hc => (h.fields i hc (by omega)).1
  rw [Nat.zero_add] at hle
  cases found with
  | true =>
    rw [if_pos rfl, Nat.zero_add] at hend
    refine .value ⟨hused, k, hend⟩ (Or.inl hend.2) (Nat.le_of_lt hend.1) ?_
    rw [modifyStores, hinit, if_neg (by simp [hused]), if_pos hcount, hscan]
  | false =>
    rw [if_neg (by simp), Nat.zero_add] at hend
    have hno : ¬ HasName buf a := by
      rintro ⟨-, j, hj, hlt, hname⟩
      have hjk : j < k := by
        rcases hend with rfl | hge
        · exact hj
        · omega
      exact (hbefore j (Nat.zero_le _) hjk).2 hname
    have hlast : k = 0 ∨ ((k - 1 : ℕ) : ℤ) < i32 buf 8 := by
      rcases Nat.eq_zero_or_pos k with hk | hk
      · exact Or.inl hk
      · exact Or.inr (hbefore (k - 1) (Nat.zero_le _) (by omega)).1
    by_cases heq : (k : ℤ) = i32 buf 8
    · refine @Places.record _ _ _ k [] [(8, le32 (u32 buf 8 + 1))] hno ?_
        (Or.inr (Or.inr (by omega))) hle (by simp) ?_
      · rintro ⟨-, hfull, -⟩
        omega
      · rw [modifyStores, hinit, if_neg (by simp [hused]), if_pos hcount, hscan]
        simp only [if_pos heq, List.nil_append]
    · refine .nothing ⟨hused, ?_, hno⟩ ?_
      · rcases hend with rfl | hge
        · omega
        · omega
      · rw [modifyStores, hinit, if_neg (by simp [hused]), if_pos hcount, hscan]
        exact if_neg heq

end Search

/-! ## The frame -/

section Frame

variable {t : EnvStore} {buf a b v src : Bytes} {stores : List (ℕ × Bytes)} {j j₀ d : ℕ}

/-- The string that a call copies, if it ends. -/
lemma cstr_bufferBak_eq (hb : b.length ≤ secBlkSize) : cstr (bufferBak b) =
    if (cvalue b).length < secBlkSize then some (cvalue b) else none := by
  have hle := length_cvalue_le b
  have hform : bufferBak b = cvalue b ++ zeros (secBlkSize - (cvalue b).length) := by
    rw [bufferBak_eq, strncpy_length, List.append_assoc, zeros, zeros, zeros,
      List.replicate_append_replicate]
    congr 2
    omega
  rw [hform]
  split_ifs with hlt
  · rw [show secBlkSize - (cvalue b).length = secBlkSize - (cvalue b).length - 1 + 1 by omega,
      zeros_succ]
    exact cstr_append_nul (not_mem_cvalue b)
  · cases hcstr : cstr (cvalue b ++ zeros (secBlkSize - (cvalue b).length)) with
    | none => rfl
    | some s =>
      rw [Nat.sub_eq_zero_of_le (Nat.not_lt.mp hlt), zeros, List.replicate_zero,
        List.append_nil] at hcstr
      obtain ⟨-, r, hr⟩ := exists_of_cstr_eq_some hcstr
      refine absurd ?_ (not_mem_cvalue b)
      rw [hr]
      simp

/-- A string that is copied to a name or value field and stays in the fields of a record. -/
lemma length_le_of_inFields (hd : d = 0 ∨ d = 32)
    (hw : InFields j (recordOffset j₀ + d, v ++ [0]) ∨ IsFlag j (recordOffset j₀ + d, v ++ [0])) :
    d + v.length ≤ 159 := by
  have hoff : ∀ k, recordOffset k = 24 + 176 * k := fun _ => rfl
  rcases hw with ⟨h1, h2⟩ | ⟨h1 | h1, -⟩
  · simp only [hoff, List.length_append, List.length_singleton] at h1 h2
    omega
  · simp only [hoff] at h1
    omega
  · simp only [hoff] at h1
    omega

/-- The stores of a value that fits. -/
lemma valueStores_in (hv : v.length ≤ 127) {w : ℕ × Bytes} (hw : w ∈ valueStores j v) :
    InFields j w ∨ IsFlag j w := by
  simp only [valueStores, List.mem_cons, List.not_mem_nil, or_false] at hw
  rcases hw with rfl | rfl
  · exact Or.inl ⟨by simp, by simp; omega⟩
  · exact Or.inr ⟨Or.inr rfl, length_le32 1⟩

/-- The stores of a record that fits. -/
lemma recordStores_in (ha : a.length ≤ 159) (hv : v.length ≤ 127) {w : ℕ × Bytes}
    (hw : w ∈ recordStores j a v) : InFields j w ∨ IsFlag j w := by
  rcases List.mem_cons.mp hw with rfl | hw
  · exact Or.inl ⟨Nat.le_refl _, by simp; omega⟩
  · exact valueStores_in hv hw

/-- A write that stops anywhere leaves each byte old or new. -/
lemma getElem?_write {c : Choice} {buf' : Bytes} {i : ℕ} (hlen : buf'.length = userDataMaxsize)
    (heq : buf'[i]? = t.userData[i]?) : (t.write (c.written buf')).userData[i]? = t.userData[i]? := by
  have hold := t.length
  have hpre : c.written buf' <+: buf' := by
    unfold Choice.written
    split_ifs
    · exact List.prefix_refl _
    · exact List.take_prefix _ _
  obtain ⟨rest, hrest⟩ := hpre
  have hle : (c.written buf').length ≤ userDataMaxsize := by
    have hsum := congrArg List.length hrest
    rw [List.length_append] at hsum
    omega
  change ((c.written buf' ++ t.userData.drop (c.written buf').length).take userDataMaxsize)[i]? = _
  rw [List.getElem?_take]
  split_ifs with hi
  · by_cases hnew : i < (c.written buf').length
    · rw [List.getElem?_append_left hnew, ← heq]
      conv_rhs => rw [← hrest]
      rw [List.getElem?_append_left hnew]
    · rw [List.getElem?_append_right (by omega), List.getElem?_drop]
      congr 1
      omega
  · rw [List.getElem?_eq_none (by omega)]

/-- A call whose stores stay in one record has the frame. -/
lemma writeFramed_of_stores (h : WellFormed t.userData) (hj : j ≤ userDataParameterMaxCount)
    (hstores : modifyStores t.userData a src = some stores)
    (hfor : stores ≠ [] → RecordFor t.userData a j)
    (hin : ∀ w ∈ stores, InFields j w ∨ IsFlag j w) : WriteFramed t a src := by
  have hoff : recordOffset j = 24 + 176 * j := rfl
  have hmax : userDataParameterMaxCount = 30 := rfl
  have hsize : userDataMaxsize = 8192 := rfl
  have hlen := h.length
  have hinit : initSpace t.userData = t.userData := if_pos h.magic
  have hroom : ∀ w ∈ stores, w.1 + w.2.length ≤ t.userData.length := by
    intro w hw
    rcases hin w hw with ⟨-, hle⟩ | ⟨h1 | h1, h2⟩
    · omega
    · omega
    · omega
  obtain ⟨buf', hall⟩ := Option.ne_none_iff_exists'.mp (storeAll_ne_none hroom)
  have hmod : modifyEnvParameter t.userData a src = some buf' := by
    rw [modifyEnvParameter_eq, hstores, hinit]
    exact hall
  have hlen' : buf'.length = userDataMaxsize := by rw [length_storeAll hall, hlen]
  have hframe : ∀ i, OutsideRecord j i → buf'[i]? = t.userData[i]? := by
    intro i hi
    refine storeAll_frame hall fun w hw => ?_
    obtain ⟨h8, hrec⟩ := hi
    rcases hin w hw with ⟨h1, h2⟩ | ⟨h1 | h1, h2⟩
    · omega
    · omega
    · omega
  refine ⟨j, stores, hstores, hfor, hin, fun hd env henv => ?_⟩
  have hwp : wp performEnv (fun _ c _ => c.Reported) (sunxiPrivateStoreWrite a src)
      (fun _ _ t' => ∀ i, OutsideRecord j i → t'.userData[i]? = t.userData[i]?) hd t := by
    unfold sunxiPrivateStoreWrite
    refine wp_step fun _ _ => ⟨_, _, rfl, ?_⟩
    split_ifs
    · exact fun i _ => rfl
    refine wp_step fun c hc => ⟨_, _, rfl, ?_⟩
    cases hok : c.ok with
    | false =>
      have hseen : c.seen = true := hc.resolve_left (by simp [hok])
      simp only [hseen, Bool.false_eq_true, if_false, if_true]
      exact fun i _ => rfl
    | true =>
      simp only [if_true, hmod]
      refine wp_step fun c _ => ⟨_, _, rfl, ?_⟩
      have hwritten : ∀ i, OutsideRecord j i →
          (t.write (c.written buf')).userData[i]? = t.userData[i]? :=
        fun i hi => getElem?_write hlen' (hframe i hi)
      split_ifs
      · exact hwritten
      · exact hwritten
  obtain ⟨r, c, hrun, hc⟩ := wp_run (G := Choice.Reported) (c := ⟨hd, env, t⟩) hwp henv
  exact ⟨r, c, hrun, hc⟩

lemma writeFramed_iff (h : WellFormed t.userData) (ha : (0 : UInt8) ∉ a) (hb : b.length ≤ secBlkSize) :
    WriteFramed t a (bufferBak b) ↔ StoreFits t.userData a b := by
  have hsize : secBlkSize = 4096 := rfl
  have hcstr := cstr_bufferBak_eq hb
  -- a value that a field can hold ends in the block
  have hfits : (cvalue b).length ≤ 127 → cstr (bufferBak b) = some (cvalue b) := by
    intro hv
    rw [hcstr, if_pos (by omega)]
  have hends : ∀ {f : Bytes → List (ℕ × Bytes)} {stores},
      (cstr (bufferBak b)).map f = some stores → stores = f (cvalue b) := by
    intro f stores hsome
    rw [hcstr] at hsome
    split_ifs at hsome
    · exact (Option.some.inj hsome).symm
    · cases hsome
  have hvalue : ∀ k, (recordOffset k + 32, cvalue b ++ [0]) ∈ valueStores k (cvalue b) :=
    fun _ => List.mem_cons_self
  have hname : ∀ k, (recordOffset k + 0, a ++ [0]) ∈ recordStores k a (cvalue b) :=
    fun _ => List.mem_cons_self
  constructor
  · rintro ⟨j, stores, hstores, -, hin, -⟩
    cases h.places (bufferBak b) ha with
    | value hhas _ _ heq =>
      obtain rfl := hends (heq.symm.trans hstores)
      have hlen := length_le_of_inFields (Or.inr rfl) (hin _ (hvalue _))
      exact Or.inr ⟨by omega, Or.inl hhas⟩
    | record _ _ _ _ _ heq =>
      obtain rfl := hends (heq.symm.trans hstores)
      have hrec : ∀ w ∈ recordStores _ a (cvalue b), InFields j w ∨ IsFlag j w :=
        fun w hw => hin w (List.mem_append_left _ (List.mem_append_right _ hw))
      have hlen := length_le_of_inFields (Or.inl rfl) (hrec _ (hname _))
      have hlen' := length_le_of_inFields (Or.inr rfl) (hrec _ (List.mem_cons_of_mem _ (hvalue _)))
      exact Or.inr ⟨by omega, Or.inr (by omega)⟩
    | nothing hplace _ => exact Or.inl hplace
  · intro hfit
    cases h.places (bufferBak b) ha with
    | @value j hhas hfor hj heq =>
      rcases hfit with hplace | ⟨hv, -⟩
      · exact absurd hhas hplace.2.2
      · rw [hfits hv] at heq
        exact writeFramed_of_stores h hj heq (fun _ => hfor) fun w hw => valueStores_in hv hw
    | @record j pre post hno hplace hfor hj hcount heq =>
      rcases hfit with hfull | ⟨hv, hshort⟩
      · exact absurd hfull hplace
      · rw [hfits hv] at heq
        refine writeFramed_of_stores h hj heq (fun _ => hfor) fun w hw => ?_
        rcases List.mem_append.mp hw with hw | hw
        · rcases List.mem_append.mp hw with hw | hw
          · have hflag := hcount w (List.mem_append_left _ hw)
            exact Or.inr ⟨Or.inl hflag.1, hflag.2⟩
          · exact recordStores_in (hshort.resolve_left hno) hv hw
        · have hflag := hcount w (List.mem_append_right _ hw)
          exact Or.inr ⟨Or.inl hflag.1, hflag.2⟩
    | nothing _ heq =>
      refine writeFramed_of_stores h (Nat.zero_le _) heq (fun hne => absurd rfl hne) fun w hw => ?_
      cases hw

/-- A call keeps to its frame exactly if value and name fit, or it stores nothing. -/
theorem privateStore_framed_iff (t : EnvStore) (a b : Bytes) (h : WellFormed t.userData)
    (ha : (0 : UInt8) ∉ a) (hb : b.length ≤ secBlkSize) :
    WriteFramed t a (bufferBak b) ↔ StoreFits t.userData a b :=
  writeFramed_iff h ha hb

/-! ### A value of 128 bytes -/

lemma exists_oneRecord : ∃ t : EnvStore, TableOf t.userData [([97], [118])] := by
  have hname : EnvName [97] := by
    refine ⟨⟨by simp, by simp⟩, fun hpre => ?_⟩
    have hlen := hpre.length_le
    simp [ffs] at hlen
  have hmagic : (ffs userDataMaxsize).take 5 ≠ envMagic := by
    rw [ffs, List.take_replicate]
    decide
  obtain ⟨buf', -, htable⟩ := modifyEnvParameter_fresh hmagic hname ⟨by simp, by simp⟩
    (show cstr [118, 0] = some [118] by decide)
  exact ⟨⟨buf', htable.length⟩, htable⟩

/-- A value of one byte for a second name. -/
theorem privateStore_framed_iff_second : ∃ t : EnvStore, TableOf t.userData [([97], [118])] ∧
    WriteFramed t [98] (bufferBak [119]) := by
  obtain ⟨t, htable⟩ := exists_oneRecord
  refine ⟨t, htable, ?_⟩
  refine (privateStore_framed_iff t [98] [119] htable.wellFormed (by simp) (by decide)).mpr ?_
  exact Or.inr ⟨by decide, Or.inr (by simp)⟩

/-- A value of 128 bytes ends on `valid`. -/
theorem privateStore_leaves_record :
    ¬ ∀ (t : EnvStore) (a b : Bytes), WellFormed t.userData → (0 : UInt8) ∉ a →
      b.length ≤ secBlkSize → WriteFramed t a (bufferBak b) := by
  intro hall
  obtain ⟨t, htable⟩ := exists_oneRecord
  have hlong : (List.replicate 128 (119 : UInt8)).length ≤ secBlkSize := by
    rw [List.length_replicate]
    decide
  have hfit := (writeFramed_iff htable.wellFormed (by simp) hlong).mp
    (hall t [97] _ htable.wellFormed (by simp) hlong)
  rcases hfit with ⟨-, hfull, -⟩ | ⟨hv, -⟩
  · rw [htable.i32_count] at hfull
    simp [userDataParameterMaxCount] at hfull
  · rw [cvalue_eq_self.mpr (by simp), List.length_replicate] at hv
    omega

end Frame

end Softwinner.SecureStorage
