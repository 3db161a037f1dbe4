import Softwinner.SecureStorage.Map

/-!
# The map scanners, entry by entry

Both scanners of the item map make one turn of their loop per entry: the turn ends the scan, or it
moves the pointer behind the next NUL.  `probeTurn` and `fillTurn` are these turns; `probeFrom_eq`
and `fillScan_eq` write the loops over them, for any contents of the map.  The lemmas about
`scanUntil` say where its inner loops stop, and when they leave the block.
-/

namespace Softwinner.SecureStorage

open Framework

/-! ## The inner loops -/

section ScanUntil

variable {stop : UInt8 → Bool} {room : ℕ} {b name p : Bytes}

/-- An inner loop stops at the first byte it looks for, or when it has no room left; it leaves the
block when neither is inside. -/
lemma scanUntil_eq (stop : UInt8 → Bool) (room : ℕ) (b : Bytes) :
    scanUntil stop room b =
      if min (b.findIdx stop) room < b.length then
        some (b.take (min (b.findIdx stop) room), b.drop (min (b.findIdx stop) room))
      else none := by
  induction b generalizing room with
  | nil => simp [scanUntil]
  | cons c b ih =>
    unfold scanUntil
    rw [List.findIdx_cons]
    cases hc : stop c with
    | true => simp
    | false =>
      cases room with
      | zero => simp
      | succ room =>
        simp only [Bool.false_eq_true, if_false, cond_false, ih room]
        rw [Nat.succ_min_succ, List.length_cons, List.take_succ_cons, List.drop_succ_cons]
        by_cases h : min (b.findIdx stop) room < b.length
        · rw [if_pos h, if_pos (by omega)]
          rfl
        · rw [if_neg h, if_neg (by omega)]
          rfl

end ScanUntil

/-! ## Turns -/

/-- How one turn of a scan ends: with a result, or behind an entry of `n` bytes and its NUL. -/
inductive Turn (α : Type)
  | done (a : α)
  | next (n : ℕ)

/-- One turn of `__probe_name_in_map`; the result is the length of a hit. -/
def probeTurn (itemName buf : Bytes) : Option (Turn (Option ℤ)) :=
  match buf with
  | [] => none
  | c :: _ =>
    if c = 0 then some (.done none)
    else
      match scanUntil (fun c => c == 58 || c == 0) mapKeyNameSize buf with
      | none => none
      | some (name, p) =>
        if name.length ≥ mapKeyNameSize then some (.done none)
        else
          match scanUntil (fun c => c == 32 || c == 0) mapKeyDataSize (p.drop 1) with
          | none => none
          | some (length, _) =>
            if length.length ≥ mapKeyDataSize then some (.done none)
            else
              match memcmp itemName (name ++ zeros (mapKeyNameSize - name.length))
                  itemName.length with
              | none => none
              | some true => some (.done (some (atol length)))
              | some false => (strlen buf).map .next

/-- One turn of `__fill_name_in_map`; the result is a `FillScan` that counts from this entry. -/
def fillTurn (itemName : Bytes) (index : ℕ) (buf : Bytes) : Option (Turn FillScan) :=
  match buf with
  | [] => none
  | c :: _ =>
    if c = 0 then some (.done (.free index buf))
    else
      match scanUntil (fun c => c == 58) mapKeyNameSize buf with
      | none => none
      | some (name, _) =>
        if name.length ≥ mapKeyNameSize then some (.done .dirty)
        else
          match memcmp buf itemName itemName.length with
          | none => none
          | some true => some (.done (.found index))
          | some false => (strlen buf).map .next

section Loops

variable {α : Type} {a buf : Bytes} {index k n : ℕ} {len : ℤ}

lemma probeFrom_eq (a : Bytes) (index : ℕ) (buf : Bytes) :
    probeFrom a index buf =
      match probeTurn a buf with
      | none => none
      | some (.done r) => some (r.map fun len => (index, len))
      | some (.next n) => probeFrom a (index + 1) (buf.drop (n + 1)) := by
  cases buf with
  | nil => rw [probeFrom, probeTurn]
  | cons c b =>
    rw [probeFrom, probeTurn]
    split_ifs
    · rfl
    cases scanUntil (fun c => c == 58 || c == 0) mapKeyNameSize (c :: b) with
    | none => rfl
    | some x =>
      simp only
      split_ifs
      · rfl
      cases scanUntil (fun c => c == 32 || c == 0) mapKeyDataSize (x.2.drop 1) with
      | none => rfl
      | some y =>
        simp only
        split_ifs
        · rfl
        cases memcmp a (x.1 ++ zeros (mapKeyNameSize - x.1.length)) a.length with
        | none => rfl
        | some hit =>
          cases hit with
          | true => rfl
          | false => cases strlen (c :: b) <;> rfl

lemma fillScan_eq (a : Bytes) (index : ℕ) (buf : Bytes) :
    fillScan a index buf =
      match fillTurn a index buf with
      | none => none
      | some (.done r) => some r
      | some (.next n) => fillScan a (index + 1) (buf.drop (n + 1)) := by
  cases buf with
  | nil => rw [fillScan, fillTurn]
  | cons c b =>
    rw [fillScan, fillTurn]
    split_ifs
    · rfl
    cases scanUntil (fun c => c == 58) mapKeyNameSize (c :: b) with
    | none => rfl
    | some x =>
      simp only
      split_ifs
      · rfl
      cases memcmp (c :: b) a a.length with
      | none => rfl
      | some hit =>
        cases hit with
        | true => rfl
        | false => cases strlen (c :: b) <;> rfl

lemma strlen_lt (h : strlen buf = some n) : n < buf.length := by
  induction buf generalizing n with
  | nil => simp [strlen] at h
  | cons c b ih =>
    unfold strlen at h
    split_ifs at h
    · simp at h
      simp [← h]
    · obtain ⟨m, hm, rfl⟩ := Option.map_eq_some_iff.mp h
      have hlt := ih hm
      simp [hlt]

lemma probeTurn_next (h : probeTurn a buf = some (.next n)) : strlen buf = some n := by
  have hstr : ∀ {o : Option ℕ}, o.map Turn.next = some (.next n : Turn (Option ℤ)) → o = some n := by
    intro o ho
    obtain ⟨m, hm, hmn⟩ := Option.map_eq_some_iff.mp ho
    injection hmn with hmn
    rw [hm, hmn]
  unfold probeTurn at h
  split at h
  · cases h
  split at h
  · cases h
  split at h
  · cases h
  split at h
  · cases h
  split at h
  · cases h
  split at h
  · cases h
  split at h
  · cases h
  · cases h
  · exact hstr h

lemma fillTurn_next (h : fillTurn a index buf = some (.next n)) : strlen buf = some n := by
  have hstr : ∀ {o : Option ℕ}, o.map Turn.next = some (.next n : Turn FillScan) → o = some n := by
    intro o ho
    obtain ⟨m, hm, hmn⟩ := Option.map_eq_some_iff.mp ho
    injection hmn with hmn
    rw [hm, hmn]
  unfold fillTurn at h
  split at h
  · cases h
  split at h
  · cases h
  split at h
  · cases h
  split at h
  · cases h
  split at h
  · cases h
  · cases h
  · exact hstr h

/-- Induction over the strings of a map: what holds at a string if it holds behind its NUL, holds
everywhere. -/
lemma entry_induction {P : Bytes → Prop}
    (hstep : ∀ b, (∀ n, strlen b = some n → P (b.drop (n + 1))) → P b) (buf : Bytes) : P buf := by
  induction hlen : buf.length using Nat.strongRecOn generalizing buf with
  | ind m ih =>
    refine hstep buf fun n hn => ih _ ?_ _ rfl
    have hlt := strlen_lt hn
    rw [List.length_drop]
    omega

/-- The entries of the map are numbered from 1. -/
lemma probeFrom_index : ∀ {index : ℕ}, probeFrom a index buf = some (some (k, len)) → index ≤ k := by
  induction buf using entry_induction with
  | _ buf ih =>
    intro index hit
    rw [probeFrom_eq] at hit
    cases hturn : probeTurn a buf with
    | none => rw [hturn] at hit; cases hit
    | some t =>
      rw [hturn] at hit
      cases t with
      | done r =>
        cases r with
        | none => cases hit
        | some len' =>
          simp only [Option.map_some, Option.some.injEq, Prod.mk.injEq] at hit
          omega
      | next n =>
        have hle := ih n (probeTurn_next hturn) hit
        omega

lemma probeNameInMap_pos (hit : probeNameInMap buf a = some (some (k, len))) : 1 ≤ k :=
  probeFrom_index hit

/-- A turn of the insertion scan that ends it. -/
lemma fillTurn_free {rest : Bytes} (h : fillTurn a index buf = some (.done (.free k rest))) :
    k = index ∧ rest = buf ∧ ∃ b, buf = 0 :: b := by
  unfold fillTurn at h
  split at h
  · cases h
  split at h
  · rename_i hc
    obtain ⟨rfl, rfl⟩ := FillScan.free.inj (Turn.done.inj (Option.some.inj h))
    exact ⟨rfl, rfl, _, by rw [hc]⟩
  split at h
  · cases h
  split at h
  · cases h
  split at h
  · cases h
  · cases h
  · obtain ⟨n, -, hn⟩ := Option.map_eq_some_iff.mp h
    cases hn

/-- Where a new entry goes: behind the entries, at a NUL. -/
lemma fillScan_free {rest : Bytes} : ∀ {index : ℕ}, fillScan a index buf = some (.free k rest) →
    index ≤ k ∧ rest <:+ buf ∧ ∃ b, rest = 0 :: b := by
  induction buf using entry_induction with
  | _ buf ih =>
    intro index hfree
    rw [fillScan_eq] at hfree
    cases hturn : fillTurn a index buf with
    | none => rw [hturn] at hfree; cases hfree
    | some t =>
      rw [hturn] at hfree
      cases t with
      | done r =>
        obtain rfl := Option.some.inj hfree
        obtain ⟨rfl, rfl, b, rfl⟩ := fillTurn_free hturn
        exact ⟨Nat.le_refl _, List.suffix_rfl, b, rfl⟩
      | next n =>
        obtain ⟨hle, hsuf, hnul⟩ := ih n (fillTurn_next hturn) hfree
        exact ⟨by omega, hsuf.trans (List.drop_suffix _ _), hnul⟩

end Loops

end Softwinner.SecureStorage
