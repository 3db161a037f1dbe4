import Softwinner.Framework.Ledger

/-!
# Tables of handles

A table that is filled in order, each entry with what has just been allocated, and emptied in the
same order.  `Holds l Rest table i n` says that the entries from `i` to `n` are live and that beside
them only `Rest` is; a program fills a table by `Holds.push` and empties it by `Holds.pop`.
-/

namespace Framework.Ledger

variable {l : Ledger} {Rest : ℕ → Prop} {table : ℕ → Option ℕ} {i n base : ℕ}

/-- The entries from `i` to `n` have consecutive handles, from `base + i` on. -/
structure HoldsAt (l : Ledger) (Rest : ℕ → Prop) (table : ℕ → Option ℕ) (i n base : ℕ) : Prop where
  entries : ∀ j, i ≤ j → j < n → table j = some (base + j)
  rest : ∀ h, Rest h → h < base
  balanced : l.Balanced fun h => Rest h ∨ base + i ≤ h ∧ h < base + n

def Holds (l : Ledger) (Rest : ℕ → Prop) (table : ℕ → Option ℕ) (i n : ℕ) : Prop :=
  ∃ base, l.HoldsAt Rest table i n base

/-- The next handle goes behind the entries that there are. -/
def Filling (l : Ledger) (Rest : ℕ → Prop) (table : ℕ → Option ℕ) (n : ℕ) : Prop :=
  ∃ base, base + n = l.next ∧ l.HoldsAt Rest table 0 n base

lemma Filling.holds (h : l.Filling Rest table n) : l.Holds Rest table 0 n := by
  obtain ⟨base, -, h⟩ := h
  exact ⟨base, h⟩

/-- An empty table. -/
lemma Balanced.filling (h : l.Balanced Rest) (table : ℕ → Option ℕ) : l.Filling Rest table 0 := by
  refine ⟨l.next, rfl, fun j _ hlt => absurd hlt (Nat.not_lt_zero j), h.owned_lt,
    h.congr fun k => ?_⟩
  exact ⟨fun hk => hk.resolve_right fun hk => by omega, Or.inl⟩

lemma Filling.push (h : l.Filling Rest table n) :
    l.alloc.Filling Rest (Function.update table n (some l.next)) (n + 1) := by
  obtain ⟨base, hnext, hentries, hrest, hbalanced⟩ := h
  refine ⟨base, congrArg (· + 1) hnext, fun j _ hlt => ?_, hrest, hbalanced.alloc fun k => ?_⟩
  · by_cases hj : j = n
    · rw [hj, Function.update_self, hnext]
    · rw [Function.update_of_ne hj]
      exact hentries j (Nat.zero_le j) (by omega)
  · rw [← hnext]
    constructor
    · rintro (hk | hk)
      · exact .inr (.inl hk)
      · by_cases heq : k = base + n
        · exact .inl heq
        · exact .inr (.inr (by omega))
    · rintro (rfl | hk | hk)
      · exact .inr (by omega)
      · exact .inl hk
      · exact .inr (by omega)

/-- The first of the entries is released; the table is not looked at below the others. -/
lemma Holds.pop {table' : ℕ → Option ℕ} (h : l.Holds Rest table i n) (hi : i < n)
    (htable : ∀ j, i < j → table' j = table j) :
    (l.releaseIf (table i)).Holds Rest table' (i + 1) n := by
  obtain ⟨base, hentries, hrest, hbalanced⟩ := h
  have hentry := hentries i (Nat.le_refl i) hi
  refine ⟨base, fun j hle hlt => (htable j hle).trans (hentries j (by omega) hlt), hrest, ?_⟩
  rw [hentry]
  refine hbalanced.release (.inr (by omega)) fun k => ?_
  constructor
  · rintro (hk | hk)
    · exact ⟨fun heq => absurd (hrest k hk) (by omega), .inl hk⟩
    · exact ⟨by omega, .inr (by omega)⟩
  · rintro ⟨hne, hk | hk⟩
    · exact .inl hk
    · exact .inr (by omega)

/-- Nothing is left of the table. -/
lemma Holds.balanced (h : l.Holds Rest table n n) : l.Balanced Rest := by
  obtain ⟨base, -, -, hbalanced⟩ := h
  exact hbalanced.congr fun k => ⟨Or.inl, fun hk => hk.resolve_right fun hk => by omega⟩

/-- What is live, as the table has it. -/
lemma Holds.balanced_iff (h : l.Holds Rest table 0 n) :
    l.Balanced fun k => Rest k ∨ ∃ j < n, table j = some k := by
  obtain ⟨base, hentries, -, hbalanced⟩ := h
  refine hbalanced.congr fun k => or_congr_right ?_
  constructor
  · rintro ⟨j, hlt, hj⟩
    obtain rfl := Option.some.inj ((hentries j (Nat.zero_le j) hlt).symm.trans hj)
    omega
  · intro hk
    refine ⟨k - base, by omega, ?_⟩
    rw [hentries _ (Nat.zero_le _) (by omega)]
    exact congrArg some (by omega)

end Framework.Ledger
