import Mathlib.Data.List.Basic
import Mathlib.Data.Nat.Digits.Defs

/-! Numbers and words in a line of text: decimal digits, and fields between separators. -/

namespace Decimal

/-- The number that digits spell. -/
def ofDigitChars (cs : List Char) : ℕ := cs.foldl (fun n c => 10 * n + (c.toNat - 48)) 0

theorem ofDigitChars_concat (cs : List Char) (c : Char) :
    ofDigitChars (cs ++ [c]) = 10 * ofDigitChars cs + (c.toNat - 48) := by
  rw [ofDigitChars, List.foldl_append]
  rfl

/-- The digits of a number spell it. -/
theorem ofDigitChars_toDigits (n : ℕ) : ofDigitChars (Nat.toDigits 10 n) = n := by
  induction n using Nat.strong_induction_on with
  | _ n ih =>
    rw [Nat.toDigits_eq_if (by decide)]
    split
    · rename_i hlt
      exact (ofDigitChars_concat [] _).trans (by
        rw [Nat.toNat_digitChar_sub_48_of_lt_ten hlt]
        exact Nat.zero_add n)
    · rename_i hge
      rw [ofDigitChars_concat, ih (n / 10) (by omega),
        Nat.toNat_digitChar_sub_48_of_lt_ten (Nat.mod_lt n (by decide))]
      omega

theorem isDigit_toDigits (n : ℕ) : ∀ c ∈ Nat.toDigits 10 n, c.isDigit = true :=
  fun _ hc => Nat.isDigit_of_mem_toDigits (by decide) (by decide) hc

/-! ### Words -/

/-- The maximal runs of text between separators. -/
def words (sep : Char → Bool) (text : List Char) : List (List Char) :=
  (text.splitOnP sep).filter fun w => !w.isEmpty

/-- Words joined by a separator are read back. -/
theorem words_intercalate {sep : Char → Bool} {s : Char} (hs : sep s = true) :
    ∀ {ws : List (List Char)}, (∀ w ∈ ws, w ≠ [] ∧ ∀ c ∈ w, sep c = false) →
      words sep ([s].intercalate ws) = ws
  | [], _ => rfl
  | [w], h => by
    obtain ⟨hne, hclean⟩ := h w (by simp)
    rw [words, List.intercalate_singleton, List.splitOnP_eq_singleton hclean]
    simp [hne]
  | w :: w' :: ws, h => by
    obtain ⟨hne, hclean⟩ := h w (by simp)
    have hrest : ∀ v ∈ w' :: ws, v ≠ [] ∧ ∀ c ∈ v, sep c = false :=
      fun v hv => h v (List.mem_cons_of_mem _ hv)
    have ih := words_intercalate hs hrest
    have hcons : [s].intercalate (w :: w' :: ws) = w ++ s :: [s].intercalate (w' :: ws) := by
      rw [List.intercalate_cons_cons]
      simp
    rw [words, hcons, List.splitOnP_append_cons_of_forall_mem hclean s hs, List.filter_cons_of_pos]
    · exact congrArg (w :: ·) ih
    · simpa using hne

theorem mem_intercalate {s c : Char} : ∀ {ws : List (List Char)},
    c ∈ [s].intercalate ws → c = s ∨ ∃ w ∈ ws, c ∈ w
  | [], h => by cases h
  | [w], h => Or.inr ⟨w, by simp, by simpa using h⟩
  | w :: w' :: ws, h => by
    rw [List.intercalate_cons_cons, List.mem_append, List.mem_append, List.mem_singleton] at h
    rcases h with (hw | hs) | hrest
    · exact Or.inr ⟨w, by simp, hw⟩
    · exact Or.inl hs
    · rcases mem_intercalate hrest with hs | ⟨v, hv, hc⟩
      · exact Or.inl hs
      · exact Or.inr ⟨v, List.mem_cons_of_mem _ hv, hc⟩

theorem length_intercalate_le {s : Char} {k : ℕ} : ∀ {ws : List (List Char)},
    (∀ w ∈ ws, w.length ≤ k) → ([s].intercalate ws).length ≤ ws.length * (k + 1)
  | [], _ => by simp
  | [w], h => by
    have := h w (by simp)
    rw [List.intercalate_singleton, List.length_singleton]
    omega
  | w :: w' :: ws, h => by
    have hw := h w (by simp)
    have hrest : ∀ v ∈ w' :: ws, v.length ≤ k := fun v hv => h v (List.mem_cons_of_mem _ hv)
    have ih := length_intercalate_le (s := s) hrest
    rw [List.intercalate_cons_cons, List.length_append, List.length_append, List.length_singleton,
      List.length_cons, Nat.succ_mul]
    omega

/-- Lines that end in a separator they do not contain are the pieces between the separators, before
    an empty one. -/
theorem splitOn_lines {s : Char} : ∀ {lines : List (List Char)}, (∀ l ∈ lines, s ∉ l) →
    (lines.flatMap fun l => l ++ [s]).splitOn s = lines ++ [[]]
  | [], _ => List.splitOn_nil s
  | l :: lines, h => by
    have ih := splitOn_lines fun l' hl' => h l' (List.mem_cons_of_mem _ hl')
    rw [List.flatMap_cons, List.append_assoc, List.singleton_append,
      List.splitOn_append_cons_self_of_not_mem (h l (by simp)), ih, List.cons_append]

end Decimal
