import Mathlib.Data.List.Basic

/-! # Words between separators

`tokens` drops the empty pieces of a split, so the number of separators does not matter. `Spells`
describes the texts of a word list, with their separators. -/

namespace StrideRunner.Library

variable {α : Type*} [DecidableEq α] {sep : α}

def tokens (sep : α) (text : List α) : List (List α) :=
  (text.splitOn sep).filter (· ≠ [])

@[simp] theorem tokens_nil : tokens sep [] = [] := by simp [tokens]

@[simp] theorem tokens_cons_sep (text : List α) : tokens sep (sep :: text) = tokens sep text := by
  simp [tokens, List.splitOn_cons_eq_if_modifyHead]

theorem tokens_append_cons_sep (xs ys : List α) :
    tokens sep (xs ++ sep :: ys) = tokens sep xs ++ tokens sep ys := by
  simp [tokens, List.splitOn_append_cons_self]

theorem tokens_word {w : List α} (hw : w ≠ []) (hsep : sep ∉ w) : tokens sep w = [w] := by
  simp [tokens, List.splitOn_eq_singleton hsep, hw]

theorem tokens_replicate_append (k : ℕ) (text : List α) :
    tokens sep (List.replicate k sep ++ text) = tokens sep text := by
  induction k with
  | zero => rfl
  | succ k ih => rw [List.replicate_succ, List.cons_append, tokens_cons_sep, ih]

/-- One more element extends the last word, or is a word of its own. -/
theorem tokens_concat {x : α} (hx : x ≠ sep) (xs : List α) :
    ∃ ws w, tokens sep (xs ++ [x]) = ws ++ [w ++ [x]] ∧
      (tokens sep xs = ws ∨ tokens sep xs = ws ++ [w]) := by
  -- the induction moves the word in progress into `pre`
  suffices h : ∀ pre, sep ∉ pre → ∃ ws w, tokens sep (pre ++ (xs ++ [x])) = ws ++ [w ++ [x]] ∧
      (tokens sep (pre ++ xs) = ws ∨ tokens sep (pre ++ xs) = ws ++ [w]) from h [] (by simp)
  induction xs with
  | nil =>
      intro pre hpre
      have hword : sep ∉ pre ++ [x] := by simp [hpre, Ne.symm hx]
      refine ⟨[], pre, by simpa using tokens_word (by simp) hword, ?_⟩
      by_cases hnil : pre = []
      · exact Or.inl (by simp [hnil])
      · exact Or.inr (by simpa using tokens_word hnil hpre)
  | cons y ys ih =>
      intro pre hpre
      by_cases hy : y = sep
      · subst hy
        obtain ⟨ws, w, hconcat, hws⟩ := ih [] (by simp)
        refine ⟨tokens y pre ++ ws, w, ?_, ?_⟩
        · rw [List.cons_append, tokens_append_cons_sep, ← List.nil_append (ys ++ [x]), hconcat,
            List.append_assoc]
        · rw [tokens_append_cons_sep]
          rw [List.nil_append] at hws
          exact hws.imp (congrArg _) fun h => by rw [h, List.append_assoc]
      · have hpre' : sep ∉ pre ++ [y] := by simp [hpre, Ne.symm hy]
        simpa using ih (pre ++ [y]) hpre'

/-- `text` consists of the words, with at least one separator between two of them and any
number in front and behind. -/
inductive Spells (sep : α) : List (List α) → List α → Prop
  | blank (k : ℕ) : Spells sep [] (List.replicate k sep)
  | word {w : List α} {ws : List (List α)} {text : List α} (k : ℕ) (hw : w ≠ []) (hsep : sep ∉ w)
      (hgap : ws = [] ∨ text.head? = some sep) (hrest : Spells sep ws text) :
      Spells sep (w :: ws) (List.replicate k sep ++ (w ++ text))

omit [DecidableEq α] in
theorem Spells.mem {ws : List (List α)} {text : List α} (h : Spells sep ws text) {x : α}
    (hx : x ∈ text) : x = sep ∨ ∃ w ∈ ws, x ∈ w := by
  induction h with
  | blank k => exact Or.inl (List.eq_of_mem_replicate hx)
  | word k hw hsep hgap hrest ih =>
      rcases List.mem_append.mp hx with hx | hx
      · exact Or.inl (List.eq_of_mem_replicate hx)
      · rcases List.mem_append.mp hx with hx | hx
        · exact Or.inr ⟨_, by simp, hx⟩
        · rcases ih hx with rfl | ⟨w, hw, hx⟩
          · exact Or.inl rfl
          · exact Or.inr ⟨w, by simp [hw], hx⟩

omit [DecidableEq α] in
theorem Spells.cons_sep {ws : List (List α)} {text : List α} (h : Spells sep ws text) :
    Spells sep ws (sep :: text) := by
  cases h with
  | blank k => exact .blank (k + 1)
  | word k hw hsep hgap hrest => exact .word (k + 1) hw hsep hgap hrest

omit [DecidableEq α] in
theorem Spells.singleton {w : List α} (hw : w ≠ []) (hsep : sep ∉ w) : Spells sep [w] w := by
  have h := Spells.word 0 hw hsep (Or.inl rfl) (.blank 0)
  simpa using h

omit [DecidableEq α] in
/-- One separator behind the first word is enough. -/
theorem Spells.cons {w : List α} {ws : List (List α)} {text : List α} (hw : w ≠ [])
    (hsep : sep ∉ w) (h : Spells sep ws text) : Spells sep (w :: ws) (w ++ sep :: text) := by
  have hcons := Spells.word 0 hw hsep (Or.inr rfl) h.cons_sep
  simpa using hcons

omit [DecidableEq α] in
/-- In front of the first word there are only separators. -/
theorem Spells.head?_eq {w : List α} {ws : List (List α)} {text : List α}
    (h : Spells sep (w :: ws) text) : text.head? = some sep ∨ text.head? = w.head? := by
  cases h with
  | word k hw hsep hgap hrest =>
      cases k with
      | zero => exact Or.inr (List.head?_append_of_ne_nil w hw)
      | succ k => exact Or.inl rfl

theorem Spells.tokens_eq {ws : List (List α)} {text : List α} (h : Spells sep ws text) :
    tokens sep text = ws := by
  induction h with
  | blank k => simpa using tokens_replicate_append k []
  | @word w ws text k hw hsep hgap hrest ih =>
      rw [tokens_replicate_append]
      cases text with
      | nil => rw [List.append_nil, tokens_word hw hsep, ← ih, tokens_nil]
      | cons x text =>
          have hx : x = sep := by
            rcases hgap with rfl | hhead
            · simpa using hrest.mem (List.mem_cons_self : x ∈ x :: text)
            · exact Option.some.inj hhead
          subst hx
          rw [tokens_append_cons_sep, tokens_word hw hsep, ← ih, tokens_cons_sep]
          rfl

/-- Behind the last word there are only separators. -/
theorem Spells.mem_of_getLast? {ws : List (List α)} {text : List α} (h : Spells sep ws text) {x : α}
    (hx : text.getLast? = some x) : x = sep ∨ ∃ w ∈ ws.getLast?, x ∈ w := by
  induction h with
  | blank k => exact Or.inl (List.eq_of_mem_replicate (List.mem_of_getLast? hx))
  | @word w ws text k hw hsep hgap hrest ih =>
      rw [List.getLast?_append_of_ne_nil _ (by simp [hw])] at hx
      by_cases htext : text = []
      · subst htext
        have hws : ws = [] := by rw [← hrest.tokens_eq, tokens_nil]
        rw [List.append_nil] at hx
        exact Or.inr ⟨w, by simp [hws], List.mem_of_getLast? hx⟩
      · rw [List.getLast?_append_of_ne_nil _ htext] at hx
        rcases ih hx with rfl | ⟨w', hw', hx'⟩
        · exact Or.inl rfl
        · cases ws with
          | nil => cases hw'
          | cons v vs => exact Or.inr ⟨w', by simpa using hw', hx'⟩

end StrideRunner.Library
