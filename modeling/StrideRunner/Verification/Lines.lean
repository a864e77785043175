import StrideRunner.Model.Text

/-! # Lines of a text

Splitting into lines before or after decoding makes no difference, and a line that is written with
its terminator is read back. -/

namespace StrideRunner

/-! ## The splitter -/

section

variable {α : Type*} [DecidableEq α] {cr lf : α}

/-- Text in front of the first line. -/
def prepend (xs : List α) : List (List α) → List (List α)
  | [] => [xs]
  | line :: rest => (xs ++ line) :: rest

theorem lines_cons_of_ne {x : α} {xs : List α} (hlf : x ≠ lf)
    (hcr : ¬ (x = cr ∧ xs.head? = some lf)) :
    lines cr lf (x :: xs) = prepend [x] (lines cr lf xs) := by
  rw [lines, if_neg hlf, if_neg hcr]
  cases lines cr lf xs <;> rfl

/-- A prefix without terminators belongs to the first line. -/
theorem lines_append_of_notMem {xs : List α} (hxs : xs ≠ []) (hlf : lf ∉ xs) (hcr : cr ∉ xs)
    (rest : List α) : lines cr lf (xs ++ rest) = prepend xs (lines cr lf rest) := by
  induction xs with
  | nil => exact (hxs rfl).elim
  | cons x xs ih =>
      obtain ⟨hx, hlf⟩ := not_or.mp (List.mem_cons.not.mp hlf)
      obtain ⟨hx', hcr⟩ := not_or.mp (List.mem_cons.not.mp hcr)
      rw [List.cons_append, lines_cons_of_ne (Ne.symm hx) fun h => hx' h.1.symm]
      cases xs with
      | nil => rfl
      | cons y ys =>
          rw [ih (by simp) hlf hcr]
          cases lines cr lf rest <;> rfl

/-- The line that `w` becomes in front of a line feed. -/
def chop (cr : α) (w : List α) : List α :=
  if w.getLast? = some cr then w.dropLast else w

theorem lines_append_lf {w : List α} (hlf : lf ∉ w) (rest : List α) :
    lines cr lf (w ++ lf :: rest) = chop cr w :: lines cr lf rest := by
  induction w with
  | nil => simp [lines, chop]
  | cons x w ih =>
      obtain ⟨hx, hlf⟩ := not_or.mp (List.mem_cons.not.mp hlf)
      rw [List.cons_append, lines, if_neg (Ne.symm hx), ih hlf]
      cases w with
      | nil => by_cases hcr : x = cr <;> simp [chop, hcr]
      | cons y w =>
          have hy : y ≠ lf := fun h => hlf (by simp [h])
          have hguard : ¬ (x = cr ∧ (y :: w ++ lf :: rest).head? = some lf) := by simp [hy]
          rw [if_neg hguard]
          simp only [chop, List.getLast?_cons_cons, List.dropLast_cons_cons]
          split <;> rfl

theorem lines_of_notMem {w : List α} (hw : w ≠ []) (hlf : lf ∉ w) : lines cr lf w = [w] := by
  induction w with
  | nil => exact (hw rfl).elim
  | cons x w ih =>
      obtain ⟨hx, hlf⟩ := not_or.mp (List.mem_cons.not.mp hlf)
      have hguard : ¬ (x = cr ∧ w.head? = some lf) := fun h =>
        hlf (List.mem_of_mem_head? h.2)
      rw [lines, if_neg (Ne.symm hx), if_neg hguard]
      cases w with
      | nil => rfl
      | cons y w => rw [ih (by simp) hlf]

theorem chop_append_cr (w : List α) : chop cr (w ++ [cr]) = w := by simp [chop]

theorem chop_eq_or (w : List α) : chop cr w = w ∨ w = chop cr w ++ [cr] := by
  unfold chop
  split
  · rename_i hlast
    exact Or.inr (List.dropLast_append_getLast? _ hlast).symm
  · exact Or.inl rfl

theorem notMem_of_mem_lines {xs line : List α} (h : line ∈ lines cr lf xs) : lf ∉ line := by
  induction xs generalizing line with
  | nil => cases h
  | cons x xs ih =>
      rw [lines] at h
      split at h
      · rcases List.mem_cons.mp h with rfl | h
        · simp
        · exact ih h
      · rename_i hx
        split at h
        · exact ih h
        · split at h
          · rw [List.mem_singleton.mp h]
            simpa using Ne.symm hx
          · rename_i first rest hrest
            rcases List.mem_cons.mp h with rfl | h
            · have hfirst := ih (hrest ▸ List.mem_cons_self)
              simp [hfirst, Ne.symm hx]
            · exact ih (hrest ▸ List.mem_cons_of_mem _ h)

end

/-! ## Lines of encoded text -/

theorem utf8EncodeChar_of_le {c : Char} (h : c.toNat ≤ 127) :
    String.utf8EncodeChar c = [UInt8.ofNat c.toNat] :=
  if_pos h

/-- The bytes of a character outside ASCII are none of ASCII's. -/
theorem le_of_mem_utf8EncodeChar {c : Char} (h : 127 < c.toNat) {b : UInt8}
    (hb : b ∈ String.utf8EncodeChar c) : 128 ≤ b.toNat := by
  have hnot : ¬ c.val.toNat ≤ 127 := Nat.not_le.mpr h
  simp only [String.utf8EncodeChar, hnot, if_false] at hb
  split at hb
  · simp only [List.mem_cons, List.not_mem_nil, or_false] at hb
    rcases hb with rfl | rfl <;> rw [UInt8.toNat_ofNat'] <;> omega
  · split at hb
    · simp only [List.mem_cons, List.not_mem_nil, or_false] at hb
      rcases hb with rfl | rfl | rfl <;> rw [UInt8.toNat_ofNat'] <;> omega
    · simp only [List.mem_cons, List.not_mem_nil, or_false] at hb
      rcases hb with rfl | rfl | rfl | rfl <;> rw [UInt8.toNat_ofNat'] <;> omega

theorem notMem_utf8EncodeChar {c d : Char} (hne : c ≠ d) (hd : d.toNat ≤ 127) :
    UInt8.ofNat d.toNat ∉ String.utf8EncodeChar c := by
  intro hmem
  by_cases hc : c.toNat ≤ 127
  · rw [utf8EncodeChar_of_le hc, List.mem_singleton, ← UInt8.toNat_inj, UInt8.toNat_ofNat',
      UInt8.toNat_ofNat'] at hmem
    apply hne
    rw [← Char.toNat_inj]
    omega
  · have hle := le_of_mem_utf8EncodeChar (Nat.lt_of_not_le hc) hmem
    rw [UInt8.toNat_ofNat'] at hle
    omega

theorem encodeUtf8_cons (c : Char) (text : List Char) :
    encodeUtf8 (c :: text) = String.utf8EncodeChar c ++ encodeUtf8 text :=
  List.flatMap_cons

theorem encodeUtf8_append (xs ys : List Char) :
    encodeUtf8 (xs ++ ys) = encodeUtf8 xs ++ encodeUtf8 ys := List.flatMap_append

theorem encodeUtf8_injective : Function.Injective encodeUtf8 := by
  intro text text' h
  have hdecode := congrArg decodeUtf8 h
  simpa using hdecode

theorem notMem_encodeUtf8 {text : List Char} {c : Char} (hc : c.toNat ≤ 127) (h : c ∉ text) :
    UInt8.ofNat c.toNat ∉ encodeUtf8 text := by
  intro hmem
  obtain ⟨d, hd, hbyte⟩ := List.mem_flatMap.mp hmem
  have hne : d ≠ c := fun heq => h (heq ▸ hd)
  exact notMem_utf8EncodeChar hne hc hbyte

/-- An ASCII byte at the front of encoded text is its first character. -/
theorem head?_encodeUtf8_eq_iff {text : List Char} {c : Char} (hc : c.toNat ≤ 127) :
    (encodeUtf8 text).head? = some (UInt8.ofNat c.toNat) ↔ text.head? = some c := by
  cases text with
  | nil => simp [encodeUtf8]
  | cons d text =>
      rw [encodeUtf8_cons, List.head?_append_of_ne_nil _ String.utf8EncodeChar_ne_nil,
        List.head?_cons]
      by_cases hd : d.toNat ≤ 127
      · rw [utf8EncodeChar_of_le hd, List.head?_cons, Option.some.injEq, Option.some.injEq,
          ← UInt8.toNat_inj, UInt8.toNat_ofNat', UInt8.toNat_ofNat', ← Char.toNat_inj]
        omega
      · have hne : d ≠ c := fun h => hd (h ▸ hc)
        simp only [Option.some.injEq, hne, iff_false]
        intro hhead
        have hle := le_of_mem_utf8EncodeChar (Nat.lt_of_not_le hd) (List.mem_of_mem_head? hhead)
        rw [UInt8.toNat_ofNat'] at hle
        omega

theorem map_encodeUtf8_prepend (c : Char) (ls : List (List Char)) :
    (prepend [c] ls).map encodeUtf8 = prepend (String.utf8EncodeChar c) (ls.map encodeUtf8) := by
  cases ls with
  | nil => simp [prepend, encodeUtf8]
  | cons line rest => simp [prepend, encodeUtf8_cons]

/-- Line ends are found in the bytes as in the characters. -/
theorem lines_encodeUtf8 (text : List Char) :
    lines 13 10 (encodeUtf8 text) = (lines '\r' '\n' text).map encodeUtf8 := by
  induction text with
  | nil => rfl
  | cons c text ih =>
      rw [encodeUtf8_cons]
      by_cases hlf : c = '\n'
      · subst hlf
        have hbyte : String.utf8EncodeChar '\n' = [10] := rfl
        rw [hbyte, List.singleton_append, lines, if_pos rfl, ih, lines, if_pos rfl]
        rfl
      · by_cases hcr : c = '\r'
        · subst hcr
          have hbyte : String.utf8EncodeChar '\r' = [13] := rfl
          have hhead : (encodeUtf8 text).head? = some 10 ↔ text.head? = some '\n' :=
            head?_encodeUtf8_eq_iff (by decide : '\n'.toNat ≤ 127)
          by_cases hnext : text.head? = some '\n'
          · rw [hbyte, List.singleton_append, lines, if_neg (by decide),
              if_pos ⟨rfl, hhead.mpr hnext⟩, ih, lines, if_neg hlf, if_pos ⟨rfl, hnext⟩]
          · rw [lines_cons_of_ne hlf fun h => hnext h.2, map_encodeUtf8_prepend, ← ih, hbyte,
              List.singleton_append,
              lines_cons_of_ne (by decide) fun h => hnext (hhead.mp h.2)]
        · rw [lines_cons_of_ne hlf fun h => hcr h.1, map_encodeUtf8_prepend, ← ih]
          exact lines_append_of_notMem String.utf8EncodeChar_ne_nil
            (notMem_utf8EncodeChar hlf (by decide)) (notMem_utf8EncodeChar hcr (by decide)) _

/-- Reading the lines of an encoded text decodes them. -/
theorem bufReadLines_encodeUtf8 (text : List Char) :
    bufReadLines (encodeUtf8 text) = (lines '\r' '\n' text).map .ok := by
  simp [bufReadLines, lines_encodeUtf8, decodeLine, Function.comp_def]

end StrideRunner
