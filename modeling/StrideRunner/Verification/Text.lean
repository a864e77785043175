import StrideRunner.Model.Text

/-! # Decimal numbers and what the parsers accept -/

namespace StrideRunner

/-- `text` consists of ASCII digits and denotes `value`; leading zeros are allowed. -/
structure IsDecimal (text : List Char) (value : ℕ) : Prop where
  nonempty : text ≠ []
  digits : ∀ c ∈ text, c.isDigit
  value_eq : Nat.ofDigitChars 10 text 0 = value

theorem IsDecimal.unique {text : List Char} {v w : ℕ} (hv : IsDecimal text v)
    (hw : IsDecimal text w) : v = w :=
  hv.value_eq.symm.trans hw.value_eq

instance (text : List Char) (value : ℕ) : Decidable (IsDecimal text value) :=
  decidable_of_iff
    (text ≠ [] ∧ text.all Char.isDigit ∧ Nat.ofDigitChars 10 text 0 = value)
    ⟨fun h => ⟨h.1, List.all_eq_true.mp h.2.1, h.2.2⟩,
      fun h => ⟨h.nonempty, List.all_eq_true.mpr h.digits, h.value_eq⟩⟩

theorem IsDecimal.notMem {text : List Char} {value : ℕ} (h : IsDecimal text value) {c : Char}
    (hc : c.isDigit = false) : c ∉ text := by
  intro hmem
  have hdigit := h.digits c hmem
  simp [hc] at hdigit

theorem isDecimal_toDigits (n : ℕ) : IsDecimal (Nat.toDigits 10 n) n :=
  ⟨Nat.toDigits_ne_nil, fun _ hc => Nat.isDigit_of_mem_toDigits (by omega) (by omega) hc,
    Nat.ofDigitChars_ten_toDigits⟩

theorem le_ofDigitChars (text : List Char) (init : ℕ) :
    init ≤ Nat.ofDigitChars 10 text init := by
  induction text generalizing init with
  | nil => simp
  | cons c cs ih =>
      rw [Nat.ofDigitChars_cons]
      have := ih (10 * init + (c.toNat - '0'.toNat))
      omega

/-- The overflow checks of the digit loop reject exactly the values outside the type. -/
theorem parseDigits_eq_ok_iff {size init value : ℕ} {text : List Char} (hinit : init < size) :
    parseDigits size init text = .ok value ↔
      (∀ c ∈ text, c.isDigit) ∧ Nat.ofDigitChars 10 text init = value ∧ value < size := by
  induction text generalizing init with
  | nil =>
      simp only [parseDigits, Except.ok.injEq, Nat.ofDigitChars_nil]
      grind
  | cons c cs ih =>
      have hle := le_ofDigitChars cs (10 * init + (c.toNat - '0'.toNat))
      rw [parseDigits, Nat.ofDigitChars_cons]
      by_cases hdigit : c.isDigit
      · by_cases hsum : size ≤ 10 * init + (c.toNat - '0'.toNat)
        · have hfail : (if size ≤ 10 * init then Except.error IntErrorKind.posOverflow
              else if size ≤ 10 * init + (c.toNat - '0'.toNat) then .error .posOverflow
              else parseDigits size (10 * init + (c.toNat - '0'.toNat)) cs) =
              .error .posOverflow := by
            split <;> simp
          simp only [hdigit, not_true, if_false, hfail]
          constructor
          · simp
          · rintro ⟨_, hvalue, hlt⟩
            omega
        · have hmul : ¬ size ≤ 10 * init := by omega
          simp only [hdigit, not_true, if_false, hmul, hsum, ih (Nat.lt_of_not_le hsum)]
          simp [hdigit]
      · simp [hdigit]

theorem parseUnsigned_of_digits {size : ℕ} {text : List Char} (hne : text ≠ [])
    (hdigits : ∀ c ∈ text, c.isDigit) : parseUnsigned size text = parseDigits size 0 text := by
  unfold parseUnsigned
  split
  · exact (hne rfl).elim
  · simp at hdigits
  · simp at hdigits
  · have := hdigits '+' (by simp)
    simp at this
  · rfl

/-- Without a sign, the accepted texts are the decimal numbers below `size`. -/
theorem parseUnsigned_eq_ok_iff {size value : ℕ} {text : List Char} (hsize : 0 < size)
    (hsign : text.head? ≠ some '+') :
    parseUnsigned size text = .ok value ↔ IsDecimal text value ∧ value < size := by
  constructor
  · intro h
    unfold parseUnsigned at h
    split at h
    · simp at h
    · simp at h
    · simp at h
    · simp at hsign
    · rename_i hne _ _ _
      obtain ⟨hdigits, hvalue, hlt⟩ := (parseDigits_eq_ok_iff hsize).mp h
      exact ⟨⟨hne, hdigits, hvalue⟩, hlt⟩
  · rintro ⟨⟨hne, hdigits, hvalue⟩, hlt⟩
    rw [parseUnsigned_of_digits hne hdigits]
    exact (parseDigits_eq_ok_iff hsize).mpr ⟨hdigits, hvalue, hlt⟩

/-- Like a decimal number, but one leading `+` is allowed. -/
def IsUnsigned (text : List Char) (value : ℕ) : Prop :=
  IsDecimal text value ∨ ∃ digits, text = '+' :: digits ∧ IsDecimal digits value

/-- The texts that `str::parse` accepts, and their values. -/
theorem parseUnsigned_eq_ok_iff_isUnsigned {size value : ℕ} {text : List Char}
    (hsize : 0 < size) :
    parseUnsigned size text = .ok value ↔ IsUnsigned text value ∧ value < size := by
  by_cases hsign : text.head? = some '+'
  · obtain ⟨digits, rfl⟩ := List.head?_eq_some_iff.mp hsign
    have hnot : ¬ IsDecimal ('+' :: digits) value := by
      intro h
      have := h.digits '+' (by simp)
      simp at this
    have hparse : parseUnsigned size ('+' :: digits) = .ok value ↔
        digits ≠ [] ∧ parseDigits size 0 digits = .ok value := by
      cases digits <;> simp [parseUnsigned]
    rw [hparse, parseDigits_eq_ok_iff hsize]
    constructor
    · rintro ⟨hne, hdigits, hvalue, hlt⟩
      exact ⟨Or.inr ⟨digits, rfl, hne, hdigits, hvalue⟩, hlt⟩
    · rintro ⟨hdecimal | ⟨_, ⟨⟩, hdecimal⟩, hlt⟩
      · exact (hnot hdecimal).elim
      · exact ⟨hdecimal.nonempty, hdecimal.digits, hdecimal.value_eq, hlt⟩
  · rw [parseUnsigned_eq_ok_iff hsize hsign]
    constructor
    · rintro ⟨hdecimal, hlt⟩
      exact ⟨Or.inl hdecimal, hlt⟩
    · rintro ⟨hdecimal | ⟨digits, rfl, _⟩, hlt⟩
      · exact ⟨hdecimal, hlt⟩
      · exact (hsign rfl).elim

theorem IsUnsigned.unique {text : List Char} {v w : ℕ} (hv : IsUnsigned text v)
    (hw : IsUnsigned text w) : v = w := by
  have hsize : 0 < max v w + 1 := Nat.succ_pos _
  have hparse := (parseUnsigned_eq_ok_iff_isUnsigned hsize).mpr ⟨hv, by omega⟩
  have hparse' := (parseUnsigned_eq_ok_iff_isUnsigned hsize).mpr ⟨hw, by omega⟩
  exact Except.ok.inj (hparse.symm.trans hparse')

/-! ## Trimming -/

theorem isWhitespace_of_isDigit {c : Char} (h : c.isDigit) : isWhitespace c = false := by
  have hbounds := Char.isDigit_iff_toNat.mp h
  have hzero : '0'.toNat = 48 := rfl
  have hnine : '9'.toNat = 57 := rfl
  rw [hzero, hnine] at hbounds
  simp only [isWhitespace, Bool.or_eq_false_iff, Bool.and_eq_false_iff, decide_eq_false_iff_not,
    beq_eq_false_iff_ne]
  omega

theorem trim_eq_self {text : List Char} (h : ∀ c ∈ text, isWhitespace c = false) :
    trim text = text := by
  have hdrop : text.dropWhile isWhitespace = text := by
    apply List.dropWhile_eq_self_iff.mpr
    intro hpos
    simp [h _ (List.getElem_mem hpos)]
  rw [trim, hdrop]
  apply List.rdropWhile_eq_self_iff.mpr
  intro hne
  simp [h _ (List.getLast_mem hne)]

theorem trim_append_of_whitespace {text after : List Char}
    (h : ∀ c ∈ after, isWhitespace c = true) : trim (text ++ after) = trim text := by
  have hafter : after.dropWhile isWhitespace = [] := List.dropWhile_eq_nil_iff.mpr h
  rw [trim, trim, List.dropWhile_append, hafter]
  split
  · rename_i hempty
    rw [List.isEmpty_iff.mp hempty]
  · have hreverse : ∀ c ∈ after.reverse, isWhitespace c = true := by simpa using h
    rw [List.rdropWhile, List.reverse_append, List.dropWhile_append_of_pos hreverse,
      List.rdropWhile]

theorem trim_whitespace_append {before text : List Char}
    (h : ∀ c ∈ before, isWhitespace c = true) : trim (before ++ text) = trim text := by
  rw [trim, List.dropWhile_append_of_pos h, trim]

theorem head?_trim_cons {c : Char} (hc : isWhitespace c = false) (text : List Char) :
    (trim (c :: text)).head? = some c := by
  rw [trim, List.dropWhile_cons_of_neg (by simp [hc]), List.rdropWhile, List.reverse_cons,
    List.dropWhile_append]
  split
  · simp [hc]
  · simp

end StrideRunner
