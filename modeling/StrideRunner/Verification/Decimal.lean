import StrideRunner.Model.Pace.InstanceWriter
import StrideRunner.Verification.Lines
import StrideRunner.Verification.Text

/-! # Numbers as they are written

All writers print numbers in decimal, and most of them one per line. -/

namespace StrideRunner

open Pace InstanceWriter

theorem isDecimal_decimal (n : ℕ) : IsDecimal (decimal n) n := isDecimal_toDigits n

theorem decimal_injective : Function.Injective decimal := by
  intro m n h
  have hm := isDecimal_decimal m
  rw [h] at hm
  exact hm.unique (isDecimal_decimal n)

theorem trim_decimal (n : ℕ) : trim (decimal n) = decimal n :=
  trim_eq_self fun c hc => isWhitespace_of_isDigit ((isDecimal_decimal n).digits c hc)

theorem head?_decimal_ne (n : ℕ) : (decimal n).head? ≠ some 'c' := by
  intro h
  exact (isDecimal_decimal n).notMem rfl (List.mem_of_mem_head? h)

/-! ## One number per line -/

def numberLines (values : List ℕ) : List Char :=
  values.flatMap fun value => decimal value ++ ['\n']

theorem numberLines_cons (value : ℕ) (values : List ℕ) :
    numberLines (value :: values) = decimal value ++ '\n' :: numberLines values := by
  simp [numberLines]

theorem lines_decimal (n : ℕ) (rest : List Char) :
    lines '\r' '\n' (decimal n ++ '\n' :: rest) = decimal n :: lines '\r' '\n' rest := by
  have hcr : (decimal n).getLast? ≠ some '\r' := fun h =>
    (isDecimal_decimal n).notMem rfl (List.mem_of_getLast? h)
  rw [lines_append_lf ((isDecimal_decimal n).notMem rfl), chop, if_neg hcr]

theorem lines_numberLines (values : List ℕ) :
    lines '\r' '\n' (numberLines values) = values.map decimal := by
  induction values with
  | nil => rfl
  | cons value values ih => rw [numberLines_cons, lines_decimal, ih, List.map_cons]

end StrideRunner
