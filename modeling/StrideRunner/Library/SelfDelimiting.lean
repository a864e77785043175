import StrideRunner.Library.Traversal
import Mathlib.Logic.Function.Basic

/-! # Self-delimiting encodings

An encoding is self-delimiting if the end of a value shows in the text. No encoded value is then a
proper prefix of another one, so an incomplete text is never mistaken for a complete one. -/

namespace StrideRunner.Library

variable {α β : Type*} {γ : Type}

def SelfDelimiting (encode : α → List γ) : Prop :=
  ∀ a b rest rest', encode a ++ rest = encode b ++ rest' → a = b ∧ rest = rest'

namespace SelfDelimiting

theorem injective {encode : α → List γ} (h : SelfDelimiting encode) :
    Function.Injective encode := by
  intro a b heq
  exact (h a b [] [] (by rw [heq])).1

theorem eq_of_initial {encode : α → List γ} (h : SelfDelimiting encode) {a b : α}
    (hinitial : encode a <+: encode b) : a = b := by
  obtain ⟨rest, heq⟩ := hinitial
  exact (h a b rest [] (by rw [heq, List.append_nil])).1

/-- Values of one length. -/
theorem of_length {encode : α → List γ} (hinj : Function.Injective encode)
    (hlength : ∀ a b, (encode a).length = (encode b).length) : SelfDelimiting encode := by
  intro a b rest rest' heq
  obtain ⟨hab, hrest⟩ := List.append_inj heq (hlength a b)
  exact ⟨hinj hab, hrest⟩

theorem comp {encode : β → List γ} (h : SelfDelimiting encode) {f : α → β}
    (hf : Function.Injective f) : SelfDelimiting fun a => encode (f a) := by
  intro a b rest rest' heq
  obtain ⟨hab, hrest⟩ := h _ _ _ _ heq
  exact ⟨hf hab, hrest⟩

/-- Fixed text in front of a value. -/
theorem literal {encode : α → List γ} (h : SelfDelimiting encode) (text : List γ) :
    SelfDelimiting fun a => text ++ encode a := by
  intro a b rest rest' heq
  rw [List.append_assoc, List.append_assoc] at heq
  exact h _ _ _ _ (List.append_cancel_left heq)

/-- Fixed text behind a value. -/
theorem suffix {encode : α → List γ} (h : SelfDelimiting encode) (text : List γ) :
    SelfDelimiting fun a => encode a ++ text := by
  intro a b rest rest' heq
  rw [List.append_assoc, List.append_assoc] at heq
  obtain ⟨hab, htail⟩ := h _ _ _ _ heq
  exact ⟨hab, List.append_cancel_left htail⟩

theorem append {encode : α → List γ} {encode' : β → List γ} (h : SelfDelimiting encode)
    (h' : SelfDelimiting encode') :
    SelfDelimiting fun p : α × β => encode p.1 ++ encode' p.2 := by
  intro p q rest rest' heq
  rw [List.append_assoc, List.append_assoc] at heq
  obtain ⟨hfst, htail⟩ := h _ _ _ _ heq
  obtain ⟨hsnd, hrest⟩ := h' _ _ _ _ htail
  exact ⟨Prod.ext hfst hsnd, hrest⟩

/-- Values in front of a terminator that they do not contain. -/
theorem terminated {encode : α → List γ} {stop : γ} (hinj : Function.Injective encode)
    (hstop : ∀ a, stop ∉ encode a) : SelfDelimiting fun a => encode a ++ [stop] := by
  intro a b rest rest' heq
  simp only [List.append_assoc, List.singleton_append] at heq
  obtain ⟨hab, hrest⟩ := append_cons_inj_of_notMem_left (hstop a) (hstop b) heq
  exact ⟨hinj hab, hrest⟩

/-- A sequence of values in front of a terminator that starts none of them. -/
theorem sequence {encode : α → List γ} {stop : γ} (h : SelfDelimiting encode)
    (hne : ∀ a, encode a ≠ []) (hstop : ∀ a, (encode a).head? ≠ some stop) :
    SelfDelimiting fun xs : List α => xs.flatMap encode ++ [stop] := by
  have hhead : ∀ (a : α) (text : List γ), (encode a ++ text).head? ≠ some stop := by
    intro a text
    rw [List.head?_append_of_ne_nil _ (hne a)]
    exact hstop a
  intro xs
  induction xs with
  | nil =>
      intro ys rest rest' heq
      cases ys with
      | nil => exact ⟨rfl, List.append_cancel_left heq⟩
      | cons y ys =>
          simp only [List.flatMap_cons, List.append_assoc] at heq
          exact (hhead y _ (congrArg List.head? heq).symm).elim
  | cons x xs ih =>
      intro ys rest rest' heq
      cases ys with
      | nil =>
          simp only [List.flatMap_cons, List.append_assoc] at heq
          exact (hhead x _ (congrArg List.head? heq)).elim
      | cons y ys =>
          simp only [List.flatMap_cons, List.append_assoc] at heq
          obtain ⟨rfl, htail⟩ := h _ _ _ _ heq
          obtain ⟨rfl, hrest⟩ := ih ys rest rest' (by simpa only [List.append_assoc] using htail)
          exact ⟨rfl, hrest⟩

/-- The separator or the terminator behind the first value tells whether there is another one. -/
theorem exists_separator (encode : α → List γ) (sep stop : γ) (x : α) (xs : List α)
    (rest : List γ) : ∃ c tail, ((c = sep ∧
        tail = ((xs.map encode).intersperse [sep]).flatten ++ [stop] ++ rest) ∨
      c = stop ∧ xs = [] ∧ tail = rest) ∧
      (((x :: xs).map encode).intersperse [sep]).flatten ++ [stop] ++ rest =
        encode x ++ c :: tail := by
  cases xs with
  | nil => exact ⟨stop, rest, Or.inr ⟨rfl, rfl, rfl⟩, by simp⟩
  | cons x' xs =>
      exact ⟨sep, (((x' :: xs).map encode).intersperse [sep]).flatten ++ [stop] ++ rest,
        Or.inl ⟨rfl, rfl⟩, by simp⟩

/-- Values with separators between them, in front of a terminator. -/
theorem separated {encode : α → List γ} {sep stop : γ} (hinj : Function.Injective encode)
    (hne : ∀ a, encode a ≠ []) (hsep : ∀ a, sep ∉ encode a) (hstop : ∀ a, stop ∉ encode a)
    (hdiff : sep ≠ stop) :
    SelfDelimiting fun xs : List α => ((xs.map encode).intersperse [sep]).flatten ++ [stop] := by
  have hplain : ∀ a, ∀ c ∈ encode a, ¬ (c = sep ∨ c = stop) := by
    rintro a c hc (rfl | rfl)
    · exact hsep a hc
    · exact hstop a hc
  have hnil : ∀ (x : α) (xs : List α) (rest rest' : List γ),
      [stop] ++ rest ≠ (((x :: xs).map encode).intersperse [sep]).flatten ++ [stop] ++ rest' := by
    intro x xs rest rest' heq
    obtain ⟨c, tail, _, htext⟩ := exists_separator encode sep stop x xs rest'
    obtain ⟨d, ds, hd⟩ := List.exists_cons_of_ne_nil (hne x)
    rw [htext, hd] at heq
    exact hstop x (by simp [hd, (List.cons.inj heq).1])
  intro xs
  induction xs with
  | nil =>
      intro ys rest rest' heq
      cases ys with
      | nil => exact ⟨rfl, List.append_cancel_left heq⟩
      | cons y ys => exact (hnil y ys rest rest' heq).elim
  | cons x xs ih =>
      intro ys rest rest' heq
      cases ys with
      | nil => exact (hnil x xs rest' rest heq.symm).elim
      | cons y ys =>
          obtain ⟨c, tail, hc, htext⟩ := exists_separator encode sep stop x xs rest
          obtain ⟨c', tail', hc', htext'⟩ := exists_separator encode sep stop y ys rest'
          rw [htext, htext'] at heq
          obtain ⟨hxy, rfl, rfl⟩ := append_cons_inj_of_forall_not (hplain x) (hplain y)
            (hc.imp And.left And.left) (hc'.imp And.left And.left) heq
          obtain rfl := hinj hxy
          obtain ⟨rfl, htail⟩ | ⟨rfl, rfl, rfl⟩ := hc
          · obtain ⟨_, htail'⟩ | ⟨rfl, _⟩ := hc'
            · obtain ⟨rfl, hrest⟩ := ih ys rest rest' (htail.symm.trans htail')
              exact ⟨rfl, hrest⟩
            · exact (hdiff rfl).elim
          · obtain ⟨rfl, _⟩ | ⟨_, rfl, rfl⟩ := hc'
            · exact (hdiff rfl).elim
            · exact ⟨rfl, rfl⟩

/-- A value that may be left out, in front of a text with which no value begins. -/
theorem optional {encode : α → List γ} (h : SelfDelimiting encode) {stop : List γ}
    (hstop : ∀ a rest rest', encode a ++ rest ≠ stop ++ rest') :
    SelfDelimiting fun value : Option α => value.elim [] encode ++ stop := by
  intro a b rest rest' heq
  cases a with
  | none =>
      cases b with
      | none => exact ⟨rfl, List.append_cancel_left heq⟩
      | some b =>
          simp only [Option.elim, List.nil_append, List.append_assoc] at heq
          exact (hstop b _ _ heq.symm).elim
  | some a =>
      cases b with
      | none =>
          simp only [Option.elim, List.nil_append, List.append_assoc] at heq
          exact (hstop a _ _ heq).elim
      | some b =>
          obtain ⟨rfl, hrest⟩ := h.suffix stop a b rest rest' heq
          exact ⟨rfl, hrest⟩

/-- Values that all contain a terminator, in front of a tail that does not: a text that begins with
the text of some values has these values in front. -/
theorem isPrefix_of_append_eq {encode : α → List γ} {stop : γ} (h : SelfDelimiting encode)
    (hstop : ∀ a, stop ∈ encode a) {xs ys : List α} {rest tail : List γ} (htail : stop ∉ tail)
    (heq : xs.flatMap encode ++ rest = ys.flatMap encode ++ tail) : xs <+: ys := by
  induction xs generalizing ys with
  | nil => exact List.nil_prefix
  | cons x xs ih =>
      cases ys with
      | nil =>
          have hmem : stop ∈ tail := by
            rw [List.flatMap_nil, List.nil_append] at heq
            simp [← heq, hstop x]
          exact (htail hmem).elim
      | cons y ys =>
          simp only [List.flatMap_cons, List.append_assoc] at heq
          obtain ⟨rfl, hrest⟩ := h _ _ _ _ heq
          exact List.cons_prefix_cons.mpr ⟨rfl, ih hrest⟩

end SelfDelimiting

end StrideRunner.Library
