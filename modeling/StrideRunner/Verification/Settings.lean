import StrideRunner.Library.SelfDelimiting
import StrideRunner.Model.Utils.Settings
import StrideRunner.Verification.Decimal

/-! # Incomplete settings

The written settings are self-delimiting, so a file that was not written to its end does not hold
the settings of another writer. -/

namespace StrideRunner

open Library Pace.InstanceWriter

theorem hexDigit_injective {m n : ℕ} (hm : m < 16) (hn : n < 16) (h : hexDigit m = hexDigit n) :
    m = n := by
  have hnat := congrArg UInt8.toNat h
  simp only [hexDigit] at hnat
  split at hnat <;> split at hnat <;> simp only [UInt8.toNat_ofNat'] at hnat <;> omega

theorem hexByte_injective : Function.Injective hexByte := by
  intro a b h
  simp only [hexByte, List.cons.injEq, and_true] at h
  have ha := a.toNat_lt
  have hb := b.toNat_lt
  have hhigh := hexDigit_injective (by omega) (by omega) h.1
  have hlow := hexDigit_injective (by omega) (by omega) h.2
  apply UInt8.toNat_inj.mp
  omega

/-! ## Identifiers -/

namespace Uuid

theorem length_hyphenated_congr {i : ℕ} {bytes bytes' : List UInt8}
    (h : bytes.length = bytes'.length) :
    (hyphenated i bytes).length = (hyphenated i bytes').length := by
  induction bytes generalizing i bytes' with
  | nil =>
      cases bytes' with
      | nil => rfl
      | cons byte bytes' => cases h
  | cons byte bytes ih =>
      cases bytes' with
      | nil => cases h
      | cons byte' bytes' =>
          simp [hyphenated, hexByte, ih (Nat.succ.inj h)]

theorem hyphenated_inj {i : ℕ} {bytes bytes' : List UInt8} (hlength : bytes.length = bytes'.length)
    (h : hyphenated i bytes = hyphenated i bytes') : bytes = bytes' := by
  induction bytes generalizing i bytes' with
  | nil =>
      cases bytes' with
      | nil => rfl
      | cons byte bytes' => cases hlength
  | cons byte bytes ih =>
      cases bytes' with
      | nil => cases hlength
      | cons byte' bytes' =>
          simp only [hyphenated, List.append_assoc] at h
          obtain ⟨hbyte, htail⟩ := List.append_inj (List.append_cancel_left h) rfl
          rw [hexByte_injective hbyte, ih (Nat.succ.inj hlength) htail]

theorem selfDelimiting_display : SelfDelimiting display := by
  apply SelfDelimiting.of_length
  · rintro ⟨bytes⟩ ⟨bytes'⟩ h
    have hlist := hyphenated_inj (by simp) h
    exact congrArg Uuid.mk (Vector.toList_inj.mp hlist)
  · intro uuid uuid'
    exact length_hyphenated_congr (by simp)

end Uuid

/-! ## JSON -/

namespace Settings

/-- The bytes that are escaped by a letter. -/
def letters : List (UInt8 × UInt8) :=
  [(34, 34), (92, 92), (8, 98), (9, 116), (10, 110), (12, 102), (13, 114)]

theorem letters_injective : ∀ p ∈ letters, ∀ q ∈ letters, p.2 = q.2 → p.1 = q.1 := by
  simp [letters]

theorem letters_ne_u : ∀ p ∈ letters, p.2 ≠ 117 := by simp [letters]

theorem escape_cases (byte : UInt8) :
    (∃ letter, (byte, letter) ∈ letters ∧ escape byte = [92, letter]) ∨
      escape byte = [92, 117, 48, 48] ++ hexByte byte ∨
      (escape byte = [byte] ∧ byte ≠ 34 ∧ byte ≠ 92) := by
  by_cases hletter : ∃ letter, (byte, letter) ∈ letters
  · left
    obtain ⟨letter, hmem⟩ := hletter
    refine ⟨letter, hmem, ?_⟩
    simp only [letters, List.mem_cons, Prod.mk.injEq, List.not_mem_nil, or_false] at hmem
    rcases hmem with ⟨rfl, rfl⟩ | ⟨rfl, rfl⟩ | ⟨rfl, rfl⟩ | ⟨rfl, rfl⟩ | ⟨rfl, rfl⟩ |
      ⟨rfl, rfl⟩ | ⟨rfl, rfl⟩ <;> rfl
  · right
    have hne : ∀ p ∈ letters, byte ≠ p.1 := fun p hp h => hletter ⟨p.2, h ▸ hp⟩
    simp only [letters, List.forall_mem_cons] at hne
    simp only [escape, hne, if_false]
    split
    · exact Or.inl rfl
    · exact Or.inr ⟨rfl, hne.1, hne.2.1⟩

theorem escape_ne_nil (byte : UInt8) : escape byte ≠ [] := by
  rcases escape_cases byte with ⟨letter, _, h⟩ | h | ⟨h, _⟩ <;> simp [h]

theorem head?_escape_ne (byte : UInt8) : (escape byte).head? ≠ some 34 := by
  rcases escape_cases byte with ⟨letter, _, h⟩ | h | ⟨h, hquote, _⟩
  · simp [h]
  · simp [h]
  · simpa [h] using hquote

/-- A backslash tells that an escape follows, and the byte behind it which one. -/
theorem selfDelimiting_escape : SelfDelimiting escape := by
  intro a b rest rest' heq
  rcases escape_cases a with ⟨letter, hletter, ha⟩ | ha | ⟨ha, _, hplain⟩
  · rcases escape_cases b with ⟨letter', hletter', hb⟩ | hb | ⟨hb, _, hplain'⟩
    · rw [ha, hb] at heq
      simp only [List.cons_append, List.nil_append, List.cons.injEq, true_and] at heq
      exact ⟨letters_injective _ hletter _ hletter' heq.1, heq.2⟩
    · rw [ha, hb] at heq
      simp only [List.cons_append, List.nil_append, List.cons.injEq, true_and] at heq
      exact (letters_ne_u _ hletter heq.1).elim
    · rw [ha, hb] at heq
      exact (hplain' (List.cons.inj heq).1.symm).elim
  · rcases escape_cases b with ⟨letter', hletter', hb⟩ | hb | ⟨hb, _, hplain'⟩
    · rw [ha, hb] at heq
      simp only [List.cons_append, List.nil_append, List.cons.injEq, true_and] at heq
      exact (letters_ne_u _ hletter' heq.1.symm).elim
    · rw [ha, hb, List.append_assoc, List.append_assoc] at heq
      obtain ⟨hbyte, hrest⟩ := List.append_inj (List.append_cancel_left heq) rfl
      exact ⟨hexByte_injective hbyte, hrest⟩
    · rw [ha, hb] at heq
      exact (hplain' (List.cons.inj heq).1.symm).elim
  · rcases escape_cases b with ⟨letter', hletter', hb⟩ | hb | ⟨hb, _, _⟩
    · rw [ha, hb] at heq
      exact (hplain (List.cons.inj heq).1).elim
    · rw [ha, hb] at heq
      exact (hplain (List.cons.inj heq).1).elim
    · rw [ha, hb] at heq
      exact List.cons.inj heq

theorem selfDelimiting_jsonString : SelfDelimiting jsonString := by
  have hsequence := selfDelimiting_escape.sequence escape_ne_nil head?_escape_ne
  exact (hsequence.comp encodeUtf8_injective).literal [34]

theorem selfDelimiting_jsonNumber (stop : Char) (hstop : stop.isDigit = false)
    (hascii : stop.toNat ≤ 127) :
    SelfDelimiting fun n => jsonNumber n ++ [UInt8.ofNat stop.toNat] := by
  apply SelfDelimiting.terminated
  · intro m n h
    exact UInt64.toNat_inj.mp (decimal_injective (encodeUtf8_injective h))
  · intro n hmem
    obtain ⟨c, hc, hbyte⟩ := List.mem_flatMap.mp hmem
    have hne : c ≠ stop := by
      rintro rfl
      exact (isDecimal_decimal n.toNat).notMem hstop hc
    exact notMem_utf8EncodeChar hne hascii hbyte

theorem selfDelimiting_jsonUuid : SelfDelimiting jsonUuid := by
  have hquoted := (Uuid.selfDelimiting_display.suffix [34]).literal [34]
  -- `null` does not start with a quotation mark
  have hnull : ∀ (uuid : Uuid) (rest rest' : Bytes),
      ascii "null" ++ rest ≠ [34] ++ (uuid.display ++ [34]) ++ rest' := by
    intro uuid rest rest' heq
    cases congrArg List.head? heq
  intro a b rest rest' heq
  cases a with
  | none =>
      cases b with
      | none => exact ⟨rfl, List.append_cancel_left heq⟩
      | some uuid => exact (hnull uuid rest rest' heq).elim
  | some uuid =>
      cases b with
      | none => exact (hnull uuid rest' rest heq.symm).elim
      | some uuid' =>
          obtain ⟨rfl, hrest⟩ := hquoted uuid uuid' rest rest' heq
          exact ⟨rfl, hrest⟩

theorem selfDelimiting_number : SelfDelimiting fun n => jsonNumber n ++ [44] :=
  selfDelimiting_jsonNumber ',' rfl (by decide)

theorem selfDelimiting_lastNumber : SelfDelimiting fun n => jsonNumber n ++ [10, 125] := by
  have hline : SelfDelimiting fun n => jsonNumber n ++ [10] :=
    selfDelimiting_jsonNumber '\n' rfl (by decide)
  simpa only [List.append_assoc, List.singleton_append] using hline.suffix [125]

/-- The fields in the order of the file. -/
def fields (settings : Settings) :
    (((((List Char × List Char) × List Char) × Option Uuid) × UInt64) × UInt64) × UInt64 :=
  ((((((settings.serverUrl, settings.solverBin), settings.runLogDir), settings.solverUuid),
    settings.timeout), settings.grace), settings.parallelJobs)

theorem fields_injective : Function.Injective fields := by
  rintro ⟨⟩ ⟨⟩ h
  simp only [fields, Prod.mk.injEq] at h
  simp only [Settings.mk.injEq]
  tauto

theorem selfDelimiting_toWriterPretty : SelfDelimiting toWriterPretty := by
  have hstring (key : Bytes) := (selfDelimiting_jsonString.suffix [44]).literal key
  have huuid (key : Bytes) := (selfDelimiting_jsonUuid.suffix [44]).literal key
  have hnumber (key : Bytes) := selfDelimiting_number.literal key
  have hlast (key : Bytes) := selfDelimiting_lastNumber.literal key
  have hfields := (((((((hstring (jsonKey "server_url")).append
    (hstring (jsonKey "solver_bin"))).append (hstring (jsonKey "run_log_dir"))).append
    (huuid (jsonKey "solver_uuid"))).append (hnumber (jsonKey "timeout"))).append
    (hnumber (jsonKey "grace"))).append (hlast (jsonKey "parallel_jobs"))).literal [123]
  have hwriter := hfields.comp fields_injective
  unfold fields at hwriter
  unfold toWriterPretty
  exact hwriter

end Settings

end StrideRunner
