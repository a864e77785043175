import StrideRunner.Verification.Pace.Reading

/-! # The grammar of solution files

Acceptance by `Solution::read` in terms of the raw lines of the input: which lines are dropped,
and what the remaining ones must look like. -/

namespace StrideRunner.Pace

open StrideRunner Library

/-- Whether a raw line is blank or a comment once trimmed. A line that is not UTF-8 has no
`str::trim`; it is no blank line, and a comment if `c` follows the leading ASCII white space. -/
def isSkippedRaw (raw : Bytes) : Bool :=
  match decodeUtf8 raw with
  | some text => SolutionReader.isSkipped (trim text)
  | none => (raw.dropWhile fun b => b == 32 || (9 ≤ b && b ≤ 13)).head? == some 99

/-- A line that is the decimal number `value` once trimmed. -/
def IsNumberLine (raw : Bytes) (value : ℕ) : Prop :=
  ∃ text, decodeUtf8 raw = some text ∧ IsDecimal (trim text) value

/-- Without blank lines and comments, the file is one decimal number per line. -/
def HasNumbers (file : Bytes) (values : List ℕ) : Prop :=
  List.Forall₂ IsNumberLine ((lines 13 10 file).filter fun raw => !isSkippedRaw raw) values

/-- Every line, comments included, is valid UTF-8. -/
def Utf8Lines (file : Bytes) : Prop :=
  ∀ raw ∈ lines 13 10 file, (decodeUtf8 raw).isSome

theorem isNumberLine_iff {raw : Bytes} {value : ℕ} :
    IsNumberLine raw value ↔ ∃ text ∈ decodeUtf8 raw, IsDecimal (trim text) value :=
  Iff.rfl

instance (raw : Bytes) (value : ℕ) : Decidable (IsNumberLine raw value) :=
  decidable_of_iff _ isNumberLine_iff.symm

instance (file : Bytes) (values : List ℕ) : Decidable (HasNumbers file values) :=
  inferInstanceAs (Decidable (List.Forall₂ _ _ _))

instance (file : Bytes) : Decidable (Utf8Lines file) :=
  inferInstanceAs (Decidable (∀ raw ∈ lines 13 10 file, _))

theorem IsNumberLine.unique {raw : Bytes} {v w : ℕ} (hv : IsNumberLine raw v)
    (hw : IsNumberLine raw w) : v = w := by
  obtain ⟨text, htext, hv⟩ := hv
  obtain ⟨text', htext', hw⟩ := hw
  cases htext.symm.trans htext'
  exact hv.unique hw

theorem HasNumbers.unique {file : Bytes} {vs ws : List ℕ} (hv : HasNumbers file vs)
    (hw : HasNumbers file ws) : vs = ws :=
  List.right_unique_forall₂' (fun _ _ _ hv hw => hv.unique hw) hv hw

/-- Positive ids are nodes counted from 1. -/
theorem exists_map_succ {ids : List ℕ} (h : ∀ id ∈ ids, 1 ≤ id) :
    ∃ nodes : List ℕ, ids = nodes.map (· + 1) := by
  induction ids with
  | nil => exact ⟨[], rfl⟩
  | cons id ids ih =>
      obtain ⟨hid, hids⟩ := List.forall_mem_cons.mp h
      obtain ⟨nodes, rfl⟩ := ih hids
      refine ⟨(id - 1) :: nodes, ?_⟩
      rw [List.map_cons, Nat.sub_add_cancel hid]

namespace SolutionReader

/-- A line that is not skipped is a number exactly when it is decimal and fits `u32`. -/
theorem parseLine_eq_ok_iff {text : List Char} {value : ℕ} :
    parseLine text = .ok value ↔ IsDecimal text value ∧ value < U32_SIZE := by
  unfold parseLine
  by_cases hnumeric : text.any (fun c => !isNumeric c)
  · simp only [hnumeric, if_true, reduceCtorEq, false_iff]
    rintro ⟨hdecimal, _⟩
    obtain ⟨c, hc, hnot⟩ := List.any_eq_true.mp hnumeric
    simp [isNumeric_of_isDigit (hdecimal.digits c hc)] at hnot
  · have hsign : text.head? ≠ some '+' := by
      intro hhead
      refine hnumeric (List.any_eq_true.mpr ⟨'+', List.mem_of_mem_head? hhead, ?_⟩)
      decide
    rw [← parseUnsigned_eq_ok_iff (by decide) hsign]
    simp only [hnumeric, Bool.false_eq_true, if_false]
    cases parseUnsigned U32_SIZE text <;> simp

theorem lineItem_decodeLine_eq_none_iff {raw : Bytes} :
    lineItem (decodeLine raw) = none ↔ (decodeUtf8 raw).isSome ∧ isSkippedRaw raw := by
  unfold decodeLine isSkippedRaw
  cases decodeUtf8 raw with
  | none => simp [lineItem]
  | some text => simp [lineItem]

theorem lineItem_decodeLine_eq_ok_iff {raw : Bytes} {value : ℕ} :
    lineItem (decodeLine raw) = some (.ok value) ↔
      isSkippedRaw raw = false ∧ IsNumberLine raw value ∧ value < U32_SIZE := by
  unfold decodeLine isSkippedRaw IsNumberLine
  cases decodeUtf8 raw with
  | none => simp [lineItem]
  | some text =>
      cases hskip : isSkipped (trim text) with
      | true => simp [lineItem, hskip]
      | false => simp [lineItem, hskip, parseLine_eq_ok_iff]

theorem isSkippedRaw_of_lineItem {raw : Bytes} {item : Except IoError ℕ}
    (hitem : lineItem (decodeLine raw) = some item) (hutf8 : (decodeUtf8 raw).isSome) :
    isSkippedRaw raw = false := by
  cases hskip : isSkippedRaw raw with
  | false => rfl
  | true => simp [lineItem_decodeLine_eq_none_iff.mpr ⟨hutf8, hskip⟩] at hitem

/-- The items are all numbers exactly when every line is UTF-8 and what remains after dropping
blank lines and comments are `u32` numbers. -/
theorem items_eq_ok_iff {file : Bytes} {values : List ℕ} :
    items (bufReadLines file) = values.map .ok ↔
      Utf8Lines file ∧ HasNumbers file values ∧ ∀ v ∈ values, v < U32_SIZE := by
  unfold Utf8Lines HasNumbers bufReadLines items
  induction StrideRunner.lines 13 10 file generalizing values with
  | nil => cases values <;> simp
  | cons raw rest ih =>
      rw [List.map_cons]
      cases hitem : lineItem (decodeLine raw) with
      | none =>
          obtain ⟨hutf8, hskip⟩ := lineItem_decodeLine_eq_none_iff.mp hitem
          rw [List.filterMap_cons_none hitem, ih]
          simp [hutf8, hskip]
      | some item =>
          rw [List.filterMap_cons_some hitem]
          cases values with
          | nil =>
              simp only [List.map_nil, reduceCtorEq, false_iff, List.forall_mem_cons]
              rintro ⟨⟨hutf8, _⟩, hnumbers, _⟩
              rw [List.filter_cons, isSkippedRaw_of_lineItem hitem hutf8] at hnumbers
              cases hnumbers
          | cons v vs =>
              simp only [List.map_cons, List.cons.injEq, ih, List.forall_mem_cons]
              constructor
              · rintro ⟨rfl, hutf8, hnumbers, hlt⟩
                obtain ⟨hskip, hnumber, hv⟩ := lineItem_decodeLine_eq_ok_iff.mp hitem
                have hraw : (decodeUtf8 raw).isSome := by
                  obtain ⟨text, htext, _⟩ := hnumber
                  simp [htext]
                rw [List.filter_cons, hskip]
                exact ⟨⟨hraw, hutf8⟩, .cons hnumber hnumbers, hv, hlt⟩
              · rintro ⟨⟨hraw, hutf8⟩, hnumbers, hv, hlt⟩
                have hskip := isSkippedRaw_of_lineItem hitem hraw
                rw [List.filter_cons, hskip] at hnumbers
                cases hnumbers with
                | cons hnumber hnumbers =>
                    refine ⟨?_, hutf8, hnumbers, hlt⟩
                    have hok := lineItem_decodeLine_eq_ok_iff.mpr ⟨hskip, hnumber, hv⟩
                    exact Option.some.inj (hitem.symm.trans hok)

/-- A file with a first number has an item, even if some of its lines are not UTF-8. -/
theorem items_ne_nil_of_hasNumbers {file : Bytes} {value : ℕ} {values : List ℕ}
    (h : HasNumbers file (value :: values)) : items (bufReadLines file) ≠ [] := by
  unfold HasNumbers at h
  cases hkept : (StrideRunner.lines 13 10 file).filter fun raw => !isSkippedRaw raw with
  | nil =>
      rw [hkept] at h
      cases h
  | cons raw rest =>
      have hmem : raw ∈ (StrideRunner.lines 13 10 file).filter fun raw => !isSkippedRaw raw := by
        simp [hkept]
      obtain ⟨hline, hskip⟩ := List.mem_filter.mp hmem
      intro hnil
      have hnone : lineItem (decodeLine raw) = none :=
        List.filterMap_eq_nil_iff.mp hnil _ (List.mem_map_of_mem hline)
      simp [(lineItem_decodeLine_eq_none_iff.mp hnone).2] at hskip

end SolutionReader

namespace Solution

open SolutionReader

theorem forall₂_boundItem_iff {nodesUpperBound : Option ℕ} {items : List (Except IoError ℕ)}
    {nodes : List ℕ} :
    List.Forall₂ (fun item node => boundItem nodesUpperBound item = .ok node) items nodes ↔
      items = (nodes.map (· + 1)).map .ok ∧
        ∀ bound ∈ nodesUpperBound, ∀ node ∈ nodes, node < bound := by
  induction nodes generalizing items with
  | nil => cases items <;> simp
  | cons node nodes ih =>
      cases items with
      | nil => simp
      | cons item items =>
          rw [List.forall₂_cons, ih, boundItem_eq_ok_iff]
          simp only [List.map_cons, List.cons.injEq, List.forall_mem_cons]
          grind

/-- `read` accepts a list of distinct ids with their number in front. -/
theorem read_eq_ok_iff {file : Bytes} {nodesUpperBound : Option ℕ} {s : Solution} :
    read file nodesUpperBound = .ok s ↔
      ∃ nodes : List ℕ, nodes.Nodup ∧ s = ⟨nodes.insertionSort (· ≤ ·)⟩ ∧
        (∀ bound ∈ nodesUpperBound, ∀ node ∈ nodes, node < bound) ∧
        Utf8Lines file ∧ HasNumbers file (nodes.length :: nodes.map (· + 1)) ∧
        ∀ v ∈ nodes.length :: nodes.map (· + 1), v < U32_SIZE := by
  rw [read_eq_readItems]
  constructor
  · intro h
    cases hitems : items (bufReadLines file) with
    | nil => simp [hitems, readItems] at h
    | cons first rest =>
        rw [hitems] at h
        cases first with
        | error error => simp [readItems] at h
        | ok size =>
            obtain ⟨nodes, hnodes, hfinish⟩ := except_bind_eq_ok.mp h
            obtain ⟨hsize, hnodup, hs⟩ := finish_eq_ok_iff.mp hfinish
            obtain ⟨hrest, hbound⟩ := forall₂_boundItem_iff.mp (mapM_eq_ok_iff.mp hnodes)
            subst hsize hrest
            refine ⟨nodes, hnodup, hs, hbound, items_eq_ok_iff.mp ?_⟩
            rw [hitems, List.map_cons]
  · rintro ⟨nodes, hnodup, hs, hbound, hgrammar⟩
    rw [items_eq_ok_iff.mpr hgrammar, List.map_cons]
    refine except_bind_eq_ok.mpr ⟨nodes, ?_, finish_eq_ok_iff.mpr ⟨rfl, hnodup, hs⟩⟩
    exact mapM_eq_ok_iff.mpr (forall₂_boundItem_iff.mpr ⟨rfl, hbound⟩)

/-- What `read` answers on a file, with an optional bound on the node ids. -/
structure ReadSpec (file : Bytes) (nodesUpperBound : Option ℕ)
    (answer : Except IoError Solution) : Prop where
  ok_iff : ∀ s, answer = .ok s ↔ Utf8Lines file ∧ ∃ ids : List ℕ,
    HasNumbers file (ids.length :: ids) ∧ (∀ x ∈ ids.length :: ids, x < U32_SIZE) ∧
    (∀ id ∈ ids, 1 ≤ id ∧ ∀ bound ∈ nodesUpperBound, id ≤ bound) ∧ ids.Nodup ∧
    s.solution.SortedLT ∧ ∀ node, node ∈ s.solution ↔ node + 1 ∈ ids
  unexpectedEof_iff : ∀ error, answer = .error error →
    (error.kind = .unexpectedEof ↔
      Utf8Lines file ∧ ∀ raw ∈ StrideRunner.lines 13 10 file, isSkippedRaw raw)
  invalidData_otherwise : ∀ error, answer = .error error → error.kind ≠ .unexpectedEof →
    error.kind = .invalidData

/-- The sorted nodes are determined by the ids in the file. -/
theorem eq_insertionSort_iff {nodes : List ℕ} (hnodup : nodes.Nodup) {s : Solution} :
    s = ⟨nodes.insertionSort (· ≤ ·)⟩ ↔
      s.solution.SortedLT ∧ ∀ node, node ∈ s.solution ↔ node + 1 ∈ nodes.map (· + 1) := by
  have hsorted := sortedLT_insertionSort hnodup
  constructor
  · rintro rfl
    exact ⟨hsorted, by simp⟩
  · rintro ⟨hs, hmem⟩
    obtain ⟨solution⟩ := s
    congr 1
    apply hs.eq_of_mem_iff hsorted
    intro node
    rw [hmem]
    simp

theorem read_ok_iff_ids {file : Bytes} {nodesUpperBound : Option ℕ} {s : Solution} :
    read file nodesUpperBound = .ok s ↔ Utf8Lines file ∧ ∃ ids : List ℕ,
      HasNumbers file (ids.length :: ids) ∧ (∀ x ∈ ids.length :: ids, x < U32_SIZE) ∧
      (∀ id ∈ ids, 1 ≤ id ∧ ∀ bound ∈ nodesUpperBound, id ≤ bound) ∧ ids.Nodup ∧
      s.solution.SortedLT ∧ ∀ node, node ∈ s.solution ↔ node + 1 ∈ ids := by
  have hinj : Function.Injective fun node : ℕ => node + 1 := Nat.succ_injective
  rw [read_eq_ok_iff]
  constructor
  · rintro ⟨nodes, hnodup, hs, hbound, hutf8, hnumbers, hlt⟩
    refine ⟨hutf8, nodes.map (· + 1), ?_, ?_, ?_, hnodup.map hinj,
      (eq_insertionSort_iff hnodup).mp hs⟩
    · rwa [List.length_map]
    · rwa [List.length_map]
    · intro id hid
      obtain ⟨node, hnode, rfl⟩ := List.mem_map.mp hid
      exact ⟨Nat.succ_pos node, fun bound hb => hbound bound hb node hnode⟩
  · rintro ⟨hutf8, ids, hnumbers, hlt, hids, hnodup, hs⟩
    obtain ⟨nodes, rfl⟩ := exists_map_succ fun id hid => (hids id hid).1
    rw [List.length_map] at hnumbers hlt
    refine ⟨nodes, hnodup.of_map, (eq_insertionSort_iff hnodup.of_map).mpr hs, ?_, hutf8,
      hnumbers, hlt⟩
    intro bound hb node hnode
    exact (hids (node + 1) (List.mem_map_of_mem hnode)).2 bound hb

/-- Acceptance, the accepted solution and the error kinds of `read` on every input. -/
theorem read_spec (file : Bytes) (nodesUpperBound : Option ℕ) :
    ReadSpec file nodesUpperBound (read file nodesUpperBound) := by
  have hnil : items (bufReadLines file) = [] ↔
      Utf8Lines file ∧ ∀ raw ∈ StrideRunner.lines 13 10 file, isSkippedRaw raw := by
    simp only [items, bufReadLines, List.filterMap_eq_nil_iff, List.forall_mem_map,
      lineItem_decodeLine_eq_none_iff, Utf8Lines, ← forall₂_and]
  refine ⟨fun s => read_ok_iff_ids, ?_, ?_⟩
  · intro error herror
    rw [← hnil]
    rcases kind_of_read herror with ⟨hitems, hkind⟩ | ⟨hitems, hkind⟩
    · simp [hitems, hkind]
    · simp [hitems, hkind]
  · intro error herror hne
    rcases kind_of_read herror with ⟨_, hkind⟩ | ⟨_, hkind⟩
    · exact (hne hkind).elim
    · exact hkind

/-- A comment that is not UTF-8 is an error before it is a comment: this file has no other
line, and its error is not the unexpected end of file. -/
theorem read_comment_not_utf8 :
    (∀ raw ∈ StrideRunner.lines 13 10 [99, 32, 255, 10], isSkippedRaw raw) ∧
      read [99, 32, 255, 10] none = .error invalidUtf8 ∧
      invalidUtf8.kind = .invalidData := by
  refine ⟨by decide, ?_, rfl⟩
  decide +kernel

end Solution

end StrideRunner.Pace
