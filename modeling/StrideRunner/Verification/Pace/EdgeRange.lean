import StrideRunner.Verification.Pace.Items
import StrideRunner.Verification.Pace.Tokens

/-! # Node ids out of range

The range of node ids is only checked by a `debug_assert`, and the shift to ids counted from 0 is
an unchecked subtraction. So the reader is well behaved exactly on files without such ids. -/

namespace StrideRunner.Pace.PaceReader

open StrideRunner Library

/-! ## One line -/

/-- Both ids are among those of an instance with `n` nodes. -/
def IdsInRange (n : ℕ) (edge : Edge) : Prop :=
  (1 ≤ edge.u ∧ edge.u ≤ n) ∧ 1 ≤ edge.v ∧ edge.v ≤ n

instance (n : ℕ) (edge : Edge) : Decidable (IdsInRange n edge) :=
  inferInstanceAs (Decidable (_ ∧ _))

theorem debugAssertRange_of_inRange {profile : BuildProfile} {n node : ℕ} (name : String)
    (h : 1 ≤ node ∧ node ≤ n) : debugAssertRange profile n name node = .ok () :=
  if_neg fun hguard => hguard.2 h

theorem debugAssertRange_debug {n node : ℕ} (name : String) (h : ¬ (1 ≤ node ∧ node ≤ n)) :
    ∃ message, debugAssertRange .debug n name node = .panic message :=
  ⟨_, if_pos ⟨rfl, h⟩⟩

theorem debugAssertRange_release (n : ℕ) (name : String) (node : ℕ) :
    debugAssertRange .release n name node = .ok () :=
  if_neg fun hguard => by cases hguard.1

theorem edgeItem_of_inRange {profile : BuildProfile} {n : ℕ} {line : List Char} {edge : Edge}
    (hline : HasEndpoints line edge) (hrange : IdsInRange n edge) :
    edgeItem profile n line = .ok ⟨edge.u - 1, edge.v - 1⟩ := by
  simp only [edgeItem, parseEndpoints_eq_ok_iff.mpr hline, Outcome.ofExcept_ok, Outcome.ok_bind,
    debugAssertRange_of_inRange _ hrange.1, debugAssertRange_of_inRange _ hrange.2,
    u32Sub_of_le profile hrange.1.1, u32Sub_of_le profile hrange.2.1, Outcome.pure_eq]

/-- An id out of range panics or comes out as a node that the instance does not have. -/
theorem edgeItem_of_not_inRange {profile : BuildProfile} {n : ℕ} {line : List Char} {edge : Edge}
    (hn : n < U32_SIZE) (hline : HasEndpoints line edge) (hrange : ¬ IdsInRange n edge) :
    (∃ message, edgeItem profile n line = .panic message) ∨
      ∃ found, edgeItem profile n line = .ok found ∧ ¬ (found.u < n ∧ found.v < n) := by
  have hparse := parseEndpoints_eq_ok_iff.mpr hline
  obtain ⟨_, _, _, _, _, hu, _, hv⟩ := hline
  have hsub : ∀ id, id < U32_SIZE →
      ∃ node, (u32Sub .release id 1 : Outcome IoError ℕ) = .ok node ∧
        (node < n → 1 ≤ id ∧ id ≤ n) := by
    intro id hid
    by_cases hpos : 1 ≤ id
    · exact ⟨id - 1, u32Sub_of_le .release hpos, by omega⟩
    · refine ⟨id + U32_SIZE - 1, by rw [u32Sub, if_neg hpos], ?_⟩
      omega
  cases profile with
  | debug =>
      left
      simp only [edgeItem, hparse, Outcome.ofExcept_ok, Outcome.ok_bind]
      by_cases hsource : 1 ≤ edge.u ∧ edge.u ≤ n
      · have htarget : ¬ (1 ≤ edge.v ∧ edge.v ≤ n) := fun h => hrange ⟨hsource, h⟩
        obtain ⟨message, hpanic⟩ := debugAssertRange_debug "dest" htarget
        rw [debugAssertRange_of_inRange _ hsource, hpanic]
        exact ⟨message, rfl⟩
      · obtain ⟨message, hpanic⟩ := debugAssertRange_debug "from" hsource
        rw [hpanic]
        exact ⟨message, rfl⟩
  | release =>
      right
      obtain ⟨u, hu, hu'⟩ := hsub edge.u hu
      obtain ⟨v, hv, hv'⟩ := hsub edge.v hv
      refine ⟨⟨u, v⟩, ?_, fun h => hrange ⟨hu' h.1, hv' h.2⟩⟩
      simp only [edgeItem, hparse, Outcome.ofExcept_ok, Outcome.ok_bind, debugAssertRange_release,
        hu, hv, Outcome.pure_eq]

/-! ## The whole iteration -/

def isComment : Line → Bool
  | .ok line => line.head? == some 'c'
  | .error _ => false

/-- What a line that is no comment should yield in an instance with `n` nodes. -/
structure ItemSpec (n : ℕ) (line : Line) (item : Except IoError Edge) : Prop where
  inRange_or_invalidData : (∃ edge, item = .ok edge ∧ edge.u < n ∧ edge.v < n) ∨
    ∃ error, item = .error error ∧ error.kind = .invalidData
  error_of_id : ∀ text, line = .ok text → ∀ token ∈ (parts text).take 2, ∀ id,
    IsUnsigned token id → id = 0 ∨ n < id → ∃ error, item = .error error

/-- The iteration ends without a panic, with one such item for each line that is no comment. -/
def YieldsInRange (profile : BuildProfile) (reader : PaceReader) : Prop :=
  ∃ out, items profile reader = .ok out ∧
    List.Forall₂ (ItemSpec reader.numberOfNodes) (reader.lines.filter fun line => !isComment line)
      out

/-- No line that is no comment starts with two `u32` numbers of which one is 0 or too large. -/
def LinesInRange (reader : PaceReader) : Prop :=
  ∀ text, .ok text ∈ reader.lines → text.head? ≠ some 'c' → ∀ edge, HasEndpoints text edge →
    IdsInRange reader.numberOfNodes edge

theorem itemSpec_error {n : ℕ} {line : Line} {error : IoError} (h : error.kind = .invalidData) :
    ItemSpec n line (.error error) :=
  ⟨Or.inr ⟨error, rfl, h⟩, fun _ _ _ _ _ _ _ => ⟨error, rfl⟩⟩

theorem itemSpec_edge {n : ℕ} {line : List Char} {edge : Edge} (hline : HasEndpoints line edge)
    (hrange : IdsInRange n edge) : ItemSpec n (.ok line) (.ok ⟨edge.u - 1, edge.v - 1⟩) := by
  obtain ⟨hu, hv⟩ := hrange
  refine ⟨Or.inl ⟨_, rfl, by dsimp only; omega, by dsimp only; omega⟩, ?_⟩
  rintro text ⟨⟩ token htoken id hid hout
  obtain ⟨source, target, rest, hparts, hsource, _, htarget, _⟩ := hline
  rw [hparts] at htoken
  simp only [List.take_succ_cons, List.take_zero, List.mem_cons, List.not_mem_nil, or_false]
    at htoken
  rcases htoken with rfl | rfl
  · cases hid.unique hsource
    omega
  · cases hid.unique htarget
    omega

/-- The step of the induction over the lines: one line, one item. -/
theorem lineItem_spec (profile : BuildProfile) {n : ℕ} {line : Line}
    (hkind : ∀ error, line = .error error → error.kind = .invalidData)
    (hrange : ∀ text, line = .ok text → text.head? ≠ some 'c' → ∀ edge, HasEndpoints text edge →
      IdsInRange n edge) :
    (isComment line = true ∧ lineItem profile n line = none) ∨
      ∃ item, isComment line = false ∧ lineItem profile n line = some (.ofExcept item) ∧
        ItemSpec n line item := by
  cases line with
  | error error => exact Or.inr ⟨.error error, rfl, rfl, itemSpec_error (hkind error rfl)⟩
  | ok text =>
      by_cases hc : text.head? = some 'c'
      · exact Or.inl ⟨by simp [isComment, hc], if_pos hc⟩
      · have hcomment : isComment (.ok text) = false := by simp [isComment, hc]
        have hitem : lineItem profile n (.ok text) = some (edgeItem profile n text) := if_neg hc
        right
        cases hparse : parseEndpoints text with
        | error error =>
            refine ⟨.error error, hcomment, ?_, itemSpec_error (kind_of_parseEndpoints hparse)⟩
            rw [hitem, edgeItem, hparse]
            rfl
        | ok edge =>
            have hends := parseEndpoints_eq_ok_iff.mp hparse
            have hin := hrange text rfl hc edge hends
            refine ⟨.ok ⟨edge.u - 1, edge.v - 1⟩, hcomment, ?_, itemSpec_edge hends hin⟩
            rw [hitem, edgeItem_of_inRange hends hin, Outcome.ofExcept_ok]

theorem lineItems_spec (profile : BuildProfile) {n : ℕ} {lines : List Line}
    (hkind : ∀ error, .error error ∈ lines → error.kind = .invalidData)
    (hrange : ∀ text, .ok text ∈ lines → text.head? ≠ some 'c' → ∀ edge, HasEndpoints text edge →
      IdsInRange n edge) :
    ∃ out, lines.filterMap (lineItem profile n) = out.map Outcome.ofExcept ∧
      List.Forall₂ (ItemSpec n) (lines.filter fun line => !isComment line) out := by
  induction lines with
  | nil => exact ⟨[], rfl, .nil⟩
  | cons line lines ih =>
      obtain ⟨out, hout, hspec⟩ := ih (fun error h => hkind error (List.mem_cons_of_mem _ h))
        (fun text h => hrange text (List.mem_cons_of_mem _ h))
      have hline := lineItem_spec profile (fun error h => hkind error (h ▸ List.mem_cons_self))
        (fun text h => hrange text (h ▸ List.mem_cons_self))
      rcases hline with ⟨hcomment, hitem⟩ | ⟨item, hcomment, hitem, hok⟩
      · refine ⟨out, ?_, ?_⟩
        · rw [List.filterMap_cons_none hitem, hout]
        · rwa [List.filter_cons_of_neg (by simp [hcomment])]
      · refine ⟨item :: out, ?_, ?_⟩
        · rw [List.filterMap_cons_some hitem, hout, List.map_cons]
        · rw [List.filter_cons_of_pos (by simp [hcomment])]
          exact .cons hok hspec

/-- The reader behaves, in either build profile, exactly if no line has an id out of range. -/
theorem yieldsInRange_iff {file : Bytes} {reader : PaceReader} (hreader : tryNew file = .ok reader)
    (profile : BuildProfile) : YieldsInRange profile reader ↔ LinesInRange reader := by
  constructor
  · rintro ⟨out, hout, hspec⟩ text htext hc edge hends
    rw [items_eq_gather, gather_eq_ok_iff] at hout
    have hitem : edgeItem profile reader.numberOfNodes text ∈ lineItems profile reader :=
      List.mem_filterMap.mpr ⟨.ok text, htext, if_neg hc⟩
    rw [hout] at hitem
    obtain ⟨item, hmem, heq⟩ := List.mem_map.mp hitem
    obtain ⟨line, _, hok⟩ := exists_of_forall₂_mem hspec hmem
    by_contra hrange
    have hn := numberOfNodes_lt hreader
    rcases edgeItem_of_not_inRange hn hends hrange with ⟨message, hpanic⟩ | ⟨found, hfound, hnot⟩
    · rw [hpanic] at heq
      cases item <;> cases heq
    · rw [hfound] at heq
      cases item with
      | error error => cases heq
      | ok edge' =>
          cases heq
          rcases hok.inRange_or_invalidData with ⟨_, ⟨⟩, hin⟩ | ⟨_, h, _⟩
          · exact hnot hin
          · cases h
  · intro hrange
    have hkind : ∀ error, .error error ∈ reader.lines → error.kind = .invalidData :=
      fun error h => kind_of_mem_bufReadLines ((tryNew_spec hreader).1 _ h)
    obtain ⟨out, hout, hspec⟩ := lineItems_spec profile hkind hrange
    refine ⟨out, ?_, hspec⟩
    rw [items_eq_gather, gather_eq_ok_iff]
    exact hout

theorem yieldsInRange_iff_oneEdge :
    YieldsInRange .debug ⟨[.ok "1 2".toList], "ds".toList, 3, 2⟩ ↔
      LinesInRange ⟨[.ok "1 2".toList], "ds".toList, 3, 2⟩ := by
  have hreader : tryNew (encodeUtf8 "p ds 3 2\n1 2".toList) =
      .ok ⟨[.ok "1 2".toList], "ds".toList, 3, 2⟩ := by decide +kernel
  exact yieldsInRange_iff hreader .debug

/-- The last line has an id of 0 and an id above the number of nodes. -/
def idsOutOfRange : Bytes := encodeUtf8 "p ds 3 2\n1 2\n0 4\n".toList

/-- A debug build panics on these ids, and a release build yields nodes that do not exist. -/
theorem idsOutOfRange_items :
    ∃ reader, tryNew idsOutOfRange = .ok reader ∧ reader.numberOfNodes = 3 ∧
      items .debug reader =
        .panic "assertion failed: (1..=self.number_of_nodes).contains(&from)" ∧
      items .release reader = .ok [.ok ⟨0, 1⟩, .ok ⟨4294967295, 3⟩] := by
  refine ⟨⟨[.ok "1 2".toList, .ok "0 4".toList], "ds".toList, 3, 2⟩, ?_, rfl, ?_, ?_⟩
  · decide +kernel
  · decide +kernel
  · decide +kernel

end StrideRunner.Pace.PaceReader
