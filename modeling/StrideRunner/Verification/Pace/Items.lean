import StrideRunner.Library.Traversal
import StrideRunner.Model.Pace.InstanceReader

/-! # The items of an instance reader

The iteration, with its state, is reduced to a function of the single lines. -/

namespace StrideRunner.Pace.PaceReader

open StrideRunner Library

/-- What `next` makes of the line of an edge in an instance with `n` nodes. -/
def edgeItem (profile : BuildProfile) (n : ℕ) (line : List Char) : Outcome IoError Edge := do
  let edge ← Outcome.ofExcept (parseEndpoints line)
  debugAssertRange profile n "from" edge.u
  debugAssertRange profile n "dest" edge.v
  let u ← u32Sub profile edge.u 1
  let v ← u32Sub profile edge.v 1
  return ⟨u, v⟩

/-- What a line contributes to the iteration; comments contribute nothing. -/
def lineItem (profile : BuildProfile) (n : ℕ) : Line → Option (Outcome IoError Edge)
  | .error error => some (.err error)
  | .ok line => if line.head? = some 'c' then none else some (edgeItem profile n line)

def lineItems (profile : BuildProfile) (reader : PaceReader) : List (Outcome IoError Edge) :=
  reader.lines.filterMap (lineItem profile reader.numberOfNodes)

/-- An item as `next` delivers it. -/
def delivered : Outcome IoError Edge → Outcome IoError (Option Edge)
  | .ok edge => .ok (some edge)
  | .err error => .err error
  | .panic message => .panic message

theorem delivered_injective : Function.Injective delivered := by
  intro a b h
  cases a <;> cases b <;> simp_all [delivered]

theorem delivered_ne_none (item : Outcome IoError Edge) : delivered item ≠ .ok none := by
  cases item <;> simp [delivered]

theorem nextHit_lineItem (profile : BuildProfile) (n : ℕ) (lines : List Line) :
    nextHit (lineItem profile n) lines =
      match nextNonCommentLine lines with
      | (.error error, rest) => (some (.err error), rest)
      | (.ok none, rest) => (none, rest)
      | (.ok (some line), rest) => (some (edgeItem profile n line), rest) := by
  fun_induction nextNonCommentLine lines with
  | case1 => rfl
  | case2 => rfl
  | case3 line rest hc ih => simp only [nextHit, lineItem, hc, if_true, ih]
  | case4 line rest hc => simp only [nextHit, lineItem, hc, if_false]

/-- One call of `next` consumes one item. -/
theorem next_eq (profile : BuildProfile) (reader : PaceReader) :
    next profile reader =
      ((nextHit (lineItem profile reader.numberOfNodes) reader.lines).1.elim (.ok none) delivered,
      { reader with lines := (nextHit (lineItem profile reader.numberOfNodes) reader.lines).2 }) := by
  rw [nextHit_lineItem]
  unfold next parseEdgeLine
  rcases nextNonCommentLine reader.lines with ⟨_ | _ | line, rest⟩
  · rfl
  · rfl
  · simp only [edgeItem, Option.elim_some]
    cases parseEndpoints line with
    | error error => rfl
    | ok edge =>
        simp only [Outcome.ofExcept_ok, Outcome.ok_bind]
        cases debugAssertRange profile reader.numberOfNodes "from" edge.u with
        | err error => rfl
        | panic message => rfl
        | ok _ =>
            cases debugAssertRange profile reader.numberOfNodes "dest" edge.v with
            | err error => rfl
            | panic message => rfl
            | ok _ =>
                simp only [Outcome.ok_bind, Outcome.pure_eq]
                cases (u32Sub profile edge.u 1 : Outcome IoError ℕ) with
                | err error => rfl
                | panic message => rfl
                | ok u => cases (u32Sub profile edge.v 1 : Outcome IoError ℕ) <;> rfl

theorem next_fst (profile : BuildProfile) (reader : PaceReader) :
    (next profile reader).1 = (lineItems profile reader).head?.elim (.ok none) delivered := by
  rw [next_eq, nextHit_fst]
  rfl

theorem lineItems_next_snd (profile : BuildProfile) (reader : PaceReader) :
    lineItems profile (next profile reader).2 = (lineItems profile reader).tail := by
  rw [next_eq]
  exact filterMap_nextHit_snd _ _

theorem lineItems_eq_nil_of_next {profile : BuildProfile} {reader rest : PaceReader}
    (h : next profile reader = (.ok none, rest)) : lineItems profile reader = [] := by
  have hfst := next_fst profile reader
  rw [h] at hfst
  cases hitems : lineItems profile reader with
  | nil => rfl
  | cons item tail =>
      rw [hitems] at hfst
      exact (delivered_ne_none item hfst.symm).elim

theorem lineItems_eq_cons_of_next {profile : BuildProfile} {reader rest : PaceReader}
    {item : Outcome IoError Edge} (h : next profile reader = (delivered item, rest)) :
    lineItems profile reader = item :: lineItems profile rest := by
  have hfst := next_fst profile reader
  have hsnd := lineItems_next_snd profile reader
  rw [h] at hfst hsnd
  cases hitems : lineItems profile reader with
  | nil =>
      rw [hitems] at hfst
      exact (delivered_ne_none item hfst).elim
  | cons first tail =>
      rw [hitems] at hfst hsnd
      rw [delivered_injective hfst, hsnd, List.tail_cons]

/-- The items as `items` returns them: errors are kept, a panic is passed on. -/
def gather : List (Outcome IoError Edge) → Outcome IoError (List (Except IoError Edge))
  | [] => .ok []
  | .ok edge :: rest => do
      let tail ← gather rest
      return .ok edge :: tail
  | .err error :: rest => do
      let tail ← gather rest
      return .error error :: tail
  | .panic message :: _ => .panic message

/-- The items as the callers collect them, up to the first error. -/
def collect : List (Outcome IoError Edge) → Outcome IoError (List Edge)
  | [] => .ok []
  | item :: rest => do
      let edge ← item
      let edges ← collect rest
      return edge :: edges

theorem items_eq_gather (profile : BuildProfile) (reader : PaceReader) :
    items profile reader = gather (lineItems profile reader) := by
  fun_induction items profile reader with
  | case1 reader rest hnext => rw [lineItems_eq_nil_of_next hnext, gather]
  | case2 reader edge rest hnext ih =>
      have hitem : next profile reader = (delivered (.ok edge), rest) := hnext
      rw [lineItems_eq_cons_of_next hitem, gather, ih]
  | case3 reader error rest hnext ih =>
      have hitem : next profile reader = (delivered (.err error), rest) := hnext
      rw [lineItems_eq_cons_of_next hitem, gather, ih]
  | case4 reader message rest hnext =>
      have hitem : next profile reader = (delivered (.panic message), rest) := hnext
      rw [lineItems_eq_cons_of_next hitem, gather]

theorem collectEdges_eq_collect (profile : BuildProfile) (reader : PaceReader) :
    collectEdges profile reader = collect (lineItems profile reader) := by
  fun_induction collectEdges profile reader with
  | case1 reader rest hnext => rw [lineItems_eq_nil_of_next hnext, collect]
  | case2 reader edge rest hnext ih =>
      have hitem : next profile reader = (delivered (.ok edge), rest) := hnext
      rw [lineItems_eq_cons_of_next hitem, collect, ih, Outcome.ok_bind]
  | case3 reader error rest hnext =>
      have hitem : next profile reader = (delivered (.err error), rest) := hnext
      rw [lineItems_eq_cons_of_next hitem, collect, Outcome.err_bind]
  | case4 reader message rest hnext =>
      have hitem : next profile reader = (delivered (.panic message), rest) := hnext
      rw [lineItems_eq_cons_of_next hitem, collect, Outcome.panic_bind]

theorem gather_eq_ok_iff {found : List (Outcome IoError Edge)}
    {out : List (Except IoError Edge)} :
    gather found = .ok out ↔ found = out.map Outcome.ofExcept := by
  induction found generalizing out with
  | nil => cases out <;> simp [gather]
  | cons item rest ih =>
      cases out with
      | nil => cases item <;> simp [gather, Outcome.bind_eq_ok]
      | cons first out =>
          rw [List.map_cons, List.cons.injEq, ← ih]
          cases item <;> cases first <;> simp [gather, Outcome.bind_eq_ok, and_comm]

theorem collect_eq_ok_iff {found : List (Outcome IoError Edge)} {edges : List Edge} :
    collect found = .ok edges ↔ found = edges.map .ok := by
  induction found generalizing edges with
  | nil => cases edges <;> simp [collect]
  | cons item rest ih =>
      rw [collect, Outcome.bind_eq_ok]
      simp only [Outcome.bind_eq_ok, ih, Outcome.pure_eq, Outcome.ok.injEq]
      cases edges with
      | nil => simp
      | cons edge edges => grind

end StrideRunner.Pace.PaceReader
