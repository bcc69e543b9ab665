import Mathlib.Algebra.GroupWithZero.Nat
import Mathlib.Data.List.Induction
import OperatorConsole.Proofs.Action.Items
import OperatorConsole.Proofs.Report.Shown
import OperatorConsole.Proofs.Text.Split
import OperatorConsole.Proofs.Text.Units
import OperatorConsole.Report.Table

/-!
# Tables line up

Every line of a table has its marks at the same edges, so all lines have one length.  Between two
edges stands a cell, behind one space and filled up with spaces, and no column is wider than its
widest cell needs.

A line is a mark, a field, and then a line that the next mark opens.  All that is said of edges
follows from this, by induction on the fields.
-/

namespace OperatorConsole

namespace Report

/-! ## Edges -/

structure Marks where
  left : Char
  middle : Char
  right : Char

namespace Marks

def markAt (marks : Marks) (last k : Nat) : Char :=
  if k = 0 then marks.left else if k = last then marks.right else marks.middle

structure AreDrawn (marks : Marks) : Prop where
  left : marks.left.toNat < 0x10000 ∧ marks.left ≠ '\n'
  middle : marks.middle.toNat < 0x10000 ∧ marks.middle ≠ '\n'
  right : marks.right.toNat < 0x10000 ∧ marks.right ≠ '\n'

def bars : Marks :=
  ⟨'│', '│', '│'⟩

end Marks

/-- What a line holds from one offset up to another. -/
def between (line : List Char) (start stop : Nat) : List Nat :=
  ((Text.units line).drop start).take (stop - start)

structure IsRuled (edge : Nat -> Nat) (last : Nat) (marks : Marks) (line : List Char) : Prop where
  length : (Text.units line).length = edge last + 1
  marked : forall k, k ≤ last -> (Text.units line)[edge k]? = some (marks.markAt last k).toNat

/-- A line with a cell behind an edge: the text behind a space, and spaces up to the next edge. -/
def HasCell (edge : Nat -> Nat) (j : Nat) (line text : List Char) : Prop :=
  exists padding, between line (edge j + 1) (edge (j + 1)) =
    Text.units (' ' :: (text ++ List.replicate (padding + 1) ' '))

def lineMarks (rowCount : Nat) : List Marks :=
  [⟨'┌', '┬', '┐'⟩, .bars, ⟨'├', '┼', '┤'⟩] ++ List.replicate rowCount .bars ++ [⟨'└', '┴', '┘'⟩]

def Shows (row : List Value) (j : Nat) (text : List Char) : Prop :=
  cellText (row[j]?.getD .absent) = .ok text

/-- The lines of a table with such headers and rows.  A table without columns has two edges. -/
structure LinesUp (headers : List String) (rows : List (List Value)) (edge : Nat -> Nat)
    (lines : List (List Char)) : Prop where
  count : lines.length = rows.length + 4
  start : edge 0 = 0
  ascending : forall j, j < max headers.length 1 -> edge j < edge (j + 1)
  ruled : List.Forall₂ (IsRuled edge (max headers.length 1)) (lineMarks rows.length) lines
  header : forall j header, headers[j]? = some header ->
    exists line, lines[1]? = some line ∧ HasCell edge j line header.toList
  cell : forall i row, rows[i]? = some row -> forall j, j < headers.length ->
    exists line text, lines[i + 3]? = some line ∧ Shows row j text ∧ HasCell edge j line text
  blank : forall row, row ∈ rows -> forall j text, Shows row j text ->
    (row[j]? = none ∨ row[j]? = some .absent ∨ row[j]? = some .null) -> text = []
  /-- Some cell of the column leaves no room but a space on either side. -/
  tight : forall j header, headers[j]? = some header ->
    exists text, (text = header.toList ∨ exists row, row ∈ rows ∧ Shows row j text) ∧
      edge (j + 1) = edge j + Text.width text + 3

/-! ## Lines of fields -/

/-- A line with fields between its marks. -/
def ruledLine (marks : Marks) (fields : List (List Char)) : List Char :=
  marks.left :: (Text.joinWith [marks.middle] fields ++ [marks.right])

/-- The edges of a line whose fields have these widths. -/
def edgeOf (widths : List Nat) (k : Nat) : Nat :=
  ((widths.take k).map (· + 1)).sum

theorem edgeOf_cons (width : Nat) (widths : List Nat) (k : Nat) :
    edgeOf (width :: widths) (k + 1) = width + 1 + edgeOf widths k := by
  rw [edgeOf, List.take_succ_cons, List.map_cons, List.sum_cons, edgeOf]

theorem edgeOf_succ {widths : List Nat} {j width : Nat} (hwidth : widths[j]? = some width) :
    edgeOf widths (j + 1) = edgeOf widths j + width + 1 := by
  rw [edgeOf, List.take_add_one, hwidth, List.map_append, List.sum_append, edgeOf]
  simp only [Option.toList_some, List.map_cons, List.map_nil, List.sum_cons, List.sum_nil]
  omega

theorem edgeOf_lt {widths : List Nat} {j : Nat} (hj : j < widths.length) :
    edgeOf widths j < edgeOf widths (j + 1) := by
  rw [edgeOf_succ (List.getElem?_eq_getElem hj)]
  omega

theorem Marks.bars_drawn : Marks.bars.AreDrawn :=
  ⟨by decide, by decide, by decide⟩

def Marks.behind (marks : Marks) : Marks :=
  ⟨marks.middle, marks.middle, marks.right⟩

theorem Marks.AreDrawn.behind {marks : Marks} (hdrawn : marks.AreDrawn) :
    marks.behind.AreDrawn :=
  ⟨hdrawn.middle, hdrawn.middle, hdrawn.right⟩

theorem Marks.markAt_behind (marks : Marks) {last : Nat} (hlast : 0 < last) (k : Nat) :
    marks.behind.markAt last k = marks.markAt (last + 1) (k + 1) := by
  unfold markAt behind
  cases k with
  | zero => simp [Nat.ne_of_gt hlast]
  | succ k => simp

theorem ruledLine_cons (marks : Marks) (field next : List Char) (rest : List (List Char)) :
    ruledLine marks (field :: next :: rest) =
      (marks.left :: field) ++ ruledLine marks.behind (next :: rest) := by
  simp [ruledLine, Text.joinWith, Marks.behind]

section Drawn

variable {marks : Marks} (hdrawn : marks.AreDrawn)

include hdrawn

theorem units_ruledLine_single (field : List Char) :
    Text.units (ruledLine marks [field]) =
      marks.left.toNat :: (Text.units field ++ [marks.right.toNat]) := by
  rw [ruledLine, Text.joinWith, Text.units_cons_basic hdrawn.left.1, Text.units_append,
    Text.units_cons_basic hdrawn.right.1]
  rfl

theorem units_ruledLine_cons (field next : List Char) (rest : List (List Char)) :
    Text.units (ruledLine marks (field :: next :: rest)) =
      marks.left.toNat ::
        (Text.units field ++ Text.units (ruledLine marks.behind (next :: rest))) := by
  rw [ruledLine_cons, List.cons_append, Text.units_cons_basic hdrawn.left.1, Text.units_append]

end Drawn

theorem isRuled_cons {marks : Marks} (hdrawn : marks.AreDrawn) (field : List Char)
    (rest : List (List Char)) :
    IsRuled (edgeOf ((field :: rest).map Text.width)) (rest.length + 1) marks
      (ruledLine marks (field :: rest)) := by
  induction rest generalizing marks field with
  | nil =>
      have hunits := units_ruledLine_single hdrawn field
      have hlast : edgeOf [Text.width field] 1 = Text.width field + 1 := rfl
      constructor
      case length =>
        rw [hunits]
        simp [hlast, Text.length_units]
      case marked =>
        intro k hk
        rw [hunits]
        rcases Nat.le_one_iff_eq_zero_or_eq_one.mp hk with rfl | rfl
        · rfl
        · rw [List.map_cons, List.map_nil, hlast, List.getElem?_cons_succ,
            ← Text.length_units, List.getElem?_append_right (Nat.le_refl _), Nat.sub_self]
          rfl
  | cons next rest ih =>
      have hunits := units_ruledLine_cons hdrawn field next rest
      have hedge (k : Nat) : edgeOf ((field :: next :: rest).map Text.width) (k + 1) =
          Text.width field + 1 + edgeOf ((next :: rest).map Text.width) k := edgeOf_cons _ _ k
      rcases ih hdrawn.behind next with ⟨hlength, hmarked⟩
      constructor
      case length =>
        rw [hunits, List.length_cons, List.length_append, hlength, Text.length_units,
          List.length_cons, hedge]
        omega
      case marked =>
        intro k hk
        rw [hunits]
        cases k with
        | zero => rfl
        | succ k =>
            rw [hedge, List.length_cons,
              ← marks.markAt_behind (Nat.succ_pos _), ← hmarked k (by simpa using hk),
              Nat.add_right_comm, List.getElem?_cons_succ, ← Text.length_units,
              List.getElem?_append_right (Nat.le_add_right _ _), Nat.add_sub_cancel_left]

/-- Behind an edge stands the field that belongs there, up to the next edge. -/
theorem between_ruledLine {marks : Marks} (hdrawn : marks.AreDrawn) {fields : List (List Char)}
    {j : Nat} {field : List Char} (hfield : fields[j]? = some field) :
    between (ruledLine marks fields) (edgeOf (fields.map Text.width) j + 1)
      (edgeOf (fields.map Text.width) (j + 1)) = Text.units field := by
  induction fields generalizing marks j with
  | nil => cases hfield
  | cons first rest ih =>
      cases j with
      | zero =>
          cases hfield
          have hstop : edgeOf ((field :: rest).map Text.width) 1 = Text.width field + 1 := rfl
          have hstart : edgeOf ((field :: rest).map Text.width) 0 = 0 := rfl
          rw [between, hstop, hstart, ← Text.length_units]
          cases rest with
          | nil =>
              rw [units_ruledLine_single hdrawn]
              simp
          | cons next rest =>
              rw [units_ruledLine_cons hdrawn]
              simp
      | succ j =>
          cases rest with
          | nil => cases hfield
          | cons next rest =>
              rw [← ih hdrawn.behind hfield, between, between, units_ruledLine_cons hdrawn,
                List.map_cons, edgeOf_cons, edgeOf_cons, ← Text.length_units first]
              have hdrop : (Text.units first).length + 1 +
                  edgeOf ((next :: rest).map Text.width) j + 1 =
                    ((Text.units first).length +
                      (edgeOf ((next :: rest).map Text.width) j + 1)) + 1 := by omega
              rw [hdrop, List.drop_succ_cons, List.drop_length_add_append]
              congr 1
              omega

/-! ## Cells -/

structure CellsOf (headers : List String) (row : List Value) (cells : List (List Char)) : Prop where
  length : cells.length = headers.length
  shown : forall j text, cells[j]? = some text -> Shows row j text

theorem cellText_of_data {v : Value} (hv : Value.Data v) : exists text, cellText v = .ok text := by
  cases v with
  | list items => exact hv.document .compact
  | record fields base => exact hv.document .compact
  | ancestor => exact hv.document .compact
  | bytes data => exact hv.document .compact
  | _ => exact ⟨_, rfl⟩

theorem rowCells_of_data (headers : List String) {row : List Value}
    (hrow : forall v, v ∈ row -> Value.Data v) :
    exists cells, rowCells headers row = .ok cells ∧ CellsOf headers row cells := by
  induction headers generalizing row with
  | nil => exact ⟨[], rfl, rfl, fun _ _ hnone => by cases hnone⟩
  | cons header headers ih =>
      cases row with
      | nil =>
          rcases ih (List.forall_mem_nil _) with ⟨cells, hcells, hlength, hshown⟩
          refine ⟨[] :: cells, by rw [rowCells, hcells]; rfl, congrArg (· + 1) hlength, ?_⟩
          intro j text htext
          cases j with
          | zero =>
              cases htext
              rfl
          | succ j => exact hshown j text htext
      | cons v row =>
          rcases List.forall_mem_cons.mp hrow with ⟨hv, hrow⟩
          rcases cellText_of_data hv with ⟨cell, hcell⟩
          rcases ih hrow with ⟨cells, hcells, hlength, hshown⟩
          refine ⟨cell :: cells, by rw [rowCells, hcell, hcells]; rfl,
            congrArg (· + 1) hlength, ?_⟩
          intro j text htext
          cases j with
          | zero =>
              cases htext
              exact hcell
          | succ j => exact hshown j text htext

theorem Shows.blank {row : List Value} {j : Nat} {text : List Char} (hshows : Shows row j text)
    (hblank : row[j]? = none ∨ row[j]? = some .absent ∨ row[j]? = some .null) : text = [] := by
  unfold Shows at hshows
  rcases hblank with hnone | habsent | hnull
  · rw [hnone] at hshows
    exact (Except.ok.inj hshows).symm
  · rw [habsent] at hshows
    exact (Except.ok.inj hshows).symm
  · rw [hnull] at hshows
    exact (Except.ok.inj hshows).symm

theorem rowCells_take (headers : List String) (row : List Value) :
    rowCells headers (row.take headers.length) = rowCells headers row := by
  induction headers generalizing row with
  | nil => rfl
  | cons header headers ih =>
      cases row with
      | nil => rfl
      | cons v row => rw [List.length_cons, List.take_succ_cons, rowCells, rowCells, ih]

/-! ## Widths of columns -/

/-- The width that the widest text of a column has, over all lines. -/
structure IsWidest (lines : List (List (List Char))) (j width : Nat) : Prop where
  bound : forall texts, texts ∈ lines -> forall text, texts[j]? = some text ->
    Text.width text ≤ width
  reached : exists texts text, texts ∈ lines ∧ texts[j]? = some text ∧ Text.width text = width

theorem IsWidest.widen {lines : List (List (List Char))} {j width : Nat}
    (hwidest : IsWidest lines j width) {texts : List (List Char)} {text : List Char}
    (htext : texts[j]? = some text) :
    IsWidest (lines ++ [texts]) j (max width (Text.width text)) := by
  constructor
  case bound =>
    intro texts' htexts' text' htext'
    rcases List.mem_append.mp htexts' with hold | hnew
    · exact Nat.le_trans (hwidest.bound texts' hold text' htext') (Nat.le_max_left _ _)
    · rw [List.mem_singleton.mp hnew, htext] at htext'
      rw [Option.some.inj htext']
      exact Nat.le_max_right _ _
  case reached =>
    rcases Nat.le_total width (Text.width text) with hle | hle
    · exact ⟨texts, text, by simp, htext, (Nat.max_eq_right hle).symm⟩
    · rcases hwidest.reached with ⟨texts', text', hmem, htext', hwidth⟩
      exact ⟨texts', text', List.mem_append_left _ hmem, htext',
        hwidth.trans (Nat.max_eq_left hle).symm⟩

theorem columnWidths_widest {headers : List (List Char)} {rows : List (List (List Char))}
    (hrows : forall cells, cells ∈ rows -> cells.length = headers.length) :
    (columnWidths headers rows).length = headers.length ∧
      forall j width, (columnWidths headers rows)[j]? = some width ->
        IsWidest (headers :: rows) j width := by
  -- the widths grow row by row, so rows are added at the end
  induction rows using List.reverseRecOn with
  | nil =>
      refine ⟨List.length_map _, ?_⟩
      intro j width hwidth
      rw [columnWidths, List.foldl_nil, List.getElem?_map, Option.map_eq_some_iff] at hwidth
      rcases hwidth with ⟨text, htext, rfl⟩
      constructor
      case bound =>
        intro texts htexts text' htext'
        rw [List.mem_singleton.mp htexts, htext] at htext'
        exact Nat.le_of_eq (congrArg Text.width (Option.some.inj htext').symm)
      case reached => exact ⟨headers, text, List.mem_singleton_self _, htext, rfl⟩
  | append_singleton rows cells ih =>
      rcases ih fun others hothers => hrows others (List.mem_append_left _ hothers) with
        ⟨hlength, hwidest⟩
      have hcells : cells.length = headers.length := hrows cells (by simp)
      have hgrown : columnWidths headers (rows ++ [cells]) =
          widen (columnWidths headers rows) cells := List.foldl_concat ..
      rw [hgrown]
      constructor
      · rw [widen, List.length_zipWith, hlength, hcells, Nat.min_self]
      · intro j width hwidth
        rw [widen, List.getElem?_zipWith] at hwidth
        split at hwidth
        case h_1 old text hold htext =>
          cases hwidth
          exact (hwidest j old hold).widen htext
        case h_2 => cases hwidth

/-! ## Lines of a table -/

def paddedFields (widths : List Nat) (cells : List (List Char)) : List (List Char) :=
  List.zipWith (fun width cell => ' ' :: (Text.padRight width cell ++ [' '])) widths cells

theorem tableLine_eq (widths : List Nat) (cells : List (List Char)) :
    tableLine widths cells = ruledLine .bars (paddedFields widths cells) :=
  rfl

theorem border_eq (widths : List Nat) (left middle right : Char) :
    border widths left middle right =
      ruledLine ⟨left, middle, right⟩ (widths.map fun width => line '─' (width + 2)) :=
  rfl

def Fit (widths : List Nat) (cells : List (List Char)) : Prop :=
  List.Forall₂ (fun width cell => Text.width cell ≤ width) widths cells

theorem width_paddedFields {widths : List Nat} {cells : List (List Char)}
    (hfit : Fit widths cells) :
    (paddedFields widths cells).map Text.width = widths.map (· + 2) := by
  induction hfit with
  | nil => rfl
  | @cons width cell widths cells hcell _ ih =>
      have hfirst : Text.width (' ' :: (Text.padRight width cell ++ [' '])) = width + 2 := by
        rw [Text.width_cons_basic (by decide), Text.width_append, Text.width_padRight hcell]
        rfl
      rw [paddedFields, List.zipWith_cons_cons, List.map_cons, List.map_cons, hfirst]
      exact congrArg ((width + 2) :: ·) ih

theorem width_borderFields (widths : List Nat) :
    (widths.map fun width => line '─' (width + 2)).map Text.width = widths.map (· + 2) := by
  rw [List.map_map]
  exact List.map_congr_left fun width _ => Text.width_replicate (by decide) (width + 2)

theorem paddedFields_at {widths : List Nat} {cells : List (List Char)} {j width : Nat}
    {cell : List Char} (hwidth : widths[j]? = some width) (hcell : cells[j]? = some cell) :
    (paddedFields widths cells)[j]? =
      some (' ' :: (cell ++ List.replicate (width - Text.width cell + 1) ' ')) := by
  rw [paddedFields, List.getElem?_zipWith, hwidth, hcell, List.replicate_succ',
    ← List.append_assoc]
  rfl

/-! ## The edges of a table -/

/-- The widths of the fields between the edges.  Without columns there is room for an empty one. -/
def fieldWidths : List Nat -> List Nat
  | [] => [0]
  | width :: widths => (width :: widths).map (· + 2)

theorem length_fieldWidths (widths : List Nat) :
    (fieldWidths widths).length = max widths.length 1 := by
  cases widths with
  | nil => rfl
  | cons width widths => simp [fieldWidths]

theorem fieldWidths_at {widths : List Nat} {j width : Nat} (hwidth : widths[j]? = some width) :
    (fieldWidths widths)[j]? = some (width + 2) := by
  cases widths with
  | nil => cases hwidth
  | cons first widths => rw [fieldWidths, List.getElem?_map, hwidth, Option.map_some]

theorem isRuled_ruledLine {marks : Marks} (hdrawn : marks.AreDrawn) {widths : List Nat}
    {fields : List (List Char)} (hwidths : fields.map Text.width = widths.map (· + 2)) :
    IsRuled (edgeOf (fieldWidths widths)) (max widths.length 1) marks (ruledLine marks fields) := by
  cases widths with
  | nil =>
      rw [List.map_eq_nil_iff.mp hwidths]
      exact isRuled_cons hdrawn [] []
  | cons width widths =>
      cases fields with
      | nil => cases hwidths
      | cons field rest =>
          have hlength := congrArg List.length hwidths
          rw [List.length_map, List.length_map, List.length_cons] at hlength
          rw [fieldWidths, ← hwidths, ← hlength, Nat.max_eq_left (Nat.succ_pos _)]
          exact isRuled_cons hdrawn field rest

theorem hasCell_tableLine {widths : List Nat} {cells : List (List Char)} (hfit : Fit widths cells)
    {j : Nat} {cell : List Char} (hcell : cells[j]? = some cell) :
    HasCell (edgeOf (fieldWidths widths)) j (tableLine widths cells) cell := by
  rcases paired_at hfit.flip hcell with ⟨width, hwidth, _⟩
  have hfield := between_ruledLine Marks.bars_drawn (paddedFields_at hwidth hcell)
  have hwidths : fieldWidths widths = (paddedFields widths cells).map Text.width := by
    rw [width_paddedFields hfit]
    cases widths with
    | nil => cases hwidth
    | cons first widths => rfl
  rw [← hwidths, ← tableLine_eq] at hfield
  exact ⟨_, hfield⟩

/-! ## Ends of lines -/

theorem mem_joinWith {separator : List Char} {parts : List (List Char)} {c : Char}
    (hc : c ∈ Text.joinWith separator parts) :
    c ∈ separator ∨ exists part, part ∈ parts ∧ c ∈ part := by
  fun_induction Text.joinWith separator parts with
  | case1 => cases hc
  | case2 part => exact Or.inr ⟨part, List.mem_singleton_self part, hc⟩
  | case3 part parts _ ih =>
      rcases List.mem_append.mp hc with hfront | hrest
      · rcases List.mem_append.mp hfront with hpart | hseparator
        · exact Or.inr ⟨part, List.mem_cons_self, hpart⟩
        · exact Or.inl hseparator
      · rcases ih hrest with hseparator | ⟨other, hother, hmem⟩
        · exact Or.inl hseparator
        · exact Or.inr ⟨other, List.mem_cons_of_mem part hother, hmem⟩

theorem free_ruledLine {marks : Marks} (hdrawn : marks.AreDrawn) {fields : List (List Char)}
    (hfields : forall field, field ∈ fields -> '\n' ∉ field) : '\n' ∉ ruledLine marks fields := by
  intro hmem
  rcases List.mem_cons.mp hmem with hleft | hmem
  · exact hdrawn.left.2 hleft.symm
  · rcases List.mem_append.mp hmem with hinner | hright
    · rcases mem_joinWith hinner with hmiddle | ⟨field, hfield, hin⟩
      · exact hdrawn.middle.2 (List.mem_singleton.mp hmiddle).symm
      · exact hfields field hfield hin
    · exact hdrawn.right.2 (List.mem_singleton.mp hright).symm

theorem free_tableLine {widths : List Nat} {cells : List (List Char)}
    (hcells : forall cell, cell ∈ cells -> '\n' ∉ cell) : '\n' ∉ tableLine widths cells := by
  rw [tableLine_eq]
  apply free_ruledLine Marks.bars_drawn
  induction widths generalizing cells with
  | nil => exact List.forall_mem_nil _
  | cons width widths ih =>
      cases cells with
      | nil => exact List.forall_mem_nil _
      | cons cell cells =>
          rcases List.forall_mem_cons.mp hcells with ⟨hcell, hcells⟩
          intro field hfield
          rcases List.mem_cons.mp hfield with rfl | hrest
          · simp [Text.padRight, hcell]
          · exact ih hcells field hrest

theorem free_border {left middle right : Char} (hdrawn : Marks.AreDrawn ⟨left, middle, right⟩)
    (widths : List Nat) : '\n' ∉ border widths left middle right := by
  rw [border_eq]
  apply free_ruledLine hdrawn
  intro field hfield
  rcases List.mem_map.mp hfield with ⟨width, _, rfl⟩
  simp [line]

/-! ## Tables -/

section Lines

variable {headers : List String} {rows : List (List Value)} {cells : List (List (List Char))}
  (hcells : List.Forall₂ (CellsOf headers) rows cells)

include hcells

theorem length_of_cellsOf {texts : List (List Char)} (htexts : texts ∈ cells) :
    texts.length = (headers.map String.toList).length := by
  rcases (exists_paired hcells).2 texts htexts with ⟨row, _, hof⟩
  rw [hof.length, List.length_map]

theorem fit_columnWidths {texts : List (List Char)}
    (htexts : texts ∈ headers.map String.toList :: cells) :
    Fit (columnWidths (headers.map String.toList) cells) texts := by
  rcases columnWidths_widest fun _ => length_of_cellsOf hcells with ⟨hlength, hwidest⟩
  have htextsLength : texts.length = (headers.map String.toList).length := by
    rcases List.mem_cons.mp htexts with rfl | hrow
    · rfl
    · exact length_of_cellsOf hcells hrow
  apply List.forall₂_iff_get.mpr
  refine ⟨hlength.trans htextsLength.symm, ?_⟩
  intro j hj hj'
  exact (hwidest j _ (List.getElem?_eq_getElem hj)).bound texts htexts _
    (List.getElem?_eq_getElem hj')

theorem linesUp_tableLines :
    LinesUp headers rows
      (edgeOf (fieldWidths (columnWidths (headers.map String.toList) cells)))
      (tableLines (headers.map String.toList) cells) := by
  have hfit {texts : List (List Char)} (htexts : texts ∈ headers.map String.toList :: cells) :=
    fit_columnWidths hcells htexts
  rcases columnWidths_widest fun _ => length_of_cellsOf hcells with ⟨hlength, hwidest⟩
  unfold tableLines
  generalize columnWidths (headers.map String.toList) cells = widths at hfit hlength hwidest
  have hcolumns : widths.length = headers.length := hlength.trans (List.length_map _)
  have hline {texts : List (List Char)} (htexts : texts ∈ headers.map String.toList :: cells) :
      IsRuled (edgeOf (fieldWidths widths)) (max widths.length 1) .bars
        (tableLine widths texts) := by
    rw [tableLine_eq]
    exact isRuled_ruledLine Marks.bars_drawn (width_paddedFields (hfit htexts))
  have hborder (marks : Marks) (hdrawn : marks.AreDrawn) :
      IsRuled (edgeOf (fieldWidths widths)) (max widths.length 1) marks
        (border widths marks.left marks.middle marks.right) := by
    rw [border_eq]
    exact isRuled_ruledLine hdrawn (width_borderFields widths)
  constructor
  case count => simp [hcells.length_eq]
  case start => rfl
  case ascending =>
    intro j hj
    apply edgeOf_lt
    rw [length_fieldWidths, hcolumns]
    exact hj
  case ruled =>
    rw [← hcolumns]
    have hrows : List.Forall₂ (IsRuled (edgeOf (fieldWidths widths)) (max widths.length 1))
        (List.replicate rows.length .bars) (cells.map (tableLine widths)) := by
      rw [hcells.length_eq, ← List.map_const', List.forall₂_map_left_iff,
        List.forall₂_map_right_iff, List.forall₂_same]
      exact fun texts htexts => hline (List.mem_cons_of_mem _ htexts)
    refine List.rel_append (List.rel_append (.cons ?_ (.cons ?_ (.cons ?_ .nil))) hrows)
      (.cons ?_ .nil)
    · exact hborder ⟨'┌', '┬', '┐'⟩ ⟨by decide, by decide, by decide⟩
    · exact hline List.mem_cons_self
    · exact hborder ⟨'├', '┼', '┤'⟩ ⟨by decide, by decide, by decide⟩
    · exact hborder ⟨'└', '┴', '┘'⟩ ⟨by decide, by decide, by decide⟩
  case header =>
    intro j header hheader
    refine ⟨_, rfl, hasCell_tableLine (hfit List.mem_cons_self) ?_⟩
    rw [List.getElem?_map, hheader]
    rfl
  case cell =>
    intro i row hrow j hj
    rcases paired_at hcells hrow with ⟨texts, htexts, hof⟩
    have hj : j < texts.length := hof.length ▸ hj
    have htext := List.getElem?_eq_getElem hj
    have hmem := List.mem_cons_of_mem (headers.map String.toList) (List.mem_of_getElem? htexts)
    refine ⟨tableLine widths texts, _, ?_, hof.shown j _ htext, hasCell_tableLine (hfit hmem) htext⟩
    change (cells.map (tableLine widths) ++ _)[i]? = _
    rw [List.getElem?_append_left, List.getElem?_map, htexts]
    · rfl
    · rw [List.length_map]
      exact (List.getElem?_eq_some_iff.mp htexts).1
  case blank => exact fun _ _ _ _ hshows hblank => hshows.blank hblank
  case tight =>
    intro j header hheader
    have hj : j < widths.length := hcolumns ▸ (List.getElem?_eq_some_iff.mp hheader).1
    have hwidth := List.getElem?_eq_getElem hj
    rcases (hwidest j _ hwidth).reached with ⟨texts, text, htexts, htext, hreached⟩
    refine ⟨text, ?_, ?_⟩
    · rcases List.mem_cons.mp htexts with rfl | hrow
      · left
        rw [List.getElem?_map, hheader] at htext
        exact (Option.some.inj htext).symm
      · right
        rcases (exists_paired hcells).2 texts hrow with ⟨row, hmem, hof⟩
        exact ⟨row, hmem, hof.shown j text htext⟩
    · rw [edgeOf_succ (fieldWidths_at hwidth), hreached]
      omega

theorem splitOn_tableLines
    (hheaders : forall header, header ∈ headers -> '\n' ∉ header.toList)
    (hrows : forall row, row ∈ rows -> forall j text, Shows row j text -> '\n' ∉ text) :
    Text.splitOn '\n' (joinLines (tableLines (headers.map String.toList) cells)) =
      tableLines (headers.map String.toList) cells := by
  have hfree : forall texts, texts ∈ headers.map String.toList :: cells ->
      forall cell, cell ∈ texts -> '\n' ∉ cell := by
    intro texts htexts cell hcell
    rcases List.mem_cons.mp htexts with rfl | hrow
    · rcases List.mem_map.mp hcell with ⟨header, hheader, rfl⟩
      exact hheaders header hheader
    · rcases (exists_paired hcells).2 texts hrow with ⟨row, hmem, hof⟩
      rcases List.mem_iff_getElem?.mp hcell with ⟨j, hj⟩
      exact hrows row hmem j cell (hof.shown j cell hj)
  apply Text.splitOn_eq_iff.mpr
  refine ⟨rfl, List.cons_ne_nil _ _, ?_⟩
  intro line hline
  rcases List.mem_append.mp hline with hfront | hbottom
  · rcases List.mem_append.mp hfront with hhead | hrow
    · rcases List.mem_cons.mp hhead with rfl | hhead
      · exact free_border ⟨by decide, by decide, by decide⟩ _
      · rcases List.mem_cons.mp hhead with rfl | hunder
        · exact free_tableLine (hfree _ List.mem_cons_self)
        · rw [List.mem_singleton.mp hunder]
          exact free_border ⟨by decide, by decide, by decide⟩ _
    · rcases List.mem_map.mp hrow with ⟨texts, htexts, rfl⟩
      exact free_tableLine (hfree texts (List.mem_cons_of_mem _ htexts))
  · rw [List.mem_singleton.mp hbottom]
    exact free_border ⟨by decide, by decide, by decide⟩ _

end Lines

/-- Data under any headers makes a table whose lines line up.  Data are the values of documents,
absent ones and others. -/
theorem table_lines_up (headers : List String) {rows : List (List Value)}
    (hdata : forall row, row ∈ rows -> forall v, v ∈ row -> Value.Data v) :
    (exists edge lines, table headers rows = .ok (String.ofList (joinLines lines)) ∧
      LinesUp headers rows edge lines ∧
      ((forall header, header ∈ headers -> '\n' ∉ header.toList) ->
        (forall row, row ∈ rows -> forall j text, Shows row j text -> '\n' ∉ text) ->
          Text.splitOn '\n' (joinLines lines) = lines)) ∧
      table headers rows = table headers (rows.map (List.take headers.length)) := by
  constructor
  · rcases exists_mapM_eq_ok fun row hrow => rowCells_of_data headers (hdata row hrow) with
      ⟨cells, hread, hcells⟩
    refine ⟨_, _, ?_, linesUp_tableLines hcells, splitOn_tableLines hcells⟩
    rw [table, hread]
    rfl
  · unfold table
    rw [List.mapM_map]
    simp only [Function.comp_def, rowCells_take]

def raggedRows : List (List Value) :=
  [[.number 1, .text "😀", .bool true], [.list [.null]]]

def raggedText : String :=
  "┌────────┬──────┐\n" ++
  "│ id     │ name │\n" ++
  "├────────┼──────┤\n" ++
  "│ 1      │ 😀   │\n" ++
  "│ [null] │      │\n" ++
  "└────────┴──────┘"

theorem table_lines_up_ragged :
    (forall row, row ∈ raggedRows -> forall v, v ∈ row -> Value.Data v) ∧
      exists edge lines, LinesUp ["id", "name"] raggedRows edge lines ∧
        String.ofList (joinLines lines) = raggedText := by
  have hfirst : forall v, v ∈ [.number 1, .text "😀", .bool true] -> Value.Data v :=
    List.forall_mem_cons.mpr ⟨.scalar (.number 1), List.forall_mem_cons.mpr
      ⟨.scalar (.text "😀"), List.forall_mem_singleton.mpr (.scalar (.bool true))⟩⟩
  have hnull : forall v, v ∈ [.null] -> Value.Data v :=
    List.forall_mem_singleton.mpr (.scalar .null)
  have hdata : forall row, row ∈ raggedRows -> forall v, v ∈ row -> Value.Data v :=
    List.forall_mem_cons.mpr ⟨hfirst, List.forall_mem_singleton.mpr
      (List.forall_mem_singleton.mpr (.list hnull))⟩
  rcases table_lines_up ["id", "name"] hdata with ⟨⟨edge, lines, htable, hlines, _⟩, _⟩
  refine ⟨hdata, edge, lines, hlines, ?_⟩
  have hdrawn : table ["id", "name"] raggedRows = .ok raggedText := by decide +kernel
  exact Except.ok.inj (htable.symm.trans hdrawn)

end Report

end OperatorConsole
