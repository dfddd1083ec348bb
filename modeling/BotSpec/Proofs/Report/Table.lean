import Mathlib.Data.List.Forall2
import BotSpec.Report.Table

/-!
# Tables in print

On a terminal a table is text in columns. A cell that is shorter than its column has blanks behind
it, and none is cut, so each line has its three cells in it, and they start at the same places in
all lines. A column is as wide as its longest cell (`widest_columnWidth`), counted in characters;
what a terminal makes of wide characters is not looked at.

> `SpecTable.shownBy_text`: a line of titles and one of dashes, a line for each row, and below them
> one for each diagnostic.
-/

namespace BotSpec

/-! ## Columns -/

/-- A column for these cells is as wide as the longest of them. -/
def Widest (width : Nat) (cells : List String) : Prop :=
  (∃ cell ∈ cells, cell.length = width) ∧ ∀ cell ∈ cells, cell.length ≤ width

/-- A cell with blanks behind it, up to the width of its column. -/
def FillsColumn (width : Nat) (cell filled : String) : Prop :=
  filled.length = width ∧ ∃ blanks, filled = cell ++ String.ofList (List.replicate blanks ' ')

/-- A cell that is not longer than its column is filled up to it. -/
theorem fillsColumn_padRight {width : Nat} {cell : String} (h : cell.length ≤ width) :
    FillsColumn width cell (Text.padRight width cell) := by
  refine ⟨?_, width - cell.length, rfl⟩
  rw [Text.padRight, String.length_append, String.length_ofList, List.length_replicate]
  omega

theorem length_dashes (width : Nat) : (Text.dashes width).length = width := by
  rw [Text.dashes, String.length_ofList, List.length_replicate]

namespace SpecTable

/-- The width that is computed for a column is that of its longest cell or of its title. -/
theorem widest_columnWidth (rows : List SpecRow) (title : String) (cell : SpecRow → String) :
    Widest (columnWidth rows title cell) (title :: rows.map cell) := by
  have hmax : ((title :: rows.map cell).map String.length).max? = some (columnWidth rows title cell) := by
    rw [List.map_cons, List.max?_cons', List.foldl_map, List.foldl_map]
    rfl
  obtain ⟨hmem, hle⟩ := List.max?_eq_some_iff.mp hmax
  exact ⟨List.mem_map.mp hmem, fun c hc => hle _ (List.mem_map_of_mem hc)⟩

/-! ## Lines -/

/-- The titles of the columns, as a row. -/
def titles : SpecRow := ⟨"Parameter", "Value", "Description"⟩

/-- The dashes below the titles, as a row. -/
def rule (first second : Nat) : SpecRow := ⟨Text.dashes first, Text.dashes second, Text.dashes 11⟩

end SpecTable

/-- A line has the cells of a row: the first two fill their columns, and the description ends it. -/
def SpecRow.InLine (first second : Nat) (r : SpecRow) (line : String) : Prop :=
  ∃ parameter value, FillsColumn first r.parameter parameter ∧ FillsColumn second r.value value ∧
    line = parameter ++ "  " ++ value ++ "  " ++ r.description

namespace SpecTable

open Text (padRight)

/-- A text shows a table in columns, with the diagnostics below. -/
def ShownBy (t : SpecTable) (text : String) : Prop :=
  ∃ first second lines, Widest first ((titles :: t.rows).map SpecRow.parameter) ∧
    Widest second ((titles :: t.rows).map SpecRow.value) ∧
    List.Forall₂ (SpecRow.InLine first second) (titles :: rule first second :: t.rows) lines ∧
    text = String.join ((lines ++ t.diagnostics.map fun d => "warning: " ++ d.message).map fun line => line ++ "\n")

/-- **What is printed of a table is all of it, in columns.** -/
theorem shownBy_text (t : SpecTable) : t.ShownBy t.text := by
  let first := columnWidth t.rows "Parameter" SpecRow.parameter
  let second := columnWidth t.rows "Value" SpecRow.value
  let line (r : SpecRow) : String := padRight first r.parameter ++ "  " ++ padRight second r.value ++ "  " ++ r.description
  have hfirst : Widest first ((titles :: t.rows).map SpecRow.parameter) := widest_columnWidth _ _ _
  have hsecond : Widest second ((titles :: t.rows).map SpecRow.value) := widest_columnWidth _ _ _
  refine ⟨first, second, (titles :: rule first second :: t.rows).map line, hfirst, hsecond, ?_, ?_⟩
  · rw [List.forall₂_map_right_iff, List.forall₂_same]
    intro r hr
    have hfits : r.parameter.length ≤ first ∧ r.value.length ≤ second := by
      rcases List.mem_cons.mp hr with rfl | hr
      · exact ⟨hfirst.2 _ List.mem_cons_self, hsecond.2 _ List.mem_cons_self⟩
      rcases List.mem_cons.mp hr with rfl | hr
      · exact ⟨Nat.le_of_eq (length_dashes first), Nat.le_of_eq (length_dashes second)⟩
      · exact ⟨hfirst.2 _ (List.mem_cons_of_mem _ (List.mem_map_of_mem hr)),
          hsecond.2 _ (List.mem_cons_of_mem _ (List.mem_map_of_mem hr))⟩
    exact ⟨_, _, fillsColumn_padRight hfits.1, fillsColumn_padRight hfits.2, rfl⟩
  · have htext (s : String) : toString s = s := rfl
    simp [text, line, titles, rule, first, second, String.append_assoc, htext, Function.comp_def]

example : (SpecTable.mk "RSI" [⟨"period", "14", "RSI window"⟩] [.missingParameter "oversold"]).text =
    "Parameter  Value  Description\n---------  -----  -----------\nperiod     14     RSI window\n" ++
      "warning: parameter `oversold` is missing\n" := by decide +kernel

end SpecTable

end BotSpec
