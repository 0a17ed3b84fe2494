import PathOptions.Proofs.Text.Replacement
import PathOptions.Resolve.Resolution
/-!
Written tables can be read back. No field keeps a tab or a newline, whatever value it is written
for, so cutting the text of a table at newlines, and the lines at tabs, gives the rows and their
fields again. No row or field is lost, not even an empty one (`map_pieces_lines`).
-/

namespace PathOptions

/-- Rows of texts, joined to lines that are joined in turn, are found again by cutting twice. -/
theorem Text.map_pieces_join {inner outer : Char} (hne : outer ≠ inner) {rows : List (List Text)}
    (hrows : rows ≠ []) (hrow : ∀ row ∈ rows, row ≠ [])
    (hfree : ∀ row ∈ rows, ∀ t ∈ row, inner ∉ t ∧ outer ∉ t) :
    (pieces outer (join outer (rows.map (join inner)))).map (pieces inner) = rows := by
  have hlines : ∀ line ∈ rows.map (join inner), outer ∉ line := by
    intro line hline
    obtain ⟨row, hmem, rfl⟩ := List.mem_map.1 hline
    exact not_mem_join hne fun t ht => (hfree row hmem t ht).2
  have hback : ∀ row ∈ rows, pieces inner (join inner row) = row := by
    intro row hmem
    exact pieces_join (hrow row hmem) fun t ht => (hfree row hmem t ht).1
  calc (pieces outer (join outer (rows.map (join inner)))).map (pieces inner)
      = (rows.map (join inner)).map (pieces inner) := by
        rw [pieces_join (by simpa using hrows) hlines]
    _ = rows.map id := by
        rw [List.map_map]
        exact List.map_congr_left hback
    _ = rows := List.map_id rows

namespace Table

/-! ## Checking -/

def toValue (table : Table) : Value :=
  .map [(.text "columns".toList, .list table.columns),
    (.text "rows".toList, .list (table.rows.map .list))]

theorem readRows_lists {expected : Nat} {rows : List (List Value)}
    (h : ∀ row ∈ rows, row.length = expected) (i : Nat) :
    readRows expected i (rows.map .list) = .ok rows := by
  induction rows generalizing i with
  | nil => rfl
  | cons row rest ih =>
    have hrow : row.length = expected := h row (.head rest)
    have hrest := ih (fun other hother => h other (.tail row hother)) (i + 1)
    simp only [List.map_cons, readRows, readRow, rowOf?, hrest]
    simp [hrow, bind, Except.bind, pure, Except.pure]

/-- A table with a value for each column in every row passes the check. -/
theorem ofValue_toValue {table : Table}
    (h : ∀ row ∈ table.rows, row.length = table.columns.length) :
    ofValue table.toValue = .ok table := by
  have hrows := readRows_lists h 0
  simp [ofValue, toValue, requiredKeys, Value.lookup, readRow, rowOf?, hrows, bind, Except.bind,
    pure, Except.pure]

/-! ## Fields -/

/-- A text fits into a field: it has no tab and no newline. -/
def Fits (t : Text) : Prop := '\t' ∉ t ∧ '\n' ∉ t

instance (t : Text) : Decidable (Fits t) := inferInstanceAs (Decidable (_ ∧ _))

theorem fits_fieldChar (c : Char) : Fits (fieldChar c) := by
  unfold fieldChar
  split
  · decide
  · split
    · decide
    · rename_i htab hnewline
      exact ⟨by simpa using Ne.symm htab, by simpa using Ne.symm hnewline⟩

theorem fits_field (value : Value) : Fits (field value) := by
  have hplain : ∀ mark, (∀ c, mark ∉ fieldChar c) → mark ∉ value.plain.flatMap fieldChar := by
    intro mark hnone hmem
    obtain ⟨c, _, hc⟩ := List.mem_flatMap.1 hmem
    exact hnone c hc
  unfold field
  split
  · decide
  · exact ⟨hplain '\t' fun c => (fits_fieldChar c).1, hplain '\n' fun c => (fits_fieldChar c).2⟩

/-- A text with every tab written as a backslash and a `t`, and every newline as a backslash and an
`n`. -/
def escapeDelimiters (t : Text) : Text :=
  Text.replaceAll ['\n'] ['\\', 'n'] (Text.replaceAll ['\t'] ['\\', 't'] t)

theorem field_text (t : Text) : field (.text t) = escapeDelimiters t := by
  have hchar : ∀ c : Char, fieldChar c =
      (if c = '\t' then ['\\', 't'] else [c]).flatMap fun d =>
        if d = '\n' then ['\\', 'n'] else [d] := by
    intro c
    unfold fieldChar
    split
    · rfl
    · rw [List.flatMap_singleton]
  rw [escapeDelimiters, Text.replaceAll_singleton, Text.replaceAll_singleton, List.flatMap_assoc]
  exact congrArg (t.flatMap ·) (funext hchar)

/-! ## Lines -/

def grid (table : Table) : List (List Text) :=
  table.columns.map Value.plain :: table.rows.map (·.map field)

theorem lines_eq_map_grid (table : Table) : table.lines = table.grid.map (Text.join '\t') := by
  simp [lines, grid]

/-- The lines of a table, cut at tabs: the columns and the fields of each row. -/
theorem map_pieces_lines {table : Table} (hcolumns : table.columns ≠ [])
    (hfits : ∀ column ∈ table.columns, Fits column.plain)
    (hwidth : ∀ row ∈ table.rows, row.length = table.columns.length) :
    (Text.pieces '\n' (Text.join '\n' table.lines)).map (Text.pieces '\t') = table.grid := by
  rw [lines_eq_map_grid]
  refine Text.map_pieces_join (by decide) (List.cons_ne_nil _ _) ?_ ?_
  · intro row hrow
    rcases List.mem_cons.1 hrow with rfl | hrow
    · simpa using hcolumns
    · obtain ⟨values, hvalues, rfl⟩ := List.mem_map.1 hrow
      have hlength : 0 < values.length := by
        rw [hwidth values hvalues]
        exact List.length_pos_iff.2 hcolumns
      simpa using List.length_pos_iff.1 hlength
  · intro row hrow t ht
    rcases List.mem_cons.1 hrow with rfl | hrow
    · obtain ⟨column, hcolumn, rfl⟩ := List.mem_map.1 ht
      exact hfits column hcolumn
    · obtain ⟨values, _, rfl⟩ := List.mem_map.1 hrow
      obtain ⟨value, _, rfl⟩ := List.mem_map.1 ht
      exact fits_field value

end Table

namespace Resolution

/-- The report on a resolution is written, and it has a line with the names of the columns and a
line for each entry. On the line of an entry stand its profile, its key and its value. -/
theorem report_fields (resolution : Resolution)
    (h : resolution.entries.length ≤ Table.maxRows) :
    ∃ report, (Table.ofValue resolution.table.toValue >>= Table.format) = .ok report ∧
      (Text.pieces '\n' report).map (Text.pieces '\t') =
        ["profile".toList, "option".toList, "value".toList] ::
          resolution.entries.map fun entry =>
            [entry.profile, entry.key, entry.value].map Table.escapeDelimiters := by
  have hwidth : ∀ row ∈ resolution.table.rows, row.length = resolution.table.columns.length := by
    intro row hrow
    obtain ⟨entry, _, rfl⟩ := List.mem_map.1 hrow
    rfl
  have hfits : ∀ column ∈ resolution.table.columns, Table.Fits column.plain := by
    intro column hcolumn
    simp only [table, List.mem_cons, List.not_mem_nil, or_false] at hcolumn
    rcases hcolumn with rfl | rfl | rfl <;> decide
  have hrows : ¬ Table.maxRows < resolution.table.rows.length := by
    simpa [table] using h
  refine ⟨Text.join '\n' resolution.table.lines, ?_, ?_⟩
  · rw [Table.ofValue_toValue hwidth]
    exact if_neg hrows
  · rw [Table.map_pieces_lines (List.cons_ne_nil _ _) hfits hwidth]
    simp [Table.grid, table, Table.field_text, Value.plain, Scalar.plain]

/-- Tabs, newlines, backslashes and empty texts in the entries of a report. -/
theorem report_fields_of_delimiters :
    let resolution : Resolution :=
      ⟨"m".toList, "x".toList, [], ["m".toList],
        [⟨"m".toList, "a\tb".toList, []⟩, ⟨[], "\\t".toList, "\n\n".toList⟩]⟩
    resolution.entries.length ≤ Table.maxRows ∧
      ∃ report, (Table.ofValue resolution.table.toValue >>= Table.format) = .ok report ∧
        (Text.pieces '\n' report).map (Text.pieces '\t') =
          [["profile".toList, "option".toList, "value".toList],
            ["m".toList, "a\\tb".toList, []], [[], "\\t".toList, "\\n\\n".toList]] :=
  ⟨by decide, report_fields _ (by decide)⟩

end Resolution

end PathOptions
