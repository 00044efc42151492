import ReactiveSheet.Program
import ReactiveSheet.Proofs.ExchangeText
import ReactiveSheet.Proofs.TypedBack

/-! # The output for people and the output for programs

A batch run shows its cells as lines for people or as JSON for programs. The JSON is one array in
either of its forms, with the same texts in it. What stands in it for a cell and what stands on the
line of the cell are read as the same number, and where there is no number neither shows one.
-/

namespace ReactiveSheet

set_option autoImplicit false

/-! ## One cell -/

namespace Snapshot

/-- What stands in the snapshot for a value. -/
def value (x : Float) : Json :=
  match Number.exchange? x with
  | some text => .number (String.ofList text)
  | none => .null

def ofEntry (entry : Entry) : Json :=
  .object [("index", .number (toString entry.index)), ("value", value entry.value)]

variable {x : Float}

theorem writes_number (x : Float) : Json.Writes (number x).toList (value x) := by
  rw [number, value]
  cases hFinite : x.isFinite with
  | true =>
    obtain ⟨s, numeral, hText, _⟩ := Number.exchange?_of_isFinite hFinite
    rw [hText]
    simpa using numeral.writes_text s
  | false =>
    rw [Number.exchange?_of_not_isFinite hFinite]
    apply Json.writes_scalar
    · exact fun c hc => List.all_eq_true.mp (by decide : "null".toList.all Json.inWord = true) c hc
    · decide
    · rfl

theorem writes_index (index : Nat) :
    Json.Writes (toString index).toList (.number (toString index)) := by
  have hText : (toString index).toList = (Numeral.ofNat index).text := by
    rw [Index.toList_toString]
    simp [Numeral.text, Numeral.behind, Numeral.powerText, Numeral.ofNat]
  have hWrites := (Numeral.ofNat index).writes_text .positive
  rw [Number.sign, List.nil_append, ← hText, String.ofList_toList] at hWrites
  exact hWrites

/-! ## The array -/

/-- A way to write a field that leaves its name and its value to be read. -/
def KeepsFields (write : String × String → String) : Prop :=
  ∀ name text value, name.toList.all Json.inQuotes = true →
    Json.Writes text.toList value → Json.WritesField (write (name, text)).toList (name, value)

theorem keepsFields_compactField : KeepsFields compactField := by
  intro name text value hName hWrites
  have hField := hWrites.field (rfl : Json.IsGap []) hName (rfl : Json.IsGap [])
  simpa [compactField, quote] using hField

theorem keepsFields_indentedField : KeepsFields indentedField := by
  intro name text value hName hWrites
  have hField := hWrites.field (rfl : Json.IsGap [' ', ' ', ' ', ' ']) hName
    (rfl : Json.IsGap [' '])
  simpa [indentedField, quote] using hField

section

variable {start gap ending : List Char}

theorem writes_entry {write : String × String → String} (h : KeepsFields write)
    (hStart : Json.IsGap start) (hGap : Json.IsGap gap) (hEnding : Json.IsGap ending)
    (entry : Entry) :
    Json.Writes ('\x7b' :: start ++
      (',' :: gap).intercalate (((fields entry).map write).map String.toList) ++ ending ++ ['\x7d'])
      (ofEntry entry) := by
  have hIndex := h "index" _ _ (by decide) (writes_index entry.index)
  have hValue := h "value" _ _ (by decide) (writes_number entry.value)
  have hFields : ∀ field ∈
      [((write ("index", toString entry.index)).toList,
        ("index", Json.number (toString entry.index))),
        ((write ("value", number entry.value)).toList, ("value", value entry.value))],
      Json.WritesField field.1 field.2 :=
    List.forall_mem_cons.mpr ⟨hIndex, List.forall_mem_singleton.mpr hValue⟩
  have hObject := Json.writes_object hStart hGap hEnding hFields
  simp only [List.map_cons, List.map_nil] at hObject
  simp only [fields, List.map_cons, List.map_nil, ofEntry]
  exact hObject

theorem writes_entries {write : Entry → String}
    (h : ∀ entry, Json.Writes (write entry).toList (ofEntry entry)) (hStart : Json.IsGap start)
    (hGap : Json.IsGap gap) (hEnding : Json.IsGap ending) (entries : List Entry) :
    Json.Writes ('[' :: start ++
      (',' :: gap).intercalate ((entries.map write).map String.toList) ++ ending ++ [']'])
      (.array (entries.map ofEntry)) := by
  have hItems : ∀ item ∈ entries.map fun entry => ((write entry).toList, ofEntry entry),
      Json.Writes item.1 item.2 := by
    intro item hItem
    obtain ⟨entry, _, rfl⟩ := List.mem_map.mp hItem
    exact h entry
  have hArray := Json.writes_array hStart hGap hEnding hItems
  rw [List.map_map, List.map_map] at hArray
  rw [List.map_map]
  exact hArray

end

theorem writes_compactEntry (entry : Entry) :
    Json.Writes (compactEntry entry).toList (ofEntry entry) := by
  have hEntry := writes_entry keepsFields_compactField (rfl : Json.IsGap [])
    (rfl : Json.IsGap []) (rfl : Json.IsGap []) entry
  simpa [compactEntry, String.toList_intercalate] using hEntry

theorem writes_indentedEntry (entry : Entry) :
    Json.Writes (indentedEntry entry).toList (ofEntry entry) := by
  have hEntry := writes_entry keepsFields_indentedField (rfl : Json.IsGap ['\n'])
    (rfl : Json.IsGap ['\n']) (rfl : Json.IsGap ['\n', ' ', ' ']) entry
  have hIndented := hEntry.gap_append (rfl : Json.IsGap [' ', ' '])
  simpa [indentedEntry, String.toList_intercalate] using hIndented

theorem writes_compact (entries : List Entry) :
    Json.Writes (compact entries).toList (.array (entries.map ofEntry)) := by
  have hEntries := writes_entries writes_compactEntry (rfl : Json.IsGap [])
    (rfl : Json.IsGap []) (rfl : Json.IsGap []) entries
  simpa [compact, String.toList_intercalate] using hEntries

theorem writes_indented (entries : List Entry) :
    Json.Writes (indented entries).toList (.array (entries.map ofEntry)) := by
  cases entries with
  | nil => exact writes_compact []
  | cons entry entries =>
    have hEntries := writes_entries writes_indentedEntry (rfl : Json.IsGap ['\n'])
      (rfl : Json.IsGap ['\n']) (rfl : Json.IsGap ['\n']) (entry :: entries)
    simpa [indented, String.toList_intercalate] using hEntries

end Snapshot

/-! ## The lines of the listing -/

theorem Text.splitOn_join {lines : List String} (h : ∀ line ∈ lines, '\n' ∉ line.toList) :
    (String.join (lines.map (· ++ "\n"))).toList.splitOn '\n' =
      lines.map String.toList ++ [[]] := by
  rw [String.toList_join]
  induction lines with
  | nil => rfl
  | cons line lines ih =>
    have hLine : ∀ c ∈ line.toList, (c == '\n') = false := by
      intro c hc
      rw [beq_eq_false_iff_ne]
      rintro rfl
      exact h line List.mem_cons_self hc
    have hRest := ih fun other hOther => h other (List.mem_cons_of_mem _ hOther)
    have hText : ((line ++ "\n") :: lines.map (· ++ "\n")).flatMap String.toList =
        line.toList ++ '\n' :: (lines.map (· ++ "\n")).flatMap String.toList := by
      simp
    rw [List.map_cons, hText, List.splitOn, List.splitOnP_append_cons _ _ (by decide),
      List.splitOnP_eq_singleton hLine, ← List.splitOn, hRest]
    rfl

namespace Listing

theorem not_mem_number {c : Char} (hWritten : Number.isWritten c = false)
    (hMark : c ∉ ['-', '#', 'N', 'A', 'I', 'F', '!']) (x : Float) : c ∉ (number x).toList := by
  cases hFinite : x.isFinite with
  | true =>
    rw [number_of_isFinite hFinite, String.toList_ofList]
    exact Number.not_mem_plain hWritten x
  | false =>
    have hWords : ["#NAN!", "#INF!", "-#INF!"].all
        (fun word => word.toList ⊆ ['-', '#', 'N', 'A', 'I', 'F', '!']) = true := by decide
    have hWord : number x ∈ ["#NAN!", "#INF!", "-#INF!"] := by
      rcases Number.eq_of_not_isFinite hFinite with rfl | rfl | rfl <;> decide
    exact fun hMem => hMark (of_decide_eq_true (List.all_eq_true.mp hWords _ hWord) hMem)

theorem newline_not_mem_line (entry : Entry) : '\n' ∉ (line entry).toList := by
  have hIndex := Index.not_mem_toString (by decide : '\n'.isDigit = false) entry.index
  have hNumber := not_mem_number (by decide : Number.isWritten '\n' = false) (by decide) entry.value
  simp only [line, String.toList_append, List.mem_append]
  rintro (((hMem | hMem) | hMem) | hMem)
  · exact absurd hMem (by decide)
  · exact hIndex hMem
  · exact absurd hMem (by decide)
  · exact hNumber hMem

end Listing

/-! ## The same values -/

/-- What the two formats show for a value. -/
structure ShownAlike (x : Float) : Prop where
  null_iff : Snapshot.value x = .null ↔ x.isNaN = true ∨ x.isInf = true
  notANumber : x.isNaN = true → Listing.number x = "#NAN!"
  infinite : x.isInf = true → Listing.number x = if 0 < x then "#INF!" else "-#INF!"
  finite : ¬ (x.isNaN = true ∨ x.isInf = true) →
    ∃ text, Snapshot.value x = .number text ∧ Number.read? text.toList = some x ∧
      Number.read? (Listing.number x).toList = some x

theorem shownAlike (x : Float) : ShownAlike x := by
  cases hFinite : x.isFinite with
  | true =>
    have hNot : ¬ (x.isNaN = true ∨ x.isInf = true) := by
      rw [← Number.isFinite_eq_false_iff, hFinite]
      decide
    obtain ⟨s, numeral, hText, hFloat⟩ := Number.exchange?_of_isFinite hFinite
    have hValue : Snapshot.value x = .number (String.ofList (Number.sign s ++ numeral.text)) := by
      rw [Snapshot.value, hText]
    have hNull : Snapshot.value x ≠ .null := by simp [hValue]
    refine ⟨iff_of_false hNull hNot, fun h => absurd (.inl h) hNot,
      fun h => absurd (.inr h) hNot, fun _ => ⟨_, hValue, ?_, ?_⟩⟩
    · rw [String.toList_ofList, numeral.read?_text, hFloat]
    · rw [Listing.number_of_isFinite hFinite, String.toList_ofList, Number.read?_plain]
  | false =>
    have hOther := Number.isFinite_eq_false_iff.mp hFinite
    have hValue : Snapshot.value x = .null := by
      rw [Snapshot.value, Number.exchange?_of_not_isFinite hFinite]
    refine ⟨iff_of_true hValue hOther, ?_, ?_, fun h => absurd hOther h⟩
    · rcases Number.eq_of_not_isFinite hFinite with rfl | rfl | rfl <;> decide
    · rcases Number.eq_of_not_isFinite hFinite with rfl | rfl | rfl <;> decide

/-- The array with an object for each cell. -/
def Snapshot.ofCells (cells : List Cell) : Json :=
  .array (cells.mapIdx fun index cell =>
    .object [("index", .number (toString index)), ("value", value cell.value)])

theorem Snapshot.map_ofEntry (cells : List Cell) :
    Json.array ((Entry.ofCells cells).map ofEntry) = ofCells cells := by
  rw [Entry.ofCells, ofCells, List.mapIdx_eq_zipIdx_map, List.map_map]
  rfl

namespace Program

theorem splitOn_listing (sheet : Sheet) : sheet.listing.toList.splitOn '\n' =
    (sheet.cells.mapIdx fun index cell =>
      ("[" ++ toString index ++ "] " ++ Listing.number cell.value).toList) ++ [[]] := by
  rw [Sheet.listing, Text.splitOn_join, Listing.lines, Entry.ofCells, List.map_map, List.map_map,
    List.mapIdx_eq_zipIdx_map]
  · rfl
  · intro line hLine
    obtain ⟨entry, _, rfl⟩ := List.mem_map.mp hLine
    exact Listing.newline_not_mem_line entry

/-- The JSON is an array with the index of each cell and its value, in both of its forms. The lines
show the same indices, and for each cell the same value. -/
theorem formats_show_same_values (sheet : Sheet) :
    Json.read? (batchOutput .json sheet).toList = some (Snapshot.ofCells sheet.cells) ∧
      Json.read? (Snapshot.compact sheet.entries).toList = some (Snapshot.ofCells sheet.cells) ∧
      (batchOutput .text sheet).toList.splitOn '\n' =
        (sheet.cells.mapIdx fun index cell =>
          ("[" ++ toString index ++ "] " ++ Listing.number cell.value).toList) ++ [[]] ∧
      ∀ cell ∈ sheet.cells, ShownAlike cell.value := by
  rw [← Snapshot.map_ofEntry]
  refine ⟨?_, (Snapshot.writes_compact sheet.entries).read?_eq, splitOn_listing sheet,
    fun cell _ => shownAlike cell.value⟩
  have hOutput := (Snapshot.writes_indented sheet.entries).append_gap (rfl : Json.IsGap ['\n'])
  rw [batchOutput, String.toList_append]
  exact hOutput.read?_eq

end Program

end ReactiveSheet
