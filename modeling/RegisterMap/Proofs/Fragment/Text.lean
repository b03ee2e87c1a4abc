import RegisterMap.Proofs.Toml.Document

/-!
# Fragments read back

The text of a fragment is a document by itself. It is read as the table that the fragment denotes,
which stands at the end of the path of the header as the only item of an array.
-/

namespace RegisterMap

open Toml

/-! ### Readable fragments -/

/-- Whether the description of an enumeration is read as what it denotes. -/
structure EnumFragment.IsReadable (f : EnumFragment) : Prop where
  entries : AreReadable f.entries
  values_new : "values" ∉ f.entries.table.keys
  values : ∀ e ∈ f.values, e ≠ [] ∧ AreReadable e

/-- Whether a fragment is read as what it denotes. -/
structure Fragment.IsReadable (f : Fragment) : Prop where
  entries : AreReadable f.entries
  bitFields_new : "bit_fields" ∉ f.entries.table.keys
  enum_new : "enum" ∉ f.entries.table.keys
  bitFields : ∀ e ∈ f.bitFields, e ≠ [] ∧ AreReadable e
  enums : ∀ e ∈ f.enums, e.IsReadable

/-! ### Characters of a fragment -/

/-- The characters of lines that each end with a line feed. -/
def lineChars (lines : List String) : List Char := lines.flatMap fun line => line.toList ++ ['\n']

lemma lineChars_append (lines lines' : List String) :
    lineChars (lines ++ lines') = lineChars lines ++ lineChars lines' := List.flatMap_append

lemma lineChars_cons (line : String) (lines : List String) :
    lineChars (line :: lines) = line.toList ++ '\n' :: lineChars lines := by
  simp [lineChars]

lemma toList_lines (line : String) (lines : List String) :
    (String.intercalate "\n" (line :: lines) ++ "\n").toList = lineChars (line :: lines) := by
  rw [String.toList_append]
  induction lines generalizing line with
  | nil => simp [lineChars]
  | cons next lines ih => simp [lineChars_cons line, ← ih]

/-- The characters of entries on lines of their own. -/
def entryLines (entries : Entries) : List Char := entries.flatMap fun e => entryChars e ++ ['\n']

lemma lineChars_code (entries : Entries) : lineChars entries.code = entryLines entries := by
  simp [lineChars, entryLines, Entries.code, entryChars, List.flatMap_map, toString]

lemma lineChars_itemCode (items : List Entries) :
    lineChars (items.map Entries.itemCode) =
      items.flatMap fun e => e.itemCode.toList ++ ['\n'] := by
  rw [lineChars, List.flatMap_map]

/-- The lines of a table with a header, entries, and an array of tables. -/
def sectionLines (header : String) (entries : Entries) (key : String) (items : List Entries) :
    List String :=
  ["", s!"[[{header}]]"] ++ entries.code ++ [s!"{key} = ["] ++ items.map Entries.itemCode ++ ["]"]

lemma lineChars_sectionLines (header : String) (entries : Entries) (key : String)
    (items : List Entries) (rest : List Char) :
    lineChars (sectionLines header entries key items) ++ rest =
      '\n' :: '[' :: '[' :: (header.toList ++ ']' :: ']' :: '\n' :: (entryLines entries ++
        (key.toList ++ ' ' :: '=' :: ' ' :: '[' :: '\n' ::
          ((items.flatMap fun e => e.itemCode.toList ++ ['\n']) ++ ']' :: '\n' :: rest)))) := by
  rw [sectionLines, lineChars_append, lineChars_append, lineChars_append, lineChars_append,
    lineChars_code, lineChars_itemCode]
  simp [lineChars, toString]

lemma EnumFragment.lines_eq (f : EnumFragment) (header : String) :
    f.lines header = sectionLines (header ++ ".enum") f.entries "values" f.values := by
  have hheader : s!"[[{header}.enum]]" = "[[" ++ (header ++ ".enum") ++ "]]" :=
    String.toList_injective (by simp [toString])
  simp only [EnumFragment.lines, sectionLines, toString] at hheader ⊢
  rw [hheader]
  rfl

lemma Fragment.toList_text (f : Fragment) (header : String) :
    (f.text header).toList = lineChars (sectionLines header f.entries "bit_fields" f.bitFields) ++
      f.enums.flatMap fun e => lineChars (e.lines header) := by
  have hlines : lineChars (f.enums.flatMap (·.lines header)) =
      f.enums.flatMap fun e => lineChars (e.lines header) := List.flatMap_assoc
  rw [← hlines, ← lineChars_append]
  exact toList_lines "" _

lemma not_mem_sectionLines {header : String} (hheader : '\r' ∉ header.toList) {entries : Entries}
    (hentries : AreReadable entries) {key : String} (hkey : IsBare key) {items : List Entries}
    (hitems : ∀ e ∈ items, e ≠ [] ∧ AreReadable e) :
    '\r' ∉ lineChars (sectionLines header entries key items) := by
  have hlines : '\r' ∉ entryLines entries := by
    rw [entryLines, List.mem_flatMap]
    rintro ⟨entry, hentry, hmem⟩
    rw [List.mem_append, List.mem_singleton] at hmem
    exact hmem.elim (not_mem_entryChars (hentries.isBare entry hentry)
      (hentries.isReadable entry hentry)) (by decide)
  have hitemLines : '\r' ∉ items.flatMap fun e => e.itemCode.toList ++ ['\n'] := by
    rw [List.mem_flatMap]
    rintro ⟨e, he, hmem⟩
    rw [List.mem_append, List.mem_singleton] at hmem
    exact hmem.elim (not_mem_itemCode (hitems e he).2) (by decide)
  rw [← List.append_nil (lineChars _), lineChars_sectionLines]
  simp [hheader, hlines, hkey.not_mem, hitemLines]

/-! ### Reading sections -/

section Sections

variable {d : Draft} {place : Place} {arrays : List (List String)} {rest : List Char}
  {whole : Table}

/-- A header, entries and an array are read as the table that they make up. -/
lemma reads_section (place : Place) {d' : Draft} {parents : List String} {last : String}
    (hpath : place.path = parents ++ [last]) (hbare : ∀ part ∈ place.path, IsBare part)
    (hstart : d.startItem? ⟨parents, last⟩ = some d') (hd' : d'.IsAt place arrays [])
    {entries : Entries} (hentries : AreReadable entries) {key : String} (hkey : IsBare key)
    (hnew : key ∉ entries.table.keys) {items : List Entries}
    (hitems : ∀ e ∈ items, e ≠ [] ∧ AreReadable e) (hopen : isClosed arrays place.path = false)
    (harray : place.path ++ [key] ∈ arrays)
    (hrest : ∀ d'' : Draft, d''.IsAt place arrays
      (entries.table ++ [(key, .array (items.map fun e => .table e.table))]) →
        Reads d'' rest whole) :
    Reads d (lineChars (sectionLines (String.intercalate "." place.path) entries key items) ++ rest)
      whole := by
  rw [lineChars_sectionLines]
  rw [hpath] at hbare ⊢
  refine .emptyLine (.header hbare hstart ?_)
  refine hd'.reads_entries hentries (by simp [Table.keys]) hopen fun d'' hd'' => ?_
  exact hd''.reads_items hkey hitems hnew hopen harray hrest

/-- The paths of the arrays below the header of a fragment. -/
def arrayPaths (path : List String) : List (List String) :=
  [path ++ ["bit_fields"], path ++ ["enum"] ++ ["values"]]

lemma isClosed_arrayPaths (path : List String) : isClosed (arrayPaths path) path = false := by
  rw [isClosed, List.any_eq_false]
  intro p hp hprefix
  have hlength := (List.isPrefixOf_iff_prefix.mp hprefix).length_le
  simp only [arrayPaths, List.mem_cons, List.not_mem_nil, or_false] at hp
  rcases hp with rfl | rfl <;> simp at hlength

lemma isClosed_arrayPaths_enum (path : List String) :
    isClosed (arrayPaths path) (path ++ ["enum"]) = false := by
  rw [isClosed, List.any_eq_false]
  intro p hp hprefix
  have hprefix := List.isPrefixOf_iff_prefix.mp hprefix
  simp only [arrayPaths, List.mem_cons, List.not_mem_nil, or_false, List.append_assoc] at hp
  rcases hp with rfl | rfl
  · exact absurd ((List.prefix_append_right_inj path).mp hprefix) (by decide)
  · exact absurd ((List.prefix_append_right_inj path).mp hprefix) (by decide)

lemma intercalate_concat {path : List String} (h : path ≠ []) (part : String) :
    String.intercalate "." (path ++ [part]) = String.intercalate "." path ++ "." ++ part := by
  induction path with
  | nil => exact absurd rfl h
  | cons first path ih =>
    cases path with
    | nil => exact String.toList_injective (by simp)
    | cons next path =>
      refine String.toList_injective ?_
      rw [List.cons_append, List.cons_append, toList_intercalate_cons, ← List.cons_append,
        ih (by simp)]
      simp

/-- The descriptions of enumerations are read as further items of an array. -/
lemma reads_enums {enums : List EnumFragment} (h : ∀ e ∈ enums, e.IsReadable)
    (hbare : ∀ part ∈ place.path, IsBare part) (hne : place.path ≠ []) {t : Table}
    (hnew : "enum" ∉ t.keys) (items : List Value)
    (hroot : d.root = place.plug (t.withArray "enum" items))
    (hclosed : d.closed ⊆ arrayPaths place.path) :
    Reads d (enums.flatMap fun e => lineChars (e.lines (String.intercalate "." place.path)))
      (place.plug (t.withArray "enum" (items ++ enums.map fun e => .table e.table))) := by
  -- The first header starts the array, and each further one adds an item to it.
  induction enums generalizing d items with
  | nil =>
    have hread := Reads.nil d
    rwa [hroot, ← List.append_nil items] at hread
  | cons e enums ih =>
    obtain ⟨he, henums⟩ := List.forall_mem_cons.mp h
    have hopen := isClosed_arrayPaths_enum place.path
    obtain ⟨d', hstart, hd'⟩ := Draft.startItem?_withArray hnew hroot hclosed hopen
    have hbareEnum : ∀ part ∈ place.path ++ ["enum"], IsBare part :=
      List.forall_mem_append.mpr ⟨hbare, by decide⟩
    have hheader : String.intercalate "." place.path ++ ".enum" =
        String.intercalate "." (place.path ++ ["enum"]) := by
      rw [intercalate_concat hne, String.append_assoc]
      rfl
    rw [List.flatMap_cons, e.lines_eq, hheader]
    refine reads_section (place.item hnew items) rfl hbareEnum hstart hd' he.entries
      (by decide) he.values_new he.values hopen (by simp [arrayPaths, Place.item])
      fun d'' hd'' => ?_
    have hread := ih henums _ hd''.root_eq hd''.closed_subset
    rwa [List.append_assoc] at hread

end Sections

namespace Fragment

variable {f : Fragment}

lemma table_eq_withArray (f : Fragment) :
    f.table = Table.withArray
      (f.entries.table ++ [("bit_fields", .array (f.bitFields.map fun e => .table e.table))])
      "enum" (f.enums.map fun e => .table e.table) := by
  obtain ⟨entries, bitFields, enums⟩ := f
  cases enums with
  | nil => exact List.append_nil _
  | cons e enums => rfl

lemma not_mem_text (h : f.IsReadable) {header : String} (hheader : '\r' ∉ header.toList) :
    '\r' ∉ (f.text header).toList := by
  rw [toList_text, List.mem_append, List.mem_flatMap]
  rintro (hmem | ⟨e, he, hmem⟩)
  · exact not_mem_sectionLines hheader h.entries (by decide) h.bitFields hmem
  · have henum : '\r' ∉ (header ++ ".enum").toList := by
      rw [String.toList_append, List.mem_append]
      exact fun hmem => hmem.elim hheader (by decide)
    rw [e.lines_eq] at hmem
    exact not_mem_sectionLines henum (h.enums e he).entries (by decide) (h.enums e he).values hmem

/-- The lines of a fragment are read as the table that it denotes. -/
lemma reads_text (h : f.IsReadable) (place : Place) {d d' : Draft} {parents : List String}
    {last : String} (hpath : place.path = parents ++ [last])
    (hbare : ∀ part ∈ place.path, IsBare part)
    (hstart : d.startItem? ⟨parents, last⟩ = some d')
    (hd' : d'.IsAt place (arrayPaths place.path) []) :
    Reads d (f.text (String.intercalate "." place.path)).toList (place.plug f.table) := by
  have hnew : "enum" ∉ Table.keys (f.entries.table ++
      [("bit_fields", .array (f.bitFields.map fun e => .table e.table))]) := by
    simpa [Table.keys] using h.enum_new
  rw [f.toList_text, f.table_eq_withArray]
  refine reads_section place hpath hbare hstart hd' h.entries (by decide) h.bitFields_new
    h.bitFields (isClosed_arrayPaths _) (by simp [arrayPaths]) fun d'' hd'' => ?_
  exact reads_enums h.enums hbare (by simp [hpath]) hnew [] hd''.root_eq
    hd''.closed_subset

/-- A fragment is read as the table that it denotes, at the end of the path of its header. -/
theorem readDocument?_text (h : f.IsReadable) {parents : List String} {last : String}
    (hbare : ∀ part ∈ parents ++ [last], IsBare part) :
    readDocument? (f.text (String.intercalate "." (parents ++ [last]))) =
      some (Table.nest last f.table parents) := by
  obtain ⟨d, hstart, hd⟩ := Draft.startItem?_empty parents last
  have hbreaks : '\r' ∉ (f.text (String.intercalate "." (parents ++ [last]))).toList := by
    refine not_mem_text h ?_
    rw [String.toList_intercalate]
    refine Text.not_mem_intercalate (by decide) fun text htext => ?_
    obtain ⟨part, hpart, rfl⟩ := List.mem_map.mp htext
    exact (hbare part hpart).not_mem
  rw [readDocument?, normalizeBreaks_of_not_mem hbreaks]
  exact reads_text h (.alone parents last) rfl hbare hstart (hd _) _ (Nat.lt_succ_self _)

end Fragment

end RegisterMap
