import RegisterMap.Proofs.Toml.Value
import RegisterMap.Toml.Document

/-!
# Written documents read back

The statements of a document are read line by line. A draft of which the last header opened an item
of an array is known by the table of that item and by what surrounds it: entries go into the table,
and the header of an array below it opens a further item of that array.
-/

namespace RegisterMap

/-! ### Tables within tables -/

namespace Table

variable {t : Table} {key : String} {value : Value}

lemma get?_append_of_not_mem (h : key ∉ t.keys) : get? (t ++ [(key, value)]) key = some value := by
  rw [get?, List.lookup_append, ← get?, get?_eq_none_iff_not_mem.mpr h]
  simp

lemma set_of_not_mem (h : key ∉ t.keys) (value : Value) : t.set key value = t := by
  have hentry : ∀ entry ∈ t, (if entry.1 = key then (entry.1, value) else (entry.1, entry.2)) =
      entry := by
    intro entry hmem
    rw [if_neg]
    rintro rfl
    exact h (List.mem_map_of_mem hmem)
  exact (List.map_congr_left hentry).trans (List.map_id t)

lemma set_append_of_not_mem (h : key ∉ t.keys) (new : Value) :
    set (t ++ [(key, value)]) key new = t ++ [(key, new)] := by
  have hset := set_of_not_mem h new
  rw [set] at hset ⊢
  rw [List.map_append, hset]
  simp

/-- A change at the end of a path is one at the end of its first part. -/
lemma updateAt?_append (throughArrays : Bool) (change : Table → Option Table)
    (front back : List String) (t : Table) :
    t.updateAt? throughArrays change (front ++ back) =
      t.updateAt? throughArrays (fun u => u.updateAt? throughArrays change back) front := by
  induction front generalizing t with
  | nil => rfl
  | cons key front ih =>
    rw [List.cons_append, updateAt?, updateAt?]
    simp only [ih]

/-- A table with an array after its other entries, if there are items. -/
def withArray (t : Table) (key : String) (items : List Value) : Table :=
  if items.isEmpty then t else t ++ [(key, .array items)]

lemma updateAt?_withArray (h : key ∉ t.keys) (items : List Value) (change : Table → Option Table)
    (u : Table) : (t.withArray key (items ++ [.table u])).updateAt? true change [key] =
      (change u).map fun u => t.withArray key (items ++ [.table u]) := by
  have harray (u : Table) : t.withArray key (items ++ [.table u]) =
      t ++ [(key, .array (items ++ [.table u]))] := if_neg (by simp)
  rw [updateAt?, harray, get?_append_of_not_mem h]
  simp only [List.getLast?_concat, List.dropLast_concat, set_append_of_not_mem h, harray]
  rfl

/-- The table that holds, at the end of a path, an array of one table. -/
def nest (last : String) (t : Table) : List String → Table
  | [] => [(last, .array [.table t])]
  | parent :: parents => [(parent, .table (nest last t parents))]

variable {change : Table → Option Table} {last : String}

lemma updateAt?_singleton_array (u : Table) :
    updateAt? true change [key] [(key, .array [.table u])] =
      (change u).map fun u => [(key, .array [.table u])] :=
  updateAt?_withArray (t := []) (by simp [keys]) [] change u

lemma updateAt?_singleton_table (path : List String) (u : Table) :
    updateAt? true change (key :: path) [(key, .table u)] =
      (u.updateAt? true change path).map fun u => [(key, .table u)] := by
  simp [updateAt?, get?, set]

lemma updateAt?_nest (u : Table) (parents : List String) :
    (nest last u parents).updateAt? true change (parents ++ [last]) =
      (change u).map fun u => nest last u parents := by
  induction parents with
  | nil => exact updateAt?_singleton_array u
  | cons parent parents ih =>
    rw [nest, List.cons_append, updateAt?_singleton_table, ih, Option.map_map]
    rfl

end Table

namespace Toml

variable {t : Table} {text rest : List Char}

/-! ### Places in a document -/

/-- A place in a document: the path of a table, and the whole around the table. -/
structure Place where
  path : List String
  plug : Table → Table
  updateAt?_plug : ∀ (change : Table → Option Table) (t : Table),
    (plug t).updateAt? true change path = (change t).map plug

namespace Place

/-- The last item of an array at the end of a path, with nothing beside it. -/
def alone (parents : List String) (last : String) : Place where
  path := parents ++ [last]
  plug t := Table.nest last t parents
  updateAt?_plug _ t := Table.updateAt?_nest t parents

/-- The last item of an array that comes last in a table. -/
def item (place : Place) {t : Table} {key : String} (h : key ∉ t.keys) (items : List Value) :
    Place where
  path := place.path ++ [key]
  plug u := place.plug (t.withArray key (items ++ [.table u]))
  updateAt?_plug change u := by
    rw [Table.updateAt?_append, place.updateAt?_plug, Table.updateAt?_withArray h, Option.map_map]
    rfl

end Place

/-! ### Drafts -/

namespace Draft

/-- Whether the entries of a draft go into a table at a place, and nothing but arrays is closed. -/
structure IsAt (d : Draft) (place : Place) (arrays : List (List String)) (t : Table) : Prop where
  header_eq : d.header = place.path
  root_eq : d.root = place.plug t
  closed_subset : d.closed ⊆ arrays

lemma isClosed_eq_false_of_subset {closed arrays : List (List String)} (h : closed ⊆ arrays)
    {path : List String} (hopen : isClosed arrays path = false) : isClosed closed path = false := by
  rw [isClosed, List.any_eq_false] at hopen ⊢
  exact fun p hp => hopen p (h hp)

variable {d : Draft} {place : Place} {arrays : List (List String)} {key : String} {value : Value}

/-- A new entry goes into the table. -/
lemma IsAt.addEntry? (h : d.IsAt place arrays t) (value : Value) (hnew : key ∉ t.keys)
    (hopen : isClosed arrays place.path = false)
    (harray : isContainer value = true → place.path ++ [key] ∈ arrays) :
    ∃ d', d.addEntry? ⟨[], key⟩ value = some d' ∧ d'.IsAt place arrays (t ++ [(key, value)]) := by
  have hupdate : d.root.updateAt? true (Table.addNew? key value) d.header =
      some (place.plug (t ++ [(key, value)])) := by
    rw [h.root_eq, h.header_eq, place.updateAt?_plug, Table.addNew?_of_not_mem hnew]
    rfl
  have hclosed := isClosed_eq_false_of_subset h.closed_subset (h.header_eq ▸ hopen)
  refine ⟨{ d with
    root := place.plug (t ++ [(key, value)])
    closed := if isContainer value then (d.header ++ [key]) :: d.closed else d.closed }, ?_,
    h.header_eq, rfl, ?_⟩
  · simp only [Draft.addEntry?, List.length_nil, List.range_zero, List.map_nil, List.any_nil,
      List.append_nil, hclosed, Bool.or_self, Bool.false_eq_true, if_false, hupdate,
      Option.bind_eq_bind, Option.bind_some]
    rfl
  · dsimp only
    split
    next hcontainer =>
      rw [h.header_eq]
      exact List.cons_subset.mpr ⟨harray hcontainer, h.closed_subset⟩
    next => exact h.closed_subset

lemma appendTable?_withArray (h : key ∉ t.keys) (items : List Value) :
    appendTable? key (t.withArray key items) = some (t.withArray key (items ++ [.table []])) := by
  cases items with
  | nil =>
    show appendTable? key t = _
    rw [appendTable?, Table.get?_eq_none_iff_not_mem.mpr h]
    rfl
  | cons item items =>
    rw [appendTable?, Table.withArray, if_neg (by simp), Table.get?_append_of_not_mem h]
    simp only [Table.set_append_of_not_mem h]
    rfl

/-- A header of an array below a place opens a further item of the array. -/
lemma startItem?_withArray {items : List Value} (hnew : key ∉ t.keys)
    (hroot : d.root = place.plug (t.withArray key items)) (hclosed : d.closed ⊆ arrays)
    (hopen : isClosed arrays (place.path ++ [key]) = false) :
    ∃ d', d.startItem? ⟨place.path, key⟩ = some d' ∧
      d'.IsAt (place.item hnew items) arrays [] := by
  have hupdate : d.root.updateAt? true (appendTable? key) place.path =
      some (place.plug (t.withArray key (items ++ [.table []]))) := by
    rw [hroot, place.updateAt?_plug, appendTable?_withArray hnew]
    rfl
  let isOutside (path : List String) : Bool := !(place.path ++ [key]).isPrefixOf path
  refine ⟨{
    root := place.plug (t.withArray key (items ++ [.table []]))
    header := place.path ++ [key]
    declared := (place.path ++ [key]) :: (d.pending ++ d.declared).filter isOutside
    pending := []
    closed := d.closed.filter isOutside }, ?_, rfl, rfl,
    fun p hp => hclosed (List.mem_filter.mp hp).1⟩
  simp only [startItem?, settle, Key.path, isClosed_eq_false_of_subset hclosed hopen,
    Bool.false_eq_true, if_false, hupdate, Option.bind_eq_bind, Option.bind_some]
  rfl

/-- The first header of an empty document opens the first item of an array. -/
lemma startItem?_empty (parents : List String) (last : String) :
    ∃ d', empty.startItem? ⟨parents, last⟩ = some d' ∧
      ∀ arrays, d'.IsAt (.alone parents last) arrays [] := by
  have hupdate : (∀ parents, Table.updateAt? true (appendTable? last) parents [] =
      some (Table.nest last [] parents)) := by
    intro parents
    induction parents with
    | nil => rfl
    | cons parent parents ih =>
      rw [Table.updateAt?]
      simp only [Table.get?, List.lookup_nil, ih, Option.map_some]
      rfl
  refine ⟨⟨Table.nest last [] parents, parents ++ [last], [parents ++ [last]], [], []⟩, ?_,
    fun arrays => ⟨rfl, rfl, List.nil_subset arrays⟩⟩
  simp only [startItem?, settle, empty, isClosed, List.any_nil, Bool.false_eq_true, if_false,
    hupdate, Option.bind_eq_bind, Option.bind_some]
  rfl

end Draft

/-! ### Lines -/

/-- Whether the rest of a document is read as a table, given what was read before. -/
def Reads (d : Draft) (text : List Char) (t : Table) : Prop :=
  ∀ fuel, text.length < fuel → readStatements fuel d text = some t

section Lines

variable {d d' : Draft}

lemma Reads.nil (d : Draft) : Reads d [] d.root := by
  intro fuel hfuel
  obtain ⟨fuel, rfl⟩ := Nat.exists_eq_succ_of_ne_zero (Nat.ne_zero_of_lt hfuel)
  rfl

/-- A statement is read, and the line feed after it. -/
lemma Reads.of_readStatement (d' : Draft)
    (hstatement : readStatement d (skipSpaces text) = some (d', '\n' :: rest))
    (hlength : rest.length < text.length) (h : Reads d' rest t) : Reads d text t := by
  intro fuel hfuel
  obtain ⟨fuel, rfl⟩ := Nat.exists_eq_succ_of_ne_zero (Nat.ne_zero_of_lt hfuel)
  have hread := h fuel (by omega)
  cases text with
  | nil => cases hlength
  | cons c text =>
    rw [readStatements]
    · simp only [hstatement, Option.bind_eq_bind, Option.bind_some]
      exact hread
    · rintro ⟨⟩

lemma Reads.emptyLine (h : Reads d rest t) : Reads d ('\n' :: rest) t :=
  .of_readStatement d rfl (Nat.lt_succ_self _) h

/-- A header of an array is read. -/
lemma Reads.header {parents : List String} {last : String}
    (hbare : ∀ part ∈ parents ++ [last], IsBare part)
    (hstart : d.startItem? ⟨parents, last⟩ = some d') (h : Reads d' rest t) :
    Reads d ('[' :: '[' :: ((String.intercalate "." (parents ++ [last])).toList ++
      ']' :: ']' :: '\n' :: rest)) t := by
  refine .of_readStatement d' ?_ (by simp; omega) h
  have hspaces := skipSpaces_path ⟨parents, last⟩ hbare (']' :: ']' :: '\n' :: rest)
  have hlength : (String.intercalate "." (parents ++ [last])).toList.length <
      ((String.intercalate "." (parents ++ [last])).toList ++
        ']' :: ']' :: '\n' :: rest).length + 1 := by
    rw [List.length_append]
    omega
  have hkey := readKey_path last parents hbare hlength (']' :: '\n' :: rest)
  rw [Key.path] at hspaces
  rw [skipSpaces_of_not_isSpace rfl, readStatement, hspaces, hkey]
  simp only [Option.bind_eq_bind, Option.bind_some, hstart]
  rfl

/-- A character of a key starts neither a header nor a comment, and the line is not empty. -/
lemma readStatement_of_isBare {part : String} (hbare : IsBare part) (rest : List Char) :
    readStatement d (part.toList ++ ' ' :: '=' :: rest) = do
      let (value, rest) ← readValue (rest.length + 1) (skipSpaces rest)
      return (← d.addEntry? ⟨[], part⟩ value, rest) := by
  have hkey := readKey_of_isBare hbare
    (Nat.succ_pos (part.toList ++ ' ' :: '=' :: rest).length) rest
  obtain ⟨c, cs, hpart, hc⟩ := hbare.exists_eq_cons
  rw [hpart] at hkey ⊢
  unfold readStatement
  split
  next heq => exact absurd (List.cons.inj heq).1 (ne_of_isBareKeyChar hc rfl)
  next heq => exact absurd (List.cons.inj heq).1 (ne_of_isBareKeyChar hc rfl)
  next heq => cases heq
  next heq => exact absurd (List.cons.inj heq).1 (ne_of_isBareKeyChar hc rfl)
  next heq => exact absurd (List.cons.inj heq).1 (ne_of_isBareKeyChar hc rfl)
  next =>
    simp only [hkey, Option.bind_eq_bind, Option.bind_some]

/-- An entry is read. -/
lemma Reads.entry {entry : String × Literal} (hbare : IsBare entry.1)
    (hliteral : IsReadable entry.2) (hadd : d.addEntry? ⟨[], entry.1⟩ entry.2.value = some d')
    (h : Reads d' rest t) :
    Reads d (entryChars entry ++ '\n' :: rest) t := by
  have htext : entryChars entry ++ '\n' :: rest =
      entry.1.toList ++ ' ' :: '=' :: ' ' :: (entry.2.code.toList ++ '\n' :: rest) := by
    simp [entryChars]
  refine .of_readStatement d' ?_ (by rw [List.length_append, List.length_cons]; omega) h
  rw [htext, skipSpaces_of_isBare hbare, readStatement_of_isBare hbare,
    readValue_code hliteral (.inr (.inr rfl)) (Nat.succ_pos _)]
  simp only [Option.bind_eq_bind, Option.bind_some, hadd]
  rfl

/-- An array of tables on lines of their own is read. -/
lemma Reads.items {key : String} (hbare : IsBare key) {items : List Entries}
    (hitems : ∀ e ∈ items, e ≠ [] ∧ AreReadable e)
    (hadd : d.addEntry? ⟨[], key⟩ (.array (items.map fun e => .table e.table)) = some d')
    (h : Reads d' rest t) :
    Reads d (key.toList ++ ' ' :: '=' :: ' ' :: '[' :: '\n' ::
      ((items.flatMap fun e => e.itemCode.toList ++ ['\n']) ++ ']' :: '\n' :: rest)) t := by
  refine .of_readStatement d' ?_ (by simp; omega) h
  rw [skipSpaces_of_isBare hbare, readStatement_of_isBare hbare, skipSpaces_space,
    skipSpaces_of_not_isSpace rfl, readValue, readItems_code hitems (by simp; omega)]
  simp only [Option.map_some, Option.bind_eq_bind, Option.bind_some, hadd]
  rfl

end Lines

/-! ### Lines of a table -/

namespace Draft.IsAt

variable {d : Draft} {place : Place} {arrays : List (List String)} {whole : Table}

/-- Entries go into the table line by line. -/
lemma reads_entries {entries : Entries} (h : d.IsAt place arrays t)
    (hreadable : AreReadable entries) (hnew : ∀ e ∈ entries, e.1 ∉ t.keys)
    (hopen : isClosed arrays place.path = false)
    (hrest : ∀ d' : Draft, d'.IsAt place arrays (t ++ entries.table) → Reads d' rest whole) :
    Reads d ((entries.flatMap fun e => entryChars e ++ ['\n']) ++ rest) whole := by
  induction entries generalizing d t with
  | nil => exact hrest d (by simpa [Entries.table] using h)
  | cons entry entries ih =>
    have hbare := hreadable.isBare entry List.mem_cons_self
    have hliteral := hreadable.isReadable entry List.mem_cons_self
    obtain ⟨d', hadd, hd'⟩ := h.addEntry? entry.2.value
      (hnew entry List.mem_cons_self) hopen (by simp [isContainer_value])
    have hfresh := hreadable.not_mem_keys hnew entry.2.value
    rw [List.flatMap_cons, List.append_assoc, List.append_assoc]
    refine .entry hbare hliteral hadd (ih hd' hreadable.tail hfresh fun d'' hd'' => hrest d'' ?_)
    simpa [Entries.table] using hd''

/-- Items go into an array of the table line by line. -/
lemma reads_items {key : String} {items : List Entries} (h : d.IsAt place arrays t)
    (hbare : IsBare key) (hitems : ∀ e ∈ items, e ≠ [] ∧ AreReadable e) (hnew : key ∉ t.keys)
    (hopen : isClosed arrays place.path = false) (harray : place.path ++ [key] ∈ arrays)
    (hrest : ∀ d' : Draft, d'.IsAt place arrays
      (t ++ [(key, .array (items.map fun e => .table e.table))]) → Reads d' rest whole) :
    Reads d (key.toList ++ ' ' :: '=' :: ' ' :: '[' :: '\n' ::
      ((items.flatMap fun e => e.itemCode.toList ++ ['\n']) ++ ']' :: '\n' :: rest)) whole := by
  obtain ⟨d', hadd, hd'⟩ := h.addEntry?
    (.array (items.map fun e => .table e.table)) hnew hopen (fun _ => harray)
  exact .items hbare hitems hadd (hrest d' hd')

end Draft.IsAt

/-! ### Line breaks -/

/-- No line break but line feeds is in the texts. -/
lemma normalizeBreaks_of_not_mem {text : List Char} (h : '\r' ∉ text) :
    normalizeBreaks text = text := by
  induction text with
  | nil => rfl
  | cons c text ih =>
    rw [List.mem_cons, not_or] at h
    rw [normalizeBreaks, ih h.2]
    rintro _ rfl
    exact absurd rfl h.1

lemma IsBare.not_mem {part : String} (h : IsBare part) : '\r' ∉ part.toList :=
  fun hmem => ne_of_isBareKeyChar (h.forall_mem _ hmem) rfl rfl

lemma IsWritable.not_mem_escapeChar {c : Char} (h : IsWritable c) : '\r' ∉ escapeChar c := by
  unfold escapeChar
  split
  · decide
  · decide
  · decide
  · decide
  · rw [List.mem_singleton]
    rintro rfl
    exact absurd h (by simp [IsWritable, isPlain])

lemma not_mem_code {l : Literal} (h : IsReadable l) : '\r' ∉ l.code.toList := by
  cases l with
  | text s =>
    rw [Literal.code, toList_quoted, List.mem_cons, List.mem_append, List.mem_flatMap]
    rintro (hquote | ⟨c, hc, hescape⟩ | hquote)
    · exact absurd hquote (by decide)
    · exact (h c hc).not_mem_escapeChar hescape
    · exact absurd hquote (by decide)
  | decimal n =>
    obtain ⟨k, rfl⟩ := Int.eq_ofNat_of_zero_le h
    rw [toList_code_decimal]
    intro hmem
    exact absurd (Numeral.isDigit_of_mem_decimal hmem) (by decide)
  | hexadecimal n =>
    obtain ⟨k, rfl⟩ := Int.eq_ofNat_of_zero_le h
    rw [toList_code_hexadecimal]
    simp only [List.mem_cons, not_or]
    refine ⟨by decide, by decide, fun hmem => ?_⟩
    exact absurd (Numeral.isHexDigit_of_mem_toDigits (by omega) le_rfl hmem) (by decide)
  | boolean b => cases b <;> decide

lemma not_mem_entryChars {entry : String × Literal} (hbare : IsBare entry.1)
    (hliteral : IsReadable entry.2) : '\r' ∉ entryChars entry := by
  simp [entryChars, hbare.not_mem, not_mem_code hliteral]

lemma not_mem_itemCode {entries : Entries} (h : AreReadable entries) :
    '\r' ∉ entries.itemCode.toList := by
  have hentries : '\r' ∉ [',', ' '].intercalate (entries.map entryChars) := by
    refine Text.not_mem_intercalate (by decide) fun text htext => ?_
    obtain ⟨entry, hentry, rfl⟩ := List.mem_map.mp htext
    exact not_mem_entryChars (h.isBare entry hentry) (h.isReadable entry hentry)
  simp [toList_itemCode, hentries]

end Toml

end RegisterMap
