import RegisterMap.Proofs.Toml.Scalar

/-!
# Written entries read back

Entries of literals are read in order as what they denote, on one line as an inline table and on
lines of their own as the items of an array. Keys are made of letters, digits, hyphens and
underscores. No reader runs out of fuel as long as it has some for each character.
-/

namespace RegisterMap

/-! ### Keys of tables -/

namespace Table

variable {t : Table} {key : String}

lemma get?_eq_none_iff_not_mem : t.get? key = none ↔ key ∉ t.keys := by
  rw [get?, List.lookup_eq_none_iff, keys, List.mem_map]
  constructor
  · rintro h ⟨⟨k, v⟩, hmem, rfl⟩
    simpa using h _ hmem
  · intro h entry hentry
    rw [bne_iff_ne]
    rintro rfl
    exact h ⟨entry, hentry, rfl⟩

lemma addNew?_of_not_mem (h : key ∉ t.keys) (value : Value) :
    t.addNew? key value = some (t ++ [(key, value)]) := by
  rw [addNew?, has, get?_eq_none_iff_not_mem.mpr h]
  rfl

end Table

namespace Toml

/-! ### Keys of documents -/

/-- Whether a text can be a part of a key without quotes. -/
structure IsBare (part : String) : Prop where
  ne_nil : part.toList ≠ []
  forall_mem : ∀ c ∈ part.toList, isBareKeyChar c = true

instance (part : String) : Decidable (IsBare part) :=
  decidable_of_iff ((!part.toList.isEmpty && part.toList.all isBareKeyChar) = true) <| by
    rw [Bool.and_eq_true, Bool.not_eq_true', List.isEmpty_eq_false_iff, List.all_eq_true]
    exact ⟨fun ⟨h, h'⟩ => ⟨h, h'⟩, fun h => ⟨h.ne_nil, h.forall_mem⟩⟩

section Keys

variable {part : String} {c : Char} {rest : List Char}

lemma skipSpaces_of_not_isSpace (h : isSpace c = false) (rest : List Char) :
    skipSpaces (c :: rest) = c :: rest := by
  rw [skipSpaces, List.dropWhile_cons_of_neg (by simp [h])]

lemma skipSpaces_space (rest : List Char) : skipSpaces (' ' :: rest) = skipSpaces rest := rfl

/-- A character of a key has no other meaning at the start of a line. -/
lemma ne_of_isBareKeyChar (h : isBareKeyChar c = true) {mark : Char}
    (hmark : isBareKeyChar mark = false) : c ≠ mark := by
  rintro rfl
  rw [h] at hmark
  cases hmark

lemma isSpace_of_isBareKeyChar (h : isBareKeyChar c = true) : isSpace c = false := by
  rw [isSpace, Bool.or_eq_false_iff, beq_eq_false_iff_ne, beq_eq_false_iff_ne]
  exact ⟨ne_of_isBareKeyChar h rfl, ne_of_isBareKeyChar h rfl⟩

lemma IsBare.exists_eq_cons (h : IsBare part) :
    ∃ d ds, part.toList = d :: ds ∧ isBareKeyChar d = true := by
  obtain ⟨d, ds, hpart⟩ := List.exists_cons_of_ne_nil h.ne_nil
  exact ⟨d, ds, hpart, h.forall_mem d (hpart ▸ List.mem_cons_self)⟩

lemma readKeyPart_of_isBare (h : IsBare part) (hc : isBareKeyChar c = false) (rest : List Char) :
    readKeyPart (part.toList ++ c :: rest) = some (part, c :: rest) := by
  have htake : (part.toList ++ c :: rest).takeWhile isBareKeyChar = part.toList := by
    rw [List.takeWhile_append_of_pos h.forall_mem, List.takeWhile_cons_of_neg (by simp [hc]),
      List.append_nil]
  have hdrop : (part.toList ++ c :: rest).dropWhile isBareKeyChar = c :: rest := by
    rw [List.dropWhile_append_of_pos h.forall_mem, List.dropWhile_cons_of_neg (by simp [hc])]
  unfold readKeyPart
  split
  next heq =>
    obtain ⟨d, ds, hpart, hd⟩ := h.exists_eq_cons
    rw [hpart] at heq
    exact absurd (List.cons.inj heq).1 (ne_of_isBareKeyChar hd rfl)
  next heq =>
    obtain ⟨d, ds, hpart, hd⟩ := h.exists_eq_cons
    rw [hpart] at heq
    exact absurd (List.cons.inj heq).1 (ne_of_isBareKeyChar hd rfl)
  next =>
    rw [htake, hdrop, if_neg (by simpa using h.ne_nil), String.ofList_toList]

lemma skipSpaces_of_isBare (h : IsBare part) (rest : List Char) :
    skipSpaces (part.toList ++ rest) = part.toList ++ rest := by
  obtain ⟨d, ds, hpart, hd⟩ := h.exists_eq_cons
  rw [hpart]
  exact skipSpaces_of_not_isSpace (isSpace_of_isBareKeyChar hd) _

/-- A key of one part is read up to the equals sign. -/
lemma readKey_of_isBare (h : IsBare part) {fuel : Nat} (hfuel : 0 < fuel) (rest : List Char) :
    readKey fuel (part.toList ++ ' ' :: '=' :: rest) = some (⟨[], part⟩, '=' :: rest) := by
  obtain ⟨fuel, rfl⟩ := Nat.exists_eq_succ_of_ne_zero hfuel.ne'
  have hpart := readKeyPart_of_isBare (c := ' ') h rfl ('=' :: rest)
  simp only [readKey, hpart, Option.bind_eq_bind, Option.bind_some]
  rfl

lemma toList_intercalate_cons (separator a b : String) (texts : List String) :
    (String.intercalate separator (a :: b :: texts)).toList =
      a.toList ++ separator.toList ++ (String.intercalate separator (b :: texts)).toList := by
  simp [String.toList_intercalate]

lemma skipSpaces_path (key : Key) (h : ∀ part ∈ key.path, IsBare part) (rest : List Char) :
    skipSpaces ((String.intercalate "." key.path).toList ++ rest) =
      (String.intercalate "." key.path).toList ++ rest := by
  obtain ⟨part, parts, hpath⟩ := List.exists_cons_of_ne_nil (l := key.path) (by simp [Key.path])
  rw [hpath] at h ⊢
  have hbare := skipSpaces_of_isBare (h part List.mem_cons_self)
  cases parts with
  | nil =>
    rw [String.intercalate_singleton]
    exact hbare rest
  | cons next parts =>
    rw [toList_intercalate_cons, List.append_assoc, List.append_assoc]
    exact hbare _

/-- A key of several parts is read up to the end of the header that it stands in. -/
lemma readKey_path (last : String) (parents : List String)
    (h : ∀ part ∈ parents ++ [last], IsBare part) {fuel : Nat}
    (hfuel : (String.intercalate "." (parents ++ [last])).toList.length < fuel) (rest : List Char) :
    readKey fuel ((String.intercalate "." (parents ++ [last])).toList ++ ']' :: rest) =
      some (⟨parents, last⟩, ']' :: rest) := by
  obtain ⟨fuel, rfl⟩ := Nat.exists_eq_succ_of_ne_zero (Nat.ne_zero_of_lt hfuel)
  induction parents generalizing fuel with
  | nil =>
    have hpart := readKeyPart_of_isBare (c := ']') (h last List.mem_cons_self) rfl rest
    simp only [List.nil_append, String.intercalate_singleton, readKey, hpart, Option.bind_eq_bind,
      Option.bind_some]
    rfl
  | cons part parents ih =>
    have hnext := fun p hp => h p (List.mem_cons_of_mem _ hp)
    have htext : (String.intercalate "." (part :: (parents ++ [last]))).toList =
        part.toList ++ '.' :: (String.intercalate "." (parents ++ [last])).toList := by
      obtain ⟨next, parts, hparts⟩ :=
        List.exists_cons_of_ne_nil (l := parents ++ [last]) (by simp)
      rw [hparts, toList_intercalate_cons]
      simp
    rw [List.cons_append, htext, List.length_append, List.length_cons] at hfuel
    obtain ⟨fuel, rfl⟩ : ∃ k, fuel = k + 1 := ⟨fuel - 1, by omega⟩
    have hread := ih hnext fuel (by omega)
    have hpart := readKeyPart_of_isBare (c := '.') (h part List.mem_cons_self) rfl
      ((String.intercalate "." (parents ++ [last])).toList ++ ']' :: rest)
    have hspaces := skipSpaces_path ⟨parents, last⟩ hnext (']' :: rest)
    rw [List.cons_append, htext, List.append_assoc, List.cons_append, readKey, hpart]
    simp only [Option.bind_eq_bind, Option.bind_some]
    rw [skipSpaces_of_not_isSpace rfl]
    simp only [Key.path] at hspaces
    simp only [hspaces, hread, Option.map_some]

end Keys

/-! ### Entries -/

/-- Whether entries are read as what they denote: their keys are bare and distinct, and their
literals are read as what they denote. -/
structure AreReadable (entries : Entries) : Prop where
  isBare : ∀ entry ∈ entries, IsBare entry.1
  isReadable : ∀ entry ∈ entries, IsReadable entry.2
  nodup : (entries.map Prod.fst).Nodup

lemma AreReadable.tail {entry : String × Literal} {entries : Entries}
    (h : AreReadable (entry :: entries)) : AreReadable entries where
  isBare := (List.forall_mem_cons.mp h.isBare).2
  isReadable := (List.forall_mem_cons.mp h.isReadable).2
  nodup := (List.nodup_cons.mp h.nodup).2

/-- Keys that are not in a table are not in it after the first of them was added. -/
lemma AreReadable.not_mem_keys {entry : String × Literal} {entries : Entries}
    (h : AreReadable (entry :: entries)) {t : Table}
    (hnew : ∀ e ∈ entry :: entries, e.1 ∉ t.keys) (value : Value) :
    ∀ e ∈ entries, e.1 ∉ Table.keys (t ++ [(entry.1, value)]) := by
  intro e he hmem
  rw [Table.keys, List.map_append, List.mem_append] at hmem
  rcases hmem with hmem | hmem
  · exact hnew e (List.mem_cons_of_mem _ he) hmem
  · rw [List.map_singleton, List.mem_singleton] at hmem
    exact (List.nodup_cons.mp h.nodup).1 (hmem ▸ List.mem_map_of_mem he)

/-- The characters of an entry. -/
def entryChars (entry : String × Literal) : List Char :=
  entry.1.toList ++ ' ' :: '=' :: ' ' :: entry.2.code.toList

lemma map_toList_code (entries : Entries) :
    entries.code.map String.toList = entries.map entryChars := by
  simp [Entries.code, entryChars, toString]

section Entries

variable {entry : String × Literal} {c : Char} {rest : List Char}

/-- The literal of an entry is read as what it denotes. -/
lemma readValue_code (h : IsReadable entry.2) (hc : EndsLiteral c) {fuel : Nat} (hfuel : 0 < fuel)
    (rest : List Char) : readValue fuel (skipSpaces (' ' :: (entry.2.code.toList ++ c :: rest))) =
      some (entry.2.value, c :: rest) := by
  obtain ⟨fuel, rfl⟩ := Nat.exists_eq_succ_of_ne_zero hfuel.ne'
  have hscalar := readScalar_code h hc rest
  obtain ⟨d, ds, hcode, hspace, hbracket, hbrace⟩ := exists_code_eq_cons h
  rw [hcode] at hscalar ⊢
  rw [skipSpaces_space, List.cons_append, skipSpaces_of_not_isSpace hspace, readValue]
  · exact hscalar
  · intro _ heq
    exact hbracket (List.cons.inj heq).1
  · intro _ heq
    exact hbrace (List.cons.inj heq).1

lemma isContainer_value (l : Literal) : isContainer l.value = false := by
  cases l <;> rfl

/-- An entry of an inline table is read up to the mark that follows it. -/
lemma readEntries_entry (hbare : IsBare entry.1) (hliteral : IsReadable entry.2) {before : Table}
    (hnew : entry.1 ∉ before.keys) (hc : EndsLiteral c) {fuel : Nat} (hfuel : 0 < fuel)
    (rest : List Char) :
    readEntries (fuel + 1) before [] (entryChars entry ++ c :: rest) =
      match skipSpaces (c :: rest) with
      | '}' :: rest => some (before ++ [(entry.1, entry.2.value)], rest)
      | ',' :: rest =>
        readEntries fuel (before ++ [(entry.1, entry.2.value)]) [] (skipSpaces rest)
      | _ => none := by
  have htext : entryChars entry ++ c :: rest =
      entry.1.toList ++ ' ' :: '=' :: ' ' :: (entry.2.code.toList ++ c :: rest) := by
    simp [entryChars]
  have hnewKey := Table.addNew?_of_not_mem hnew entry.2.value
  rw [htext, readEntries]
  simp only [readKey_of_isBare hbare (Nat.succ_pos _), Option.bind_eq_bind, Option.bind_some,
    readValue_code hliteral hc hfuel, isClosed, List.any_nil, Bool.false_eq_true, if_false,
    Table.updateAt?, hnewKey, isContainer_value]
  rfl

/-- The entries of an inline table are read up to its end. -/
lemma readEntries_code {entries : Entries} {before : Table} (h : AreReadable (entry :: entries))
    (hnew : ∀ e ∈ entry :: entries, e.1 ∉ before.keys) {fuel : Nat}
    (hfuel : ([',', ' '].intercalate ((entry :: entries).map entryChars)).length < fuel) :
    readEntries fuel before []
      ([',', ' '].intercalate ((entry :: entries).map entryChars) ++ ' ' :: '}' :: rest) =
        some (before ++ Entries.table (entry :: entries), rest) := by
  induction entries generalizing entry before fuel with
  | nil =>
    have hbare := h.isBare entry List.mem_cons_self
    have hliteral := h.isReadable entry List.mem_cons_self
    rw [List.map_singleton, List.intercalate_singleton, entryChars, List.length_append,
      List.length_cons] at hfuel
    obtain ⟨fuel, rfl⟩ := Nat.exists_eq_succ_of_ne_zero (Nat.ne_zero_of_lt hfuel)
    rw [List.map_singleton, List.intercalate_singleton, readEntries_entry hbare hliteral
      (hnew entry List.mem_cons_self) (.inl rfl) (by omega)]
    rfl
  | cons next entries ih =>
    have hbare := h.isBare entry List.mem_cons_self
    have hliteral := h.isReadable entry List.mem_cons_self
    rw [List.map_cons, List.map_cons, List.intercalate_cons_cons, ← List.map_cons,
      List.length_append, List.length_append, List.length_cons] at hfuel
    obtain ⟨fuel, rfl⟩ := Nat.exists_eq_succ_of_ne_zero (Nat.ne_zero_of_lt hfuel)
    have hnext := h.not_mem_keys hnew entry.2.value
    have hspaces : skipSpaces (' ' :: ([',', ' '].intercalate ((next :: entries).map entryChars) ++
        ' ' :: '}' :: rest)) =
          [',', ' '].intercalate ((next :: entries).map entryChars) ++ ' ' :: '}' :: rest := by
      rw [skipSpaces_space]
      have hbareNext := skipSpaces_of_isBare (h.isBare next (by simp))
      cases entries with
      | nil =>
        rw [List.map_singleton, List.intercalate_singleton, entryChars, List.append_assoc]
        exact hbareNext _
      | cons after entries =>
        rw [List.map_cons, List.map_cons, List.intercalate_cons_cons, entryChars,
          List.append_assoc, List.append_assoc, List.append_assoc]
        exact hbareNext _
    have hlength : ([',', ' '].intercalate ((next :: entries).map entryChars)).length < fuel := by
      omega
    have hread := ih h.tail hnext hlength
    rw [List.map_cons, List.map_cons, List.intercalate_cons_cons, ← List.map_cons,
      List.append_assoc, List.append_assoc, List.cons_append, List.cons_append, List.nil_append,
      readEntries_entry hbare hliteral (hnew entry List.mem_cons_self) (.inr (.inl rfl)) (by omega),
      skipSpaces_of_not_isSpace rfl]
    simp only [hspaces, hread]
    simp [Entries.table]

end Entries

/-! ### Items -/

section Items

variable {entry : String × Literal} {entries : Entries} {rest : List Char}

lemma toList_itemCode (entries : Entries) :
    entries.itemCode.toList = ' ' :: ' ' :: ' ' :: ' ' :: '{' :: ' ' ::
      ([',', ' '].intercalate (entries.map entryChars) ++ [' ', '}', ',']) := by
  simp [Entries.itemCode, String.toList_intercalate, map_toList_code]

/-- Entries between braces are read as a table. -/
lemma readValue_entries (h : AreReadable (entry :: entries)) {fuel : Nat}
    (hfuel : ([',', ' '].intercalate ((entry :: entries).map entryChars)).length < fuel)
    (rest : List Char) :
    readValue (fuel + 1)
      ('{' :: ' ' :: ([',', ' '].intercalate ((entry :: entries).map entryChars) ++
        ' ' :: '}' :: rest)) = some (.table (Entries.table (entry :: entries)), rest) := by
  have hread : readEntries fuel [] []
      ([',', ' '].intercalate ((entry :: entries).map entryChars) ++ ' ' :: '}' :: rest) =
        some (Entries.table (entry :: entries), rest) :=
    readEntries_code h (by simp [Table.keys]) hfuel
  obtain ⟨d, ds, hkey, hd⟩ := (h.isBare entry List.mem_cons_self).exists_eq_cons
  obtain ⟨text, htext⟩ : ∃ text, [',', ' '].intercalate ((entry :: entries).map entryChars) ++
      ' ' :: '}' :: rest = d :: text := by
    cases entries <;> simp [entryChars, hkey]
  rw [htext] at hread ⊢
  rw [readValue, skipSpaces_space, skipSpaces_of_not_isSpace (isSpace_of_isBareKeyChar hd)]
  split
  next heq => exact absurd (List.cons.inj heq).1 (ne_of_isBareKeyChar hd rfl)
  next => simp [hread]

/-- An item is read up to the comma that follows it. -/
lemma readItems_item {fuel : Nat} {text text' : List Char} {c : Char} {value : Value}
    (hfiller : skipFiller false text = some (c :: text')) (hc : c ≠ ']')
    (hvalue : readValue fuel (c :: text') = some (value, ',' :: rest)) :
    readItems (fuel + 1) text =
      (readItems fuel rest).map fun (items, rest) => (value :: items, rest) := by
  rw [readItems, hfiller]
  split
  next heq => cases heq
  next heq => exact absurd (List.cons.inj (Option.some.inj heq)).1 hc
  next heq =>
    rw [← Option.some.inj heq, hvalue]
    rfl

/-- Items on lines of their own are read up to the end of the array. -/
lemma readItems_code {items : List Entries} (h : ∀ e ∈ items, e ≠ [] ∧ AreReadable e) {fuel : Nat}
    (hfuel : (items.flatMap fun e => e.itemCode.toList ++ ['\n']).length < fuel) :
    readItems fuel ('\n' :: ((items.flatMap fun e => e.itemCode.toList ++ ['\n']) ++ ']' :: rest)) =
      some (items.map fun e => .table e.table, rest) := by
  induction items generalizing fuel with
  | nil =>
    obtain ⟨fuel, rfl⟩ := Nat.exists_eq_succ_of_ne_zero (Nat.ne_zero_of_lt hfuel)
    rfl
  | cons e items ih =>
    obtain ⟨⟨hne, hreadable⟩, hitems⟩ := List.forall_mem_cons.mp h
    obtain ⟨entry, entries, rfl⟩ := List.exists_cons_of_ne_nil hne
    rw [List.flatMap_cons, toList_itemCode] at hfuel
    simp only [List.length_append, List.length_cons] at hfuel
    obtain ⟨fuel, rfl⟩ : ∃ k, fuel = k + 2 := ⟨fuel - 2, by omega⟩
    have htext : (((entry :: entries) :: items).flatMap fun e =>
        (Entries.itemCode e).toList ++ ['\n']) ++ ']' :: rest =
          ' ' :: ' ' :: ' ' :: ' ' :: '{' :: ' ' ::
            ([',', ' '].intercalate ((entry :: entries).map entryChars) ++ ' ' :: '}' :: ',' ::
              '\n' :: ((items.flatMap fun e => e.itemCode.toList ++ ['\n']) ++ ']' :: rest)) := by
      rw [List.flatMap_cons, toList_itemCode]
      simp
    rw [htext, readItems_item rfl (by decide) (readValue_entries hreadable (by omega) _),
      ih hitems (by omega)]
    rfl

end Items

end Toml

end RegisterMap
