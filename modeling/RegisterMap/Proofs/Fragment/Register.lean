import RegisterMap.Proofs.Fragment.Placement

/-!
# Fragments of registers

The fragment of a register denotes a table with a key for each property that the register has and
that is no default. The table is accepted without diagnostics, and gives back the register without
its empty descriptions.
-/

namespace RegisterMap

variable {d : Description} {path : Path} {t : Table}

/-! ### Tables with optional keys -/

namespace Table

/-- The table of those keys that have a value. -/
def ofOptions (entries : List (String × Option Value)) : Table :=
  entries.filterMap fun (key, value) => value.map (key, ·)

lemma ofOptions_append (entries entries' : List (String × Option Value)) :
    ofOptions (entries ++ entries') = ofOptions entries ++ ofOptions entries' :=
  List.filterMap_append

@[simp] lemma get?_ofOptions_nil (key : String) : (ofOptions []).get? key = none := rfl

/-- The first key that has a value counts. -/
@[simp] lemma get?_ofOptions_cons (k : String) (value : Option Value)
    (entries : List (String × Option Value)) (key : String) :
    (ofOptions ((k, value) :: entries)).get? key =
      if key = k then value.or ((ofOptions entries).get? key)
      else (ofOptions entries).get? key := by
  cases value with
  | none => simp [ofOptions]
  | some v =>
    by_cases h : key = k
    · subst h
      simp [ofOptions, get?]
    · have hbeq : (key == k) = false := by simpa using h
      simp [ofOptions, get?, List.lookup, hbeq, h]

lemma keys_ofOptions_sublist (entries : List (String × Option Value)) :
    (ofOptions entries).keys.Sublist (entries.map Prod.fst) := by
  induction entries with
  | nil => exact .slnil
  | cons entry entries ih =>
    obtain ⟨key, value⟩ := entry
    cases value with
    | none => exact ih.cons key
    | some v => exact ih.cons_cons key

end Table

namespace Fragment

/-! ### The table of a register -/

/-- A value for a property, unless it is the default. -/
def unlessDefault {α : Type} [DecidableEq α] (default : Option α) (a : α) (value : Value) :
    Option Value :=
  if some a = default then none else some value

/-- The fragment of a register with an entry for its locations. -/
def located (d : Description) (r : Register) (location : String × Literal) : Fragment where
  entries := [("name", .text r.name)] ++ descriptionEntry r.description ++ [location] ++
    (r.slot.toList.map fun slot => ("index", Literal.decimal slot)) ++
    (if some r.access = d.defaultAccess then [] else [("access", .text r.access.text)]) ++
    (if some r.size = d.defaultSize then [] else [("size", .decimal r.size.bits)])
  bitFields := r.bitFields.map ofBitField
  enums := r.enums.map ofEnum

lemma ofRegister_of_locationEntry {r : Register} {location : String × Literal}
    (h : locationEntry r = .ok location) : ofRegister d r = .ok (located d r location) := by
  rw [ofRegister, h]
  rfl

/-- The keys of a register, with their values. -/
def options (d : Description) (r : Register) (location : String × Literal) :
    List (String × Option Value) :=
  [("name", some (.text r.name)),
   ("description", (nonemptyText r.description).map .text),
   (location.1, some location.2.value),
   ("index", r.slot.map .integer),
   ("access", unlessDefault d.defaultAccess r.access (.text r.access.text)),
   ("size", unlessDefault d.defaultSize r.size (.integer r.size.bits))]

lemma table_located_entries (d : Description) (r : Register) (location : String × Literal) :
    (located d r location).entries.table = Table.ofOptions (options d r location) := by
  simp only [located, options, descriptionEntry_eq, unlessDefault]
  cases nonemptyText r.description <;> cases r.slot <;> split_ifs <;> rfl

/-- The tables of the bit fields of a register. -/
def fieldTables (r : Register) : List Table := r.bitFields.map fun f => (ofBitField f).table

/-- The tables of the enumerations of a register, if it has any. -/
def enumTables (r : Register) : Option (List Table) :=
  if r.enums.isEmpty then none else some (r.enums.map fun e => (ofEnum e).table)

lemma enumTables_getD (r : Register) :
    (enumTables r).getD [] = r.enums.map fun e => (ofEnum e).table := by
  unfold enumTables
  split_ifs with h
  · rw [List.isEmpty_iff.mp h]
    rfl
  · rfl

lemma table_located (d : Description) (r : Register) (location : String × Literal) :
    (located d r location).table = Table.ofOptions (options d r location ++
      [("bit_fields", some (.array ((fieldTables r).map .table))),
       ("enum", (enumTables r).map fun ts => .array (ts.map .table))]) := by
  have hfields : ((located d r location).bitFields.map fun b => Value.table b.table) =
      (fieldTables r).map .table := by
    simp [located, fieldTables]
  have henums : (if (located d r location).enums.isEmpty then []
      else [("enum", Value.array ((located d r location).enums.map fun e => .table e.table))]) =
        Table.ofOptions [("enum", (enumTables r).map fun ts => .array (ts.map .table))] := by
    obtain ⟨name, access, size, read, write, bitFields, enums, description, slot⟩ := r
    cases enums with
    | nil => rfl
    | cons e enums => simp [located, enumTables, Table.ofOptions]
  rw [table, table_located_entries, hfields, henums, Table.ofOptions_append]
  exact List.append_assoc _ _ _

/-! ### Looking up keys -/

section Keys

variable {r : Register} {kind : LocationKind} {literal : Literal}

/-- The key of a location kind has no other meaning, but for the key of an index. -/
lemma get?_located_kind : (located d r (kind.key, literal)).table.get? kind.key =
    some literal.value := by
  rw [table_located]
  cases kind <;> simp [options, LocationKind.key]

lemma get?_located_slot (d : Description) (r : Register) (literal : Literal)
    (h : kind ≠ .index) :
    (located d r (kind.key, literal)).table.get? LocationKind.index.key = r.slot.map .integer := by
  rw [table_located]
  cases kind <;> simp_all [options, LocationKind.key]

lemma get?_located (d : Description) (r : Register) (kind : LocationKind) (literal : Literal)
    (key : String) (hkey : key ∉ Location.keys) :
    (located d r (kind.key, literal)).table.get? key =
      (Table.ofOptions [("name", some (.text r.name)),
        ("description", (nonemptyText r.description).map .text),
        ("access", unlessDefault d.defaultAccess r.access (.text r.access.text)),
        ("size", unlessDefault d.defaultSize r.size (.integer r.size.bits)),
        ("bit_fields", some (.array ((fieldTables r).map .table))),
        ("enum", (enumTables r).map fun ts => .array (ts.map .table))]).get? key := by
  rw [table_located]
  simp only [Location.keys, List.mem_cons, not_or, LocationKind.key] at hkey
  cases kind <;> simp [options, LocationKind.key, hkey]

lemma hasKeys_located (d : Description) (literal : Literal)
    (h : ∀ slot, r.slot = some slot → kind ≠ .index) :
    Placement.HasKeys (located d r (kind.key, literal)).table kind r.slot := by
  intro k
  rw [Table.has, table_located]
  cases hslot : r.slot <;> cases k <;> cases kind <;> simp_all [options, LocationKind.key]

lemma keys_located_subset : (located d r (kind.key, literal)).table.keys ⊆ Register.keys := by
  intro key hkey
  rw [table_located] at hkey
  have hmem := (Table.keys_ofOptions_sublist _).subset hkey
  cases kind <;> simp [options, Register.keys, Location.keys, LocationKind.key] at hmem ⊢ <;> tauto

/-! ### Reading keys -/

lemma name_located (h : Name.isIdentifier r.name = true) :
    (located d r (kind.key, literal)).table.name "name" = .valid r.name := by
  refine Table.name_eq_valid_iff.mpr ⟨?_, h⟩
  rw [get?_located d r kind literal _ (by decide)]
  simp

lemma description_located :
    ((located d r (kind.key, literal)).table.text "description").optional? =
      some (nonemptyText r.description) := by
  have hget := get?_located d r kind literal "description"
    (by decide)
  rw [Reading.optional?_eq_some_iff]
  cases hdescription : nonemptyText r.description with
  | none =>
    refine .inl ⟨Table.text_eq_absent_iff.mpr ?_, rfl⟩
    rw [hget]
    simp [hdescription]
  | some text =>
    refine .inr ⟨text, Table.text_eq_valid_iff.mpr ?_, rfl⟩
    rw [hget]
    simp [hdescription]

lemma size_located :
    ((located d r (kind.key, literal)).table.converted "size" Conversion.size).orDefault?
      d.defaultSize = some r.size := by
  have hget := get?_located d r kind literal "size" (by decide)
  have hsize : Conversion.size (.integer r.size.bits) = .ok r.size := by
    cases r.size <;> rfl
  by_cases hdefault : some r.size = d.defaultSize
  · simp [Table.converted, Table.value, hget, unlessDefault, ← hdefault, Reading.convert,
      Reading.bind, Reading.orDefault?]
  · simp [Table.converted, Table.value, hget, unlessDefault, hdefault, Reading.convert,
      Reading.bind, Reading.orDefault?, hsize]

lemma access_located :
    ((located d r (kind.key, literal)).table.convertedText "access"
      Conversion.access).orDefault? d.defaultAccess = some r.access := by
  have hget := get?_located d r kind literal "access"
    (by decide)
  have haccess : Conversion.access r.access.text = .ok r.access := by
    cases r.access <;> rfl
  by_cases hdefault : some r.access = d.defaultAccess
  · have habsent : (located d r (kind.key, literal)).table.text "access" = .absent := by
      rw [Table.text_eq_absent_iff, hget]
      simp [unlessDefault, hdefault]
    rw [Table.convertedText, habsent, hdefault]
    rfl
  · have hvalid : (located d r (kind.key, literal)).table.convertedText "access"
        Conversion.access = .valid r.access := by
      refine Table.convertedText_eq_valid_iff.mpr ⟨r.access.text, ?_, haccess⟩
      rw [hget]
      simp [unlessDefault, hdefault]
    rw [hvalid]
    rfl

lemma fieldTables_located :
    (located d r (kind.key, literal)).table.tables "bit_fields" = .valid (fieldTables r) := by
  rw [Table.tables_eq_valid_iff, get?_located d r kind literal _ (by decide)]
  simp

lemma enumTables_located :
    ((located d r (kind.key, literal)).table.tables "enum").optional? = some (enumTables r) := by
  have hget := get?_located d r kind literal "enum" (by decide)
  rw [Reading.optional?_eq_some_iff]
  cases henums : enumTables r with
  | none =>
    refine .inl ⟨Table.tables_eq_absent_iff.mpr ?_, rfl⟩
    rw [hget]
    simp [henums]
  | some ts =>
    refine .inr ⟨ts, Table.tables_eq_valid_iff.mpr ?_, rfl⟩
    rw [hget]
    simp [henums]

lemma slot_located (h : ∀ slot, r.slot = some slot → Placement.SlotFits d kind slot)
    (literal : Literal) :
    Placement.locatingKinds d (located d r (kind.key, literal)).table = [kind] ∧
      (Placement.slot d (located d r (kind.key, literal)).table).optional? = some r.slot := by
  have hkeys := hasKeys_located d literal
    fun slot hslot => (h slot hslot).kind_ne
  cases hslot : r.slot with
  | none =>
    rw [hslot] at hkeys
    obtain ⟨hkinds, habsent⟩ := Placement.locatingKinds_of_slot_none (d := d) hkeys
    rw [habsent]
    exact ⟨hkinds, rfl⟩
  | some slot =>
    rw [hslot] at hkeys
    have hfits := h slot hslot
    have hget := get?_located_slot d r literal hfits.kind_ne
    rw [hslot] at hget
    obtain ⟨hkinds, hvalid⟩ := Placement.locatingKinds_of_slot_some hkeys hfits hget
    rw [hvalid]
    exact ⟨hkinds, rfl⟩

end Keys

end Fragment

end RegisterMap
