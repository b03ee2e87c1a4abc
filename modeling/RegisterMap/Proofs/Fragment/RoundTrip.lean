import RegisterMap.Fragment.Appending
import RegisterMap.Proofs.Document
import RegisterMap.Proofs.Fragment.Acceptance

/-!
# Registers written and read back

The text of the fragment of a register is a document with one register. Under the description of the
model that the register belongs to, the table of this register is accepted without diagnostics, and
it gives back the register without its empty descriptions.
-/

namespace RegisterMap

open Toml

variable {d : Description} {r : Register} {kind : LocationKind} {literal : Literal}

/-! ### Descriptions -/

/-- The descriptions of a register and of its parts. -/
def Register.descriptions (r : Register) : List String :=
  r.description.toList ++ r.bitFields.filterMap (·.description) ++
    r.enums.flatMap fun e => e.description.toList ++ e.values.filterMap (·.description)

namespace Fragment

/-! ### Fragments of registers that can be read -/

lemma keys_located_sublist :
    ((located d r (kind.key, literal)).entries.map Prod.fst).Sublist
      (["name", "description", kind.key] ++ (if r.slot.isSome then ["index"] else []) ++
        ["access", "size"]) := by
  simp only [located, descriptionEntry_eq]
  cases nonemptyText r.description <;> cases r.slot <;> split_ifs <;> simp_all

/-- The entries of a register can be read. -/
lemma areReadable_located (hname : Name.isIdentifier r.name = true)
    (hslot : ∀ slot, r.slot = some slot → Placement.SlotFits d kind slot)
    (hliteral : Toml.IsReadable literal)
    (hdescription : ∀ text ∈ r.description, IsWritableText text) :
    AreReadable (located d r (kind.key, literal)).entries := by
  refine areReadable_of_sublist _ keys_located_sublist ?_ ?_ ?_
  · cases r.slot.isSome <;> cases kind <;> decide
  · have hindex : r.slot.isSome = true → kind ≠ .index := by
      intro hsome
      obtain ⟨slot, hr⟩ := Option.isSome_iff_exists.mp hsome
      exact (hslot slot hr).kind_ne
    generalize r.slot.isSome = hasSlot at hindex
    cases hasSlot with
    | false => cases kind <;> decide
    | true =>
      cases kind with
      | index => exact absurd rfl (hindex rfl)
      | relative => decide
      | absolute => decide
  · simp only [located, descriptionEntry_eq, List.forall_mem_append, List.forall_mem_singleton]
    refine ⟨⟨⟨⟨⟨?_, ?_⟩, hliteral⟩, ?_⟩, ?_⟩, ?_⟩
    · exact isWritableText_of_isIdentifier hname
    · exact fun entry => isReadable_of_mem_description hdescription
    · intro entry hentry
      obtain ⟨slot, hmem, rfl⟩ := List.mem_map.mp hentry
      exact (hslot slot (Option.mem_toList.mp hmem)).nonneg
    · intro entry hentry
      split_ifs at hentry
      · cases hentry
      · rw [List.mem_singleton.mp hentry]
        exact isWritableText_of_isIdentifier (by cases r.access <;> rfl)
    · intro entry hentry
      split_ifs at hentry
      · cases hentry
      · rw [List.mem_singleton.mp hentry]
        exact Int.natCast_nonneg r.size.bits

/-- The fragment of an accepted register can be read if the descriptions of the register have no
control characters but tabs and line feeds. -/
lemma isReadable_located {path : Path} {t : Table} {described : Register}
    (hmade : Register.MadeFrom path t described r)
    (hslot : ∀ slot, r.slot = some slot → Placement.SlotFits d kind slot)
    (hliteral : Toml.IsReadable literal) (htexts : ∀ text ∈ r.descriptions, IsWritableText text) :
    (located d r (kind.key, literal)).IsReadable := by
  have htext {text : String} (h : (text ∈ r.description ∨ ∃ f ∈ r.bitFields, text ∈ f.description) ∨
      ∃ e ∈ r.enums, text ∈ e.description ∨ ∃ v ∈ e.values, text ∈ v.description) :
        IsWritableText text := by
    refine htexts text ?_
    simpa only [Register.descriptions, List.mem_flatMap, List.mem_append, List.mem_filterMap,
      Option.mem_toList, Option.mem_def] using h
  have hkeys : (located d r (kind.key, literal)).entries.table.keys ⊆
      ["name", "description", kind.key, "index", "access", "size"] := by
    rw [table_located_entries]
    exact (Table.keys_ofOptions_sublist _).subset
  constructor
  case entries =>
    exact areReadable_located hmade.isIdentifier_name hslot hliteral
      fun text h => htext (.inl (.inl h))
  case bitFields_new =>
    intro hmem
    have hmem := hkeys hmem
    cases kind <;> simp [LocationKind.key] at hmem
  case enum_new =>
    intro hmem
    have hmem := hkeys hmem
    cases kind <;> simp [LocationKind.key] at hmem
  case bitFields =>
    intro entries hentries
    obtain ⟨f, hf, rfl⟩ := List.mem_map.mp hentries
    exact areReadable_ofBitField (hmade.isReadable_bitField hf) fun text h =>
      htext (.inl (.inr ⟨f, hf, h⟩))
  case enums =>
    intro fragment hfragment
    obtain ⟨e, he, rfl⟩ := List.mem_map.mp hfragment
    exact isReadable_ofEnum (hmade.isReadable_enum he)
      (fun text h => htext (.inr ⟨e, he, .inl h⟩))
      fun v hv text h => htext (.inr ⟨e, he, .inr ⟨v, hv, h⟩⟩)

/-! ### Documents with one register -/

/-- The document of one register, which is in a group if the model has groups. -/
def document (m : Model) (group : Option String) (t : Table) : Table :=
  match m.isGrouped, group with
  | true, some group => [("register", .table [(group, .array [.table t])])]
  | _, _ => [("register", .array [.table t])]

lemma isBare_of_isWord {name : String} (h : Name.isWord name.toList = true) : IsBare name where
  ne_nil := by
    intro hnil
    rw [hnil] at h
    cases h
  forall_mem := by
    intro c hc
    have hfollowing := Name.isFollowing_of_isWord h c hc
    rw [Name.isFollowing, Bool.or_eq_true] at hfollowing
    rw [isBareKeyChar, Bool.or_eq_true, Bool.or_eq_true]
    exact hfollowing.imp_left .inl

/-- The header of a register has bare parts, and leads to where the register is in the document. -/
lemma exists_header {m : Model} {group : Option String}
    (hgroup : m.isGrouped = true → ∃ name, group = some name ∧ Name.isWord name.toList = true) :
    ∃ parents last, header m group = .ok (String.intercalate "." (parents ++ [last])) ∧
      (∀ part ∈ parents ++ [last], IsBare part) ∧
      ∀ t, document m group t = Table.nest last t parents := by
  cases hgrouped : m.isGrouped with
  | false =>
    refine ⟨[], "register", ?_, by decide, fun t => ?_⟩
    · simp only [header, hgrouped]
      rfl
    · simp only [document, hgrouped]
      rfl
  | true =>
    obtain ⟨name, rfl, hword⟩ := hgroup hgrouped
    refine ⟨["register"], name, ?_, ?_, fun t => ?_⟩
    · simp only [header, hgrouped]
      exact congrArg Except.ok (String.toList_injective (by simp [toString]))
    · exact List.forall_mem_append.mpr ⟨by decide, by simpa using isBare_of_isWord hword⟩
    · simp only [document, hgrouped]
      rfl

/-- A register of an accepted document is written as the text of a document with one register, whose
table is accepted under the same description without diagnostics. It gives back the register with
all its parts, except that empty descriptions become none. -/
theorem render_accepts {root : Table} {m : Model} (h : Model.ofTable root = .ok m)
    (hr : r ∈ m.allRegisters) (htexts : ∀ text ∈ r.descriptions, IsWritableText text)
    {group : Option String}
    (hgroup : m.isGrouped = true → ∃ name, group = some name ∧ Name.isWord name.toList = true) :
    ∃ text t, render m r group = .ok text ∧ readDocument? text = some (document m group t) ∧
      ∀ path, (Register.check m.description path t).Accepts r.withoutEmptyTexts := by
  obtain ⟨path, u, _, haccepts⟩ := Model.exists_accepts_of_ofTable h hr
  obtain ⟨described, hmade⟩ := Register.exists_madeFrom_of_accepts haccepts
  obtain ⟨kind, hgiven, hslot⟩ := Register.exists_given_of_accepts haccepts
  obtain ⟨literal, hlocation, hliteral, hplacement⟩ := exists_locationEntry hgiven
  obtain ⟨parents, last, hheader, hbare, hdocument⟩ := exists_header hgroup
  have hreadable : (located m.description r (kind.key, literal)).IsReadable :=
    isReadable_located hmade hslot hliteral htexts
  refine ⟨(located m.description r (kind.key, literal)).text
    (String.intercalate "." (parents ++ [last])),
    (located m.description r (kind.key, literal)).table, ?_, ?_, ?_⟩
  · rw [render, hheader, ofRegister_of_locationEntry hlocation]
    rfl
  · rw [hdocument]
    exact readDocument?_text hreadable hbare
  · exact Register.check_located hmade hslot hplacement

/-- A document with a group of registers under the extension for split addresses. -/
def splitDocument : Table :=
  [("register_description", .table
     [("name", .text "video"), ("version", .text "0.1"), ("extension", .text "vga"),
      ("default_register_size", .integer 8)]),
   ("register", .table [("attribute", .array [.table
     [("name", .text "mode"), ("description", .text "Mode\n\tcontrol"),
      ("relative_address", .text "0x0?1"), ("index", .integer 16), ("access", .text "rw"),
      ("bit_fields", .array
        [.table [("bit", .text "7:3"), ("reserved", .boolean true)],
         .table [("bit", .text "2:0"), ("name", .text "graphics"), ("description", .text "")]]),
      ("enum", .array [.table
        [("name", .text "kind"), ("bit", .text "2:0"), ("values", .array
          [.table [("value", .integer 1), ("name", .text "graphics")],
           .table [("value", .integer 0), ("name", .text "text")]])]])]])])]

def splitRegister : Register :=
  { name := "mode", access := .readWrite, size := .size8, readLocation := ⟨.relative, 0xc1⟩,
    writeLocation := ⟨.relative, 0xd1⟩,
    bitFields := [.reserved ⟨7, 3, by omega⟩, ⟨⟨2, 0, by omega⟩, some "graphics", some ""⟩],
    enums := [⟨"kind", ⟨2, 0, by omega⟩, [⟨1, "graphics", none⟩, ⟨0, "text", none⟩], none, false⟩],
    description := some "Mode\n\tcontrol", slot := some 16 }

def splitModel : Model :=
  ⟨⟨"video", .version01, none, some .vga, some .size8, none, .size64, none⟩,
    some (.groups [("attribute", [splitRegister])])⟩

/-- A register with two addresses, a slot and descriptions, one of them empty, is read back. -/
theorem render_accepts_splitRegister :
    Model.ofTable splitDocument = .ok splitModel ∧ splitRegister ∈ splitModel.allRegisters ∧
      ∃ text t, render splitModel splitRegister (some "attribute") = .ok text ∧
        readDocument? text = some (document splitModel (some "attribute") t) ∧
        ∀ path, (Register.check splitModel.description path t).Accepts
          splitRegister.withoutEmptyTexts := by
  have hmodel : Model.ofTable splitDocument = .ok splitModel := rfl
  have hmem : splitRegister ∈ splitModel.allRegisters := List.mem_singleton_self _
  have htexts : ∀ text ∈ splitRegister.descriptions, IsWritableText text := by
    have hall : (splitRegister.descriptions.all fun text =>
        text.toList.all fun c => isPlain c || c == '\n') = true := rfl
    simpa [IsWritableText, IsWritable] using hall
  exact ⟨hmodel, hmem, render_accepts hmodel hmem htexts
    fun _ => ⟨"attribute", rfl, by decide⟩⟩

end Fragment

end RegisterMap
