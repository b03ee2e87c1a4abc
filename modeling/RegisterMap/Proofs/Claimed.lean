import RegisterMap.Proofs.Name.Style
import RegisterMap.Proofs.Names
import RegisterMap.Proofs.Naming

/-!
# The look of generated names

A name that a scope hands out is the one that was asked for, perhaps with a number after it. The
names that are asked for put names in `PascalCase` together with words like `Registers`, so that each
name for an accepted document starts with a capital or with an underscore.
-/

namespace RegisterMap.Accessor

/-! ### Numbers after names -/

namespace IsVariant

variable {asked a b name : String}

/-- All that a variant adds to a name is digits. -/
lemma exists_toList (h : IsVariant asked name) :
    ∃ digits, name.toList = asked.toList ++ digits ∧ ∀ d ∈ digits, d.isDigit = true := by
  obtain ⟨n, rfl⟩ := h
  cases n with
  | zero => exact ⟨[], by simp, by simp⟩
  | succ n =>
    refine ⟨(n + 2).repr.toList, by simp, fun d hd => ?_⟩
    rw [Nat.toList_repr] at hd
    exact Nat.isDigit_of_mem_toDigits (by omega) (by omega) hd

/-- A variant that does not end with a digit is the name that was asked for. -/
lemma eq_of_getLast? (h : IsVariant asked name)
    (hlast : name.toList.getLast?.any Char.isDigit = false) : asked = name := by
  obtain ⟨digits, hname, hdigits⟩ := h.exists_toList
  rcases List.eq_nil_or_concat digits with rfl | ⟨init, d, rfl⟩
  · rw [← String.toList_inj, hname, List.append_nil]
  · have hd : d.isDigit = true := hdigits d (by simp)
    simp [hname, hd] at hlast

end IsVariant

/-! ### First characters -/

/-- A name that starts with a capital or with an underscore. -/
def IsCapital (name : String) : Prop := ∃ c ∈ name.toList.head?, c.isUpper = true ∨ c = '_'

namespace IsCapital

variable {a b name : String}

lemma isStart (h : IsCapital a) : a.toList.head?.any Name.isStart = true := by
  obtain ⟨c, hc, hcapital⟩ := h
  rw [Option.mem_def.mp hc, Option.any_some, Name.isStart]
  rcases hcapital with hupper | rfl
  · simp [Char.isAlpha, hupper]
  · rfl

lemma append (h : IsCapital a) (b : String) : IsCapital (a ++ b) := by
  obtain ⟨c, hc, hcapital⟩ := h
  refine ⟨c, ?_, hcapital⟩
  rw [String.toList_append, List.head?_append, Option.mem_def.mp hc, Option.some_or]
  rfl

lemma of_isVariant (h : IsCapital a) (hvariant : IsVariant a name) : IsCapital name := by
  obtain ⟨digits, hname, _⟩ := hvariant.exists_toList
  obtain ⟨c, hc, hcapital⟩ := h
  refine ⟨c, ?_, hcapital⟩
  rw [hname, List.head?_append, Option.mem_def.mp hc, Option.some_or]
  rfl

lemma pascal (h : Name.isIdentifier name = true) : IsCapital (Name.pascal name) := by
  obtain ⟨c, hc, hcapital⟩ := Name.exists_head?_pascal (Name.isStart_head?_of_isIdentifier h)
  exact ⟨c, hc, hcapital.imp And.left And.left⟩

lemma groupWord_append {group : Option String} (h : ∀ text ∈ group, Name.isIdentifier text = true)
    (hb : IsCapital b) : IsCapital (groupWord group ++ b) := by
  cases group with
  | none => simpa [groupWord] using hb
  | some text => exact (pascal (h text rfl)).append b

end IsCapital

/-! ### Accepted documents -/

section Accepted

variable {root : Table} {m : Model} {g : GroupNames} {n : RegisterNames} {f : FieldNames}

lemma isIdentifier_groupName (h : Model.ofTable root = .ok m) (hg : g ∈ nameGroups m) :
    ∀ text ∈ g.name, Name.isIdentifier text = true :=
  (Model.groupNamed_of_ofTable h _ (mem_groups_of_mem_nameGroups hg)).isIdentifier

lemma isIdentifier_registerName (h : Model.ofTable root = .ok m) (hg : g ∈ nameGroups m)
    (hn : n ∈ g.registers) : Name.isIdentifier n.register.name = true := by
  obtain ⟨_, _, _, hmade⟩ :=
    Model.exists_madeFrom_of_ofTable h (mem_allRegisters_of_mem_nameGroups hg hn)
  exact hmade.isIdentifier_name

lemma isIdentifier_fieldName (h : Model.ofTable root = .ok m) (hg : g ∈ nameGroups m)
    (hn : n ∈ g.registers) (hf : f ∈ n.fields) : Name.isIdentifier f.name = true := by
  obtain ⟨_, _, _, hmade⟩ :=
    Model.exists_madeFrom_of_ofTable h (mem_allRegisters_of_mem_nameGroups hg hn)
  have hnamed := (named_of_mem_nameGroups hg).registers_named n hn
  obtain ⟨hfield, hname⟩ := mem_namedFields_iff.mp (hnamed.mem_namedFields hf)
  exact hmade.isIdentifier_fieldName hfield hname

lemma isCapital_accessor (h : Model.ofTable root = .ok m) (hg : g ∈ nameGroups m)
    (hn : n ∈ g.registers) : IsCapital n.accessor := by
  have hasked := (IsCapital.pascal (isIdentifier_registerName h hg hn))
  exact (IsCapital.groupWord_append (isIdentifier_groupName h hg) hasked).of_isVariant
    ((named_of_mem_nameGroups hg).registers_named n hn).accessor_isVariant

/-- Every name for an accepted document starts with a capital or with an underscore. -/
lemma isCapital_of_mem_claimed (h : Model.ofTable root = .ok m) (hg : g ∈ nameGroups m)
    {name : String} (hname : name ∈ g.claimed) : IsCapital name := by
  have hgroup := named_of_mem_nameGroups hg
  have hword {b : String} := IsCapital.groupWord_append (b := b) (isIdentifier_groupName h hg)
  have hfixed : IsCapital "Group" ∧ IsCapital "DefaultGroup" ∧ IsCapital "Registers" := by
    simp [IsCapital]
  simp only [GroupNames.claimed, List.mem_append, List.mem_cons, List.not_mem_nil, or_false,
    List.mem_flatMap, RegisterNames.claimed, FieldNames.claimed] at hname
  rcases hname with (rfl | rfl) | ⟨n, hn, (rfl | rfl | rfl | rfl) | ⟨f, hf, rfl | rfl | rfl⟩⟩
  · refine IsCapital.of_isVariant ?_ hgroup.marker_isVariant
    split_ifs
    · exact hword hfixed.1
    · exact hfixed.2.1
  · exact (hword hfixed.2.2).of_isVariant hgroup.container_isVariant
  · exact isCapital_accessor h hg hn
  all_goals
    have haccessor := isCapital_accessor h hg hn
    have hregister := hgroup.registers_named n hn
  · exact (haccessor.append _).of_isVariant hregister.readClass_isVariant
  · exact (haccessor.append _).of_isVariant hregister.writeClass_isVariant
  · exact (haccessor.append _).of_isVariant hregister.ioClass_isVariant
  · refine IsCapital.of_isVariant ?_ (hregister.fields_named f hf).constant_isVariant
    exact ⟨'_', by simp [toString], .inr rfl⟩
  · refine IsCapital.of_isVariant ?_ (hregister.fields_named f hf).readClass_isVariant
    split_ifs
    · exact haccessor.append _
    · exact (haccessor.append _).append _
  · exact ((haccessor.append _).append _).of_isVariant
      (hregister.fields_named f hf).writeClass_isVariant

end Accepted

/-! ### A register with given names -/

/-- A document with one register of one bit field. -/
def plainDocument (register field : String) : Table :=
  [("register_description", .table [("name", .text "chip"), ("version", .text "0.1")]),
   ("register", .array [.table
     [("name", .text register), ("absolute_address", .integer 0), ("size", .integer 8),
      ("access", .text "rw"),
      ("bit_fields", .array [.table [("bit", .text "7:0"), ("name", .text field)]])]])]

def plainRegister (register field : String) : Register :=
  { name := register, access := .readWrite, size := .size8, readLocation := ⟨.absolute, 0⟩,
    writeLocation := ⟨.absolute, 0⟩, bitFields := [⟨⟨7, 0, by omega⟩, some field, none⟩],
    enums := [], description := none, slot := none }

def plainModel (register field : String) : Model :=
  ⟨⟨"chip", .version01, none, none, none, none, .size64, none⟩,
    some (.list [plainRegister register field])⟩

end RegisterMap.Accessor
