import RegisterMap.Proofs.Docstring
import RegisterMap.Proofs.Emission

/-!
# When a module is generated

The module for an accepted document is generated unless the description of an enumeration or of a
named value consists of blanks and becomes a documentation string: that of an enumeration in a read
class, that of a value in a setter. All other documentation has a text of its own in it.
-/

namespace RegisterMap.Accessor

open Docstring

variable {α β ε : Type}

/-! ### Success -/

/-- A computation that has a result. -/
def Succeeds (x : Except ε α) : Prop := ∃ a, x = .ok a

namespace Succeeds

lemma ok (a : α) : Succeeds (.ok a : Except ε α) := ⟨a, rfl⟩

lemma not_error (e : ε) : ¬Succeeds (.error e : Except ε α) := by
  rintro ⟨a, h⟩
  cases h

@[simp] lemma map_iff {x : Except ε α} {f : α → β} : Succeeds (f <$> x) ↔ Succeeds x := by
  cases x with
  | error e => exact iff_of_false (not_error e) (not_error e)
  | ok a => exact iff_of_true (ok (f a)) (ok a)

/-- What follows a result may depend on it, but here whether that succeeds does not. -/
lemma bind_iff {x : Except ε α} {f : α → Except ε β} {p : Prop} (hf : ∀ a, Succeeds (f a) ↔ p) :
    Succeeds (x >>= f) ↔ Succeeds x ∧ p := by
  cases x with
  | error e => exact iff_of_false (not_error e) fun h => not_error e h.1
  | ok a => exact (hf a).trans (and_iff_right (ok a)).symm

lemma bind_iff_left {x : Except ε α} {f : α → Except ε β} (hf : ∀ a, Succeeds (f a)) :
    Succeeds (x >>= f) ↔ Succeeds x :=
  (bind_iff fun a => iff_of_true (hf a) trivial).trans (and_iff_left trivial)

lemma bind_pure_iff {x : Except ε α} {f : α → β} :
    Succeeds (x >>= fun a => pure (f a)) ↔ Succeeds x :=
  bind_iff_left fun a => ok (f a)

lemma mapM_iff {f : α → Except ε β} {as : List α} :
    Succeeds (as.mapM f) ↔ ∀ a ∈ as, Succeeds (f a) := by
  induction as with
  | nil => exact iff_of_true (ok []) (by simp)
  | cons a as ih =>
    rw [List.mapM_cons, List.forall_mem_cons, ← ih]
    exact bind_iff fun b => bind_pure_iff

end Succeeds

lemma succeeds_docstring_iff {text : String} : Succeeds (docstring text) ↔ ¬IsBlank text :=
  exists_docstring_iff

/-! ### Texts that are not blank -/

lemma succeeds_docstring_of_mem {text : String} {c : Char} (hc : c ∈ text.toList)
    (h : Text.isBlank c = false) : Succeeds (docstring text) :=
  succeeds_docstring_iff.mpr (not_isBlank_of_mem hc h)

lemma succeeds_rangeDoc (f : FieldNames) : Succeeds (docstring f.rangeDoc) := by
  refine succeeds_docstring_of_mem (c := 'B') ?_ (by decide)
  unfold FieldNames.rangeDoc
  dsimp only
  split <;> split_ifs <;> simp [toString]

/-! ### Classes of bit fields -/

section Fields

variable {r : RegisterNames} {f : FieldNames}

/-- A description that becomes a documentation string is replaced if it is missing or empty, but not
if it is blank. -/
def IsBlankDescription (description : Option String) : Prop := ∃ text ∈ description, IsBlank text

instance (description : Option String) : Decidable (IsBlankDescription description) :=
  inferInstanceAs (Decidable (∃ text ∈ description, IsBlank text))

lemma succeeds_description_iff {description : Option String} {other : String}
    (hother : Succeeds (docstring other)) :
    Succeeds (docstring ((descriptionText? description).getD other)) ↔
      ¬IsBlankDescription description := by
  cases description with
  | none => exact iff_of_true hother (by simp [IsBlankDescription])
  | some text =>
    by_cases hempty : text = ""
    · subst hempty
      exact iff_of_true hother (by simp [IsBlankDescription, not_isBlank_empty])
    · have hsome : descriptionText? (some text) = some text :=
        Option.filter_eq_some_iff.mpr ⟨rfl, by simpa using hempty⟩
      rw [hsome, Option.getD_some, succeeds_docstring_iff]
      simp [IsBlankDescription]

lemma succeeds_closedClass_iff {e : RegisterEnum} {maxValue : Nat}
    (hmax : f.field.range.maxValue = .ok maxValue) (hall : definesAll e maxValue = true) :
    Succeeds (closedClass r f e) ↔ ¬IsBlankDescription e.description := by
  have hbound : f.field.range.maxValue.mapError Error.range = pure maxValue := by
    rw [hmax]
    rfl
  have hother : Succeeds (docstring s!"Values of bit field {f.name}.") :=
    succeeds_docstring_of_mem (c := 'V') (by simp [toString]) (by decide)
  unfold closedClass
  simp only [hbound, pure_bind, hall, Bool.not_true, Bool.false_eq_true, if_false]
  exact Succeeds.bind_pure_iff.trans (succeeds_description_iff hother)

lemma succeeds_openClass_iff :
    Succeeds (openClass f) ↔ ¬IsBlankDescription (f.enum?.bind (·.description)) := by
  have hother : Succeeds (docstring s!"Value of bit field {f.name}.") :=
    succeeds_docstring_of_mem (c := 'V') (by simp [toString]) (by decide)
  unfold openClass
  exact Succeeds.bind_pure_iff.trans (succeeds_description_iff hother)

lemma succeeds_setter_iff {v : EnumValue} :
    Succeeds (setter r v) ↔ ¬IsBlankDescription v.description := by
  unfold setter
  refine Succeeds.bind_pure_iff.trans (succeeds_docstring_iff.trans (not_congr ?_))
  cases v.description with
  | none => simp [IsBlankDescription, not_isBlank_empty]
  | some text => simp [IsBlankDescription]

lemma succeeds_writeProxy_iff :
    Succeeds (writeProxy r f) ↔ ∀ v ∈ f.values, ¬IsBlankDescription v.description := by
  unfold writeProxy
  refine (Succeeds.bind_iff fun doc => Succeeds.bind_pure_iff).trans ?_
  rw [and_iff_right (succeeds_rangeDoc f), Succeeds.mapM_iff]
  exact forall₂_congr fun v hv => succeeds_setter_iff

end Fields

/-! ### Classes of registers -/

section Registers

variable {n : RegisterNames} {g : GroupNames}

lemma succeeds_readClass?_iff {f : FieldNames}
    (hcomplete : ∀ e, f.enum? = some e → e.isComplete = true →
      ∃ maxValue, f.field.range.maxValue = .ok maxValue ∧ definesAll e maxValue = true) :
    Succeeds (readClass? n f) ↔
      ∀ e ∈ f.enum?, e.isComplete = true ∨ n.register.isReadable = true →
        ¬IsBlankDescription e.description := by
  unfold readClass?
  split
  next e he =>
    split_ifs with hclosed hread
    · obtain ⟨maxValue, hmax, hall⟩ := hcomplete e he hclosed
      rw [Succeeds.map_iff, succeeds_closedClass_iff hmax hall]
      simp [he, hclosed]
    · rw [Succeeds.map_iff, succeeds_openClass_iff]
      simp [he, hread]
    · exact iff_of_true (.ok none) (by simp [he, hclosed, hread])
  next he =>
    refine iff_of_true ?_ (by simp [he])
    split_ifs
    · rw [Succeeds.map_iff, succeeds_openClass_iff]
      simp [he, IsBlankDescription]
    · exact .ok none

lemma succeeds_fieldMethods (result body : FieldNames → String) :
    Succeeds (fieldMethods n result body) := by
  unfold fieldMethods
  refine Succeeds.mapM_iff.mpr fun f _ => ?_
  exact Succeeds.bind_pure_iff.mpr (succeeds_rangeDoc f)

lemma succeeds_readValue : Succeeds (readValue n) := by
  have hdoc : Succeeds (docstring s!"Value read from register {n.register.name}.") :=
    succeeds_docstring_of_mem (c := 'V') (by simp [toString]) (by decide)
  unfold readValue
  refine (Succeeds.bind_iff fun doc => Succeeds.bind_pure_iff).mpr ⟨hdoc, ?_⟩
  exact succeeds_fieldMethods _ _

lemma succeeds_writeValue : Succeeds (writeValue n) := by
  have hdoc : Succeeds (docstring s!"Value written to register {n.register.name}.") :=
    succeeds_docstring_of_mem (c := 'V') (by simp [toString]) (by decide)
  unfold writeValue
  refine (Succeeds.bind_iff fun doc => Succeeds.bind_pure_iff).mpr ⟨hdoc, ?_⟩
  exact succeeds_fieldMethods _ _

lemma succeeds_accessorClass : Succeeds (accessorClass n) := by
  have hwriting (name start : String) {summary : String} {c : Char} (hc : c ∈ summary.toList)
      (h : Text.isBlank c = false) : Succeeds (writing n name summary start) :=
    Succeeds.bind_pure_iff.mpr (succeeds_docstring_of_mem hc h)
  unfold accessorClass
  refine (Succeeds.bind_iff fun doc => Succeeds.bind_iff fun write => Succeeds.bind_pure_iff).mpr
    ⟨?_, ?_, ?_⟩
  · exact succeeds_docstring_of_mem (c := 'A') (by simp [toString]) (by decide)
  · exact hwriting _ _ (c := 'W') (by simp) (by decide)
  · exact hwriting _ _ (c := 'R') (by simp) (by decide)

lemma succeeds_readItems_iff :
    Succeeds (readItems n) ↔ ∀ f ∈ n.fields, Succeeds (readClass? n f) := by
  rw [← Succeeds.mapM_iff]
  unfold readItems
  refine Succeeds.bind_iff_left fun fields => ?_
  dsimp only
  split_ifs
  · exact Succeeds.bind_pure_iff.mpr (Succeeds.map_iff.mpr succeeds_readValue)
  · exact .ok _

lemma succeeds_writeItems_iff :
    Succeeds (writeItems n) ↔
      (n.hasWriteValue = true → ∀ f ∈ n.fields, ∀ v ∈ f.values,
        ¬IsBlankDescription v.description) := by
  unfold writeItems
  split_ifs with h
  · rw [Succeeds.bind_iff fun proxies => Succeeds.bind_pure_iff, and_iff_left succeeds_writeValue,
      Succeeds.mapM_iff, forall_prop_of_true h]
    exact forall₂_congr fun f hf => succeeds_writeProxy_iff
  · exact iff_of_true (.ok []) fun h' => absurd h' h

lemma succeeds_registerItems_iff :
    Succeeds (registerItems n) ↔ Succeeds (readItems n) ∧ Succeeds (writeItems n) := by
  have hio : Succeeds (ioProtocol n) :=
    Succeeds.bind_pure_iff.mpr
      (succeeds_docstring_of_mem (c := 'B') (by simp [toString]) (by decide))
  unfold registerItems
  refine Succeeds.bind_iff fun reading => Succeeds.bind_iff_left fun writing => ?_
  exact (Succeeds.bind_iff fun io => Succeeds.bind_pure_iff).mpr ⟨hio, succeeds_accessorClass⟩

lemma succeeds_groupItems_iff :
    Succeeds (groupItems g) ↔ ∀ n ∈ g.registers, Succeeds (registerItems n) := by
  have hmarker : Succeeds (markerClass g) :=
    Succeeds.bind_pure_iff.mpr
      (succeeds_docstring_of_mem (c := 'M') (by simp [toString]) (by decide))
  have hcontainer : Succeeds (containerClass g) :=
    (Succeeds.bind_iff fun doc => Succeeds.bind_pure_iff).mpr
      ⟨succeeds_docstring_of_mem (c := 'A') (by simp [toString]) (by decide),
        succeeds_docstring_of_mem (c := 'R') (by simp) (by decide)⟩
  unfold groupItems
  rw [Succeeds.bind_iff fun marker => Succeeds.bind_iff fun parts => Succeeds.bind_pure_iff,
    and_iff_right hmarker, and_iff_left hcontainer, Succeeds.mapM_iff]

lemma succeeds_generate_iff {m : Model} (moduleName : String) :
    Succeeds (generate m moduleName) ↔
      ∀ g ∈ nameGroups m, ∀ n ∈ g.registers, Succeeds (registerItems n) := by
  have hhead : Succeeds (headCode m.description moduleName) := by
    refine Succeeds.bind_pure_iff.mpr (succeeds_docstring_of_mem (c := ':') ?_ (by decide))
    unfold moduleSummary
    dsimp only
    split <;> simp [toString]
  unfold generate
  rw [Succeeds.bind_iff fun head => Succeeds.bind_pure_iff, and_iff_right hhead]
  unfold modelItems
  rw [Succeeds.bind_pure_iff, Succeeds.mapM_iff]
  exact forall₂_congr fun g hg => succeeds_groupItems_iff

end Registers

/-! ### Accepted documents -/

section Accepted

variable {root : Table} {m : Model} {n : RegisterNames}

lemma enumFor?_eq_some {r : Register} (hfit : r.EnumsFit) {e : RegisterEnum} (he : e ∈ r.enums)
    {f : BitField} (hrange : f.range = e.range) : r.enumFor? f = some e := by
  have hdistinct : (r.enums.map (·.range)).Nodup := by
    rw [List.Nodup, List.pairwise_map]
    exact hfit.ranges_distinct
  obtain ⟨found, hfound⟩ : ∃ found, r.enumFor? f = some found := by
    rw [← Option.isSome_iff_exists, Register.enumFor?, List.find?_isSome]
    exact ⟨e, he, by simp [hrange]⟩
  have hmem : found ∈ r.enums := List.mem_of_find?_eq_some hfound
  have hsame : found.range = f.range := by simpa using List.find?_some hfound
  rw [hfound, List.inj_on_of_nodup_map hdistinct hmem he (hsame.trans hrange)]

/-- The enumerations of a register are those of its bit fields with names. -/
lemma forall_enum_iff {groupClass word : String} (hnamed : n.NamedFor groupClass word)
    (hfit : n.register.EnumsFit) {p : RegisterEnum → Prop} :
    (∀ f ∈ n.fields, ∀ e ∈ f.enum?, p e) ↔ ∀ e ∈ n.register.enums, p e := by
  constructor
  · intro h e he
    -- The bit field over the range of an enumeration is not reserved, so it has a name and classes.
    obtain ⟨i, hrange, _⟩ := hfit.existsUnique_field e he
    have hfield : n.register.bitFields[i] ∈ n.register.bitFields := List.getElem_mem _
    have hnormal := hfit.not_reserved e he _ hfield hrange
    obtain ⟨name, hname⟩ : ∃ name, n.register.bitFields[i].name = some name :=
      Option.isSome_iff_exists.mp (by simpa [BitField.isReserved] using hnormal)
    have hmem : (name, n.register.bitFields[i]) ∈ n.register.namedFields :=
      mem_namedFields_iff.mpr ⟨hfield, hname⟩
    obtain ⟨f, hf, heq⟩ := hnamed.exists_of_mem_namedFields hmem
    refine h f hf e ?_
    rw [(hnamed.fields_named f hf).enum_eq, heq]
    exact enumFor?_eq_some hfit he hrange
  · intro h f hf e he
    rw [(hnamed.fields_named f hf).enum_eq] at he
    exact h e (List.mem_of_find?_eq_some he)

lemma succeeds_registerItems_iff_of_ofTable (h : Model.ofTable root = .ok m) {g : GroupNames}
    (hg : g ∈ nameGroups m) (hn : n ∈ g.registers) :
    Succeeds (registerItems n) ↔ ∀ e ∈ n.register.enums,
      (e.isComplete = true ∨ n.register.isReadable = true → ¬IsBlankDescription e.description) ∧
      (n.hasWriteValue = true → ∀ v ∈ e.values, ¬IsBlankDescription v.description) := by
  have hnamed := (named_of_mem_nameGroups hg).registers_named n hn
  obtain ⟨_, _, _, hmade⟩ :=
    Model.exists_madeFrom_of_ofTable h (mem_allRegisters_of_mem_nameGroups hg hn)
  have hread : (∀ f ∈ n.fields, Succeeds (readClass? n f)) ↔ ∀ f ∈ n.fields, ∀ e ∈ f.enum?,
      e.isComplete = true ∨ n.register.isReadable = true → ¬IsBlankDescription e.description :=
    forall₂_congr fun f hf => succeeds_readClass?_iff fun e he hcomplete =>
      exists_definesAll_of_ofTable h hg hn hf he hcomplete
  have hwrite : (∀ f ∈ n.fields, ∀ v ∈ f.values, ¬IsBlankDescription v.description) ↔
      ∀ f ∈ n.fields, ∀ e ∈ f.enum?, ∀ v ∈ e.values, ¬IsBlankDescription v.description := by
    refine forall₂_congr fun f hf => ?_
    cases henum : f.enum? <;> simp [FieldNames.values, henum]
  rw [succeeds_registerItems_iff, succeeds_readItems_iff, succeeds_writeItems_iff, hread, hwrite,
    forall_enum_iff hnamed hmade.enumsFit, forall_enum_iff hnamed hmade.enumsFit]
  constructor
  · rintro ⟨hdescription, hvalues⟩ e he
    exact ⟨hdescription e he, fun hvalue => hvalues hvalue e he⟩
  · intro hdocumented
    exact ⟨fun e he => (hdocumented e he).1, fun hvalue e he => (hdocumented e he).2 hvalue⟩

lemma hasWriteValue_iff : n.hasWriteValue = true ↔
    n.register.isWritable = true ∧
      (n.register.isReadable = true ∨ n.register.hasReserved = false) := by
  simp only [RegisterNames.hasWriteValue, RegisterNames.hasWrite, RegisterNames.hasModify,
    Bool.or_eq_true, Bool.and_eq_true, Bool.not_eq_true']
  tauto

/-- The module for an accepted document is generated, whatever its name, exactly if no description
that becomes a documentation string of its own consists of blanks: neither that of an enumeration
with a read class nor that of a named value with a setter. -/
theorem generate_succeeds_iff_of_ofTable (h : Model.ofTable root = .ok m) (moduleName : String) :
    (∃ text, generate m moduleName = .ok text) ↔
      ∀ r ∈ m.allRegisters, ∀ e ∈ r.enums,
        (e.isComplete = true ∨ r.isReadable = true → ¬IsBlankDescription e.description) ∧
        (r.isWritable = true ∧ (r.isReadable = true ∨ r.hasReserved = false) →
          ∀ v ∈ e.values, ¬IsBlankDescription v.description) := by
  refine (succeeds_generate_iff moduleName).trans ⟨?_, ?_⟩
  · intro hitems r hr
    obtain ⟨g, hg, n, hn, rfl⟩ := exists_of_mem_allRegisters hr
    rw [← hasWriteValue_iff]
    exact (succeeds_registerItems_iff_of_ofTable h hg hn).mp (hitems g hg n hn)
  · intro hdocumented g hg n hn
    refine (succeeds_registerItems_iff_of_ofTable h hg hn).mpr ?_
    rw [hasWriteValue_iff]
    exact hdocumented n.register (mem_allRegisters_of_mem_nameGroups hg hn)

/-- Nothing in the small document is blank. -/
theorem generate_succeeds_smallModel :
    Model.ofTable Model.smallDocument = .ok Model.smallModel ∧
      ∃ text, generate Model.smallModel "chip" = .ok text := by
  refine ⟨Model.ofTable_smallDocument, ?_⟩
  rw [generate_succeeds_iff_of_ofTable Model.ofTable_smallDocument]
  decide

/-- The small document with a blank as the description of its enumeration. -/
def blankDocument : Table :=
  [("register_description", .table [("name", .text "chip"), ("version", .text "0.1")]),
   ("register", .array [.table
     [("name", .text "status"), ("absolute_address", .integer 0), ("size", .integer 8),
      ("access", .text "r"),
      ("bit_fields", .array
        [.table [("bit", .text "7:1"), ("reserved", .boolean true)],
         .table [("bit", .text "0"), ("name", .text "ready")]]),
      ("enum", .array [.table
        [("name", .text "state"), ("bit", .text "0"), ("description", .text " "),
         ("values", .array
          [.table [("value", .integer 1), ("name", .text "on")],
           .table [("value", .integer 0), ("name", .text "off")]])]])]])]

def blankEnum : RegisterEnum :=
  ⟨"state", .single 0, [⟨1, "on", none⟩, ⟨0, "off", none⟩], some " ", true⟩

def blankModel : Model :=
  ⟨Model.smallModel.description,
    some (.list [{ Model.smallRegister with enums := [blankEnum] }])⟩

lemma ofTable_blankDocument : Model.ofTable blankDocument = .ok blankModel := rfl

/-- A document is accepted with a description of blanks, and then no module is generated for it. -/
theorem generate_fails_blankModel :
    Model.ofTable blankDocument = .ok blankModel ∧
      generate blankModel "chip" = .error .blankDocstring := by
  refine ⟨ofTable_blankDocument, ?_⟩
  have hfails : ¬Succeeds (generate blankModel "chip") := by
    intro hsucceeds
    obtain ⟨g, hg, n, hn, hregister⟩ := exists_of_mem_allRegisters (m := blankModel)
      (r := { Model.smallRegister with enums := [blankEnum] }) (by decide)
    have hitems := (succeeds_generate_iff "chip").mp hsucceeds g hg n hn
    rw [succeeds_registerItems_iff_of_ofTable ofTable_blankDocument hg hn, hregister] at hitems
    exact (hitems blankEnum (List.mem_singleton_self _)).1 (.inl rfl) (by decide)
  have honly : FailsBlankOnly (generate blankModel "chip") :=
    failsBlankOnly_generate "chip" fun g hg n hn f hf =>
      failsBlankOnly_readClass?_of_ofTable ofTable_blankDocument hg hn hf
  cases hresult : generate blankModel "chip" with
  | ok text => exact absurd ⟨text, hresult⟩ hfails
  | error e => rw [honly e hresult]

end Accepted

end RegisterMap.Accessor
