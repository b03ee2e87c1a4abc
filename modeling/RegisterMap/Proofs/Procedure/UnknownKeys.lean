import RegisterMap.Proofs.Procedure.Document

/-!
# Keys that are not asked for

The checks of a table look up the keys that the table may have and no others. So a key beyond these
changes nothing of what is made of the table; it is reported, once, between what is reported anyway.
-/

namespace RegisterMap

variable {α β : Type}

/-! ### One element more -/

/-- The second list is the first one with one element more, at any place. -/
def Inserted (a : α) (xs ys : List α) : Prop :=
  ∃ front back, xs = front ++ back ∧ ys = front ++ a :: back

namespace Inserted

variable {a : α} {xs ys : List α}

lemma append_left (h : Inserted a xs ys) (zs : List α) : Inserted a (zs ++ xs) (zs ++ ys) := by
  obtain ⟨front, back, rfl, rfl⟩ := h
  exact ⟨zs ++ front, back, by simp, by simp⟩

lemma append_right (h : Inserted a xs ys) (zs : List α) : Inserted a (xs ++ zs) (ys ++ zs) := by
  obtain ⟨front, back, rfl, rfl⟩ := h
  exact ⟨front, back ++ zs, by simp, by simp⟩

lemma map (h : Inserted a xs ys) (f : α → β) : Inserted (f a) (xs.map f) (ys.map f) := by
  obtain ⟨front, back, rfl, rfl⟩ := h
  exact ⟨front.map f, back.map f, by simp, by simp⟩

lemma filter (h : Inserted a xs ys) {p : α → Bool} (ha : p a = true) :
    Inserted a (xs.filter p) (ys.filter p) := by
  obtain ⟨front, back, rfl, rfl⟩ := h
  exact ⟨front.filter p, back.filter p, by simp, by simp [ha]⟩

end Inserted

/-! ### Tables that agree on their keys -/

/-- Tables in which each of some keys has the same value, or none in either. -/
def Table.AgreeOn (keys : List String) (t t' : Table) : Prop :=
  ∀ key ∈ keys, t'.get? key = t.get? key

/-- A key that is added is no other key. -/
lemma Inserted.agreeOn {key : String} {value : Value} {t t' : Table}
    (h : Inserted (key, value) t t') {keys : List String} (hkey : key ∉ keys) :
    t.AgreeOn keys t' := by
  obtain ⟨front, back, rfl, rfl⟩ := h
  intro k hk
  have hne : (k == key) = false := beq_eq_false_iff_ne.mpr (ne_of_mem_of_not_mem hk hkey)
  simp only [Table.get?, List.lookup_append, List.lookup_cons, hne]

/-- A key that is added is reported if it is not allowed. -/
lemma Inserted.unknownKeyProblems {key : String} {value : Value} {t t' : Table}
    (h : Inserted (key, value) t t') {allowed : List String} (hkey : key ∉ allowed)
    (kind : TableKind) (path : Path) :
    Inserted (.unknownKey kind path key) (t.unknownKeyProblems kind path allowed)
      (t'.unknownKeyProblems kind path allowed) :=
  ((h.map Prod.fst).filter (by simpa using hkey)).map _

namespace Table.AgreeOn

variable {keys : List String} {t t' : Table} (h : t.AgreeOn keys t') {key : String}
  (hkey : key ∈ keys)

include h hkey

lemma value : t'.value key = t.value key := by
  rw [Table.value, Table.value, h key hkey]

lemma has : t'.has key = t.has key := by
  rw [Table.has, Table.has, h key hkey]

lemma typed (wanted : String) (take : Value → Option α) :
    t'.typed key wanted take = t.typed key wanted take := by
  rw [Table.typed, Table.typed, h.value hkey]

lemma text : t'.text key = t.text key := h.typed hkey _ _

lemma boolean : t'.boolean key = t.boolean key := h.typed hkey _ _

lemma unsigned (maximum : Int) : t'.unsigned key maximum = t.unsigned key maximum :=
  congrArg (Reading.bind · _) (h.typed hkey _ _)

lemma tables : t'.tables key = t.tables key := congrArg (Reading.bind · _) (h.typed hkey _ _)

lemma name : t'.name key = t.name key := congrArg (Reading.bind · _) (h.text hkey)

lemma converted (f : Value → Except ConversionError α) : t'.converted key f = t.converted key f :=
  congrArg (Reading.convert · f) (h.value hkey)

lemma convertedText (f : String → Except ConversionError α) :
    t'.convertedText key f = t.convertedText key f := congrArg (Reading.convert · f) (h.text hkey)

end Table.AgreeOn

/-! ### Bit fields and registers that agree on their keys -/

section Agreement

variable {d : Description} {t t' : Table}

lemma BitField.checkFit_congr (h : t.AgreeOn BitField.keys t') (path : Path) (range : BitRange)
    (isReserved : Bool) (name description : Option String) :
    checkFit path t' range isReserved name description =
      checkFit path t range isReserved name description := by
  have hproblems : reservedProblems path t' = reservedProblems path t := by
    refine congrArg (List.map _) (List.filter_congr fun key hkey => h.has ?_)
    exact (show keysOfNamed ⊆ keys by decide) hkey
  simp only [checkFit, hproblems]

variable (h : t.AgreeOn Register.keys t')

include h

namespace Placement

lemma kinds_congr : kinds t' = kinds t := by
  refine List.filter_congr fun kind _ => h.has ?_
  cases kind <;> decide

lemma hasSlot_congr : hasSlot d t' = hasSlot d t := by
  rw [hasSlot, hasSlot, kinds_congr h, h.has (by decide)]

lemma slot_congr : slot d t' = slot d t := by
  rw [slot, slot, hasSlot_congr h, h.unsigned (by decide)]

lemma locatingKinds_congr : locatingKinds d t' = locatingKinds d t := by
  rw [locatingKinds, locatingKinds, hasSlot_congr h, kinds_congr h]

lemma ofKey_congr (kind : LocationKind) : ofKey d t' kind = ofKey d t kind := by
  have hkey : kind.key ∈ Register.keys := by cases kind <;> decide
  have haddress : ofAddress d t' kind = ofAddress d t kind := by
    rw [ofAddress, ofAddress, h kind.key hkey, h.unsigned hkey]
  cases kind with
  | index => rw [ofKey, ofKey, h.unsigned hkey]
  | relative => exact haddress
  | absolute => exact haddress

end Placement

lemma Register.checkNamed_congr (path : Path) (name : String) :
    checkNamed d path t' name = checkNamed d path t name := by
  have hdescription : t'.text "description" = t.text "description" := h.text (by decide)
  have hlocated (kind : LocationKind) :
      checkLocated d path t' name kind = checkLocated d path t name kind := by
    simp only [checkLocated, hdescription, Placement.slot_congr h, Placement.ofKey_congr h,
      h.converted (show "size" ∈ keys by decide), h.convertedText (show "access" ∈ keys by decide),
      h.tables (show "bit_fields" ∈ keys by decide), h.tables (show "enum" ∈ keys by decide)]
  rw [checkNamed, checkNamed, Placement.locatingKinds_congr h, hdescription, Placement.slot_congr h]
  simp only [hlocated]

end Agreement

/-! ### Checks of tables with one key more -/

/-- The second check comes to the same as the first one, with one diagnostic more. -/
structure Checked.OneMore (d : Diagnostic) (c c' : Checked α) : Prop where
  outcome_eq : c'.outcome = c.outcome
  inserted : Inserted d c.report.diagnostics c'.report.diagnostics

section Checks

variable {key : String} {value : Value} {t t' : Table} (h : Inserted (key, value) t t')
  (path : Path)

include h

lemma EnumValue.check_oneMore (hkey : key ∉ EnumValue.keys) :
    (EnumValue.check path t).OneMore (.unknownKey .enumValue
        (path.enter ((t.name "name").value?.map fun name => s!"enum value '{name}'")) key)
      (EnumValue.check path t') := by
  have hagree := h.agreeOn hkey
  have hname := hagree.name (show "name" ∈ keys by decide)
  have hvalue := hagree.unsigned (show "value" ∈ keys by decide) Table.maxUnsigned
  have hdescription := hagree.text (show "description" ∈ keys by decide)
  constructor
  · simp only [check, hname, hvalue, hdescription]
  · simp only [check, hname, hvalue, hdescription, Report.diagnostics_ofDiagnostics,
      List.append_assoc]
    exact ((h.unknownKeyProblems hkey _ _).append_right _).append_left _

lemma RegisterEnum.check_oneMore (hkey : key ∉ RegisterEnum.keys) :
    (RegisterEnum.check path t).OneMore (.unknownKey .enumeration
        (path.enter ((t.name "name").value?.map fun name => s!"enum '{name}'")) key)
      (RegisterEnum.check path t') := by
  have hagree := h.agreeOn hkey
  have hname := hagree.name (show "name" ∈ keys by decide)
  have hrange := hagree.convertedText (show "bit" ∈ keys by decide) Conversion.bitRange
  have hdescription := hagree.text (show "description" ∈ keys by decide)
  have hvalues := hagree.tables (show "values" ∈ keys by decide)
  constructor
  · simp only [check, hname, hrange, hdescription, hvalues]
  · simp only [check, hname, hrange, hdescription, hvalues, Report.diagnostics_append,
      Report.diagnostics_ofDiagnostics, List.append_assoc]
    exact ((h.unknownKeyProblems hkey _ _).append_right _).append_left _

lemma BitField.check_oneMore (hkey : key ∉ BitField.keys) :
    (BitField.check path t).OneMore (.unknownKey .bitField (path.enter
        ((t.convertedText "bit" Conversion.bitRange).value?.map fun range =>
          s!"bit field with range '{range}'")) key)
      (BitField.check path t') := by
  have hagree := h.agreeOn hkey
  have hrange := hagree.convertedText (show "bit" ∈ keys by decide) Conversion.bitRange
  have hreserved := hagree.boolean (show "reserved" ∈ keys by decide)
  have hname := hagree.name (show "name" ∈ keys by decide)
  have hdescription := hagree.text (show "description" ∈ keys by decide)
  simp only [check, hrange, hreserved, hname, hdescription, checkFit_congr hagree]
  -- Whether the table is usable, and what comes of it then, does not depend on the key.
  split
  all_goals
    refine ⟨rfl, ?_⟩
    simp only [Report.diagnostics_append, Report.diagnostics_ofDiagnostics, List.append_assoc]
    exact ((h.unknownKeyProblems hkey _ _).append_right _).append_left _

lemma Register.check_oneMore (d : Description) (hkey : key ∉ Register.keys) :
    (Register.check d path t).OneMore (.unknownKey .register
        (path.enter ((t.name "name").value?.map fun name => s!"register '{name}'")) key)
      (Register.check d path t') := by
  have hagree := h.agreeOn hkey
  have hname := hagree.name (show "name" ∈ keys by decide)
  simp only [check, hname, checkNamed_congr hagree]
  split
  · refine ⟨rfl, ?_⟩
    simp only [Report.diagnostics_ofDiagnostics]
    exact (h.unknownKeyProblems hkey _ _).append_left _
  · refine ⟨rfl, ?_⟩
    simp only [Report.diagnostics_append, Report.diagnostics_ofDiagnostics]
    exact ((h.unknownKeyProblems hkey _ _).append_left _).append_right _

lemma Description.check_oneMore (hkey : key ∉ Description.keys) :
    (Description.check path t).OneMore (.unknownKey .root path key)
      (Description.check path t') := by
  have hagree := h.agreeOn hkey
  have hname := hagree.name (show "name" ∈ keys by decide)
  have hversion := hagree.convertedText (show "version" ∈ keys by decide) Conversion.version
  have hdescription := hagree.text (show "description" ∈ keys by decide)
  have hextension := hagree.convertedText (show "extension" ∈ keys by decide) Conversion.extension
  have hsize := hagree.converted (show "default_register_size" ∈ keys by decide) Conversion.size
  have haccess := hagree.convertedText (show "default_register_access" ∈ keys by decide)
    Conversion.access
  have hindexSize := hagree.converted (show "index_size" ∈ keys by decide) Conversion.size
  have haddressSize := hagree.converted (show "address_size" ∈ keys by decide)
    Conversion.addressSize
  constructor
  · simp only [check, hname, hversion, hdescription, hextension, hsize, haccess, hindexSize,
      haddressSize]
  · simp only [check, hname, hversion, hdescription, hextension, hsize, haccess, hindexSize,
      haddressSize, Report.diagnostics_append, Report.diagnostics_ofDiagnostics, List.append_assoc]
    exact (h.unknownKeyProblems hkey _ _).append_right _

end Checks

/-! ### Procedures for tables with one key more -/

namespace Procedure

/-- From a context on, two procedures end in the same way, and the second one records what the first
one records with one diagnostic more. -/
def RecordsOneMore (d : Diagnostic) (c : Context) (p p' : Procedure Context α) : Prop :=
  ∃ ds es, Inserted d ds es ∧
    ((∃ a, p.run c = .ok a ⟨c.scopes, c.diagnostics ++ ds⟩ ∧
        p'.run c = .ok a ⟨c.scopes, c.diagnostics ++ es⟩) ∨
      ∃ stop, p.run c = .error stop ⟨c.scopes, c.diagnostics ++ ds⟩ ∧
        p'.run c = .error stop ⟨c.scopes, c.diagnostics ++ es⟩)

/-- A procedure for tables of a kind to which a key beyond those allowed makes no difference: with
the key, wherever it is and whatever its value, one diagnostic more is recorded. It names the key,
and has the breadcrumbs so far and that of the table. -/
def OnlyReportsUnknownKeys (p : Table → Procedure Context α) (kind : TableKind)
    (allowed : List String) (crumb : Table → Option String) : Prop :=
  ∀ t t' key value c, Inserted (key, value) t t' → key ∉ allowed →
    RecordsOneMore
      ⟨.unknownKey, kind, c.path ++ (crumb t).toList, some key, "unsupported key"⟩ c (p t) (p t')

/-- A procedure that does what a check tells makes of a further key what the check makes of it. -/
lemma Follows.onlyReportsUnknownKeys {p : Table → Procedure Context α} {kind : TableKind}
    {check : Path → Table → Checked (Option α)} (h : Follows p kind check) {allowed : List String}
    {crumb : Table → Option String}
    (hcheck : ∀ {t t' key value}, Inserted (key, value) t t' → ∀ path, key ∉ allowed →
      (check path t).OneMore (.unknownKey kind (path.enter (crumb t)) key) (check path t')) :
    OnlyReportsUnknownKeys p kind allowed crumb := by
  intro t t' key value c ht hkey
  obtain ⟨houtcome, hinserted⟩ := hcheck ht c.path hkey
  refine ⟨_, _, hinserted, ?_⟩
  rw [h t c, h t' c, answer, answer, houtcome]
  cases (check c.path t).outcome with
  | none => exact .inr ⟨_, rfl, rfl⟩
  | some a => exact .inl ⟨a, rfl, rfl⟩

/-- To each check of a table a key that it may not have makes no difference but one diagnostic,
which is recorded in the scope of the entity; the scope has no breadcrumb if the name or the range of
the entity is unusable. The diagnostic for a key of the description is recorded before its scope. -/
theorem checks_onlyReport_unknownKeys :
    OnlyReportsUnknownKeys checkEnumValue .enumValue EnumValue.keys
      (fun t => (t.name "name").value?.map fun name => s!"enum value '{name}'") ∧
    OnlyReportsUnknownKeys checkEnum .enumeration RegisterEnum.keys
      (fun t => (t.name "name").value?.map fun name => s!"enum '{name}'") ∧
    OnlyReportsUnknownKeys checkBitField .bitField BitField.keys
      (fun t => (t.convertedText "bit" Conversion.bitRange).value?.map fun range =>
        s!"bit field with range '{range}'") ∧
    (∀ d, OnlyReportsUnknownKeys (checkRegister d) .register Register.keys
      (fun t => (t.name "name").value?.map fun name => s!"register '{name}'")) ∧
    OnlyReportsUnknownKeys checkDescription .root Description.keys (fun _ => none) := by
  refine ⟨checkEnumValue_follows.onlyReportsUnknownKeys EnumValue.check_oneMore,
    checkEnum_follows.onlyReportsUnknownKeys RegisterEnum.check_oneMore,
    checkBitField_follows.onlyReportsUnknownKeys BitField.check_oneMore,
    fun d => (checkRegister_follows d).onlyReportsUnknownKeys
      fun ht path hkey => Register.check_oneMore ht path d hkey, ?_⟩
  intro t t' key value c ht hkey
  obtain ⟨houtcome, hinserted⟩ := Description.check_oneMore ht c.path hkey
  rw [Option.toList_none, List.append_nil]
  refine ⟨_, _, hinserted, .inl ⟨_, run_checkDescription t c, ?_⟩⟩
  rw [run_checkDescription, houtcome]
  rfl

def onTable : Table := [("name", .text "on"), ("value", .integer 1)]

/-- The same with a key that a named value may not have. -/
def colouredTable : Table := [("name", .text "on"), ("colour", .text "red"), ("value", .integer 1)]

/-- The colour of a named value is reported in the scope of this value. -/
theorem checks_onlyReport_unknownKeys_colour :
    Inserted ("colour", Value.text "red") onTable colouredTable ∧ "colour" ∉ EnumValue.keys ∧
      RecordsOneMore
        ⟨.unknownKey, .enumValue, ["enum value 'on'"], some "colour", "unsupported key"⟩ .empty
        (checkEnumValue onTable) (checkEnumValue colouredTable) := by
  have hinserted : Inserted ("colour", Value.text "red") onTable colouredTable :=
    ⟨[("name", .text "on")], [("value", .integer 1)], rfl, rfl⟩
  have hkey : "colour" ∉ EnumValue.keys := by decide
  exact ⟨hinserted, hkey, checks_onlyReport_unknownKeys.1 _ _ _ _ .empty hinserted hkey⟩

end Procedure

end RegisterMap
