import RegisterMap.Proofs.Document
import RegisterMap.Proofs.KeyOrder.Register

/-!
# Documents in another order of keys

Whether a document is accepted does not depend on the order of keys, at any depth, although the
diagnostics of one that is refused may. The models of documents that differ only in this order have
the same description and the same registers. If these are grouped, then the groups may stand in
another order.
-/

namespace RegisterMap

variable {d : Description} {path : Path} {t t' : Table}

/-! ### Descriptions -/

lemma Description.check_alike (path : Path) (h : t.Reordered t') :
    (Description.check path t).Alike (Description.check path t') := by
  have hname := h.name "name"
  have hversion := h.convertedText "version" Conversion.version
  have hdescription := h.text "description"
  have hextension := h.convertedText "extension" Conversion.extension
  have hdefaultSize := h.convertedSize "default_register_size"
  have hdefaultAccess := h.convertedText "default_register_access" Conversion.access
  have hindexSize := h.convertedSize "index_size"
  have haddressSize := h.convertedAddressSize "address_size"
  constructor
  · simp only [check, hname.value?_eq, hversion.value?_eq, hdescription.optional?_eq,
      hextension.optional?_eq, hdefaultSize.optional?_eq, hdefaultAccess.optional?_eq,
      hindexSize.orDefault?_eq, haddressSize.orDefault?_eq]
  · have hmilestone (d? : Option Description) : Report.diagnostics (d?.toList.map fun d =>
        .milestone (.description d.name d.version)) = [] := by
      cases d? <;> rfl
    simp only [check, hname.value?_eq, Report.diagnostics_append, Report.diagnostics_ofDiagnostics,
      List.append_eq_nil_iff, h.unknownKeys, hname.requiredProblems_iff,
      hversion.requiredProblems_iff, hdescription.problems_iff, hextension.problems_iff,
      hdefaultSize.problems_iff, hdefaultAccess.problems_iff, hindexSize.problems_iff,
      haddressSize.problems_iff, hmilestone]

namespace Registers

/-! ### Arrays of registers -/

lemma checkItems_alike (d : Description) (path : Path) {items items' : List Value}
    (h : List.Forall₂ Value.Reordered items items') :
    (checkItems d path items).Alike (checkItems d path items') := by
  induction h with
  | nil => exact ⟨rfl, .rfl⟩
  | @cons item item' items items' hitem _ ih =>
    cases hitem with
    | table hdistinct hperm hkeys hvalues =>
      have hhere := Register.check_alike d path
        (Value.Reordered.table hdistinct hperm hkeys hvalues)
      simp only [checkItems]
      refine ⟨by rw [hhere.outcome_eq, ih.outcome_eq], ?_⟩
      simp only [Report.diagnostics_append, List.append_eq_nil_iff, hhere.clean_iff, ih.clean_iff]
    | _ =>
      refine ⟨ih.outcome_eq, ?_⟩
      simp [checkItems]

lemma checkArray_alike (d : Description) (path : Path) {items items' : List Value}
    (h : List.Forall₂ Value.Reordered items items') :
    (checkArray d path items).Alike (checkArray d path items') := by
  have hitems := checkItems_alike d path h
  refine ⟨hitems.outcome_eq, ?_⟩
  simp only [checkArray, Report.diagnostics_append, List.append_eq_nil_iff, hitems.clean_iff,
    hitems.outcome_eq]

/-! ### Groups of registers -/

/-- The group that is made of an entry with an array. -/
def groupOf? (d : Description) (path : Path) : String × Value → Option (String × List Register)
  | (name, .array items) => some (name, (checkArray d (inside path name) items).outcome)
  | _ => none

/-- An entry with an identifier for its name and an array without diagnostics. -/
def IsCleanGroup (d : Description) (path : Path) (entry : String × Value) : Prop :=
  Name.isIdentifier entry.1 = true ∧ ∃ items, entry.2 = .array items ∧
    (checkArray d (inside path entry.1) items).report.diagnostics = []

lemma checkGroups_outcome (earlier : List String) (entries : Table) :
    (checkGroups d path earlier entries).outcome = entries.filterMap (groupOf? d path) := by
  induction entries generalizing earlier with
  | nil => rfl
  | cons entry entries ih =>
    obtain ⟨name, value⟩ := entry
    cases value <;> simp only [checkGroups, List.filterMap_cons, groupOf?, ih, inside]

lemma groupNameProblems_eq_nil_iff {earlier : List String} {name : String}
    (hearlier : ∀ other ∈ earlier, Name.isIdentifier other = true) :
    groupNameProblems path earlier name = [] ↔
      Name.isIdentifier name = true ∧ ∀ other ∈ earlier, Name.pascal other ≠ Name.pascal name := by
  unfold groupNameProblems
  rw [List.filter_eq_self.mpr hearlier]
  split_ifs with h <;> simp [h, rival?_eq_none_iff, Option.toList_eq_nil_iff]

lemma isCleanGroup_array_iff {name : String} {items : List Value} :
    IsCleanGroup d path (name, .array items) ↔ Name.isIdentifier name = true ∧
      (checkArray d (inside path name) items).report.diagnostics = [] := by
  simp [IsCleanGroup]

/-- Groups have no diagnostics exactly if none has any by itself and their names differ in Pascal
case. The order in which they stand does not matter for that. -/
lemma checkGroups_clean_iff {earlier : List String} {entries : Table}
    (hearlier : ∀ other ∈ earlier, Name.isIdentifier other = true) :
    (checkGroups d path earlier entries).report.diagnostics = [] ↔
      (∀ entry ∈ entries, IsCleanGroup d path entry ∧
        ∀ other ∈ earlier, Name.pascal other ≠ Name.pascal entry.1) ∧
      entries.Pairwise fun entry entry' => Name.pascal entry.1 ≠ Name.pascal entry'.1 := by
  induction entries generalizing earlier with
  | nil => simp [checkGroups]
  | cons entry entries ih =>
    obtain ⟨name, value⟩ := entry
    cases value with
    | array items =>
      simp only [checkGroups, Report.diagnostics_append, Report.diagnostics_ofDiagnostics,
        List.append_eq_nil_iff, groupNameProblems_eq_nil_iff hearlier, List.forall_mem_cons,
        List.pairwise_cons, isCleanGroup_array_iff]
      by_cases hname : Name.isIdentifier name = true
      · have hearlier' : ∀ other ∈ earlier ++ [name], Name.isIdentifier other = true := by
          simpa [or_imp, forall_and] using ⟨hearlier, hname⟩
        -- The groups after this one differ from it, as they differ from those before it.
        have hrest : (∀ entry ∈ entries, IsCleanGroup d path entry ∧
              ∀ other ∈ earlier ++ [name], Name.pascal other ≠ Name.pascal entry.1) ↔
            (∀ entry ∈ entries, IsCleanGroup d path entry ∧
              ∀ other ∈ earlier, Name.pascal other ≠ Name.pascal entry.1) ∧
            ∀ entry ∈ entries, Name.pascal name ≠ Name.pascal entry.1 := by
          simp only [List.forall_mem_append, List.forall_mem_singleton, forall_and, and_assoc]
        rw [ih hearlier', hrest]
        simp only [hname, true_and, inside]
        tauto
      · simp [hname]
    | _ => simp [checkGroups, IsCleanGroup]

lemma groupOf?_eq_of_sameEntry {entry entry' : String × Value} (h : Table.SameEntry entry entry') :
    groupOf? d path entry = groupOf? d path entry' := by
  obtain ⟨name, value⟩ := entry
  obtain ⟨name', value'⟩ := entry'
  obtain ⟨rfl, hvalue⟩ := h
  cases hvalue with
  | array hitems =>
    have houtcome := (checkArray_alike d (inside path name) hitems).outcome_eq
    simp only [groupOf?, houtcome]
  | _ => rfl

lemma isCleanGroup_iff_of_sameEntry {entry entry' : String × Value}
    (h : Table.SameEntry entry entry') :
    IsCleanGroup d path entry ↔ IsCleanGroup d path entry' := by
  obtain ⟨name, value⟩ := entry
  obtain ⟨name', value'⟩ := entry'
  obtain ⟨rfl, hvalue⟩ := h
  cases hvalue with
  | array hitems =>
    rw [isCleanGroup_array_iff, isCleanGroup_array_iff, (checkArray_alike _ _ hitems).clean_iff]
  | _ => simp [IsCleanGroup]

/-- Tables of groups in another order of keys give the same groups in another order. -/
lemma checkGroups_reordered (d : Description) (path : Path) (h : t.Reordered t') :
    (checkGroups d path [] t).outcome.Perm (checkGroups d path [] t').outcome ∧
      ((checkGroups d path [] t).report.diagnostics = [] ↔
        (checkGroups d path [] t').report.diagnostics = []) := by
  obtain ⟨_, u, hperm, hsame⟩ := h.exists_perm
  have hentries : u.filterMap (groupOf? d path) = t'.filterMap (groupOf? d path) ∧
      ((∀ entry ∈ u, IsCleanGroup d path entry) ↔ ∀ entry ∈ t', IsCleanGroup d path entry) := by
    clear hperm h
    induction hsame with
    | nil => exact ⟨rfl, .rfl⟩
    | cons hentry _ ih =>
      rw [List.filterMap_cons, List.filterMap_cons, groupOf?_eq_of_sameEntry hentry, ih.1,
        List.forall_mem_cons, List.forall_mem_cons, isCleanGroup_iff_of_sameEntry hentry, ih.2]
      exact ⟨rfl, .rfl⟩
  constructor
  · rw [checkGroups_outcome, checkGroups_outcome, ← hentries.1]
    exact hperm.filterMap _
  · have hclean : (∀ entry ∈ t, IsCleanGroup d path entry) ↔
        ∀ entry ∈ t', IsCleanGroup d path entry := by
      simp only [hperm.mem_iff, hentries.2]
    have hnames : t.keys.Pairwise (fun name name' => Name.pascal name ≠ Name.pascal name') ↔
        t'.keys.Pairwise fun name name' => Name.pascal name ≠ Name.pascal name' :=
      h.keys_perm.pairwise_iff Ne.symm
    rw [Table.keys, Table.keys, List.pairwise_map, List.pairwise_map] at hnames
    rw [checkGroups_clean_iff (by simp), checkGroups_clean_iff (by simp), hnames]
    simp only [List.not_mem_nil, false_imp_iff, implies_true, and_true, hclean]

/-! ### The registers of a document -/

/-- Registers that are the same, up to the order of groups. -/
inductive Regrouped : Registers → Registers → Prop where
  | list (rs : List Register) : Regrouped (.list rs) (.list rs)
  | groups {gs gs' : List (String × List Register)} (h : gs.Perm gs') :
    Regrouped (.groups gs) (.groups gs')

lemma check_reordered (d : Description) (path : Path) (h : t.Reordered t') :
    Option.Rel Regrouped (check d path t).outcome (check d path t').outcome ∧
      ((check d path t).report.diagnostics = [] ↔ (check d path t').report.diagnostics = []) := by
  have hget := h.get? "register"
  unfold check
  generalize t.get? "register" = v, t'.get? "register" = v' at hget
  cases hget with
  | none => exact ⟨.none, .rfl⟩
  | some hv =>
    cases hv with
    | array hitems =>
      have harray := checkArray_alike d path hitems
      refine ⟨.some ?_, harray.clean_iff⟩
      rw [harray.outcome_eq]
      exact .list _
    | table hdistinct hperm hkeys hvalues =>
      have hgroups := checkGroups_reordered d path
        (Value.Reordered.table hdistinct hperm hkeys hvalues)
      exact ⟨.some (.groups hgroups.1), hgroups.2⟩
    | _ => exact ⟨.none, by simp⟩

end Registers

/-! ### Documents -/

namespace Model

variable {root root' : Table}

lemma checkDescription_alike (h : root.Reordered root') :
    (checkDescription root).Alike (checkDescription root') := by
  have htable := h.table "register_description"
  have hunknown : root.unknownKeyProblems .root [] keys = [] ↔
      root'.unknownKeyProblems .root [] keys = [] := h.unknownKeys
  simp only [checkDescription]
  generalize root.table "register_description" = r, root'.table "register_description" = r'
    at htable
  have hrequired : r.requiredProblems .root [] "register_description" = [] ↔
      r'.requiredProblems .root [] "register_description" = [] := htable.requiredProblems_iff
  have hkeys := and_congr hunknown hrequired
  cases htable with
  | valid ht =>
    have hdescription := Description.check_alike [] ht
    refine ⟨hdescription.outcome_eq, ?_⟩
    simp only [Reading.value?, Report.diagnostics_append, Report.diagnostics_ofDiagnostics,
      List.append_eq_nil_iff]
    exact and_congr hkeys hdescription.clean_iff
  | _ =>
    refine ⟨rfl, ?_⟩
    simp only [Reading.value?, Report.diagnostics_ofDiagnostics, List.append_eq_nil_iff]
    exact hkeys

/-- A document is accepted if it has a description under which its registers have no diagnostics. -/
lemma exists_ofTable_eq_ok_iff :
    (∃ m, ofTable root = .ok m) ↔
      ∃ d, (checkDescription root).Accepts d ∧
        (Registers.check d [] root).report.diagnostics = [] := by
  simp only [ofTable_eq_ok_iff, check_outcome_eq_some_iff]
  constructor
  · rintro ⟨m, hdescription, hclean, _⟩
    exact ⟨m.description, hdescription, hclean⟩
  · rintro ⟨d, hdescription, hclean⟩
    exact ⟨⟨d, (Registers.check d [] root).outcome⟩, hdescription, hclean, rfl⟩

/-- Documents that differ only in the order of keys, at any depth, are both accepted or both
refused. If they are accepted, then their models have the same description and the same registers,
in the same list or in the same groups. -/
theorem ofTable_reordered (h : root.Reordered root') :
    ((∃ m, ofTable root = .ok m) ↔ ∃ m', ofTable root' = .ok m') ∧
      ∀ m m', ofTable root = .ok m → ofTable root' = .ok m' →
        m.description = m'.description ∧
          Option.Rel Registers.Regrouped m.registers m'.registers := by
  have hdescription := checkDescription_alike h
  have hregisters (d : Description) := Registers.check_reordered d [] h
  constructor
  · simp only [exists_ofTable_eq_ok_iff, hdescription.accepts_iff, (hregisters _).2]
  · intro m m' hm hm'
    obtain ⟨hd, _, hrs⟩ := check_outcome_eq_some_iff.mp (ofTable_eq_ok_iff.mp hm)
    obtain ⟨hd', _, hrs'⟩ := check_outcome_eq_some_iff.mp (ofTable_eq_ok_iff.mp hm')
    have hsame : m.description = m'.description :=
      Option.some_inj.mp ((hdescription.accepts_iff.mp hd).1.symm.trans hd'.1)
    refine ⟨hsame, ?_⟩
    rw [hrs, hrs', ← hsame]
    exact (hregisters m.description).1

/-! ### A document with its keys reversed -/

/-- A document with two groups of registers, one of which is empty. -/
def groupedDocument : Table :=
  [("register_description", .table [("name", .text "chip"), ("version", .text "0.1")]),
   ("register", .table
     [("core", .array [.table
        [("name", .text "status"), ("absolute_address", .integer 0), ("size", .integer 8),
         ("access", .text "r"),
         ("bit_fields", .array
           [.table [("bit", .text "7:5"), ("name", .text "code")],
            .table [("bit", .text "4:0"), ("reserved", .boolean true)]])]]),
      ("debug", .array [])])]

/-- The document with the keys of all its tables in reverse. -/
def reversedDocument : Table :=
  [("register", .table
     [("debug", .array []),
      ("core", .array [.table
        [("bit_fields", .array
           [.table [("name", .text "code"), ("bit", .text "7:5")],
            .table [("reserved", .boolean true), ("bit", .text "4:0")]]),
         ("access", .text "r"), ("size", .integer 8), ("absolute_address", .integer 0),
         ("name", .text "status")]])]),
   ("register_description", .table [("version", .text "0.1"), ("name", .text "chip")])]

def coreRegister : Register :=
  { name := "status", access := .read, size := .size8, readLocation := ⟨.absolute, 0⟩,
    writeLocation := ⟨.absolute, 0⟩,
    bitFields := [⟨⟨7, 5, by omega⟩, some "code", none⟩, .reserved ⟨4, 0, by omega⟩],
    enums := [], description := none, slot := none }

def groupedModel : Model :=
  ⟨⟨"chip", .version01, none, none, none, none, .size64, none⟩,
    some (.groups [("core", [coreRegister]), ("debug", [])])⟩

lemma reordered_reversedDocument : groupedDocument.Reordered reversedDocument := by
  have hreverse {entries entries' : List (String × Value)}
      (hdistinct : (entries.map Prod.fst).Nodup)
      (hkeys : entries.reverse.map Prod.fst = entries'.map Prod.fst)
      (hvalues : List.Forall₂ Value.Reordered (entries.reverse.map Prod.snd)
        (entries'.map Prod.snd)) : Value.Reordered (.table entries) (.table entries') :=
    .table hdistinct (List.reverse_perm entries).symm hkeys hvalues
  have hdescription : Value.Reordered
      (.table [("name", .text "chip"), ("version", .text "0.1")])
      (.table [("version", .text "0.1"), ("name", .text "chip")]) :=
    hreverse (by decide) rfl (.cons (.text _) (.cons (.text _) .nil))
  have hfield : Value.Reordered (.table [("bit", .text "7:5"), ("name", .text "code")])
      (.table [("name", .text "code"), ("bit", .text "7:5")]) :=
    hreverse (by decide) rfl (.cons (.text _) (.cons (.text _) .nil))
  have hreserved : Value.Reordered (.table [("bit", .text "4:0"), ("reserved", .boolean true)])
      (.table [("reserved", .boolean true), ("bit", .text "4:0")]) :=
    hreverse (by decide) rfl (.cons (.boolean _) (.cons (.text _) .nil))
  refine hreverse (by decide) rfl (.cons ?_ (.cons hdescription .nil))
  refine hreverse (by decide) rfl (.cons (.array .nil) (.cons (.array (.cons ?_ .nil)) .nil))
  exact hreverse (by decide) rfl (.cons (.array (.cons hfield (.cons hreserved .nil)))
    (.cons (.text _) (.cons (.integer _) (.cons (.integer _) (.cons (.text _) .nil)))))

/-- With its keys in reverse, the document is accepted as well, and has the same groups. -/
theorem ofTable_reversedDocument :
    groupedDocument.Reordered reversedDocument ∧ ofTable groupedDocument = .ok groupedModel ∧
      ∃ m', ofTable reversedDocument = .ok m' ∧
        groupedModel.description = m'.description ∧
          Option.Rel Registers.Regrouped groupedModel.registers m'.registers := by
  have haccepted : ofTable groupedDocument = .ok groupedModel := rfl
  obtain ⟨hiff, hsame⟩ := ofTable_reordered reordered_reversedDocument
  obtain ⟨m', hm'⟩ := hiff.mp ⟨_, haccepted⟩
  exact ⟨reordered_reversedDocument, haccepted, m', hm', hsame _ _ haccepted hm'⟩

end Model

end RegisterMap
