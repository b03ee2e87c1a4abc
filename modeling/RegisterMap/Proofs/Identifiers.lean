import RegisterMap.Proofs.Claimed

/-!
# Names as identifiers

Every name in the model of an accepted document was accepted as a name: that of the description,
those of the groups, and those of the registers and of their parts. An accepted name is an
identifier over the letters and digits of ASCII and the underscore, possibly before one final line
feed. Names without this line feed can therefore be copied into a line of code.
-/

namespace RegisterMap

/-! ### Words and line feeds -/

namespace Name

variable {c : Char} {text : List Char} {name : String}

lemma toNat_bounds_of_isFollowing (h : isFollowing c = true) : 0x30 ≤ c.toNat ∧ c.toNat ≤ 0x7a := by
  rw [isFollowing, Bool.or_eq_true, beq_iff_eq] at h
  rcases h with h | rfl
  · exact toNat_bounds_of_isAlphanum h
  · decide

lemma isLineBreak_of_isFollowing (h : isFollowing c = true) : Text.isLineBreak c = false := by
  have hbounds := toNat_bounds_of_isFollowing h
  simp only [Text.isLineBreak, Bool.or_eq_false_iff, Bool.and_eq_false_iff, decide_eq_false_iff_not,
    beq_eq_false_iff_ne]
  omega

/-- A word has no line breaks. -/
lemma isLineBreak_of_isWord (h : isWord text = true) : ∀ c ∈ text, Text.isLineBreak c = false := by
  intro c hc
  exact isLineBreak_of_isFollowing (isFollowing_of_isWord h c hc)

/-- A name that is accepted is a word unless it ends with a line feed. -/
lemma isWord_iff_of_isIdentifier (h : isIdentifier name = true) :
    isWord name.toList = true ↔ name.toList.getLast? ≠ some '\n' := by
  constructor
  · intro hword hlast
    have hbreak := isLineBreak_of_isWord hword '\n' (List.mem_of_getLast? hlast)
    cases hbreak
  · intro hlast
    rwa [isIdentifier, Text.beforeFinalBreak, if_neg hlast] at h

end Name

/-! ### The names of a model -/

/-- The names of a register and of its parts. Reserved bit fields have none. -/
def Register.names (r : Register) : List String :=
  r.name :: (r.bitFields.filterMap (·.name) ++
    r.enums.flatMap fun e => e.name :: e.values.map (·.name))

/-- The names of the description, of the groups, and of the registers with their parts. -/
def Model.names (m : Model) : List String :=
  m.description.name :: (m.groups.filterMap (·.1) ++ m.allRegisters.flatMap Register.names)

namespace Register.MadeFrom

variable {path : Path} {t : Table} {described r : Register}

lemma isIdentifier_enumName (h : MadeFrom path t described r) {e : RegisterEnum}
    (he : e ∈ r.enums) : Name.isIdentifier e.name = true := by
  obtain ⟨ts, _, hmade⟩ := h.enums_madeFrom_table
  obtain ⟨u, _, hu⟩ := exists_of_forall₂_of_mem hmade he
  exact (Table.name_eq_valid_iff.mp hu.name_eq).2

lemma isIdentifier_valueName (h : MadeFrom path t described r) {e : RegisterEnum}
    (he : e ∈ r.enums) {v : EnumValue} (hv : v ∈ e.values) : Name.isIdentifier v.name = true := by
  obtain ⟨ts, _, hmade⟩ := h.enums_madeFrom_table
  obtain ⟨u, _, hu⟩ := exists_of_forall₂_of_mem hmade he
  obtain ⟨us, _, haccepted⟩ := hu.values_accepted
  obtain ⟨w, _, hw⟩ := exists_of_forall₂_of_mem haccepted hv
  exact (Table.name_eq_valid_iff.mp (EnumValue.check_outcome_eq_some_iff.mp hw.1).1).2

lemma isIdentifier_of_mem_names (h : MadeFrom path t described r) {name : String}
    (hname : name ∈ r.names) : Name.isIdentifier name = true := by
  simp only [names, List.mem_cons, List.mem_append, List.mem_filterMap, List.mem_flatMap,
    List.mem_map] at hname
  rcases hname with rfl | ⟨f, hf, hname⟩ | ⟨e, he, rfl | ⟨v, hv, rfl⟩⟩
  · exact h.isIdentifier_name
  · exact h.isIdentifier_fieldName hf hname
  · exact h.isIdentifier_enumName he
  · exact h.isIdentifier_valueName he hv

end Register.MadeFrom

namespace Model

variable {root : Table} {m : Model}

lemma isIdentifier_descriptionName (h : ofTable root = .ok m) :
    Name.isIdentifier m.description.name = true := by
  obtain ⟨⟨hsome, _⟩, _⟩ := check_outcome_eq_some_iff.mp (ofTable_eq_ok_iff.mp h)
  simp only [checkDescription] at hsome
  split at hsome
  next => cases hsome
  next t _ =>
    have hcheck : (Description.check [] t).outcome = some m.description := hsome
    exact (Table.name_eq_valid_iff.mp (Description.name_eq_of_check hcheck)).2

/-- Every name in the model of an accepted document was accepted as a name. -/
lemma isIdentifier_of_mem_names (h : ofTable root = .ok m) {name : String}
    (hname : name ∈ m.names) : Name.isIdentifier name = true := by
  simp only [names, List.mem_cons, List.mem_append, List.mem_filterMap, List.mem_flatMap] at hname
  rcases hname with rfl | ⟨group, hgroup, hname⟩ | ⟨r, hr, hname⟩
  · exact isIdentifier_descriptionName h
  · exact (groupNamed_of_ofTable h group hgroup).isIdentifier name hname
  · obtain ⟨_, _, _, hmade⟩ := exists_madeFrom_of_ofTable h hr
    exact hmade.isIdentifier_of_mem_names hname

/-- The names in the model of an accepted document are words, and so without line breaks, exactly
if none of them ends with a line feed. -/
theorem names_isWord_iff_of_ofTable (h : ofTable root = .ok m) :
    (∀ name ∈ m.names, Name.isWord name.toList = true ∧
        ∀ c ∈ name.toList, Text.isLineBreak c = false) ↔
      ∀ name ∈ m.names, name.toList.getLast? ≠ some '\n' := by
  refine forall₂_congr fun name hname => ?_
  have hidentifier := isIdentifier_of_mem_names h hname
  rw [← Name.isWord_iff_of_isIdentifier hidentifier]
  exact and_iff_left_of_imp Name.isLineBreak_of_isWord

/-- The names of the small document are words. -/
theorem names_isWord_smallModel :
    ofTable smallDocument = .ok smallModel ∧
      ∀ name ∈ smallModel.names, Name.isWord name.toList = true ∧
        ∀ c ∈ name.toList, Text.isLineBreak c = false := by
  refine ⟨ofTable_smallDocument, (names_isWord_iff_of_ofTable ofTable_smallDocument).mpr ?_⟩
  decide

/-- A document with a register whose name ends with a line feed is accepted. The name is no word,
and it has a line break. -/
theorem names_not_isWord_lineFeed :
    ofTable (Accessor.plainDocument "status\n" "code") =
        .ok (Accessor.plainModel "status\n" "code") ∧
      ∃ name ∈ (Accessor.plainModel "status\n" "code").names,
        Name.isWord name.toList = false ∧ ∃ c ∈ name.toList, Text.isLineBreak c = true :=
  ⟨rfl, "status\n", by decide, by decide, '\n', by decide, by decide⟩

end Model

end RegisterMap
