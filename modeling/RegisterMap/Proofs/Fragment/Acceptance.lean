import RegisterMap.Proofs.Fragment.Register

/-!
# Fragments that are accepted

The parts of a register without empty descriptions fit together as those of the register do, and its
enumerations are as complete. So the table of the fragment is accepted.
-/

namespace RegisterMap

variable {d : Description} {path : Path} {t : Table}

/-- A list that corresponds to another by a function is the image of it. -/
lemma eq_map_of_forall₂ {α β : Type} {R : α → β → Prop} {f : α → β} {as : List α} {bs : List β}
    (h : List.Forall₂ R as bs) (hf : ∀ a ∈ as, ∀ b ∈ bs, R a b → b = f a) : bs = as.map f := by
  induction h with
  | nil => rfl
  | cons hab _ ih =>
    rw [List.map_cons, hf _ List.mem_cons_self _ List.mem_cons_self hab,
      ih fun a ha b hb => hf a (List.mem_cons_of_mem _ ha) b (List.mem_cons_of_mem _ hb)]

namespace Register

/-! ### Accepted tables -/

/-- A located table is accepted if all its keys are usable, none of its parts is refused, and the
parts fit together. -/
lemma checkLocated_accepts {kind : LocationKind} {fields : List Table}
    {enums : Option (List Table)} {described : Register}
    (h : Usable d path t kind fields enums described)
    (hrefused : (CheckedList.ofTables (BitField.check path) fields).refused = [])
    (hfields : (CheckedList.ofTables (BitField.check path) fields).report.diagnostics = [])
    (henums : (CheckedList.ofTables (RegisterEnum.check path) (enums.getD [])).report.diagnostics =
      [])
    (hsettled : (described.settle path (some [])).report.diagnostics = []) :
    (checkLocated d path t described.name kind).Accepts
      (described.settle path (some [])).outcome := by
  obtain ⟨report, hcheck, hreport⟩ := checkLocated_of_usable h
  rw [hcheck, hrefused]
  rw [hrefused, hfields, henums] at hreport
  exact ⟨rfl, hreport.trans hsettled⟩

/-- A table with a name and known keys alone is accepted if the locating key is. -/
lemma check_accepts {kind : LocationKind} {name : String} {r : Register}
    (hname : t.name "name" = .valid name) (hkeys : t.keys ⊆ keys)
    (hkind : Placement.locatingKinds d t = [kind])
    (hlocated : (checkLocated d (inside path name) t name kind).Accepts r) :
    (check d path t).Accepts r := by
  have hnamed : (checkNamed d (inside path name) t name).Accepts r := by
    rw [checkNamed, hkind]
    exact hlocated
  simp only [check, hname, Reading.value?, Option.map_some]
  refine ⟨hnamed.1, ?_⟩
  rw [Report.diagnostics_append, Report.diagnostics_ofDiagnostics,
    Table.unknownKeyProblems_eq_nil_iff.mpr hkeys, Reading.requiredProblems_eq_nil_iff.mpr ⟨_, rfl⟩]
  exact hnamed.2

/-! ### Registers without empty descriptions -/

/-- A register without empty descriptions. -/
def withoutEmptyTexts (r : Register) : Register :=
  { r with
    bitFields := r.bitFields.map BitField.withoutEmptyText
    enums := r.enums.map RegisterEnum.withoutEmptyTexts
    description := nonemptyText r.description }

/-- A register without empty descriptions, before its enumerations are settled. -/
def unsettled (r : Register) : Register :=
  { r.withoutEmptyTexts with
    enums := r.enums.map fun e => { e.withoutEmptyTexts with isComplete := false } }

lemma fieldNames_unsettled (r : Register) :
    r.unsettled.namedFields.map (·.1) = r.namedFields.map (·.1) := by
  simp only [namedFields, unsettled, withoutEmptyTexts, List.map_filterMap, List.filterMap_map]
  refine List.filterMap_congr fun f _ => ?_
  cases hname : f.name <;> simp [BitField.withoutEmptyText, hname]

lemma ranges_unsettled (r : Register) :
    r.unsettled.bitFields.map (·.range) = r.bitFields.map (·.range) := by
  simp [unsettled, withoutEmptyTexts, BitField.withoutEmptyText]

/-- An enumeration that fits the bit fields of a register fits them without empty descriptions. -/
lemma fits_unsettled {r : Register} {e : RegisterEnum} {maxValue : Nat}
    (h : RegisterEnum.Fits r.bitFields e maxValue) :
    RegisterEnum.Fits r.unsettled.bitFields { e.withoutEmptyTexts with isComplete := false }
      maxValue where
  exists_field := by
    obtain ⟨f, hf, hrange⟩ := h.exists_field
    exact ⟨f.withoutEmptyText, List.mem_map_of_mem hf, hrange⟩
  not_reserved := by
    intro f hf hrange
    obtain ⟨o, ho, rfl⟩ := List.mem_map.mp hf
    exact h.not_reserved o ho hrange
  maxValue_eq := h.maxValue_eq

lemma valuesProblems_unsettled {e : RegisterEnum} {maxValue : Nat}
    (h : e.valuesProblems maxValue = []) :
    RegisterEnum.valuesProblems { e.withoutEmptyTexts with isComplete := false } maxValue = [] := by
  rw [RegisterEnum.valuesProblems_eq_nil_iff] at h ⊢
  simpa [RegisterEnum.withoutEmptyTexts, EnumValue.withoutEmptyText, List.pairwise_map] using h

namespace MadeFrom

variable {described r : Register}

/-- The enumerations of an accepted register settle without diagnostics once more. -/
lemma enums_clean_unsettled (h : MadeFrom path t described r) (inner : Path) :
    (RegisterEnum.settleAll inner r.unsettled.bitFields (some [])
      r.unsettled.enums).report.diagnostics = [] := by
  rw [RegisterEnum.settleAll_diagnostics_eq_nil_iff]
  constructor
  · intro e he
    obtain ⟨o, ho, rfl⟩ := List.mem_map.mp he
    obtain ⟨maxValue, hfit, hvalues, _⟩ :=
      RegisterEnum.fits_of_settleAll h.enums_clean (h.enums_eq ▸ ho)
    exact .inl ⟨maxValue, fits_unsettled hfit, valuesProblems_unsettled hvalues⟩
  · refine List.pairwise_map.mpr (h.enumsFit.ranges_distinct.imp fun hne _ => ?_)
    exact hne

/-- An enumeration of an accepted register is as complete when it is settled once more. -/
lemma enums_eq_unsettled (h : MadeFrom path t described r) (inner : Path) :
    (RegisterEnum.settleAll inner r.unsettled.bitFields (some []) r.unsettled.enums).outcome =
      r.withoutEmptyTexts.enums := by
  have hclean := h.enums_clean_unsettled inner
  have hsettled := List.forall₂_map_left_iff.mp
    (@RegisterEnum.forall₂_settleAll r.unsettled.bitFields (some []) inner r.unsettled.enums)
  refine eq_map_of_forall₂ hsettled fun e he settled hmem heq => ?_
  -- Both times the flag compares the count of the values with the same largest value.
  obtain ⟨maxValue, hfit, _, hcomplete⟩ :=
    RegisterEnum.fits_of_settleAll h.enums_clean (h.enums_eq ▸ he)
  obtain ⟨maxValue', hfit', _, hcomplete'⟩ := RegisterEnum.fits_of_settleAll hclean hmem
  have hrange : settled.range = e.range := by rw [heq]; rfl
  have hlength : settled.values.length = e.values.length := by
    rw [heq]
    exact List.length_map _
  have hmaxValue : maxValue' = maxValue := by
    have hboth := hfit'.maxValue_eq
    rw [hrange, hfit.maxValue_eq] at hboth
    exact (Except.ok.inj hboth).symm
  rw [heq, hcomplete', hlength, hmaxValue, ← hcomplete]
  rfl

/-- The parts of an accepted register fit together without empty descriptions, and they give this
register without empty descriptions. -/
lemma settle_unsettled (h : MadeFrom path t described r) (inner : Path) :
    (r.unsettled.settle inner (some [])).report.diagnostics = [] ∧
      (r.unsettled.settle inner (some [])).outcome = r.withoutEmptyTexts := by
  have hcoverage : Coverage.diagnostics inner r.unsettled (some []) = [] := by
    rw [Coverage.diagnostics_eq_nil_iff, ranges_unsettled]
    exact h.coverage_clean
  have hnames : r.unsettled.fieldNameProblems inner = [] := by
    have hclean := h.fieldNames_clean
    rw [fieldNameProblems, List.map_eq_nil_iff] at hclean ⊢
    rwa [fieldNames_unsettled]
  simp only [settle, Report.diagnostics_append, Report.diagnostics_ofDiagnostics, hcoverage, hnames,
    h.enums_clean_unsettled, h.enums_eq_unsettled]
  exact ⟨rfl, rfl⟩

/-! ### What an accepted register was read from -/

lemma msb_le (h : MadeFrom path t described r) {f : BitField} (hf : f ∈ r.bitFields) :
    f.range.msb ≤ BitRange.maxBitNumber := by
  have hlt := h.msb_lt_size hf
  have hsize : r.size.bits ≤ BitRange.maxBitNumber := by cases r.size <;> decide
  omega

lemma isReadable_bitField (h : MadeFrom path t described r) {f : BitField} (hf : f ∈ r.bitFields) :
    f.IsReadable where
  msb_le := h.msb_le hf
  isIdentifier_name _ := h.isIdentifier_fieldName hf
  description_eq_none := by
    intro hname
    obtain ⟨ts, _, _, hfields⟩ := h.bitFields_accepted
    obtain ⟨u, _, hu⟩ := exists_of_forall₂_of_mem hfields hf
    obtain ⟨isReserved, _, hfit⟩ := BitField.check_outcome_eq_some_iff.mp hu.1
    split_ifs at hfit
    · exact hfit.2
    · exact absurd hname hfit

lemma isReadable_enum (h : MadeFrom path t described r) {e : RegisterEnum} (he : e ∈ r.enums) :
    e.IsReadable where
  isIdentifier_name := h.isIdentifier_enumName he
  msb_le := by
    obtain ⟨_, hfit, _⟩ := RegisterEnum.fits_of_settleAll h.enums_clean (h.enums_eq ▸ he)
    obtain ⟨f, hf, hrange⟩ := hfit.exists_field
    exact hrange ▸ h.msb_le hf
  isIdentifier_valueName _ := h.isIdentifier_valueName he
  value_nonneg _ hv := (h.value_unsigned he hv).1
  value_le _ hv := (h.value_unsigned he hv).2

end MadeFrom

/-- The locations and the slot of an accepted register come of a key that locates it. -/
lemma exists_given_of_accepts {r : Register} (h : (check d path t).Accepts r) :
    ∃ kind, Placement.Given d kind ⟨r.readLocation, r.writeLocation⟩ ∧
      ∀ slot, r.slot = some slot → Placement.SlotFits d kind slot := by
  obtain ⟨name, kind, _, hkind, haccepts⟩ := exists_located_of_accepts h
  obtain ⟨described, _, _, _, husable, _, _, _, rfl, _, rfl⟩ := exists_usable_of_accepts haccepts
  refine ⟨kind, Placement.given_of_ofKey husable.placement_eq, fun slot hslot => ?_⟩
  have hdescribed : described.slot = some slot := hslot
  obtain ⟨_, hnone⟩ | ⟨_, hvalid, hsome⟩ := Reading.optional?_eq_some_iff.mp husable.slot_eq
  · rw [hnone] at hdescribed
    cases hdescribed
  · rw [hsome] at hdescribed
    rw [Option.some.inj hdescribed] at hvalid
    exact Placement.slotFits_of_slot hvalid hkind

/-! ### The fragment of an accepted register -/

/-- The table of the fragment of an accepted register is accepted, and gives back this register
without empty descriptions. -/
lemma check_located {r described : Register} (hmade : MadeFrom path t described r)
    {kind : LocationKind} (hslot : ∀ slot, r.slot = some slot → Placement.SlotFits d kind slot)
    {literal : Literal}
    (hplacement : ∀ t : Table, t.get? kind.key = some literal.value →
      Placement.ofKey d t kind = .valid ⟨r.readLocation, r.writeLocation⟩) (outer : Path) :
    (check d outer (Fragment.located d r (kind.key, literal)).table).Accepts
      r.withoutEmptyTexts := by
  have hfields : List.Forall₂
      (fun t f => (BitField.check (inside outer r.name) t).Accepts f) (Fragment.fieldTables r)
      r.unsettled.bitFields := by
    show List.Forall₂ _ (r.bitFields.map _) (r.bitFields.map _)
    rw [List.forall₂_map_left_iff, List.forall₂_map_right_iff, List.forall₂_same]
    exact fun f hf => Fragment.check_ofBitField (hmade.isReadable_bitField hf)
  have henums : List.Forall₂
      (fun t e => (RegisterEnum.check (inside outer r.name) t).Accepts e)
      ((Fragment.enumTables r).getD []) r.unsettled.enums := by
    rw [Fragment.enumTables_getD]
    show List.Forall₂ _ (r.enums.map _) (r.enums.map _)
    rw [List.forall₂_map_left_iff, List.forall₂_map_right_iff, List.forall₂_same]
    exact fun e he => Fragment.check_ofEnum (hmade.isReadable_enum he)
  obtain ⟨hfieldsAccepted, hrefused, hfieldsClean⟩ := CheckedList.ofTables_of_forall₂ hfields
  obtain ⟨henumsAccepted, _, henumsClean⟩ := CheckedList.ofTables_of_forall₂ henums
  obtain ⟨hkind, hslotRead⟩ := Fragment.slot_located hslot literal
  obtain ⟨hclean, houtcome⟩ := hmade.settle_unsettled (inside outer r.name)
  have husable : Usable d (inside outer r.name) (Fragment.located d r (kind.key, literal)).table
      kind (Fragment.fieldTables r) (Fragment.enumTables r) r.unsettled :=
    { description_eq := Fragment.description_located
      slot_eq := hslotRead
      placement_eq := hplacement _ Fragment.get?_located_kind
      size_eq := Fragment.size_located
      access_eq := Fragment.access_located
      fieldTables_eq := Fragment.fieldTables_located
      bitFields_eq := hfieldsAccepted.symm
      enumTables_eq := Fragment.enumTables_located
      enums_eq := henumsAccepted.symm }
  refine check_accepts (Fragment.name_located hmade.isIdentifier_name)
    Fragment.keys_located_subset hkind ?_
  rw [← houtcome]
  exact checkLocated_accepts husable hrefused hfieldsClean henumsClean hclean

end Register

end RegisterMap
