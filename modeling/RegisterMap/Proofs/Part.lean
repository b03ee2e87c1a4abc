import Mathlib.Data.List.Forall2
import RegisterMap.Check.Part
import RegisterMap.Proofs.Reading

/-!
# Accepted and refused parts

What the checks of enum values, enumerations and bit fields accept is said key by key. None of them
refuses a table without a diagnostic that says why. Of a list of tables that were checked without
any diagnostic none was refused, and the accepted parts are those of the tables, one by one.
-/

namespace RegisterMap

variable {α β γ : Type} {path : Path} {t : Table}

/-! ### Corresponding lists -/

lemma exists_of_forall₂_of_mem {R : α → β → Prop} {as : List α} {bs : List β}
    (h : List.Forall₂ R as bs) {b : β} (hb : b ∈ bs) : ∃ a ∈ as, R a b := by
  induction h with
  | nil => cases hb
  | cons hR _ ih =>
    rcases List.mem_cons.mp hb with rfl | hb
    · exact ⟨_, List.mem_cons_self, hR⟩
    · obtain ⟨a, ha, hRa⟩ := ih hb
      exact ⟨a, List.mem_cons_of_mem _ ha, hRa⟩

lemma exists_of_mem_of_forall₂ {R : α → β → Prop} {as : List α} {bs : List β}
    (h : List.Forall₂ R as bs) {a : α} (ha : a ∈ as) : ∃ b ∈ bs, R a b :=
  exists_of_forall₂_of_mem (List.Forall₂.flip (R := flip R) h) ha

lemma forall₂_trans {R : α → β → Prop} {S : β → γ → Prop} {T : α → γ → Prop}
    (hT : ∀ a b c, R a b → S b c → T a c) {as : List α} {bs : List β} {cs : List γ}
    (hR : List.Forall₂ R as bs) (hS : List.Forall₂ S bs cs) : List.Forall₂ T as cs := by
  induction hR generalizing cs with
  | nil =>
    cases hS
    exact .nil
  | cons hab _ ih =>
    cases hS with
    | cons hbc hS => exact .cons (hT _ _ _ hab hbc) (ih hS)

/-! ### Reasons -/

namespace Diagnostic

/-- Whether a diagnostic is a reason to refuse a table of a kind. An unknown key is none, nor is
what is wrong with the tables inside. -/
def isReason (kind : TableKind) (d : Diagnostic) : Bool := d.table == kind && d.kind != .unknownKey

/-- The reasons among diagnostics to refuse a table of a kind. -/
def reasons (kind : TableKind) (ds : List Diagnostic) : List Diagnostic := ds.filter (isReason kind)

variable {kind : TableKind}

@[simp] lemma reasons_append (ds es : List Diagnostic) :
    reasons kind (ds ++ es) = reasons kind ds ++ reasons kind es := List.filter_append _ _

lemma reasons_ne_nil_iff {ds : List Diagnostic} :
    reasons kind ds ≠ [] ↔ ∃ d ∈ ds, d.table = kind ∧ d.kind ≠ .unknownKey := by
  simp [reasons, isReason]

end Diagnostic

namespace Reading

open Diagnostic

variable {kind : TableKind} (path : Path) (key : String) (r : Reading α)

@[simp] lemma reasons_problems :
    reasons kind (r.problems kind path key) = r.problems kind path key := by
  cases r <;> simp [problems, reasons, isReason, invalidValue]

@[simp] lemma reasons_requiredProblems :
    reasons kind (r.requiredProblems kind path key) = r.requiredProblems kind path key := by
  cases r <;> simp [requiredProblems, reasons, isReason, invalidValue, missingKey]

variable {other : TableKind}

lemma reasons_problems_of_ne (h : other ≠ kind) :
    reasons kind (r.problems other path key) = [] := by
  cases r <;> simp [problems, reasons, isReason, invalidValue, h]

lemma reasons_requiredProblems_of_ne (h : other ≠ kind) :
    reasons kind (r.requiredProblems other path key) = [] := by
  cases r <;> simp [requiredProblems, reasons, isReason, invalidValue, missingKey, h]

end Reading

@[simp] lemma Table.reasons_unknownKeyProblems {kind other : TableKind} {allowed : List String} :
    Diagnostic.reasons kind (t.unknownKeyProblems other path allowed) = [] := by
  rw [Diagnostic.reasons, List.filter_eq_nil_iff, unknownKeyProblems, List.forall_mem_map]
  intro _ _
  simp [Diagnostic.isReason, Diagnostic.unknownKey]

/-! ### Checks -/

/-- A check explains a refusal if it reports something whenever nothing comes of it. -/
def Checked.Explains (c : Checked (Option α)) : Prop :=
  c.outcome = none → c.report.diagnostics ≠ []

/-- A check gives a reason if it reports one whenever it refuses its table. -/
def Checked.GivesReason (kind : TableKind) (c : Checked (Option α)) : Prop :=
  c.outcome = none → Diagnostic.reasons kind c.report.diagnostics ≠ []

lemma Checked.GivesReason.explains {kind : TableKind} {c : Checked (Option α)}
    (h : c.GivesReason kind) : c.Explains := by
  intro hnone hclean
  apply h hnone
  rw [hclean]
  rfl

/-- A check that accepted its table without any diagnostic. -/
def Checked.Accepts (c : Checked (Option α)) (a : α) : Prop :=
  c.outcome = some a ∧ c.report.diagnostics = []

lemma Checked.Explains.exists_accepts {c : Checked (Option α)} (h : c.Explains)
    (hclean : c.report.diagnostics = []) : ∃ a, c.Accepts a := by
  obtain ⟨a, ha⟩ := Option.ne_none_iff_exists'.mp fun hnone => h hnone hclean
  exact ⟨a, ha, hclean⟩

/-! ### Lists of tables -/

namespace CheckedList

variable {check : Table → Checked (Option α)} {ts : List Table}

lemma accepted_eq :
    (ofTables check ts).accepted = ts.filterMap fun t => (check t).outcome := by
  induction ts with
  | nil => rfl
  | cons t ts ih =>
    simp only [ofTables]
    cases h : (check t).outcome <;> simp [h, ih]

lemma refused_eq :
    (ofTables check ts).refused = ts.filter fun t => (check t).outcome.isNone := by
  induction ts with
  | nil => rfl
  | cons t ts ih =>
    simp only [ofTables]
    cases h : (check t).outcome <;> simp [h, ih]

lemma report_eq : (ofTables check ts).report = ts.flatMap fun t => (check t).report := by
  induction ts with
  | nil => rfl
  | cons t ts ih =>
    simp only [ofTables]
    cases h : (check t).outcome <;> simp [ih]

lemma diagnostics_eq_nil_iff :
    (ofTables check ts).report.diagnostics = [] ↔
      ∀ t ∈ ts, (check t).report.diagnostics = [] := by
  rw [report_eq]
  induction ts with
  | nil => simp
  | cons t ts ih => simp [ih]

/-- Checks that give no reasons to refuse a table of some kind give none for a list of tables. -/
lemma reasons_eq_nil {kind : TableKind}
    (h : ∀ t, Diagnostic.reasons kind (check t).report.diagnostics = []) :
    Diagnostic.reasons kind (ofTables check ts).report.diagnostics = [] := by
  induction ts with
  | nil => rfl
  | cons t ts ih =>
    simp only [ofTables]
    cases (check t).outcome <;> simp [h, ih]

/-- Nothing is refused without a diagnostic. -/
lemma refused_eq_nil (hexplains : ∀ t ∈ ts, (check t).Explains)
    (hclean : (ofTables check ts).report.diagnostics = []) :
    (ofTables check ts).refused = [] := by
  rw [refused_eq, List.filter_eq_nil_iff]
  intro t ht hnone
  exact hexplains t ht (Option.isNone_iff_eq_none.mp hnone) (diagnostics_eq_nil_iff.mp hclean t ht)

/-- Without diagnostics, the tables and what was accepted correspond one to one. -/
lemma forall₂_accepts (hexplains : ∀ t ∈ ts, (check t).Explains)
    (hclean : (ofTables check ts).report.diagnostics = []) :
    List.Forall₂ (fun t a => (check t).Accepts a) ts (ofTables check ts).accepted := by
  rw [diagnostics_eq_nil_iff] at hclean
  induction ts with
  | nil => exact .nil
  | cons t ts ih =>
    obtain ⟨a, ha⟩ := (hexplains t (by simp)).exists_accepts (hclean t (by simp))
    have hrest := ih (fun u hu => hexplains u (by simp [hu])) fun u hu => hclean u (by simp [hu])
    simp only [ofTables, ha.1]
    exact .cons ha hrest

end CheckedList

/-! ### Enum values -/

namespace EnumValue

lemma check_outcome_eq_some_iff {v : EnumValue} :
    (check path t).outcome = some v ↔
      t.name "name" = .valid v.name ∧
        t.unsigned "value" Table.maxUnsigned = .valid v.value ∧
        (t.text "description").optional? = some v.description := by
  simp only [check, Option.bind_eq_bind, Option.bind_eq_some_iff, Reading.value?_eq_some_iff,
    Option.pure_def, Option.some.injEq]
  constructor
  · rintro ⟨name, hname, value, hvalue, description, hdescription, rfl⟩
    exact ⟨hname, hvalue, hdescription⟩
  · rintro ⟨hname, hvalue, hdescription⟩
    exact ⟨_, hname, _, hvalue, _, hdescription, rfl⟩

lemma check_givesReason : (check path t).GivesReason .enumValue := by
  intro hnone hclean
  simp only [check, Report.diagnostics_ofDiagnostics, Diagnostic.reasons_append,
    Reading.reasons_problems, Reading.reasons_requiredProblems, List.append_eq_nil_iff,
    Reading.requiredProblems_eq_nil_iff, Reading.problems_eq_nil_iff] at hclean
  obtain ⟨⟨⟨⟨name, hname⟩, _⟩, value, hvalue⟩, description, hdescription⟩ := hclean
  have hsome : (check path t).outcome = some ⟨value, name, description⟩ :=
    check_outcome_eq_some_iff.mpr ⟨hname, hvalue, hdescription⟩
  simp [hnone] at hsome

lemma check_explains : (check path t).Explains := check_givesReason.explains

lemma reasons_check_of_ne {kind : TableKind} (h : .enumValue ≠ kind) :
    Diagnostic.reasons kind (check path t).report.diagnostics = [] := by
  simp [check, Reading.reasons_problems_of_ne _ _ _ h, Reading.reasons_requiredProblems_of_ne _ _ _ h]

end EnumValue

/-! ### Enumerations -/

namespace RegisterEnum

/-- The path inside an enumeration with a name. -/
def inside (path : Path) (name : String) : Path := path.enter (some s!"enum '{name}'")

lemma check_outcome_eq_some_iff {e : RegisterEnum} :
    (check path t).outcome = some e ↔
      t.name "name" = .valid e.name ∧
        t.convertedText "bit" Conversion.bitRange = .valid e.range ∧
        (t.text "description").optional? = some e.description ∧
        (∃ ts, t.tables "values" = .valid ts ∧
          e.values = (CheckedList.ofTables (EnumValue.check (inside path e.name)) ts).accepted) ∧
        e.isComplete = false := by
  simp only [check, Option.bind_eq_bind, Option.bind_eq_some_iff, Reading.value?_eq_some_iff,
    Option.pure_def, Option.some.injEq, CheckedList.ofReading]
  constructor
  · rintro ⟨name, hname, range, hrange, description, hdescription, ts, hts, rfl⟩
    refine ⟨hname, hrange, hdescription, ⟨ts, hts, ?_⟩, rfl⟩
    simp only [hname, hts, Reading.value?, Option.map_some, Option.getD_some]
    rfl
  · rintro ⟨hname, hrange, hdescription, ⟨ts, hts, hvalues⟩, hcomplete⟩
    refine ⟨_, hname, _, hrange, _, hdescription, ts, hts, ?_⟩
    simp only [hname, hts, Reading.value?, Option.map_some, Option.getD_some]
    cases e
    simp_all [inside]

/-- A table is refused if a key of it is unusable, whatever its values are. -/
lemma check_outcome_eq_none_iff :
    (check path t).outcome = none ↔ ¬ ∃ name range description ts, t.name "name" = .valid name ∧
      t.convertedText "bit" Conversion.bitRange = .valid range ∧
      (t.text "description").optional? = some description ∧ t.tables "values" = .valid ts := by
  rw [← not_iff_not, not_not, ← Ne, Option.ne_none_iff_exists']
  constructor
  · rintro ⟨e, he⟩
    obtain ⟨hname, hrange, hdescription, ⟨ts, hts, _⟩, _⟩ := check_outcome_eq_some_iff.mp he
    exact ⟨_, _, _, ts, hname, hrange, hdescription, hts⟩
  · rintro ⟨name, range, description, ts, hname, hrange, hdescription, hts⟩
    exact ⟨⟨name, range, (CheckedList.ofTables (EnumValue.check (inside path name)) ts).accepted,
      description, false⟩,
      check_outcome_eq_some_iff.mpr ⟨hname, hrange, hdescription, ⟨ts, hts, rfl⟩, rfl⟩⟩

/-- The diagnostics of a named enumeration include those of its values. -/
lemma values_diagnostics_eq_nil {name : String} {ts : List Table}
    (hname : t.name "name" = .valid name) (hts : t.tables "values" = .valid ts)
    (hclean : (check path t).report.diagnostics = []) :
    (CheckedList.ofTables (EnumValue.check (inside path name)) ts).report.diagnostics = [] := by
  simp only [check, Report.diagnostics_append, List.append_eq_nil_iff, CheckedList.ofReading,
    hname, hts, Reading.value?, Option.map_some, Option.getD_some] at hclean
  exact hclean.2

lemma check_givesReason : (check path t).GivesReason .enumeration := by
  intro hnone hclean
  simp only [check, Report.diagnostics_append, Report.diagnostics_ofDiagnostics,
    Diagnostic.reasons_append, Reading.reasons_problems, Reading.reasons_requiredProblems,
    List.append_eq_nil_iff, Reading.requiredProblems_eq_nil_iff, Reading.problems_eq_nil_iff]
    at hclean
  obtain ⟨⟨⟨⟨⟨⟨name, hname⟩, _⟩, range, hrange⟩, description, hdescription⟩, ts, hts⟩, _⟩ := hclean
  exact check_outcome_eq_none_iff.mp hnone
    ⟨name, range, description, ts, hname, hrange, hdescription, hts⟩

lemma check_explains : (check path t).Explains := check_givesReason.explains

/-- What is wrong with an enumeration, or with its values, is no reason to refuse another table. -/
lemma reasons_check_of_ne {kind : TableKind} (h : .enumeration ≠ kind) (hvalue : .enumValue ≠ kind) :
    Diagnostic.reasons kind (check path t).report.diagnostics = [] := by
  have hvalues (inner : Path) (r : Reading (List Table)) : Diagnostic.reasons kind
      (CheckedList.ofReading (EnumValue.check inner) r).report.diagnostics = [] :=
    CheckedList.reasons_eq_nil fun _ => EnumValue.reasons_check_of_ne hvalue
  simp [check, hvalues, Reading.reasons_problems_of_ne _ _ _ h,
    Reading.reasons_requiredProblems_of_ne _ _ _ h]

/-- How an enumeration was made from a table without diagnostics. -/
structure MadeFrom (path : Path) (t : Table) (e : RegisterEnum) : Prop where
  name_eq : t.name "name" = .valid e.name
  range_eq : t.convertedText "bit" Conversion.bitRange = .valid e.range
  description_eq : (t.text "description").optional? = some e.description
  values_accepted : ∃ ts, t.tables "values" = .valid ts ∧
    List.Forall₂ (fun t v => (EnumValue.check (inside path e.name) t).Accepts v) ts e.values

lemma madeFrom_of_accepts {e : RegisterEnum} (h : (check path t).Accepts e) :
    MadeFrom path t e := by
  obtain ⟨hsome, hclean⟩ := h
  obtain ⟨hname, hrange, hdescription, ⟨ts, hts, hvalues⟩, _⟩ :=
    check_outcome_eq_some_iff.mp hsome
  refine ⟨hname, hrange, hdescription, ts, hts, ?_⟩
  rw [hvalues]
  exact CheckedList.forall₂_accepts (fun _ _ => EnumValue.check_explains)
    (values_diagnostics_eq_nil hname hts hclean)

end RegisterEnum

/-! ### Bit fields -/

namespace BitField

lemma reservedProblems_eq_nil_iff (path : Path) :
    reservedProblems path t = [] ↔ t.has "name" = false ∧ t.has "description" = false := by
  simp [reservedProblems, keysOfNamed, List.filter_cons]
  split_ifs <;> simp_all

lemma checkFit_outcome_eq_some_iff {range : BitRange} {isReserved : Bool}
    {name description : Option String} {f : BitField} :
    (checkFit path t range isReserved name description).outcome = some f ↔
      if isReserved = true then
        (t.has "name" = false ∧ t.has "description" = false) ∧ f = reserved range
      else name ≠ none ∧ f = ⟨range, name, description⟩ := by
  unfold checkFit
  cases isReserved with
  | true =>
    simp only [if_true, ← reservedProblems_eq_nil_iff path, List.isEmpty_iff]
    split_ifs with h <;> simp [h, eq_comm]
  | false => cases name <;> simp [eq_comm]

lemma reasons_reservedProblems :
    Diagnostic.reasons .bitField (reservedProblems path t) = reservedProblems path t := by
  rw [Diagnostic.reasons, List.filter_eq_self, reservedProblems, List.forall_mem_map]
  exact fun _ _ => rfl

lemma checkFit_givesReason {range : BitRange} {isReserved : Bool}
    {name description : Option String} :
    (checkFit path t range isReserved name description).GivesReason .bitField := by
  unfold checkFit Checked.GivesReason
  cases isReserved with
  | true => simp [reasons_reservedProblems]
  | false => cases name <;> simp [Diagnostic.reasons, Diagnostic.isReason, Diagnostic.missingKey]

/-- The path inside a bit field with a range. -/
def inside (path : Path) (range : BitRange) : Path :=
  path.enter (some s!"bit field with range '{range}'")

/-- The keys of a table that are all usable, with what they say. -/
structure Usable (t : Table) (range : BitRange) (isReserved : Option Bool)
    (name description : Option String) : Prop where
  range_eq : t.convertedText "bit" Conversion.bitRange = .valid range
  isReserved_eq : (t.boolean "reserved").optional? = some isReserved
  name_eq : (t.name "name").optional? = some name
  description_eq : (t.text "description").optional? = some description

lemma check_of_usable (path : Path) {range : BitRange} {isReserved : Option Bool}
    {name description : Option String} (h : Usable t range isReserved name description) :
    ∃ report, check path t =
      ⟨(checkFit (inside path range) t range (isReserved.getD false) name description).outcome,
        report ++ (checkFit (inside path range) t range (isReserved.getD false) name
          description).report⟩ := by
  simp only [check, h.range_eq, h.isReserved_eq, h.name_eq, h.description_eq, Reading.value?,
    Option.map_some]
  exact ⟨_, rfl⟩

/-- A table with an unusable key is refused for this reason. -/
lemma check_of_not_usable
    (h : ¬ ∃ range isReserved name description, Usable t range isReserved name description) :
    (check path t).outcome = none ∧
      Diagnostic.reasons .bitField (check path t).report.diagnostics ≠ [] := by
  simp only [check]
  split
  next range isReserved name description hrange hreserved hname hdescription =>
    exact absurd ⟨range, isReserved, name, description, Reading.value?_eq_some_iff.mp hrange,
      hreserved, hname, hdescription⟩ h
  next =>
    refine ⟨rfl, fun hclean => h ?_⟩
    simp only [Report.diagnostics_ofDiagnostics, Diagnostic.reasons_append,
      Reading.reasons_problems, Reading.reasons_requiredProblems, List.append_eq_nil_iff,
      Reading.requiredProblems_eq_nil_iff, Reading.problems_eq_nil_iff] at hclean
    obtain ⟨⟨⟨⟨⟨range, hrange⟩, _⟩, isReserved, hreserved⟩, name, hname⟩, description,
      hdescription⟩ := hclean
    exact ⟨range, isReserved, name, description, hrange, hreserved, hname, hdescription⟩

/-- A key that may be absent has no value exactly when it is absent. -/
private lemma optional?_eq_some_none_iff {r : Reading α} {key : String}
    (habsent : r = .absent ↔ t.get? key = none) :
    r.optional? = some none ↔ t.has key = false := by
  rw [Table.has_eq_false_iff, ← habsent, Reading.optional?_eq_some_iff]
  simp

lemma check_outcome_eq_some_iff {f : BitField} :
    (check path t).outcome = some f ↔
      ∃ isReserved, Usable t f.range isReserved f.name f.description ∧
        if isReserved = some true then f.name = none ∧ f.description = none
        else f.name ≠ none := by
  have hname : (t.name "name").optional? = some none ↔ t.has "name" = false :=
    optional?_eq_some_none_iff Table.name_eq_absent_iff
  have hdescription : (t.text "description").optional? = some none ↔
      t.has "description" = false := optional?_eq_some_none_iff Table.text_eq_absent_iff
  constructor
  · intro h
    by_cases hu : ∃ range isReserved name description, Usable t range isReserved name description
    · obtain ⟨range, isReserved, name, description, hu⟩ := hu
      obtain ⟨report, hcheck⟩ := check_of_usable path hu
      simp only [hcheck, checkFit_outcome_eq_some_iff] at h
      refine ⟨isReserved, ?_⟩
      by_cases hreserved : isReserved = some true
      · rw [if_pos (by simp [hreserved])] at h
        obtain ⟨⟨hn, hd⟩, rfl⟩ := h
        have husable : Usable t range isReserved none none :=
          ⟨hu.range_eq, hu.isReserved_eq, hname.mpr hn, hdescription.mpr hd⟩
        exact ⟨husable, by simp [hreserved, reserved]⟩
      · rw [if_neg (by cases isReserved <;> simp_all)] at h
        obtain ⟨hn, rfl⟩ := h
        exact ⟨hu, by simp [hreserved, hn]⟩
    · simp [(check_of_not_usable hu).1] at h
  · rintro ⟨isReserved, hu, hfit⟩
    obtain ⟨report, hcheck⟩ := check_of_usable path hu
    simp only [hcheck, checkFit_outcome_eq_some_iff]
    by_cases hreserved : isReserved = some true
    · rw [if_pos hreserved] at hfit
      rw [if_pos (by simp [hreserved])]
      refine ⟨⟨hname.mp ?_, hdescription.mp ?_⟩, ?_⟩
      · rw [hu.name_eq, hfit.1]
      · rw [hu.description_eq, hfit.2]
      · cases f
        simp_all [reserved]
    · rw [if_neg hreserved] at hfit
      rw [if_neg (by cases isReserved <;> simp_all)]
      exact ⟨hfit, trivial⟩

lemma check_givesReason : (check path t).GivesReason .bitField := by
  intro hnone hclean
  by_cases hu : ∃ range isReserved name description, Usable t range isReserved name description
  · obtain ⟨range, isReserved, name, description, hu⟩ := hu
    obtain ⟨report, hcheck⟩ := check_of_usable path hu
    rw [hcheck] at hnone hclean
    rw [Report.diagnostics_append, Diagnostic.reasons_append, List.append_eq_nil_iff] at hclean
    exact checkFit_givesReason hnone hclean.2
  · exact (check_of_not_usable hu).2 hclean

lemma check_explains : (check path t).Explains := check_givesReason.explains

lemma reasons_checkFit_of_ne {kind : TableKind} (h : .bitField ≠ kind) {range : BitRange}
    {isReserved : Bool} {name description : Option String} :
    Diagnostic.reasons kind
      (checkFit path t range isReserved name description).report.diagnostics = [] := by
  have hreserved : Diagnostic.reasons kind (reservedProblems path t) = [] := by
    rw [Diagnostic.reasons, List.filter_eq_nil_iff, reservedProblems, List.forall_mem_map]
    intro _ _
    simp [Diagnostic.isReason, Diagnostic.constraint, h]
  unfold checkFit
  cases isReserved with
  | true => simp [hreserved]
  | false => cases name <;> simp [Diagnostic.reasons, Diagnostic.isReason, Diagnostic.missingKey, h]

lemma reasons_check_of_ne {kind : TableKind} (h : .bitField ≠ kind) :
    Diagnostic.reasons kind (check path t).report.diagnostics = [] := by
  simp only [check]
  split <;>
    simp [reasons_checkFit_of_ne h, Reading.reasons_problems_of_ne _ _ _ h,
      Reading.reasons_requiredProblems_of_ne _ _ _ h]

end BitField

end RegisterMap
