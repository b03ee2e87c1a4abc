import RegisterMap.Proofs.Mirror
import RegisterMap.Proofs.Procedure.Part

/-!
# The grammars of the parts of a register

A table is written as a bit field, an enum value or an enumeration if its keys have values of the
right types and content, and go together. The procedures for these tables decide the grammars: they
accept the tables that are written so, as what they are written as, and refuse all others, with a
reason on record. Keys that the grammar does not know change nothing.
-/

namespace RegisterMap

variable {α : Type} {path : Path} {t : Table}

/-! ### Deciding a grammar -/

namespace Procedure

/-- What a procedure accepts a table as when it is checked alone, if it accepts it. -/
def acceptedAs? (p : Table → Procedure Context α) (t : Table) : Option α :=
  match (p t).run .empty with
  | .ok a _ => some a
  | .error _ _ => none

/-- A procedure for the tables of a kind decides a grammar if it accepts those that have the
grammar, as what they stand for, and refuses all others after recording a reason: that a key of
theirs is missing, that a value is unusable, or that something does not go together. -/
structure Decides (p : Table → Procedure Context α) (kind : TableKind)
    (Grammar : Table → α → Prop) : Prop where
  accepts_iff : ∀ t c a, (∃ c', (p t).run c = .ok a c') ↔ Grammar t a
  refuses : ∀ t c, (∀ a, ¬ Grammar t a) →
    ∃ ds, (p t).run c = .error (.refused kind) (c.record ds) ∧
      ∃ problem ∈ ds, problem.table = kind ∧
        (problem.kind = .missingKey ∨ problem.kind = .invalidValue ∨ problem.kind = .constraint)

section Follows

variable {p : Table → Procedure Context α} {kind : TableKind}
  {check : Path → Table → Checked (Option α)} {Grammar : Table → α → Prop}

lemma Follows.run_eq_ok_iff (h : Follows p kind check) {t : Table} {c c' : Context} {a : α} :
    (p t).run c = .ok a c' ↔
      (check c.path t).outcome = some a ∧ c' = c.record (check c.path t).report.diagnostics := by
  rw [h t c, answer]
  cases (check c.path t).outcome <;> simp [eq_comm]

lemma Follows.acceptedAs?_eq (h : Follows p kind check) (t : Table) :
    acceptedAs? p t = (check [] t).outcome := by
  rw [acceptedAs?, h t .empty, answer]
  show _ = (check Context.empty.path t).outcome
  cases (check Context.empty.path t).outcome <;> rfl

/-- A procedure that does what a check tells decides the grammar of the tables that the check
accepts, if the check gives a reason for every table that it refuses. -/
lemma Follows.decides (h : Follows p kind check)
    (hgrammar : ∀ path t a, (check path t).outcome = some a ↔ Grammar t a)
    (hreason : ∀ path t, (check path t).GivesReason kind) : Decides p kind Grammar where
  accepts_iff t c a := by
    simp only [h.run_eq_ok_iff, exists_and_left, exists_eq, and_true, hgrammar]
  refuses t c hnot := by
    have hnone : (check c.path t).outcome = none := by
      rw [Option.eq_none_iff_forall_ne_some]
      intro a ha
      exact hnot a ((hgrammar c.path t a).mp ha)
    have hrun : (p t).run c =
        .error (.refused kind) (c.record (check c.path t).report.diagnostics) := by
      rw [h t c, answer, hnone]
    obtain ⟨problem, hmem, htable, hkind⟩ :=
      Diagnostic.reasons_ne_nil_iff.mp (hreason c.path t hnone)
    refine ⟨_, hrun, problem, hmem, htable, ?_⟩
    cases hproblem : problem.kind <;> simp_all

/-- What a table is accepted as does not depend on what is around it. -/
lemma Follows.outcome_eq (h : Follows p kind check)
    (hgrammar : ∀ path t a, (check path t).outcome = some a ↔ Grammar t a) (path : Path)
    (t : Table) : (check path t).outcome = acceptedAs? p t := by
  rw [h.acceptedAs?_eq]
  exact Option.ext fun a => (hgrammar path t a).trans (hgrammar [] t a).symm

/-- Of a list of tables, those are accepted that are accepted alone. -/
lemma Follows.accepted_eq (h : Follows p kind check)
    (hgrammar : ∀ path t a, (check path t).outcome = some a ↔ Grammar t a) (path : Path)
    (ts : List Table) :
    (CheckedList.ofTables (check path) ts).accepted = ts.filterMap (acceptedAs? p) := by
  simp only [CheckedList.accepted_eq, h.outcome_eq hgrammar]

/-- The tables that are refused are those that are refused alone. -/
lemma Follows.refused_eq (h : Follows p kind check)
    (hgrammar : ∀ path t a, (check path t).outcome = some a ↔ Grammar t a) (path : Path)
    (ts : List Table) :
    (CheckedList.ofTables (check path) ts).refused =
      ts.filter fun t => (acceptedAs? p t).isNone := by
  simp only [CheckedList.refused_eq, h.outcome_eq hgrammar]

end Follows

end Procedure

open Procedure

/-! ### Enum values -/

namespace EnumValue

/-- A table is written as an enum value. -/
structure WrittenAs (t : Table) (v : EnumValue) : Prop extends Mirrors t v where
  isIdentifier_name : Name.isIdentifier v.name = true
  value_nonneg : 0 ≤ v.value
  value_le : v.value ≤ 2 ^ 64 - 1
  description_eq : t.get? "description" = v.description.map .text

lemma check_outcome_eq_some_iff_writtenAs (path : Path) (t : Table) (v : EnumValue) :
    (check path t).outcome = some v ↔ WrittenAs t v := by
  have hmax : ((Table.maxUnsigned : Nat) : Int) = 2 ^ 64 - 1 := by decide
  rw [check_outcome_eq_some_iff, Table.name_eq_valid_iff, Table.unsigned_eq_valid_iff,
    Table.text_optional?_eq_some_iff, hmax]
  constructor
  · rintro ⟨⟨hname, hidentifier⟩, ⟨hvalue, hnonneg, hle⟩, hdescription⟩
    exact ⟨⟨hname, hvalue⟩, hidentifier, hnonneg, hle, hdescription⟩
  · intro h
    exact ⟨⟨h.name_eq, h.isIdentifier_name⟩, ⟨h.value_eq, h.value_nonneg, h.value_le⟩,
      h.description_eq⟩

lemma checkEnumValue_decides : Decides checkEnumValue .enumValue WrittenAs :=
  checkEnumValue_follows.decides check_outcome_eq_some_iff_writtenAs fun _ _ => check_givesReason

end EnumValue

/-! ### Enumerations -/

namespace RegisterEnum

/-- A table is written as an enumeration, whose values are those of the tables of its array that are
accepted. -/
structure WrittenAs (t : Table) (e : RegisterEnum) : Prop where
  name_eq : t.get? "name" = some (.text e.name)
  isIdentifier_name : Name.isIdentifier e.name = true
  range_mirrors : e.range.Mirrors t
  description_eq : t.get? "description" = e.description.map .text
  values_accepted : ∃ ts : List Table, t.get? "values" = some (.array (ts.map .table)) ∧
    e.values = ts.filterMap (acceptedAs? checkEnumValue)
  isComplete_eq : e.isComplete = false

lemma check_outcome_eq_some_iff_writtenAs (path : Path) (t : Table) (e : RegisterEnum) :
    (check path t).outcome = some e ↔ WrittenAs t e := by
  have haccepted (ts : List Table) :
      (CheckedList.ofTables (EnumValue.check (inside path e.name)) ts).accepted =
        ts.filterMap (acceptedAs? checkEnumValue) :=
    checkEnumValue_follows.accepted_eq EnumValue.check_outcome_eq_some_iff_writtenAs _ ts
  simp only [check_outcome_eq_some_iff, Table.name_eq_valid_iff, ← BitRange.mirrors_iff,
    Table.text_optional?_eq_some_iff, Table.tables_eq_valid_iff, haccepted]
  constructor
  · rintro ⟨⟨hname, hidentifier⟩, hrange, hdescription, hvalues, hcomplete⟩
    exact ⟨hname, hidentifier, hrange, hdescription, hvalues, hcomplete⟩
  · intro h
    exact ⟨⟨h.name_eq, h.isIdentifier_name⟩, h.range_mirrors, h.description_eq, h.values_accepted,
      h.isComplete_eq⟩

lemma checkEnum_decides : Decides checkEnum .enumeration WrittenAs :=
  checkEnum_follows.decides check_outcome_eq_some_iff_writtenAs fun _ _ => check_givesReason

end RegisterEnum

/-! ### Bit fields -/

namespace BitField

/-- A table is written as a bit field, which is reserved or has a name. -/
inductive WrittenAs (t : Table) : BitField → Prop
  | reserved {range : BitRange} (hrange : range.Mirrors t)
    (hreserved : t.get? "reserved" = some (.boolean true)) (hname : t.get? "name" = none)
    (hdescription : t.get? "description" = none) : WrittenAs t (.reserved range)
  | named {range : BitRange} {name : String} {description : Option String}
    (hrange : range.Mirrors t)
    (hreserved : t.get? "reserved" = none ∨ t.get? "reserved" = some (.boolean false))
    (hname : t.get? "name" = some (.text name)) (hidentifier : Name.isIdentifier name = true)
    (hdescription : t.get? "description" = description.map .text) :
    WrittenAs t ⟨range, some name, description⟩

/-- The keys of a table are usable if their values are of the right types and content. -/
lemma usable_iff {range : BitRange} {isReserved : Option Bool} {name description : Option String} :
    Usable t range isReserved name description ↔
      range.Mirrors t ∧ t.get? "reserved" = isReserved.map .boolean ∧
        (t.get? "name" = name.map .text ∧ ∀ s ∈ name, Name.isIdentifier s = true) ∧
        t.get? "description" = description.map .text := by
  rw [BitRange.mirrors_iff, ← Table.boolean_optional?_eq_some_iff,
    ← Table.name_optional?_eq_some_iff, ← Table.text_optional?_eq_some_iff]
  exact ⟨fun ⟨hrange, hreserved, hname, hdescription⟩ => ⟨hrange, hreserved, hname, hdescription⟩,
    fun ⟨hrange, hreserved, hname, hdescription⟩ => ⟨hrange, hreserved, hname, hdescription⟩⟩

lemma check_outcome_eq_some_iff_writtenAs (path : Path) (t : Table) (f : BitField) :
    (check path t).outcome = some f ↔ WrittenAs t f := by
  obtain ⟨range, name, description⟩ := f
  simp only [check_outcome_eq_some_iff, usable_iff]
  constructor
  · rintro ⟨isReserved, ⟨hrange, hreserved, ⟨hname, hidentifier⟩, hdescription⟩, hfit⟩
    split_ifs at hfit with htrue
    · obtain ⟨rfl, rfl⟩ := hfit
      rw [htrue] at hreserved
      exact .reserved hrange hreserved hname hdescription
    · obtain ⟨name, rfl⟩ := Option.ne_none_iff_exists'.mp hfit
      have hfalse : t.get? "reserved" = none ∨ t.get? "reserved" = some (.boolean false) := by
        rcases isReserved with _ | _ | _ <;> simp_all
      exact .named hrange hfalse hname (hidentifier name rfl) hdescription
  · rintro (⟨hrange, hreserved, hname, hdescription⟩ |
      ⟨hrange, hreserved, hname, hidentifier, hdescription⟩)
    · exact ⟨some true, ⟨hrange, hreserved, ⟨hname, by simp⟩, hdescription⟩, by simp⟩
    · rcases hreserved with habsent | hfalse
      · exact ⟨none, ⟨hrange, habsent, ⟨hname, by simpa using hidentifier⟩, hdescription⟩, by simp⟩
      · exact ⟨some false, ⟨hrange, hfalse, ⟨hname, by simpa using hidentifier⟩, hdescription⟩,
          by simp⟩

lemma checkBitField_decides : Decides checkBitField .bitField WrittenAs :=
  checkBitField_follows.decides check_outcome_eq_some_iff_writtenAs fun _ _ => check_givesReason

end BitField

/-! ### The parts of a register -/

/-- The procedures for the tables of bit fields, enum values and enumerations accept exactly what is
written as one of these, in any context, and a table that is refused has been given a reason of its
own: what is wrong with the values of an enumeration does not refuse it. -/
theorem Procedure.checks_decide_parts :
    Decides checkBitField .bitField BitField.WrittenAs ∧
      Decides checkEnumValue .enumValue EnumValue.WrittenAs ∧
      Decides checkEnum .enumeration RegisterEnum.WrittenAs :=
  ⟨BitField.checkBitField_decides, EnumValue.checkEnumValue_decides,
    RegisterEnum.checkEnum_decides⟩

end RegisterMap
