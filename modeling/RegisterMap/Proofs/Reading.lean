import Mathlib.Tactic.Lemma
import Mathlib.Tactic.SplitIfs
import RegisterMap.Document.Reading

/-!
# What a reading says of its table

A reading is absent exactly when its key is, and valid exactly when the key has a value of the
right type and content. It has no problem exactly when something can be made of it.
-/

namespace RegisterMap

variable {α β : Type}

/-! ### Outcomes and problems -/

namespace Reading

@[simp] lemma value?_eq_some_iff {r : Reading α} {a : α} : r.value? = some a ↔ r = .valid a := by
  cases r <;> simp [value?]

@[simp] lemma value?_eq_none_iff {r : Reading α} : r.value? = none ↔ ∀ a, r ≠ .valid a := by
  cases r <;> simp [value?]

lemma optional?_eq_some_iff {r : Reading α} {o : Option α} :
    r.optional? = some o ↔ (r = .absent ∧ o = none) ∨ ∃ a, r = .valid a ∧ o = some a := by
  cases r <;> simp [optional?, eq_comm]

lemma requiredProblems_eq_nil_iff {r : Reading α} {table : TableKind} {path : Path}
    {key : String} : r.requiredProblems table path key = [] ↔ ∃ a, r = .valid a := by
  cases r <;> simp [requiredProblems]

lemma problems_eq_nil_iff {r : Reading α} {table : TableKind} {path : Path} {key : String} :
    r.problems table path key = [] ↔ ∃ o, r.optional? = some o := by
  cases r <;> simp [problems, optional?]

lemma exists_orDefault?_eq_some {r : Reading α} {o : Option α} (default : α)
    (h : r.optional? = some o) : ∃ a, r.orDefault? (some default) = some a := by
  cases r with
  | absent => exact ⟨default, rfl⟩
  | invalid fault => cases h
  | valid a => exact ⟨a, rfl⟩

lemma orDefault?_eq_some_iff {r : Reading α} {default : Option α} {a : α} :
    r.orDefault? default = some a ↔ (r = .absent ∧ default = some a) ∨ r = .valid a := by
  cases r <;> simp [orDefault?]

/-- A key that may be absent has the value that its table has, if the reading of the key is that of
its value. -/
lemma optional?_eq_some_iff_get? {t : Table} {key : String} {r : Reading α} {f : α → Value}
    (habsent : r = .absent ↔ t.get? key = none)
    (hvalid : ∀ a, r = .valid a ↔ t.get? key = some (f a)) {o : Option α} :
    r.optional? = some o ↔ t.get? key = o.map f := by
  rw [optional?_eq_some_iff]
  cases o with
  | none => simp [habsent]
  | some a => simp [hvalid]

/-! ### Going on with a value -/

lemma bind_eq_valid_iff {r : Reading α} {f : α → Reading β} {b : β} :
    r.bind f = .valid b ↔ ∃ a, r = .valid a ∧ f a = .valid b := by
  cases r <;> simp [bind]

lemma bind_eq_absent_iff {r : Reading α} {f : α → Reading β} (hf : ∀ a, f a ≠ .absent) :
    r.bind f = .absent ↔ r = .absent := by
  cases r <;> simp [bind, hf]

lemma convert_eq_valid_iff {r : Reading α} {f : α → Except ConversionError β} {b : β} :
    r.convert f = .valid b ↔ ∃ a, r = .valid a ∧ f a = .ok b := by
  rw [convert, bind_eq_valid_iff]
  refine exists_congr fun a => and_congr_right fun _ => ?_
  cases f a <;> simp

end Reading

/-! ### Conversions of texts -/

namespace Conversion

lemma bitRange_eq_ok_iff {text : String} {range : BitRange} :
    bitRange text = .ok range ↔ BitRange.read text true = .ok range := by
  unfold bitRange
  cases BitRange.read text true <;> simp [Except.mapError]

lemma addresses_eq_ok_iff {text : String} {addresses : Nat × Nat} :
    Conversion.addresses text = .ok addresses ↔ AddressTemplate.expand text = .ok addresses := by
  unfold Conversion.addresses
  cases AddressTemplate.expand text <;> simp [Except.mapError]

lemma access_eq_ok_iff {text : String} {mode : AccessMode} :
    Conversion.access text = .ok mode ↔ AccessMode.ofText? text = some mode := by
  unfold Conversion.access
  cases AccessMode.ofText? text <;> simp

end Conversion

/-! ### Values by type -/

namespace Table

variable {t : Table} {key : String}

lemma has_eq_false_iff : t.has key = false ↔ t.get? key = none := by
  simp [has]

lemma value_eq_valid_iff {v : Value} : t.value key = .valid v ↔ t.get? key = some v := by
  unfold value
  cases t.get? key <;> simp

lemma value_eq_absent_iff : t.value key = .absent ↔ t.get? key = none := by
  unfold value
  cases t.get? key <;> simp

lemma typed_eq_valid_iff {wanted : String} {take : Value → Option α} {a : α} :
    t.typed key wanted take = .valid a ↔ ∃ v, t.get? key = some v ∧ take v = some a := by
  rw [typed, Reading.bind_eq_valid_iff]
  refine exists_congr fun v => and_congr value_eq_valid_iff ?_
  cases take v <;> simp

lemma typed_eq_absent_iff {wanted : String} {take : Value → Option α} :
    t.typed key wanted take = .absent ↔ t.get? key = none := by
  rw [typed, Reading.bind_eq_absent_iff, value_eq_absent_iff]
  intro v
  cases take v <;> simp

lemma text_eq_valid_iff {s : String} : t.text key = .valid s ↔ t.get? key = some (.text s) := by
  rw [text, typed_eq_valid_iff]
  constructor
  · rintro ⟨v, hv, hs⟩
    cases v <;> simp_all
  · intro h
    exact ⟨_, h, rfl⟩

lemma text_eq_absent_iff : t.text key = .absent ↔ t.get? key = none := typed_eq_absent_iff

lemma boolean_eq_valid_iff {b : Bool} :
    t.boolean key = .valid b ↔ t.get? key = some (.boolean b) := by
  rw [boolean, typed_eq_valid_iff]
  constructor
  · rintro ⟨v, hv, hb⟩
    cases v <;> simp_all
  · intro h
    exact ⟨_, h, rfl⟩

lemma integer_eq_valid_iff {n : Int} :
    t.integer key = .valid n ↔ t.get? key = some (.integer n) := by
  rw [integer, typed_eq_valid_iff]
  constructor
  · rintro ⟨v, hv, hn⟩
    cases v <;> simp_all
  · intro h
    exact ⟨_, h, rfl⟩

lemma table_eq_valid_iff {entries : Table} :
    t.table key = .valid entries ↔ t.get? key = some (.table entries) := by
  rw [table, typed_eq_valid_iff]
  constructor
  · rintro ⟨v, hv, hn⟩
    cases v <;> simp_all
  · intro h
    exact ⟨_, h, rfl⟩

lemma array_eq_valid_iff {items : List Value} :
    t.array key = .valid items ↔ t.get? key = some (.array items) := by
  rw [array, typed_eq_valid_iff]
  constructor
  · rintro ⟨v, hv, hn⟩
    cases v <;> simp_all
  · intro h
    exact ⟨_, h, rfl⟩

/-! ### Values by content -/

lemma tablesOfItems_eq_ok_iff {items : List Value} {ts : List Table} :
    tablesOfItems items = .ok ts ↔ items = ts.map .table := by
  induction items generalizing ts with
  | nil => cases ts <;> simp [tablesOfItems]
  | cons item items ih =>
    cases item with
    | table entries =>
      cases ts with
      | nil => cases h : tablesOfItems items <;> simp [tablesOfItems, h, Except.map]
      | cons u us =>
        rw [List.map_cons, List.cons.injEq, ← ih]
        cases h : tablesOfItems items <;> simp [tablesOfItems, h, Except.map]
    | _ => cases ts <;> simp [tablesOfItems]

lemma tables_eq_valid_iff {ts : List Table} :
    t.tables key = .valid ts ↔ t.get? key = some (.array (ts.map .table)) := by
  rw [tables, Reading.bind_eq_valid_iff]
  constructor
  · rintro ⟨items, hi, ht⟩
    rw [array_eq_valid_iff] at hi
    have hok : tablesOfItems items = .ok ts := by
      cases h : tablesOfItems items <;> simp_all
    rw [hi, tablesOfItems_eq_ok_iff.mp hok]
  · intro h
    refine ⟨ts.map .table, array_eq_valid_iff.mpr h, ?_⟩
    rw [tablesOfItems_eq_ok_iff.mpr rfl]

lemma tables_eq_absent_iff : t.tables key = .absent ↔ t.get? key = none := by
  rw [tables, Reading.bind_eq_absent_iff, array, typed_eq_absent_iff]
  intro items
  cases tablesOfItems items <;> simp

lemma unsigned_eq_valid_iff {maximum n : Int} :
    t.unsigned key maximum = .valid n ↔
      t.get? key = some (.integer n) ∧ 0 ≤ n ∧ n ≤ maximum := by
  rw [unsigned, Reading.bind_eq_valid_iff]
  constructor
  · rintro ⟨m, hm, hn⟩
    split_ifs at hn with hneg hmax
    cases hn
    exact ⟨integer_eq_valid_iff.mp hm, by omega, by omega⟩
  · rintro ⟨hm, hneg, hmax⟩
    refine ⟨n, integer_eq_valid_iff.mpr hm, ?_⟩
    rw [if_neg (by omega), if_neg (by omega)]

lemma unsigned_eq_absent_iff {maximum : Int} :
    t.unsigned key maximum = .absent ↔ t.get? key = none := by
  rw [unsigned, Reading.bind_eq_absent_iff, integer, typed_eq_absent_iff]
  intro n
  split_ifs <;> simp

lemma name_eq_valid_iff {s : String} :
    t.name key = .valid s ↔ t.get? key = some (.text s) ∧ Name.isIdentifier s = true := by
  rw [name, Reading.bind_eq_valid_iff]
  constructor
  · rintro ⟨s', hs', hs⟩
    split_ifs at hs with hid
    cases hs
    exact ⟨text_eq_valid_iff.mp hs', hid⟩
  · rintro ⟨hs, hid⟩
    exact ⟨s, text_eq_valid_iff.mpr hs, if_pos hid⟩

lemma name_eq_absent_iff : t.name key = .absent ↔ t.get? key = none := by
  rw [name, Reading.bind_eq_absent_iff, text_eq_absent_iff]
  intro s
  split_ifs <;> simp

lemma convertedText_eq_valid_iff {f : String → Except ConversionError α} {a : α} :
    t.convertedText key f = .valid a ↔ ∃ s, t.get? key = some (.text s) ∧ f s = .ok a := by
  simp only [convertedText, Reading.convert_eq_valid_iff, text_eq_valid_iff]

lemma converted_eq_valid_iff {f : Value → Except ConversionError α} {a : α} :
    t.converted key f = .valid a ↔ ∃ v, t.get? key = some v ∧ f v = .ok a := by
  simp only [converted, Reading.convert_eq_valid_iff, value_eq_valid_iff]

lemma converted_eq_absent_iff {f : Value → Except ConversionError α} :
    t.converted key f = .absent ↔ t.get? key = none := by
  rw [converted, Reading.convert, Reading.bind_eq_absent_iff, value_eq_absent_iff]
  intro v
  cases f v <;> simp

lemma convertedText_eq_absent_iff {f : String → Except ConversionError α} :
    t.convertedText key f = .absent ↔ t.get? key = none := by
  rw [convertedText, Reading.convert, Reading.bind_eq_absent_iff, text_eq_absent_iff]
  intro s
  cases f s <;> simp

/-! ### Keys that may be absent -/

lemma text_optional?_eq_some_iff {o : Option String} :
    (t.text key).optional? = some o ↔ t.get? key = o.map .text :=
  Reading.optional?_eq_some_iff_get? text_eq_absent_iff fun _ => text_eq_valid_iff

lemma boolean_optional?_eq_some_iff {o : Option Bool} :
    (t.boolean key).optional? = some o ↔ t.get? key = o.map .boolean :=
  Reading.optional?_eq_some_iff_get? typed_eq_absent_iff fun _ => boolean_eq_valid_iff

lemma tables_optional?_eq_some_iff {o : Option (List Table)} :
    (t.tables key).optional? = some o ↔ t.get? key = o.map fun ts => .array (ts.map .table) :=
  Reading.optional?_eq_some_iff_get? tables_eq_absent_iff fun _ => tables_eq_valid_iff

lemma name_optional?_eq_some_iff {o : Option String} :
    (t.name key).optional? = some o ↔
      t.get? key = o.map .text ∧ ∀ s ∈ o, Name.isIdentifier s = true := by
  rw [Reading.optional?_eq_some_iff]
  cases o with
  | none => simp [name_eq_absent_iff]
  | some s => simp [name_eq_valid_iff]

end Table

end RegisterMap
