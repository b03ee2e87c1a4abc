import Mathlib.Data.List.Forall2
import Mathlib.Data.List.Perm.Basic
import RegisterMap.Proofs.Reading

/-!
# The order of keys

Two values are the same up to the order of keys if one comes of the other when the entries of
tables are put into another order, at any depth. A key of such tables is read alike: it is absent
from both of them, or unusable in both, or it has values that are again the same up to the order of
keys. What was found of an unusable value may differ, as it is written out in the order of its keys.
-/

namespace RegisterMap

variable {α β γ δ : Type}

/-! ### Values in another order -/

/-- Values that differ only in the order of the keys of tables, at any depth. The keys of a table
are distinct, and the items of an array keep their order. -/
inductive Value.Reordered : Value → Value → Prop where
  | text (s : String) : Reordered (.text s) (.text s)
  | integer (n : Int) : Reordered (.integer n) (.integer n)
  | boolean (b : Bool) : Reordered (.boolean b) (.boolean b)
  | float (x : Double) : Reordered (.float x) (.float x)
  | moment (m : Moment) : Reordered (.moment m) (.moment m)
  | array {items items' : List Value} (hitems : List.Forall₂ Reordered items items') :
    Reordered (.array items) (.array items')
  | table {entries permuted entries' : List (String × Value)}
    (hdistinct : (entries.map Prod.fst).Nodup) (hperm : entries.Perm permuted)
    (hkeys : permuted.map Prod.fst = entries'.map Prod.fst)
    (hvalues : List.Forall₂ Reordered (permuted.map Prod.snd) (entries'.map Prod.snd)) :
    Reordered (.table entries) (.table entries')

/-- Tables that differ only in the order of their keys and of those of tables inside them. -/
def Table.Reordered (t t' : Table) : Prop := Value.Reordered (.table t) (.table t')

/-! ### Looking up keys -/

namespace Table

variable {t t' u : Table} {key : String}

/-- Entries with the same key whose values are the same up to the order of keys. -/
def SameEntry (entry entry' : String × Value) : Prop :=
  entry.1 = entry'.1 ∧ entry.2.Reordered entry'.2

lemma forall₂_sameEntry (hkeys : t.map Prod.fst = t'.map Prod.fst)
    (hvalues : List.Forall₂ Value.Reordered (t.map Prod.snd) (t'.map Prod.snd)) :
    List.Forall₂ SameEntry t t' := by
  induction t generalizing t' with
  | nil =>
    rw [List.map_eq_nil_iff.mp hkeys.symm]
    exact .nil
  | cons entry t ih =>
    cases t' with
    | nil => cases hkeys
    | cons entry' t' =>
      obtain ⟨hkey, hkeys⟩ := List.cons_eq_cons.mp hkeys
      cases hvalues with
      | cons hvalue hvalues => exact .cons ⟨hkey, hvalue⟩ (ih hkeys hvalues)

/-- The entries of one of two tables in the order of the other one. -/
lemma Reordered.exists_perm (h : t.Reordered t') :
    t.keys.Nodup ∧ ∃ u, t.Perm u ∧ List.Forall₂ SameEntry u t' := by
  cases h with
  | table hdistinct hperm hkeys hvalues =>
    exact ⟨hdistinct, _, hperm, forall₂_sameEntry hkeys hvalues⟩

lemma get?_cons_self (key : String) (v : Value) (t : Table) :
    get? ((key, v) :: t) key = some v := by
  simp [get?]

lemma get?_cons_of_ne {other : String} (h : key ≠ other) (v : Value) (t : Table) :
    get? ((other, v) :: t) key = get? t key := by
  rw [get?, List.lookup_cons, beq_eq_false_iff_ne.mpr h]
  rfl

lemma get?_eq_some_iff (hdistinct : t.keys.Nodup) {v : Value} :
    t.get? key = some v ↔ (key, v) ∈ t := by
  induction t with
  | nil => simp [get?]
  | cons entry t ih =>
    obtain ⟨other, w⟩ := entry
    obtain ⟨hnew, hrest⟩ := List.nodup_cons.mp hdistinct
    by_cases heq : key = other
    · subst heq
      have hnot : (key, v) ∉ t := fun hmem => hnew (List.mem_map.mpr ⟨_, hmem, rfl⟩)
      rw [get?_cons_self, List.mem_cons, or_iff_left hnot]
      simp [eq_comm]
    · rw [get?_cons_of_ne heq, List.mem_cons, ih hrest]
      simp [heq]

/-- In a table with distinct keys, each key is found wherever it stands. -/
lemma get?_perm (hdistinct : t.keys.Nodup) (hperm : t.Perm u) : t.get? key = u.get? key := by
  have hdistinct' : u.keys.Nodup := (hperm.map Prod.fst).nodup_iff.mp hdistinct
  ext v
  rw [get?_eq_some_iff hdistinct, get?_eq_some_iff hdistinct', hperm.mem_iff]

lemma get?_forall₂ (h : List.Forall₂ SameEntry t t') :
    Option.Rel Value.Reordered (t.get? key) (t'.get? key) := by
  induction h with
  | nil => exact .none
  | @cons entry entry' _ _ hentry _ ih =>
    obtain ⟨name, v⟩ := entry
    obtain ⟨name', v'⟩ := entry'
    obtain ⟨rfl, hv⟩ := hentry
    by_cases heq : key = name
    · subst heq
      rw [get?_cons_self, get?_cons_self]
      exact .some hv
    · rwa [get?_cons_of_ne heq, get?_cons_of_ne heq]

lemma Reordered.get? (h : t.Reordered t') (key : String) :
    Option.Rel Value.Reordered (t.get? key) (t'.get? key) := by
  obtain ⟨hdistinct, u, hperm, hentries⟩ := h.exists_perm
  rw [get?_perm hdistinct hperm]
  exact get?_forall₂ hentries

lemma Reordered.has_eq (h : t.Reordered t') (key : String) : t.has key = t'.has key := by
  have hget := h.get? key
  unfold has
  generalize t.get? key = v, t'.get? key = v' at hget
  cases hget <;> rfl

lemma Reordered.keys_perm (h : t.Reordered t') : t.keys.Perm t'.keys := by
  cases h with
  | table _ hperm hkeys _ => exact (hperm.map Prod.fst).trans (.of_eq hkeys)

lemma Reordered.unknownKeys (h : t.Reordered t') {kind : TableKind} {path : Path}
    {allowed : List String} : t.unknownKeyProblems kind path allowed = [] ↔
      t'.unknownKeyProblems kind path allowed = [] := by
  simp only [unknownKeyProblems, List.map_eq_nil_iff, List.filter_eq_nil_iff, h.keys_perm.mem_iff]

end Table

/-! ### Readings alike -/

/-- Readings that are both absent, both invalid, or both valid with values in a relation. -/
inductive Reading.Alike (R : α → β → Prop) : Reading α → Reading β → Prop where
  | absent : Alike R .absent .absent
  | invalid (fault fault' : Fault) : Alike R (.invalid fault) (.invalid fault')
  | valid {a : α} {b : β} (h : R a b) : Alike R (.valid a) (.valid b)

namespace Reading.Alike

variable {R : α → β → Prop} {S : γ → δ → Prop} {r r' : Reading α} {s : Reading β}
  {table : TableKind} {path : Path} {key : String}

lemma bind (h : Alike R r s) {f : α → Reading γ} {g : β → Reading δ}
    (hfg : ∀ a b, R a b → Alike S (f a) (g b)) : Alike S (r.bind f) (s.bind g) := by
  cases h with
  | absent => exact .absent
  | invalid fault fault' => exact .invalid fault fault'
  | valid h => exact hfg _ _ h

lemma convert (h : Alike R r s) {f : α → Except ConversionError γ}
    {g : β → Except ConversionError γ} (hfg : ∀ a b, R a b → (f a).toOption = (g b).toOption) :
    Alike Eq (r.convert f) (s.convert g) := by
  refine h.bind fun a b hab => ?_
  have heq := hfg a b hab
  cases hf : f a <;> cases hg : g b <;> rw [hf, hg] at heq
  · exact .invalid _ _
  · cases heq
  · cases heq
  · exact .valid (Option.some.inj heq)

lemma refl (r : Reading α) : Alike Eq r r := by
  cases r with
  | absent => exact .absent
  | invalid fault => exact .invalid fault fault
  | valid a => exact .valid rfl

lemma bind_same (h : Alike Eq r r') (f : α → Reading γ) : Alike Eq (r.bind f) (r'.bind f) :=
  h.bind fun a _ hab => hab ▸ refl (f a)

/-- Going on without the value itself does not depend on it. -/
lemma value?_bind (h : Alike R r s) (o : Option γ) :
    (r.value?.bind fun _ => o) = s.value?.bind fun _ => o := by
  cases h <;> rfl

lemma optional?_bind (h : Alike R r s) (o : Option γ) :
    (r.optional?.bind fun _ => o) = s.optional?.bind fun _ => o := by
  cases h <;> rfl

lemma value?_eq (h : Alike Eq r r') : r.value? = r'.value? := by
  cases h <;> simp_all [value?]

lemma optional?_eq (h : Alike Eq r r') : r.optional? = r'.optional? := by
  cases h <;> simp_all [optional?]

lemma orDefault?_eq (h : Alike Eq r r') (default : Option α) :
    r.orDefault? default = r'.orDefault? default := by
  cases h <;> simp_all [orDefault?]

lemma problems_iff (h : Alike R r s) :
    r.problems table path key = [] ↔ s.problems table path key = [] := by
  cases h <;> simp [problems]

lemma requiredProblems_iff (h : Alike R r s) :
    r.requiredProblems table path key = [] ↔ s.requiredProblems table path key = [] := by
  cases h <;> simp [requiredProblems]

end Reading.Alike

/-! ### Reading tables in another order -/

namespace Table.Reordered

variable {t t' : Table}

lemma value (h : t.Reordered t') (key : String) :
    Reading.Alike Value.Reordered (t.value key) (t'.value key) := by
  have hget := h.get? key
  unfold Table.value
  generalize t.get? key = v, t'.get? key = v' at hget
  cases hget with
  | none => exact .absent
  | some hv => exact .valid hv

lemma typed {R : α → α → Prop} (h : t.Reordered t') (key wanted : String) {take : Value → Option α}
    (htake : ∀ v v', v.Reordered v' → Option.Rel R (take v) (take v')) :
    Reading.Alike R (t.typed key wanted take) (t'.typed key wanted take) := by
  refine (h.value key).bind fun v v' hv => ?_
  have hrel := htake v v' hv
  generalize take v = a, take v' = a' at hrel
  cases hrel with
  | none => exact .invalid _ _
  | some ha => exact .valid ha

lemma text (h : t.Reordered t') (key : String) :
    Reading.Alike Eq (t.text key) (t'.text key) := by
  refine h.typed key _ fun v v' hv => ?_
  cases hv with
  | text => exact .some rfl
  | _ => exact .none

lemma boolean (h : t.Reordered t') (key : String) :
    Reading.Alike Eq (t.boolean key) (t'.boolean key) := by
  refine h.typed key _ fun v v' hv => ?_
  cases hv with
  | boolean => exact .some rfl
  | _ => exact .none

lemma integer (h : t.Reordered t') (key : String) :
    Reading.Alike Eq (t.integer key) (t'.integer key) := by
  refine h.typed key _ fun v v' hv => ?_
  cases hv with
  | integer => exact .some rfl
  | _ => exact .none

lemma table (h : t.Reordered t') (key : String) :
    Reading.Alike Table.Reordered (t.table key) (t'.table key) := by
  refine h.typed key _ fun v v' hv => ?_
  cases hv with
  | table hdistinct hperm hkeys hvalues =>
    exact .some (Value.Reordered.table hdistinct hperm hkeys hvalues)
  | _ => exact .none

lemma array (h : t.Reordered t') (key : String) :
    Reading.Alike (List.Forall₂ Value.Reordered) (t.array key) (t'.array key) := by
  refine h.typed key _ fun v v' hv => ?_
  cases hv with
  | array hitems => exact .some hitems
  | _ => exact .none

lemma tablesOfItems {items items' : List Value} (h : List.Forall₂ Value.Reordered items items') :
    Option.Rel (List.Forall₂ Table.Reordered) (Table.tablesOfItems items).toOption
      (Table.tablesOfItems items').toOption := by
  induction h with
  | nil => exact .some .nil
  | @cons item item' items items' hitem _ ih =>
    cases hitem with
    | table hdistinct hperm hkeys hvalues =>
      unfold Table.tablesOfItems
      cases hts : Table.tablesOfItems items <;> cases hts' : Table.tablesOfItems items' <;>
        rw [hts, hts'] at ih <;> cases ih
      · exact .none
      · exact .some (.cons (Value.Reordered.table hdistinct hperm hkeys hvalues) ‹_›)
    | _ => exact .none

lemma tables (h : t.Reordered t') (key : String) :
    Reading.Alike (List.Forall₂ Table.Reordered) (t.tables key) (t'.tables key) := by
  refine (h.array key).bind fun items items' hitems => ?_
  have hrel := tablesOfItems hitems
  cases hts : Table.tablesOfItems items <;> cases hts' : Table.tablesOfItems items' <;>
    rw [hts, hts'] at hrel <;> cases hrel
  · exact .invalid _ _
  · exact .valid ‹_›

lemma unsigned (h : t.Reordered t') (key : String) (maximum : Int) :
    Reading.Alike Eq (t.unsigned key maximum) (t'.unsigned key maximum) :=
  (h.integer key).bind_same _

lemma name (h : t.Reordered t') (key : String) :
    Reading.Alike Eq (t.name key) (t'.name key) :=
  (h.text key).bind_same _

lemma convertedText (h : t.Reordered t') (key : String) (f : String → Except ConversionError α) :
    Reading.Alike Eq (t.convertedText key f) (t'.convertedText key f) :=
  (h.text key).convert fun s s' hs => by rw [hs]

lemma convertedSize (h : t.Reordered t') (key : String) :
    Reading.Alike Eq (t.converted key Conversion.size) (t'.converted key Conversion.size) := by
  refine (h.value key).convert fun v v' hv => ?_
  cases hv <;> rfl

lemma convertedAddressSize (h : t.Reordered t') (key : String) :
    Reading.Alike Eq (t.converted key Conversion.addressSize)
      (t'.converted key Conversion.addressSize) := by
  refine (h.value key).convert fun v v' hv => ?_
  cases hv <;> rfl

end Table.Reordered

end RegisterMap
