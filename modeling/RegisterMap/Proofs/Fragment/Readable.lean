import RegisterMap.Proofs.Fragment.Part
import RegisterMap.Proofs.Fragment.Text
import RegisterMap.Proofs.Identifiers

/-!
# Fragments that can be read

The keys of a fragment are bare and distinct, and its literals are read as what they denote: numbers
are not negative, and texts have no control characters, apart from tabs and line feeds.
-/

namespace RegisterMap

open Toml

/-! ### Texts -/

/-- Whether all characters of a text can be written. -/
def IsWritableText (text : String) : Prop := ∀ c ∈ text.toList, IsWritable c

lemma isWritable_of_isFollowing {c : Char} (h : Name.isFollowing c = true) : IsWritable c := by
  have hbounds := Name.toNat_bounds_of_isFollowing h
  exact .inl (isPlain_of_toNat (by omega) (by omega))

lemma isWritableText_of_isIdentifier {name : String} (h : Name.isIdentifier name = true) :
    IsWritableText name := by
  intro c hc
  rcases Text.eq_beforeFinalBreak_or name.toList with hname | hname
  · rw [hname] at hc
    exact isWritable_of_isFollowing (Name.isFollowing_of_isWord h c hc)
  · rw [hname, List.mem_append, List.mem_singleton] at hc
    rcases hc with hc | rfl
    · exact isWritable_of_isFollowing (Name.isFollowing_of_isWord h c hc)
    · exact .inr rfl

lemma isWritable_of_mem_decimal {n : Nat} {c : Char} (h : c ∈ Nat.toDigits 10 n) : IsWritable c :=
  .inl <| isPlain_of_isHexDigit (Numeral.isHexDigit_of_mem_toDigits (by omega) (by omega) h)

lemma isWritableText_range (range : BitRange) : IsWritableText range.text := by
  intro c hc
  rw [BitRange.toList_text] at hc
  split_ifs at hc
  · exact isWritable_of_mem_decimal hc
  · rw [List.intercalate_cons_cons, List.intercalate_singleton, List.mem_append, List.mem_append,
      List.mem_singleton] at hc
    rcases hc with (hc | rfl) | hc
    · exact isWritable_of_mem_decimal hc
    · exact .inl rfl
    · exact isWritable_of_mem_decimal hc

/-! ### Entries -/

/-- Entries are readable if their keys are among given ones, in order, and their literals are. -/
lemma areReadable_of_sublist (keys : List String) {entries : Entries}
    (hkeys : (entries.map Prod.fst).Sublist keys) (hbare : ∀ key ∈ keys, IsBare key)
    (hnodup : keys.Nodup) (hliterals : ∀ entry ∈ entries, Toml.IsReadable entry.2) :
    AreReadable entries where
  isBare _ hentry := hbare _ (hkeys.subset (List.mem_map_of_mem hentry))
  isReadable := hliterals
  nodup := hkeys.nodup hnodup

namespace Fragment

/-- The entry for a description is readable if the description can be written. -/
lemma isReadable_of_mem_description {description : Option String}
    (h : ∀ text ∈ description, IsWritableText text) {entry : String × Literal}
    (hentry : entry ∈ (nonemptyText description).toList.map fun text =>
      ("description", Literal.text text)) : Toml.IsReadable entry.2 := by
  obtain ⟨text, htext, rfl⟩ := List.mem_map.mp hentry
  exact h text (mem_of_mem_nonemptyText (Option.mem_toList.mp htext))

lemma areReadable_ofEnumValue {v : EnumValue} (hname : Name.isIdentifier v.name = true)
    (hnonneg : 0 ≤ v.value) (hdescription : ∀ text ∈ v.description, IsWritableText text) :
    AreReadable (ofEnumValue v) := by
  have hname := isWritableText_of_isIdentifier hname
  rw [ofEnumValue_eq]
  refine areReadable_of_sublist ["value", "name", "description"] ?_ (by decide)
    (by decide) ?_
  · cases nonemptyText v.description <;> simp
  · rw [List.forall_mem_append]
    refine ⟨?_, fun entry => isReadable_of_mem_description hdescription⟩
    rw [List.forall_mem_cons, List.forall_mem_singleton]
    exact ⟨hnonneg, hname⟩

lemma areReadable_ofEnum {e : RegisterEnum} (h : e.IsReadable)
    (hdescription : ∀ text ∈ e.description, IsWritableText text) :
    AreReadable (ofEnum e).entries := by
  have hname := isWritableText_of_isIdentifier h.isIdentifier_name
  rw [ofEnum_entries_eq]
  refine areReadable_of_sublist ["name", "description", "bit"] ?_ (by decide)
    (by decide) ?_
  · cases nonemptyText e.description <;> simp
  · rw [List.forall_mem_append, List.forall_mem_append, List.forall_mem_singleton,
      List.forall_mem_singleton]
    exact ⟨⟨hname, fun entry => isReadable_of_mem_description hdescription⟩,
      isWritableText_range e.range⟩

/-- The fragment of an enumeration is readable if the descriptions in it can be written. -/
lemma isReadable_ofEnum {e : RegisterEnum} (h : e.IsReadable)
    (hdescription : ∀ text ∈ e.description, IsWritableText text)
    (hvalues : ∀ v ∈ e.values, ∀ text ∈ v.description, IsWritableText text) :
    (ofEnum e).IsReadable where
  entries := areReadable_ofEnum h hdescription
  values_new := by
    rw [ofEnum_entries_eq]
    cases nonemptyText e.description <;> simp [Entries.table, Table.keys]
  values := by
    intro entries hentries
    obtain ⟨v, hv, rfl⟩ := List.mem_map.mp hentries
    exact ⟨by simp [ofEnumValue], areReadable_ofEnumValue (h.isIdentifier_valueName v hv)
      (h.value_nonneg v hv) (hvalues v hv)⟩

lemma areReadable_ofBitField {f : BitField} (h : f.IsReadable)
    (hdescription : ∀ text ∈ f.description, IsWritableText text) :
    ofBitField f ≠ [] ∧ AreReadable (ofBitField f) := by
  obtain ⟨range, name, description⟩ := f
  have hrange := isWritableText_range range
  cases name with
  | none =>
    refine ⟨by simp [ofBitField], areReadable_of_sublist ["bit", "reserved"]
      (.refl _) (by decide) (by decide) ?_⟩
    show ∀ entry ∈ [("bit", Literal.text range.text), ("reserved", Literal.boolean true)], _
    rw [List.forall_mem_cons, List.forall_mem_singleton]
    exact ⟨hrange, trivial⟩
  | some name =>
    have hname := isWritableText_of_isIdentifier (h.isIdentifier_name name rfl)
    rw [ofBitField_some]
    refine ⟨by simp, areReadable_of_sublist ["bit", "name", "description"] ?_ (by decide)
      (by decide) ?_⟩
    · cases nonemptyText description <;> simp
    · rw [List.forall_mem_append]
      refine ⟨?_, fun entry => isReadable_of_mem_description hdescription⟩
      rw [List.forall_mem_cons, List.forall_mem_singleton]
      exact ⟨hrange, hname⟩

end Fragment

end RegisterMap
